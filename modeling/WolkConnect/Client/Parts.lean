import WolkConnect.Client.Client
import WolkConnect.Transition.Erasure

/-! Every run of the whole client is, for each of its services, a run of that service's own
machine. -/
namespace WolkConnect
open Transition

variable {H : Host} {σ : Type}

namespace ClientOutput

def ofWolk : ClientOutput → Option WolkOutput
  | .wolk o => some o
  | _ => none

def ofFiles : ClientOutput → Option DeviceOutput
  | .files o => some o
  | _ => none

def ofFirmware : ClientOutput → Option FirmwareOutput
  | .firmware o => some o
  | _ => none

def ofKeepAlive : ClientOutput → Option KeepAliveOutput
  | .keepAlive o => some o
  | _ => none

def ofInbound : ClientOutput → Option (Listener × Message)
  | .handed listener message => some (listener, message)
  | _ => none

end ClientOutput

namespace Client

abbrev ClientMoment (H : Host) (σ : Type) := Moment (Client H σ) ClientEvent ClientOutput

variable (W : ClientConfig H σ)

/-- The message that the moment hands over to the listener. -/
def delivered (listener : Listener) (m : ClientMoment H σ) : Option Message :=
  match m.event, m.state.inbound.commandBuffer with
  | .deliver, (l, message) :: _ => if l = listener then some message else none
  | _, _ => none

def wolkPart : Part (Client H σ) (Wolk σ) ClientEvent WolkEvent ClientOutput WolkOutput where
  view := Client.wolk
  act m :=
    match m.event with
    | .call c currentRtc => some (.call c currentRtc)
    | .deliver => ((delivered .dataService m).bind
        (DataService.commandOf W.dataProtocol W.wolk.deviceKey)).map .messageReceived
    | .handle => some .handle
    | .connectionLost => some .connectionLost
    | .reconnect => some .reconnect
    | .execute a _ => some (.execute a)
    | .work => some .work
    | _ => none
  output := ClientOutput.ofWolk

def filesPart :
    Part (Client H σ) (QueuedDevice H) ClientEvent DeviceEvent ClientOutput DeviceOutput where
  view := Client.files
  act m :=
    match m.event with
    | .deliver => (delivered .fileDownloadService m).map .messageReceived
    | .work => ClientConfig.filesCall (m.output.filterMap ClientOutput.ofWolk)
    | .files e => some e
    | .announce _ =>
      match m.state.firmware.worker with
      | .marked firmwareFile _ => some (.getFileInfo firmwareFile)
      | _ => none
    | _ => none
  output := ClientOutput.ofFiles

def firmwarePart : Part (Client H σ) FirmwareUpdateService ClientEvent FirmwareEvent ClientOutput
    FirmwareOutput where
  view := Client.firmware
  act m :=
    match m.event with
    | .deliver => ((delivered .firmwareUpdateService m).bind
        (FirmwareUpdateService.commandOf W.firmwareProtocol)).map .messageReceived
    | .execute _ f => ClientConfig.firmwareCall f (m.output.filterMap ClientOutput.ofWolk)
    | .firmware e => some e
    | .announce a =>
      match m.state.firmware.worker with
      | .marked firmwareFile _ =>
        some (.announce (m.state.files.getFileInfo W.files firmwareFile).1 a)
      | _ => none
    | _ => none
  output := ClientOutput.ofFirmware

def keepAlivePart :
    Part (Client H σ) KeepAliveService ClientEvent KeepAliveEvent ClientOutput KeepAliveOutput where
  view := Client.keepAlive
  act m :=
    match m.event with
    | .deliver => (delivered .keepAliveService m).map .messageReceived
    | .connectionLost => if W.wolk.keepAliveService then some .disconnected else none
    | .execute _ _ => W.keepAliveCall (m.output.filterMap ClientOutput.ofWolk)
    | .ping => some .timerExpired
    | _ => none
  output := ClientOutput.ofKeepAlive

def inboundPart : Part (Client H σ) (InboundState Listener) ClientEvent (InboundEvent Listener)
    ClientOutput (Listener × Message) where
  view s := ⟨s.inbound, fun _ => true⟩
  act m :=
    match m.event with
    | .messageReceived channel payload => some (.messageReceived channel payload)
    | .deliver => some .runCommand
    | _ => none
  output := ClientOutput.ofInbound

variable {W} {s s' s'' : Client H σ} {e : ClientEvent} {out out' : List ClientOutput}

/-- The services that are called on the way from `s` to `s'`, and with which events. -/
structure Calls (W : ClientConfig H σ) (s : Client H σ) (w : Option WolkEvent)
    (d : Option DeviceEvent) (f : Option FirmwareEvent) (k : Option KeepAliveEvent)
    (s' : Client H σ) (out : List ClientOutput) : Prop where
  wolk : stepIf (Wolk.step W.wolk) s.wolk w =
    some (s'.wolk, out.filterMap ClientOutput.ofWolk)
  files : stepIf (QueuedDevice.step W.files) s.files d =
    some (s'.files, out.filterMap ClientOutput.ofFiles)
  firmware : stepIf (FirmwareUpdateService.step W.firmware) s.firmware f =
    some (s'.firmware, out.filterMap ClientOutput.ofFirmware)
  keepAlive : stepIf (KeepAliveService.step W.statusProtocol W.wolk.deviceKey) s.keepAlive k =
    some (s'.keepAlive, out.filterMap ClientOutput.ofKeepAlive)
  inbound : s'.inbound = s.inbound
  handed : out.filterMap ClientOutput.ofInbound = []

section

open ClientOutput

theorem calls_wolk {w : WolkEvent} (h : s.stepWolk W w = some (s', out)) :
    Calls W s (some w) none none none s' out := by
  obtain ⟨⟨t, os⟩, ht, heq⟩ := Option.map_eq_some_iff.mp h
  obtain ⟨rfl, rfl⟩ := Prod.mk.inj heq
  constructor
  · simpa [stepIf, ofWolk, Function.comp_def] using ht
  · simp [stepIf, ofFiles, Function.comp_def]
  · simp [stepIf, ofFirmware, Function.comp_def]
  · simp [stepIf, ofKeepAlive, Function.comp_def]
  · rfl
  · simp [ofInbound]

theorem calls_files {d : Option DeviceEvent} (h : s.stepFiles W d = some (s', out)) :
    Calls W s none d none none s' out := by
  obtain ⟨⟨t, os⟩, ht, heq⟩ := Option.map_eq_some_iff.mp h
  obtain ⟨rfl, rfl⟩ := Prod.mk.inj heq
  constructor
  · simp [stepIf, ofWolk, Function.comp_def]
  · simpa [ofFiles, Function.comp_def] using ht
  · simp [stepIf, ofFirmware, Function.comp_def]
  · simp [stepIf, ofKeepAlive, Function.comp_def]
  · rfl
  · simp [ofInbound]

theorem calls_firmware {f : Option FirmwareEvent} (h : s.stepFirmware W f = some (s', out)) :
    Calls W s none none f none s' out := by
  obtain ⟨⟨t, os⟩, ht, heq⟩ := Option.map_eq_some_iff.mp h
  obtain ⟨rfl, rfl⟩ := Prod.mk.inj heq
  constructor
  · simp [stepIf, ofWolk, Function.comp_def]
  · simp [stepIf, ofFiles, Function.comp_def]
  · simpa [ofFirmware, Function.comp_def] using ht
  · simp [stepIf, ofKeepAlive, Function.comp_def]
  · rfl
  · simp [ofInbound]

theorem calls_keepAlive {k : Option KeepAliveEvent} (h : s.stepKeepAlive W k = some (s', out)) :
    Calls W s none none none k s' out := by
  obtain ⟨⟨t, os⟩, ht, heq⟩ := Option.map_eq_some_iff.mp h
  obtain ⟨rfl, rfl⟩ := Prod.mk.inj heq
  constructor
  · simp [stepIf, ofWolk, Function.comp_def]
  · simp [stepIf, ofFiles, Function.comp_def]
  · simp [stepIf, ofFirmware, Function.comp_def]
  · simpa [ofKeepAlive, Function.comp_def] using ht
  · rfl
  · simp [ofInbound]

theorem stepWolk_of_step {w : WolkEvent} {t : Wolk σ} {os : List WolkOutput}
    (h : s.wolk.step W.wolk w = some (t, os)) :
    s.stepWolk W w = some ({ s with wolk := t }, os.map .wolk) := by
  rw [stepWolk, h]
  rfl

/-- No service is called twice. -/
theorem Calls.trans {w w' : Option WolkEvent} {d d' : Option DeviceEvent}
    {f f' : Option FirmwareEvent} {k k' : Option KeepAliveEvent}
    (h : Calls W s w d f k s' out) (h' : Calls W s' w' d' f' k' s'' out')
    (hw : w = none ∨ w' = none) (hd : d = none ∨ d' = none) (hf : f = none ∨ f' = none)
    (hk : k = none ∨ k' = none) :
    Calls W s (w.or w') (d.or d') (f.or f') (k.or k') s'' (out ++ out') where
  wolk := by
    rw [List.filterMap_append]
    exact stepIf_or hw h.wolk h'.wolk
  files := by
    rw [List.filterMap_append]
    exact stepIf_or hd h.files h'.files
  firmware := by
    rw [List.filterMap_append]
    exact stepIf_or hf h.firmware h'.firmware
  keepAlive := by
    rw [List.filterMap_append]
    exact stepIf_or hk h.keepAlive h'.keepAlive
  inbound := h'.inbound.trans h.inbound
  handed := by rw [List.filterMap_append, h.handed, h'.handed, List.append_nil]

end

/-- What a step of the client is for each service. -/
structure Composed (W : ClientConfig H σ) (m : ClientMoment H σ) (s' : Client H σ) : Prop where
  wolk : stepIf (Wolk.step W.wolk) m.state.wolk ((wolkPart W).act m) =
    some (s'.wolk, m.output.filterMap ClientOutput.ofWolk)
  files : stepIf (QueuedDevice.step W.files) m.state.files (filesPart.act m) =
    some (s'.files, m.output.filterMap ClientOutput.ofFiles)
  firmware : stepIf (FirmwareUpdateService.step W.firmware) m.state.firmware
    ((firmwarePart W).act m) = some (s'.firmware, m.output.filterMap ClientOutput.ofFirmware)
  keepAlive : stepIf (KeepAliveService.step W.statusProtocol W.wolk.deviceKey) m.state.keepAlive
    ((keepAlivePart W).act m) = some (s'.keepAlive, m.output.filterMap ClientOutput.ofKeepAlive)
  inbound : stepIf (inboundMachine W.mqttTopicMatch W.wolk.deviceKey).step
    (inboundPart.view m.state) (inboundPart.act m) =
      some (inboundPart.view s', m.output.filterMap ClientOutput.ofInbound)

/-- A step that the message handler has no part in. -/
theorem Composed.of_calls
    (h : Calls W s ((wolkPart W).act ⟨s, e, out⟩) (filesPart.act ⟨s, e, out⟩)
      ((firmwarePart W).act ⟨s, e, out⟩) ((keepAlivePart W).act ⟨s, e, out⟩) s' out)
    (hinbound : inboundPart.act ⟨s, e, out⟩ = none) : Composed W ⟨s, e, out⟩ s' where
  wolk := h.wolk
  files := h.files
  firmware := h.firmware
  keepAlive := h.keepAlive
  inbound := by
    rw [hinbound, h.handed]
    simp [stepIf, inboundPart, h.inbound]

/-- A message is handed to its listener alone. -/
theorem composed_of_deliver (h : s.step W .deliver = some (s', out)) :
    Composed W ⟨s, .deliver, out⟩ s' := by
  simp only [step] at h
  split at h
  case h_2 => cases h
  case h_1 listener message rest hhandling hbuffer =>
    obtain ⟨⟨t, os⟩, ht, heq⟩ := Option.map_eq_some_iff.mp h
    obtain ⟨rfl, rfl⟩ := Prod.mk.inj heq
    have hcalls : Calls W { s with inbound := { s.inbound with commandBuffer := rest } }
        ((wolkPart W).act ⟨s, .deliver, .handed listener message :: os⟩)
        (filesPart.act ⟨s, .deliver, .handed listener message :: os⟩)
        ((firmwarePart W).act ⟨s, .deliver, .handed listener message :: os⟩)
        ((keepAlivePart W).act ⟨s, .deliver, .handed listener message :: os⟩) t os := by
      cases listener with
      | dataService =>
        simp only [receive] at ht
        split at ht
        · next c hc =>
          simp only [wolkPart, filesPart, firmwarePart, keepAlivePart, delivered, hbuffer]
          simpa [hc] using calls_wolk ht
        · next hc =>
          obtain ⟨rfl, rfl⟩ := Prod.mk.inj (Option.some.inj ht)
          simp only [wolkPart, filesPart, firmwarePart, keepAlivePart, delivered, hbuffer]
          simp [hc]
          exact ⟨rfl, rfl, rfl, rfl, rfl, rfl⟩
      | fileDownloadService =>
        simp only [wolkPart, filesPart, firmwarePart, keepAlivePart, delivered, hbuffer]
        exact calls_files ht
      | firmwareUpdateService =>
        simp only [wolkPart, filesPart, firmwarePart, keepAlivePart, delivered, hbuffer]
        exact calls_firmware ht
      | keepAliveService =>
        simp only [wolkPart, filesPart, firmwarePart, keepAlivePart, delivered, hbuffer]
        exact calls_keepAlive ht
    refine ⟨hcalls.wolk, hcalls.files, hcalls.firmware, hcalls.keepAlive, ?_⟩
    have hhanded : (ClientOutput.handed listener message :: os).filterMap ClientOutput.ofInbound =
        [(listener, message)] := by
      show (listener, message) :: os.filterMap ClientOutput.ofInbound = _
      rw [hcalls.handed]
    have hview : inboundPart.view t =
        ⟨{ s.inbound with commandBuffer := rest }, fun _ => true⟩ := by
      simp only [inboundPart, hcalls.inbound]
    rw [hhanded, hview]
    show (inboundMachine W.mqttTopicMatch W.wolk.deviceKey).step ⟨s.inbound, fun _ => true⟩
      .runCommand = _
    simp only [inboundMachine, hbuffer]
    rfl

theorem composed_of_step (h : s.step W e = some (s', out)) : Composed W ⟨s, e, out⟩ s' := by
  cases e with
  | call c currentRtc => exact .of_calls (calls_wolk h) rfl
  | messageReceived channel payload =>
    obtain ⟨rfl, rfl⟩ := Prod.mk.inj (Option.some.inj h)
    exact ⟨rfl, rfl, rfl, rfl, rfl⟩
  | deliver => exact composed_of_deliver h
  | handle => exact .of_calls (calls_wolk h) rfl
  | connectionLost =>
    simp only [step] at h
    obtain ⟨⟨t, os⟩, ht, hrest⟩ := Option.bind_eq_some_iff.mp h
    obtain ⟨⟨u, ks⟩, hu, heq⟩ := Option.map_eq_some_iff.mp hrest
    obtain ⟨rfl, rfl⟩ := Prod.mk.inj heq
    exact .of_calls ((calls_wolk ht).trans (calls_keepAlive hu) (.inr rfl) (.inl rfl) (.inl rfl)
      (.inl rfl)) rfl
  | reconnect => exact .of_calls (calls_wolk h) rfl
  | execute a f =>
    simp only [step] at h
    obtain ⟨⟨t, os⟩, ht, hrest⟩ := Option.bind_eq_some_iff.mp h
    obtain ⟨⟨u, ks⟩, hu, hrest⟩ := Option.bind_eq_some_iff.mp hrest
    obtain ⟨⟨v, fs⟩, hv, heq⟩ := Option.map_eq_some_iff.mp hrest
    obtain ⟨rfl, rfl⟩ := Prod.mk.inj heq
    have hcalls := ((calls_wolk (stepWolk_of_step ht)).trans (calls_keepAlive hu) (.inr rfl)
      (.inl rfl) (.inl rfl) (.inl rfl)).trans (calls_firmware hv) (.inr rfl) (.inl rfl) (.inl rfl)
      (.inr rfl)
    have hout : (os.map ClientOutput.wolk ++ ks ++ fs).filterMap ClientOutput.ofWolk = os := by
      have hwolk : t = v.wolk ∧ os = _ := Prod.mk.inj (Option.some.inj (ht.symm.trans hcalls.wolk))
      exact hwolk.2.symm
    refine .of_calls ?_ rfl
    simp only [firmwarePart, keepAlivePart, hout]
    simp only [Option.none_or, Option.or_none] at hcalls
    exact hcalls
  | work =>
    simp only [step] at h
    split at h
    · obtain ⟨⟨t, os⟩, ht, hrest⟩ := Option.bind_eq_some_iff.mp h
      obtain ⟨⟨u, ds⟩, hu, heq⟩ := Option.map_eq_some_iff.mp hrest
      obtain ⟨rfl, rfl⟩ := Prod.mk.inj heq
      have hcalls := (calls_wolk (stepWolk_of_step ht)).trans (calls_files hu) (.inr rfl)
        (.inl rfl) (.inl rfl) (.inl rfl)
      have hout : (os.map ClientOutput.wolk ++ ds).filterMap ClientOutput.ofWolk = os := by
        have hwolk : t = u.wolk ∧ os = _ :=
          Prod.mk.inj (Option.some.inj (ht.symm.trans hcalls.wolk))
        exact hwolk.2.symm
      refine .of_calls ?_ rfl
      simp only [filesPart, hout]
      simp only [Option.some_or, Option.none_or] at hcalls
      exact hcalls
    · cases h
  | ping => exact .of_calls (calls_keepAlive h) rfl
  | files ev =>
    simp only [step] at h
    split at h
    · exact .of_calls (calls_files h) rfl
    · cases h
  | firmware ev =>
    simp only [step] at h
    split at h
    · exact .of_calls (calls_firmware h) rfl
    · cases h
  | announce a =>
    simp only [step, announce] at h
    split at h
    · next firmwareFile installation hworker =>
      have hfiles : Calls W s none (some (.getFileInfo firmwareFile)) none none
          { s with files := (s.files.getFileInfo W.files firmwareFile).2 } [] :=
        calls_files (d := some (.getFileInfo firmwareFile)) rfl
      have hcalls := hfiles.trans (calls_firmware h) (.inl rfl) (.inr rfl) (.inl rfl) (.inl rfl)
      refine .of_calls ?_ rfl
      simp only [filesPart, firmwarePart, hworker]
      exact hcalls
    · cases h

theorem wolkPart_of (W : ClientConfig H σ) :
    (wolkPart W).Of (clientMachine W) (wolkMachine W.wolk) :=
  ⟨rfl, fun h => (composed_of_step h).wolk⟩

theorem filesPart_of (W : ClientConfig H σ) :
    filesPart.Of (clientMachine W) (deviceMachine W.files) :=
  ⟨rfl, fun h => (composed_of_step h).files⟩

theorem firmwarePart_of (W : ClientConfig H σ) :
    (firmwarePart W).Of (clientMachine W) (firmwareMachine W.firmware) :=
  ⟨rfl, fun h => (composed_of_step h).firmware⟩

theorem keepAlivePart_of (W : ClientConfig H σ) : (keepAlivePart W).Of (clientMachine W)
    (keepAliveMachine W.statusProtocol W.wolk.deviceKey) :=
  ⟨rfl, fun h => (composed_of_step h).keepAlive⟩

/-- The message handler starts with the listeners of `build`. -/
theorem inboundPart_of (W : ClientConfig H σ) : inboundPart.Of (clientMachine W)
    ((inboundMachine W.mqttTopicMatch W.wolk.deviceKey).startAt
      (inboundPart.view (construct W))) :=
  ⟨rfl, fun h => (composed_of_step h).inbound⟩

/-- However the services call each other, each of them does what it can do alone: its part of a run
of the client is a run of its own machine, with the same outputs. -/
theorem services_run_alone (W : ClientConfig H σ)
    {C : Machine.Condition (Client H σ) ClientEvent ClientOutput} {h : List (ClientMoment H σ)}
    {s : Client H σ} (hrun : (clientMachine W).Run C h s) :
    (wolkPart W).Follows (wolkMachine W.wolk) h s ∧
      filesPart.Follows (deviceMachine W.files) h s ∧
      (firmwarePart W).Follows (firmwareMachine W.firmware) h s ∧
      (keepAlivePart W).Follows (keepAliveMachine W.statusProtocol W.wolk.deviceKey) h s ∧
      inboundPart.Follows ((inboundMachine W.mqttTopicMatch W.wolk.deviceKey).startAt
        (inboundPart.view (construct W))) h s :=
  ⟨(wolkPart_of W).follows hrun, (filesPart_of W).follows hrun, (firmwarePart_of W).follows hrun,
    (keepAlivePart_of W).follows hrun, (inboundPart_of W).follows hrun⟩

/-- The client connects and gets a message; every service but that of the firmware has a part. -/
theorem services_run_alone_sample : ∃ h s, (clientMachine sampleClient).Run Machine.Free h s ∧
    (outputs h).length = 6 ∧
    (wolkMachine sampleClient.wolk).Run Machine.Free ((wolkPart sampleClient).project h) s.wolk ∧
    (deviceMachine sampleClient.files).Run Machine.Free (filesPart.project h) s.files ∧
    (filesPart.project h).length = 2 ∧ s.files.commandBuffer.length = 2 := by
  obtain ⟨h, s, hrun, ht⟩ := (clientMachine sampleClient).exists_run_of_replay Machine.Free
    (let f : FirmwareAnswers := ⟨true, "1", true, true, true, true, true, true⟩
    [.call .connect 0, .execute sampleAnswers f, .messageReceived "upload" "", .deliver,
      .work, .work, .work, .work])
    (fun h s => decide ((outputs h).length = 6 ∧ (filesPart.project h).length = 2 ∧
      s.files.commandBuffer.length = 2)) (by decide +kernel)
  obtain ⟨hout, hfiles, hqueue⟩ := of_decide_eq_true ht
  obtain ⟨hwolk, hdevice, -⟩ := services_run_alone sampleClient hrun
  exact ⟨h, s, hrun, hout, hwolk.run, hdevice.run, hfiles, hqueue⟩

end Client
end WolkConnect
