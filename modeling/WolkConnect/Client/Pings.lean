import WolkConnect.Client.Parts
import WolkConnect.Data.Disconnect
import WolkConnect.Inbound.Delivery

/-! The keep-alive service within the client: it pings from a connection to the end of that
connection, and knows the timestamp of the last pong that was handed to it. -/
namespace WolkConnect
open Transition Transition.Machine

variable {H : Host} {σ : Type}

namespace Wolk

variable {W : WolkConfig σ} {s s' : Wolk σ} {ev : WolkEvent} {out : List WolkOutput}

/-- What the keep-alive service is told in a step. -/
def connectionChange (W : WolkConfig σ) (ev : WolkEvent) (out : List WolkOutput) : Option Bool :=
  if !W.keepAliveService then none
  else match ev with
    | .connectionLost => some false
    | .execute _ =>
      if .notifyConnected ∈ out then some true
      else if .disconnect ∈ out then some false
      else none
    | _ => none

/-- Only `disconnect` disconnects. -/
theorem run_disconnect {c : WolkCommand} (hc : ∀ n, c ≠ .disconnect n) (a : Answers) (s : Wolk σ) :
    .disconnect ∉ (run W c a s).2 := by
  intro ho
  cases c with
  | disconnect n => exact hc n rfl
  | tryConnect firstTime =>
    by_cases hconnected : a.connected <;> by_cases hf : W.firmwareUpdateService <;>
      simp [run, hconnected, notifyConnected, hf] at ho
  | publish =>
    simp only [run, flush_eq, List.mem_append, List.mem_map] at ho
    rcases ho with ((⟨_, -, ho⟩ | ⟨_, -, ho⟩) | ⟨_, -, ho⟩) | ⟨_, -, ho⟩ <;> cases ho
  | publishActuatorStatus reference =>
    obtain ⟨b, -, ho⟩ := List.mem_map.mp ho
    cases ho
  | publishConfiguration =>
    obtain ⟨b, -, ho⟩ := List.mem_map.mp ho
    cases ho
  | _ => cases ho

theorem run_timer (c : WolkCommand) (a : Answers) (s : Wolk σ) :
    (run W c a s).1.timer =
      (connectionChange W (.execute a) (run W c a s).2).getD s.timer := by
  have hkept (htimer : (run W c a s).1.timer = s.timer) (hconnect : c.isTryConnect = false)
      (hdisconnect : ∀ n, c ≠ .disconnect n) : (run W c a s).1.timer =
        (connectionChange W (.execute a) (run W c a s).2).getD s.timer := by
    have hnotified : .notifyConnected ∉ (run W c a s).2 := by
      intro ho
      cases run_isConnect hconnect a s _ ho
    rw [htimer, connectionChange]
    simp only [if_neg hnotified, if_neg (run_disconnect hdisconnect a s)]
    split <;> rfl
  cases c with
  | tryConnect firstTime =>
    by_cases hconnected : a.connected
    · by_cases hkeep : W.keepAliveService <;>
        simp [run, hconnected, notifyConnected, connectionChange, hkeep]
    · simp [run, hconnected, connectionChange]
  | disconnect n =>
    by_cases hkeep : W.keepAliveService <;>
      simp [run, notifyDisonnected, connectionChange, hkeep]
  | _ => exact hkept rfl rfl (by simp)

/-- The timer is switched as the keep-alive service is told. -/
theorem Moves.timer (hm : Moves W s ev s' out) :
    s'.timer = (connectionChange W ev out).getD s.timer := by
  cases hm with
  | executed a c rest hr hq => exact run_timer c a { s with commandBuffer := rest }
  | called c currentRtc =>
    rw [call_eq]
    simp [connectionChange]
  | connectionLost =>
    by_cases hkeep : W.keepAliveService <;> simp [connectionChange, notifyDisonnected, hkeep]
  | _ => simp [connectionChange, addToCommandBuffer]

end Wolk

namespace KeepAliveEvent

def change : KeepAliveEvent → Option Bool
  | .connected => some true
  | .disconnected => some false
  | _ => none

def message : KeepAliveEvent → Option Message
  | .messageReceived message => some message
  | _ => none

end KeepAliveEvent

/-- What a step of the service does: a pong is a message with a timestamp. -/
structure KeepAliveService.Effects (P : StatusProtocol) (k : KeepAliveService)
    (ev : Option KeepAliveEvent) (k' : KeepAliveService) (out : List KeepAliveOutput) : Prop where
  timer : k'.timer = (ev.bind KeepAliveEvent.change).getD k.timer
  ping : ∀ message, .publish message ∈ out →
    ev.bind KeepAliveEvent.change = some true ∨ k.timer = true
  timestamp : k'.lastTimestamp =
    match (ev.bind KeepAliveEvent.message).filter P.isPongMessage with
    | some message => P.parseValue message.content
    | none => k.lastTimestamp

theorem KeepAliveService.effects_of_stepIf {P : StatusProtocol} {deviceKey : String}
    {k k' : KeepAliveService} {ev : Option KeepAliveEvent} {out : List KeepAliveOutput}
    (h : stepIf (KeepAliveService.step P deviceKey) k ev = some (k', out)) :
    Effects P k ev k' out := by
  cases ev with
  | none =>
    obtain ⟨rfl, rfl⟩ := Prod.mk.inj (Option.some.inj h)
    exact ⟨rfl, nofun, rfl⟩
  | some ev =>
    cases ev with
    | connected =>
      obtain ⟨rfl, rfl⟩ := Prod.mk.inj (Option.some.inj h)
      exact ⟨rfl, fun _ _ => .inl rfl, rfl⟩
    | disconnected =>
      obtain ⟨rfl, rfl⟩ := Prod.mk.inj (Option.some.inj h)
      exact ⟨rfl, nofun, rfl⟩
    | timerExpired =>
      simp only [stepIf, step] at h
      split at h
      · next htimer =>
        obtain ⟨rfl, rfl⟩ := Prod.mk.inj (Option.some.inj h)
        exact ⟨rfl, fun _ _ => .inr htimer, rfl⟩
      · cases h
    | messageReceived message =>
      obtain ⟨t, ht, heq⟩ := Option.map_eq_some_iff.mp h
      obtain ⟨rfl, rfl⟩ := Prod.mk.inj heq
      simp only [messageReceived] at ht
      split at ht
      · next hpong =>
        obtain ⟨value, hvalue, rfl⟩ := Option.map_eq_some_iff.mp ht
        refine ⟨rfl, nofun, ?_⟩
        simp [KeepAliveEvent.message, Option.filter, hpong, hvalue]
      · next hpong =>
        obtain rfl := Option.some.inj ht
        refine ⟨rfl, nofun, ?_⟩
        simp [KeepAliveEvent.message, Option.filter, hpong]

namespace Client

variable (W : ClientConfig H σ)

/-- The connection is there, or it is gone. -/
def connectionChange (m : ClientMoment H σ) : Option Bool :=
  ((wolkPart W).act m).bind fun ev =>
    Wolk.connectionChange W.wolk ev (m.output.filterMap ClientOutput.ofWolk)

/-- What the keep-alive service was told last. -/
def isConnected (h : List (ClientMoment H σ)) : Bool :=
  (h.filterMap (connectionChange W)).getLast?.getD false

/-- The pongs that were handed to the keep-alive service. -/
def pongs (h : List (ClientMoment H σ)) : List Message :=
  (h.filterMap (delivered .keepAliveService)).filter W.statusProtocol.isPongMessage

variable {W} {h : List (ClientMoment H σ)} {s s' : Client H σ} {e : ClientEvent}
  {out : List ClientOutput}

/-- What a step is for the keep-alive service. -/
structure KeepAliveEffects (W : ClientConfig H σ) (m : ClientMoment H σ) (s' : Client H σ) :
    Prop where
  timer : s'.keepAlive.timer = (connectionChange W m).getD m.state.keepAlive.timer
  wolk : s'.wolk.timer = (connectionChange W m).getD m.state.wolk.timer
  ping : ∀ message, .keepAlive (.publish message) ∈ m.output →
    connectionChange W m = some true ∨ m.state.keepAlive.timer = true
  timestamp : s'.keepAlive.lastTimestamp =
    match (delivered .keepAliveService m).filter W.statusProtocol.isPongMessage with
    | some message => W.statusProtocol.parseValue message.content
    | none => m.state.keepAlive.lastTimestamp

/-- What the keep-alive service takes part in. -/
theorem keepAlive_act (m : ClientMoment H σ) :
    connectionChange W m = ((keepAlivePart W).act m).bind KeepAliveEvent.change ∧
      delivered .keepAliveService m = ((keepAlivePart W).act m).bind KeepAliveEvent.message := by
  obtain ⟨s, e, out⟩ := m
  cases e with
  | deliver =>
    constructor
    · simp only [connectionChange, wolkPart, keepAlivePart]
      cases (delivered .dataService ⟨s, .deliver, out⟩).bind
          (DataService.commandOf W.dataProtocol W.wolk.deviceKey) <;>
        cases delivered .keepAliveService ⟨s, .deliver, out⟩ <;>
          simp [Wolk.connectionChange, KeepAliveEvent.change]
    · simp only [keepAlivePart]
      cases delivered .keepAliveService ⟨s, .deliver, out⟩ <;> rfl
  | connectionLost =>
    constructor
    · by_cases hkeep : W.wolk.keepAliveService <;>
        simp [connectionChange, wolkPart, keepAlivePart, Wolk.connectionChange,
          KeepAliveEvent.change, hkeep]
    · by_cases hkeep : W.wolk.keepAliveService <;>
        simp [keepAlivePart, delivered, KeepAliveEvent.message, hkeep]
  | execute a f =>
    simp only [connectionChange, wolkPart, keepAlivePart, Wolk.connectionChange, delivered,
      ClientConfig.keepAliveCall, Option.bind_some]
    split_ifs <;> exact ⟨rfl, rfl⟩
  | _ =>
    constructor
    · simp [connectionChange, wolkPart, keepAlivePart, Wolk.connectionChange,
        KeepAliveEvent.change]
    · simp [keepAlivePart, delivered, KeepAliveEvent.message]

theorem keepAliveEffects_of_step (hstep : s.step W e = some (s', out)) :
    KeepAliveEffects W ⟨s, e, out⟩ s' := by
  have heffects := KeepAliveService.effects_of_stepIf (composed_of_step hstep).keepAlive
  obtain ⟨hchange, hdelivered⟩ := keepAlive_act (W := W) ⟨s, e, out⟩
  constructor
  · rw [hchange]
    exact heffects.timer
  · rcases (wolkPart_of W).step_cases hstep with ⟨hact, hsame, -⟩ | ⟨ev, hact, hwolk⟩
    · have hwolk : s'.wolk = s.wolk := hsame
      rw [hwolk, connectionChange, hact]
      rfl
    · rw [connectionChange, hact]
      exact (Wolk.step_moves hwolk).timer
  · intro message ho
    rw [hchange]
    exact heffects.ping message (List.mem_filterMap.mpr ⟨_, ho, rfl⟩)
  · rw [hdelivered]
    exact heffects.timestamp

theorem isConnected_concat (m : ClientMoment H σ) :
    isConnected W (h ++ [m]) = (connectionChange W m).getD (isConnected W h) := by
  rw [isConnected, filterMap_concat]
  cases connectionChange W m with
  | none => simp [isConnected]
  | some connected => simp

theorem pongs_concat (m : ClientMoment H σ) : pongs W (h ++ [m]) = pongs W h ++
    ((delivered .keepAliveService m).filter W.statusProtocol.isPongMessage).toList := by
  rw [pongs, filterMap_concat, List.filter_append]
  cases delivered .keepAliveService m with
  | none => rfl
  | some message =>
    by_cases hpong : W.statusProtocol.isPongMessage message <;>
      simp [pongs, Option.filter, hpong]

theorem timers_of_run {C : Condition (Client H σ) ClientEvent ClientOutput}
    (hrun : (clientMachine W).Run C h s) :
    s.keepAlive.timer = isConnected W h ∧ s.wolk.timer = isConnected W h := by
  induction hrun with
  | start => exact ⟨rfl, rfl⟩
  | step hr hc hstep ih =>
    have heffects := keepAliveEffects_of_step hstep
    rw [isConnected_concat, heffects.timer, heffects.wolk, ih.1, ih.2]
    exact ⟨rfl, rfl⟩

theorem timestamp_of_run {C : Condition (Client H σ) ClientEvent ClientOutput}
    (hrun : (clientMachine W).Run C h s) : s.keepAlive.lastTimestamp =
      (pongs W h).getLast?.bind fun message => W.statusProtocol.parseValue message.content := by
  induction hrun with
  | start => rfl
  | @step h s s' e out hr hc hstep ih =>
    rw [(keepAliveEffects_of_step hstep).timestamp, pongs_concat]
    cases (delivered .keepAliveService ⟨s, e, out⟩).filter W.statusProtocol.isPongMessage with
    | none => simp [ih]
    | some message => simp

end Client

open Client

variable {W : ClientConfig H σ} {h : List (ClientMoment H σ)} {s : Client H σ}

/-- The keep-alive service over a run: its timer, and that of `Wolk`, runs while the client is
connected, nothing else makes it ping, and its timestamp is that of the last pong. -/
structure Keeps (W : ClientConfig H σ) (h : List (ClientMoment H σ)) (s : Client H σ) : Prop where
  timer : s.keepAlive.timer = isConnected W h
  wolk : s.wolk.timer = isConnected W h
  timestamp : s.keepAlive.lastTimestamp =
    (pongs W h).getLast?.bind fun message => W.statusProtocol.parseValue message.content
  ping : ∀ k m l message, h = k ++ m :: l → .keepAlive (.publish message) ∈ m.output →
    connectionChange W m = some true ∨ isConnected W k = true

theorem pings_while_connected (hrun : (clientMachine W).Run Free h s) : Keeps W h s where
  timer := (timers_of_run hrun).1
  wolk := (timers_of_run hrun).2
  timestamp := timestamp_of_run hrun
  ping := by
    rintro k m l message rfl ho
    obtain ⟨hk, -, s', hstep⟩ := hrun.moment
    have hping := (keepAliveEffects_of_step hstep).ping message ho
    rwa [(timers_of_run hk).1] at hping

/-- The client connects, pings twice, gets a pong and disconnects. -/
theorem pings_while_connected_sample : ∃ h s, (clientMachine sampleClient).Run Free h s ∧
    Keeps sampleClient h s ∧ s.keepAlive = ⟨false, some 1⟩ ∧
      (outputs h).count (.keepAlive (.publish ⟨"", "ping"⟩)) = 2 := by
  obtain ⟨h, s, hrun, ht⟩ := (clientMachine sampleClient).exists_run_of_replay Free
    (let f : FirmwareAnswers := ⟨true, "1", true, true, true, true, true, true⟩
    [.call .connect 0, .execute sampleAnswers f, .ping, .messageReceived "pong" "1", .deliver,
      .work, .work, .work, .work, .call .disconnect 0, .execute sampleAnswers f,
      .execute sampleAnswers f, .execute sampleAnswers f, .execute sampleAnswers f])
    (fun h s => decide (s.keepAlive = ⟨false, some 1⟩ ∧
      (outputs h).count (.keepAlive (.publish ⟨"", "ping"⟩)) = 2)) (by decide +kernel)
  obtain ⟨hkeepAlive, hpings⟩ := of_decide_eq_true ht
  exact ⟨h, s, hrun, pings_while_connected hrun, hkeepAlive, hpings⟩

end WolkConnect
