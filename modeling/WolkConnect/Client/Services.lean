import WolkConnect.Client.Commands

/-! What `build` subscribes to, and which service gets a message: the handler serves the services
with the channels of their protocols, and each of them gets its own messages in the order of
arrival. -/
namespace WolkConnect
open Transition Transition.Machine

variable {H : Host} {σ : Type}

namespace ClientConfig

variable (W : ClientConfig H σ)

/-- The channels that the listener registers for. -/
def patterns (listener : Listener) : List String :=
  W.getInboundChannelsForDevice listener W.wolk.deviceKey

/-- A channel of the listener's protocol matches. -/
def Subscribes (listener : Listener) (channel : String) : Prop :=
  ∃ pattern ∈ W.patterns listener, W.mqttTopicMatch pattern channel = true

instance (listener : Listener) (channel : String) : Decidable (W.Subscribes listener channel) :=
  inferInstanceAs (Decidable (∃ pattern ∈ W.patterns listener, _))

/-- No channel is one of two services. -/
def SeparateChannels : Prop :=
  ∀ channel l k, some l ∈ W.listeners → some k ∈ W.listeners → W.Subscribes l channel →
    W.Subscribes k channel → k = l

end ClientConfig

/-- The listener of the last call of `addListener` that registered the pattern. -/
def ClientConfig.registeredLast (W : ClientConfig H σ) (listeners : List (Option Listener))
    (pattern : String) : Option Listener :=
  listeners.reverse.findSome? fun l => l.filter fun l => pattern ∈ W.patterns l

namespace Client

variable {W : ClientConfig H σ}

theorem addListener_deviceKey (f : InboundPlatformMessageHandler Listener)
    (listener : Option Listener) : (W.addListener f listener).deviceKey = f.deviceKey := by
  unfold ClientConfig.addListener InboundPlatformMessageHandler.addListener
  split
  · rw [InboundPlatformMessageHandler.addChannels_eq]
  · rfl

theorem foldl_addListener_deviceKey (listeners : List (Option Listener))
    (f : InboundPlatformMessageHandler Listener) :
    (listeners.foldl W.addListener f).deviceKey = f.deviceKey := by
  induction listeners generalizing f with
  | nil => rfl
  | cons listener listeners ih => rw [List.foldl_cons, ih, addListener_deviceKey]

/-- The calls of `addListener` in `build` are a run of the message handler. -/
theorem exists_registrations (listeners : List (Option Listener)) :
    ∃ h, (inboundMachine W.mqttTopicMatch W.wolk.deviceKey).Run Free h
        ⟨listeners.foldl W.addListener (.create W.wolk.deviceKey), fun _ => true⟩ ∧
      ∀ pattern, registered h pattern = W.registeredLast listeners pattern := by
  induction listeners using List.reverseRecOn with
  | nil => exact ⟨[], .start, fun pattern => rfl⟩
  | append_singleton listeners listener ih =>
    obtain ⟨h, hrun, hregistered⟩ := ih
    let channels : String → List String := fun deviceKey =>
      (listener.map fun l => W.getInboundChannelsForDevice l deviceKey).getD []
    have hstep : (inboundMachine W.mqttTopicMatch W.wolk.deviceKey).step
        ⟨listeners.foldl W.addListener (.create W.wolk.deviceKey), fun _ => true⟩
        (.addListener listener channels) =
          some (⟨(listeners ++ [listener]).foldl W.addListener (.create W.wolk.deviceKey),
            fun _ => true⟩, []) := by
      rw [List.foldl_concat]
      rfl
    refine ⟨_, hrun.step trivial hstep, ?_⟩
    · intro pattern
      rw [registered_concat, hregistered]
      unfold ClientConfig.registeredLast registers
      rw [List.reverse_concat, List.findSome?_cons]
      simp only [foldl_addListener_deviceKey, channels]
      cases listener with
      | none => rfl
      | some l =>
        by_cases hl : pattern ∈ W.patterns l
        · have hl' : pattern ∈ W.getInboundChannelsForDevice l W.wolk.deviceKey := hl
          simp [InboundPlatformMessageHandler.create, lock, hl, hl', Option.filter_some]
        · have hl' : pattern ∉ W.getInboundChannelsForDevice l W.wolk.deviceKey := hl
          simp [InboundPlatformMessageHandler.create, hl, hl', Option.filter_some]

end Client

namespace ClientConfig

variable {W : ClientConfig H σ} {pattern channel : String} {l : Listener}

theorem registeredLast_eq_some {listeners : List (Option Listener)}
    (h : W.registeredLast listeners pattern = some l) :
    some l ∈ listeners ∧ pattern ∈ W.patterns l := by
  obtain ⟨listener, hin, hl⟩ := List.exists_of_findSome?_eq_some h
  obtain ⟨rfl, hpattern⟩ := Option.filter_eq_some_iff.mp hl
  exact ⟨List.mem_reverse.mp hin, of_decide_eq_true hpattern⟩

theorem registeredLast_isSome {listeners : List (Option Listener)} :
    (W.registeredLast listeners pattern).isSome = true ↔
      ∃ l, some l ∈ listeners ∧ pattern ∈ W.patterns l := by
  constructor
  · intro h
    obtain ⟨l, hl⟩ := Option.isSome_iff_exists.mp h
    exact ⟨l, registeredLast_eq_some hl⟩
  · rintro ⟨l, hin, hpattern⟩
    unfold registeredLast
    rw [List.findSome?_isSome_iff]
    refine ⟨some l, List.mem_reverse.mpr hin, ?_⟩
    simp [Option.filter_some, hpattern]

/-- The subscriptions are the channels of the services that there are. -/
theorem mem_getChannels : pattern ∈ (Client.construct W).inbound.getChannels ↔
    ∃ l, some l ∈ W.listeners ∧ pattern ∈ W.patterns l := by
  obtain ⟨h, hrun, hregistered⟩ := Client.exists_registrations (W := W) W.listeners
  have hsubscribed := subscribed_of_run hrun pattern
  rw [hregistered, registeredLast_isSome] at hsubscribed
  exact hsubscribed

theorem routes_subscribes (h : W.routes channel = some l) :
    some l ∈ W.listeners ∧ W.Subscribes l channel := by
  obtain ⟨k, hrun, hregistered⟩ := Client.exists_registrations (W := W) W.listeners
  obtain ⟨pattern, hpattern, hmatch, -⟩ := (findHandler_eq_some_iff hrun).mp h
  rw [hregistered] at hpattern
  obtain ⟨hin, hpattern⟩ := registeredLast_eq_some hpattern
  exact ⟨hin, pattern, hpattern, hmatch⟩

/-- No message that a service has subscribed to is dropped. -/
theorem routes_isSome (hin : some l ∈ W.listeners) (hsubscribes : W.Subscribes l channel) :
    (W.routes channel).isSome = true := by
  obtain ⟨k, hrun, -⟩ := Client.exists_registrations (W := W) W.listeners
  obtain ⟨pattern, hpattern, hmatch⟩ := hsubscribes
  exact (findHandler_isSome_iff hrun).mpr ⟨pattern, mem_getChannels.mpr ⟨l, hin, hpattern⟩, hmatch⟩

theorem routes_iff (hseparate : W.SeparateChannels) (hin : some l ∈ W.listeners) :
    W.routes channel = some l ↔ W.Subscribes l channel := by
  constructor
  · exact fun h => (routes_subscribes h).2
  · intro hsubscribes
    obtain ⟨k, hk⟩ := Option.isSome_iff_exists.mp (routes_isSome hin hsubscribes)
    obtain ⟨hkin, hksubscribes⟩ := routes_subscribes hk
    rw [hk, hseparate channel l k hin hkin hsubscribes hksubscribes]

end ClientConfig

namespace Client

variable (W : ClientConfig H σ)

/-- The message that the moment brings for a service, with that service. -/
def routedMessage (m : ClientMoment H σ) : Option (Listener × Message) :=
  match m.event with
  | .messageReceived channel payload =>
    (W.routes channel).map fun l => (l, ⟨payload, channel⟩)
  | _ => none

/-- The message that the moment brings on a channel of the service. -/
def receivedBy (listener : Listener) (m : ClientMoment H σ) : Option Message :=
  match m.event with
  | .messageReceived channel payload =>
    if W.Subscribes listener channel then some ⟨payload, channel⟩ else none
  | _ => none

/-- The message of a command of the message handler, if it is one for the service. -/
def messageFor (listener : Listener) (command : Listener × Message) : Option Message :=
  if command.1 = listener then some command.2 else none

variable {W} {h : List (ClientMoment H σ)} {s s' : Client H σ} {e : ClientEvent}
  {out : List ClientOutput} {C : Condition (Client H σ) ClientEvent ClientOutput}

theorem handed_step (hrun : (clientMachine W).Run C h s) (hstep : s.step W e = some (s', out)) :
    s.inbound.commandBuffer ++ (routedMessage W ⟨s, e, out⟩).toList =
      out.filterMap ClientOutput.ofInbound ++ s'.inbound.commandBuffer := by
  have hinbound := (composed_of_step hstep).inbound
  have hidle (hact : inboundPart.act ⟨s, e, out⟩ = none)
      (hnone : routedMessage W ⟨s, e, out⟩ = none) :
      s.inbound.commandBuffer ++ (routedMessage W ⟨s, e, out⟩).toList =
        out.filterMap ClientOutput.ofInbound ++ s'.inbound.commandBuffer := by
    rw [hact] at hinbound
    obtain ⟨hview, hout⟩ := Prod.mk.inj (Option.some.inj hinbound)
    have hsame : s.inbound = s'.inbound := (InboundState.mk.inj hview).1
    rw [hnone, ← hout, hsame, Option.toList_none, List.append_nil, List.nil_append]
  have htaken {d : InboundEvent Listener} (hact : inboundPart.act ⟨s, e, out⟩ = some d)
      (hqueued : queued W.mqttTopicMatch
        ⟨inboundPart.view s, d, out.filterMap ClientOutput.ofInbound⟩ =
          routedMessage W ⟨s, e, out⟩) :
      s.inbound.commandBuffer ++ (routedMessage W ⟨s, e, out⟩).toList =
        out.filterMap ClientOutput.ofInbound ++ s'.inbound.commandBuffer := by
    rw [hact] at hinbound
    have heffects := inboundEffects_of_step hinbound
    have hbuffer := heffects.buffer
    have hhanded := heffects.handed
    -- every service lives as long as the client
    have hall (c : Option (Listener × Message)) : c.filter (fun _ => true) = c := by
      cases c <;> rfl
    simp only [inboundPart, hall] at hhanded
    rw [hqueued] at hbuffer
    rw [hhanded]
    exact hbuffer
  cases e with
  | messageReceived channel payload =>
    apply htaken rfl
    show (s.inbound.findHandler W.mqttTopicMatch channel).map _ = _
    rw [routes_of_run hrun]
    rfl
  | deliver => exact htaken rfl rfl
  | _ => exact hidle rfl rfl

theorem handed_of_run (hrun : (clientMachine W).Run C h s) :
    h.filterMap (routedMessage W) =
      (outputs h).filterMap ClientOutput.ofInbound ++ s.inbound.commandBuffer := by
  induction hrun with
  | start =>
    rw [show (clientMachine W).start.inbound.commandBuffer = [] from construct_commandBuffer W]
    rfl
  | @step h s s' e out hr _ hstep ih =>
    have hqueue := handed_step hr hstep
    rw [filterMap_concat, ih, outputs_append, outputs_singleton, List.filterMap_append,
      List.append_assoc, List.append_assoc, hqueue]

/-- Nobody subscribes once the client is built. -/
theorem subscriptionList_of_run (hrun : (clientMachine W).Run C h s) :
    s.inbound.subscriptionList = (construct W).inbound.subscriptionList := by
  refine hrun.state_invariant
    (fun t => t.inbound.subscriptionList = (construct W).inbound.subscriptionList) rfl ?_
  intro h s s' e out _ hi _ hstep
  have hinbound := inboundMoves_of_step hstep
  rw [← hi]
  generalize s'.inbound = f at hinbound ⊢
  cases hinbound with
  | received channel payload =>
    unfold InboundPlatformMessageHandler.messageReceived
    split <;> rfl
  | delivered command rest hq => rfl
  | kept _ hreceived hdeliver => rfl

/-- What the services are subscribed to and what they have been handed. -/
structure Served (W : ClientConfig H σ) (h : List (ClientMoment H σ)) (s : Client H σ) :
    Prop where
  subscribed : ∀ pattern, pattern ∈ s.inbound.getChannels ↔
    ∃ l, some l ∈ W.listeners ∧ pattern ∈ W.patterns l
  served : ∀ l, some l ∈ W.listeners → h.filterMap (receivedBy W l) =
    ((outputs h).filterMap ClientOutput.ofInbound).filterMap (messageFor l) ++
      s.inbound.commandBuffer.filterMap (messageFor l)
  absent : ∀ l message, .handed l message ∈ outputs h → some l ∈ W.listeners

theorem receivedBy_eq (hseparate : W.SeparateChannels) {l : Listener}
    (hin : some l ∈ W.listeners) (m : ClientMoment H σ) :
    receivedBy W l m = (routedMessage W m).bind (messageFor l) := by
  unfold receivedBy routedMessage
  cases m.event with
  | messageReceived channel payload =>
    dsimp only
    by_cases hsubscribes : W.Subscribes l channel
    · rw [if_pos hsubscribes, (ClientConfig.routes_iff hseparate hin).mpr hsubscribes]
      simp [messageFor]
    · rw [if_neg hsubscribes]
      cases hroute : W.routes channel with
      | none => rfl
      | some k =>
        have hne : k ≠ l := by
          rintro rfl
          exact hsubscribes (ClientConfig.routes_subscribes hroute).2
        simp [messageFor, hne]
  | _ => rfl

end Client

open Client

variable {W : ClientConfig H σ} {h : List (ClientMoment H σ)} {s : Client H σ}

/-- Where no channel is one of two services, every service gets the messages on its channels, each
of them once and in the order of arrival, and no service gets any other message. -/
theorem services_get_their_messages (hseparate : W.SeparateChannels)
    (hrun : (clientMachine W).Run Free h s) : Served W h s where
  subscribed pattern := by
    unfold InboundPlatformMessageHandler.getChannels
    rw [subscriptionList_of_run hrun]
    exact ClientConfig.mem_getChannels
  served l hin := by
    have hhanded := congrArg (List.filterMap (messageFor l)) (handed_of_run hrun)
    rw [List.filterMap_filterMap, List.filterMap_append] at hhanded
    rw [← hhanded]
    congr 1
    funext m
    exact receivedBy_eq hseparate hin m
  absent l message ho := by
    have hhanded := handed_of_run hrun
    have hmem : (l, message) ∈ h.filterMap (routedMessage W) := by
      rw [hhanded]
      exact List.mem_append_left _ (List.mem_filterMap.mpr ⟨_, ho, rfl⟩)
    obtain ⟨m, -, hm⟩ := List.mem_filterMap.mp hmem
    unfold routedMessage at hm
    split at hm
    · obtain ⟨k, hk, heq⟩ := Option.map_eq_some_iff.mp hm
      obtain rfl := (Prod.mk.inj heq).1
      exact (ClientConfig.routes_subscribes hk).1
    · cases hm

/-- Of two messages, one for the file service has been handed over and the other one waits. -/
theorem services_get_their_messages_sample : ∃ h s, (clientMachine sampleClient).Run Free h s ∧
    Served sampleClient h s ∧
    h.filterMap (receivedBy sampleClient .fileDownloadService) =
      [⟨"1", "upload"⟩, ⟨"3", "upload"⟩] ∧
    (outputs h).filterMap ClientOutput.ofInbound = [(.fileDownloadService, ⟨"1", "upload"⟩)] := by
  have hseparate : sampleClient.SeparateChannels := by
    rintro channel l k - - ⟨pattern, hl, hmatch⟩ ⟨other, hk, hother⟩
    obtain rfl : pattern = channel := eq_of_beq hmatch
    obtain rfl : other = pattern := eq_of_beq hother
    cases l <;> cases k <;>
      simp_all [ClientConfig.patterns, sampleClient]
  obtain ⟨h, s, hrun, ht⟩ := (clientMachine sampleClient).exists_run_of_replay Free
    [.messageReceived "upload" "1", .messageReceived "else" "2", .messageReceived "upload" "3",
      .deliver]
    (fun h _ => decide (h.filterMap (receivedBy sampleClient .fileDownloadService) =
        [⟨"1", "upload"⟩, ⟨"3", "upload"⟩] ∧
      (outputs h).filterMap ClientOutput.ofInbound =
        [(.fileDownloadService, ⟨"1", "upload"⟩)])) (by decide +kernel)
  obtain ⟨hreceived, hhanded⟩ := of_decide_eq_true ht
  exact ⟨h, s, hrun, services_get_their_messages hseparate hrun, hreceived, hhanded⟩

end WolkConnect
