import WolkConnect.Client.Parts
import WolkConnect.Data.HandlerCalls
import WolkConnect.Inbound.Delivery
import WolkConnect.Transition.Queue

/-! From the connection to the handlers: three queues one after another bring the commands of the
platform to the device, each of them once and in the order of arrival. -/
namespace WolkConnect
open Transition Transition.Machine

variable {H : Host} {σ : Type}

/-- The listener that gets the messages of a channel. -/
def ClientConfig.routes (W : ClientConfig H σ) (channel : String) : Option Listener :=
  (Client.construct W).inbound.findHandler W.mqttTopicMatch channel

namespace Client

variable (W : ClientConfig H σ)

/-- The call of a handler that a message asks for. -/
def callOf (message : Message) : Option HandlerCall :=
  (DataService.commandOf W.dataProtocol W.wolk.deviceKey message).bind PlatformCommand.handlerCall

/-- The call that waits in the queue of the message handler. -/
def queuedCall (command : Listener × Message) : Option HandlerCall :=
  if command.1 = .dataService then callOf W command.2 else none

/-- The call that a received message asks for, if it is one for the data service. -/
def requestedCall (m : ClientMoment H σ) : Option HandlerCall :=
  match m.event with
  | .messageReceived channel payload =>
    if W.routes channel = some .dataService then callOf W ⟨payload, channel⟩ else none
  | _ => none

/-- The call that is made, and whether the handler object was alive by then. -/
def handledCall (m : ClientMoment H σ) : Option (HandlerCall × Bool) :=
  match m.event with
  | .execute a _ => (m.state.wolk.commandBuffer.head?.bind WolkCommand.handlerCall).map (·, a.alive)
  | _ => none

/-- The calls on their way, the oldest first. -/
def waitingCalls (s : Client H σ) : List HandlerCall :=
  s.wolk.handlerCalls ++ s.inbound.commandBuffer.filterMap (queuedCall W)

/-- What a step does to the message handler. -/
inductive InboundMoves (s : InboundPlatformMessageHandler Listener) :
    ClientEvent → InboundPlatformMessageHandler Listener → Prop where
  | received (channel payload) : InboundMoves s (.messageReceived channel payload)
      (s.messageReceived W.mqttTopicMatch channel payload)
  | delivered (command rest) (hq : s.commandBuffer = command :: rest) :
      InboundMoves s .deliver { s with commandBuffer := rest }
  | kept (e) (hreceived : ∀ channel payload, e ≠ .messageReceived channel payload)
      (hdeliver : e ≠ .deliver) : InboundMoves s e s

variable {W} {h : List (ClientMoment H σ)} {s s' : Client H σ} {e : ClientEvent}
  {out : List ClientOutput} {C : Condition (Client H σ) ClientEvent ClientOutput}

theorem inboundMoves_of_step (hstep : s.step W e = some (s', out)) :
    InboundMoves W s.inbound e s'.inbound := by
  have hinbound := (composed_of_step hstep).inbound
  have hkept (hact : inboundPart.act ⟨s, e, out⟩ = none) : s'.inbound = s.inbound := by
    rw [hact] at hinbound
    have hview := (Prod.mk.inj (Option.some.inj hinbound)).1
    exact (InboundState.mk.inj hview).1.symm
  cases e with
  | messageReceived channel payload =>
    obtain ⟨rfl, -⟩ := Prod.mk.inj (Option.some.inj hstep)
    exact .received channel payload
  | deliver =>
    have hrun : (inboundMachine W.mqttTopicMatch W.wolk.deviceKey).step (inboundPart.view s)
        .runCommand = some (inboundPart.view s', out.filterMap ClientOutput.ofInbound) := hinbound
    simp only [inboundMachine, inboundPart] at hrun
    split at hrun
    · next command rest hq =>
      have hview := (Prod.mk.inj (Option.some.inj hrun)).1
      rw [← (InboundState.mk.inj hview).1]
      exact .delivered command rest hq
    · cases hrun
  | _ =>
    rw [hkept rfl]
    exact .kept _ (by simp) (by simp)

theorem InboundMoves.channelHandlers {f f' : InboundPlatformMessageHandler Listener}
    (hm : InboundMoves W f e f') : f'.channelHandlers = f.channelHandlers := by
  cases hm with
  | received channel payload =>
    unfold InboundPlatformMessageHandler.messageReceived
    split <;> rfl
  | delivered command rest hq => rfl
  | kept e hreceived hdeliver => rfl

/-- Nobody registers once the client is built. -/
theorem routes_of_run (hrun : (clientMachine W).Run C h s) (channel : String) :
    s.inbound.findHandler W.mqttTopicMatch channel = W.routes channel := by
  have hhandlers : s.inbound.channelHandlers = (construct W).inbound.channelHandlers := by
    refine hrun.state_invariant
      (fun t => t.inbound.channelHandlers = (construct W).inbound.channelHandlers) rfl ?_
    intro h s s' e out _ hi _ hstep
    exact (inboundMoves_of_step hstep).channelHandlers.trans hi
  unfold ClientConfig.routes InboundPlatformMessageHandler.findHandler
  rw [hhandlers]

/-- Nothing is received while the client is built. -/
theorem construct_commandBuffer (W : ClientConfig H σ) :
    (construct W).inbound.commandBuffer = [] := by
  have hfold (listeners : List (Option Listener)) (f : InboundPlatformMessageHandler Listener) :
      (listeners.foldl W.addListener f).commandBuffer = f.commandBuffer := by
    induction listeners generalizing f with
    | nil => rfl
    | cons listener listeners ih =>
      rw [List.foldl_cons, ih]
      unfold ClientConfig.addListener InboundPlatformMessageHandler.addListener
      split
      · rw [InboundPlatformMessageHandler.addChannels_eq]
      · rfl
  exact hfold W.listeners _

theorem callsNoHandler (hrun : (clientMachine W).Run C h s) : s.wolk.CallsNoHandler :=
  Wolk.callsNoHandler_of_run ((wolkPart_of W).run_free hrun)

/-- The event of `Wolk` in a step, with the call that it asks for or makes. -/
structure StepCalls (W : ClientConfig H σ) (m : ClientMoment H σ) (s' : Client H σ) : Prop where
  calls : m.state.wolk.handlerCalls ++
    (((wolkPart W).act m).bind Wolk.requestedCall).toList =
      ((handledCall m).map Prod.fst).toList ++ s'.wolk.handlerCalls
  device : s'.wolk.device = (handledCall m).toList.foldl (Wolk.applyCall W.wolk) m.state.wolk.device

theorem stepCalls_of_step (hstep : s.step W e = some (s', out))
    (hrunning : s.wolk.CallsNoHandler) : StepCalls W ⟨s, e, out⟩ s' := by
  have hwolk := (composed_of_step hstep).wolk
  have htaken {d : WolkEvent} (hact : (wolkPart W).act ⟨s, e, out⟩ = some d)
      (hhandled : Wolk.handledCall ⟨s.wolk, d, out.filterMap ClientOutput.ofWolk⟩ =
        handledCall ⟨s, e, out⟩) : StepCalls W ⟨s, e, out⟩ s' := by
    rw [hact] at hwolk
    have heffects := (Wolk.step_moves hwolk).callEffects hrunning
    constructor
    · rw [hact, ← hhandled]
      exact heffects.calls
    · rw [← hhandled]
      exact heffects.device
  have hidle (hact : (wolkPart W).act ⟨s, e, out⟩ = none)
      (hhandled : handledCall ⟨s, e, out⟩ = none) : StepCalls W ⟨s, e, out⟩ s' := by
    rw [hact] at hwolk
    have hsame : s.wolk = s'.wolk := (Prod.mk.inj (Option.some.inj hwolk)).1
    constructor
    · simp [hact, hhandled, hsame]
    · simp [hhandled, hsame]
  cases e with
  | call c currentRtc => exact htaken rfl rfl
  | deliver =>
    cases hact : (wolkPart W).act ⟨s, .deliver, out⟩ with
    | none => exact hidle hact rfl
    | some d =>
      obtain ⟨c, -, rfl⟩ := Option.map_eq_some_iff.mp hact
      exact htaken hact rfl
  | handle => exact htaken rfl rfl
  | connectionLost => exact htaken rfl rfl
  | reconnect => exact htaken rfl rfl
  | execute a f => exact htaken rfl rfl
  | work => exact htaken rfl rfl
  | _ => exact hidle rfl rfl

/-- `Wolk` is asked for a call when a message with it is handed to the data service. -/
theorem act_requestedCall (m : ClientMoment H σ) :
    ((wolkPart W).act m).bind Wolk.requestedCall =
      match m.event with
      | .deliver => m.state.inbound.commandBuffer.head?.bind (queuedCall W)
      | _ => none := by
  obtain ⟨s, e, out⟩ := m
  cases e with
  | deliver =>
    simp only [wolkPart, delivered]
    cases s.inbound.commandBuffer with
    | nil => rfl
    | cons command rest =>
      obtain ⟨listener, message⟩ := command
      by_cases hl : listener = .dataService
      · simp only [List.head?_cons, Option.bind_some, queuedCall, callOf, hl, if_true]
        cases DataService.commandOf W.dataProtocol W.wolk.deviceKey message <;> rfl
      · simp [queuedCall, hl]
  | _ => rfl

/-- One step takes calls from the front and puts them at the back. -/
theorem waitingCalls_step (hrun : (clientMachine W).Run C h s)
    (hstep : s.step W e = some (s', out)) :
    waitingCalls W s ++ (requestedCall W ⟨s, e, out⟩).toList =
      ((handledCall ⟨s, e, out⟩).map Prod.fst).toList ++ waitingCalls W s' := by
  have hcalls := (stepCalls_of_step hstep (callsNoHandler hrun)).calls
  rw [act_requestedCall] at hcalls
  have hinbound := inboundMoves_of_step hstep
  unfold waitingCalls
  generalize s'.inbound = f' at hinbound
  cases hinbound with
  | received channel payload =>
    have hsame : s.wolk.handlerCalls = s'.wolk.handlerCalls := by
      simpa [handledCall] using hcalls
    rw [← hsame]
    simp only [requestedCall, handledCall, InboundPlatformMessageHandler.messageReceived,
      routes_of_run hrun]
    cases hroute : W.routes channel with
    | none => simp
    | some listener =>
      by_cases hl : listener = .dataService
      · cases hc : callOf W ⟨payload, channel⟩ <;> simp [queuedCall, hl, hc]
      · simp [queuedCall, hl]
  | delivered command rest hq =>
    simp only [hq, List.head?_cons, Option.bind_some] at hcalls ⊢
    have hfront : (command :: rest).filterMap (queuedCall W) =
        (queuedCall W command).toList ++ rest.filterMap (queuedCall W) := by
      cases hc : queuedCall W command <;> simp [hc]
    rw [hfront, ← List.append_assoc, hcalls]
    simp [requestedCall]
  | kept e hreceived hdeliver =>
    have hnone : requestedCall W ⟨s, e, out⟩ = none := by
      cases e with
      | messageReceived channel payload => exact absurd rfl (hreceived channel payload)
      | _ => rfl
    simp only [Option.toList_none, List.append_nil] at hcalls
    rw [hnone, Option.toList_none, List.append_nil, hcalls, List.append_assoc]

theorem device_of_run (hrun : (clientMachine W).Run C h s) :
    s.wolk.device = (h.filterMap handledCall).foldl (Wolk.applyCall W.wolk) W.wolk.device := by
  induction hrun with
  | start => rfl
  | @step h s s' e out hr hc hstep ih =>
    rw [filterMap_concat, List.foldl_append, ← ih]
    exact (stepCalls_of_step hstep (callsNoHandler hr)).device

end Client

open Client

variable {W : ClientConfig H σ} {h : List (ClientMoment H σ)} {s : Client H σ}

/-- The calls of the handlers are those that the platform asked for, in the order in which its
messages arrived, and behind them those still on their way; the device is what the calls made of
it. -/
theorem commands_applied_in_order (hrun : (clientMachine W).Run Free h s) :
    h.filterMap (requestedCall W) =
        (h.filterMap handledCall).map Prod.fst ++ waitingCalls W s ∧
      s.wolk.device = (h.filterMap handledCall).foldl (Wolk.applyCall W.wolk) W.wolk.device := by
  refine ⟨?_, device_of_run hrun⟩
  rw [List.map_filterMap]
  apply hrun.fifo (requestedCall W) (fun m => (handledCall m).map Prod.fst) (waitingCalls W)
  · have hbuffer := construct_commandBuffer W
    simp only [clientMachine, waitingCalls, hbuffer, List.filterMap_nil, List.append_nil]
    rfl
  · intro h s s' e out hr _ hstep
    exact waitingCalls_step hr hstep

/-- The switch is set to `on`, and the next command is still in the queue of the message
handler. -/
theorem commands_applied_in_order_sample : ∃ h s, (clientMachine sampleClient).Run Free h s ∧
    h.filterMap (requestedCall sampleClient) =
      [.actuation "switch" "on", .actuation "switch" "off"] ∧
    h.filterMap (requestedCall sampleClient) =
      (h.filterMap handledCall).map Prod.fst ++ waitingCalls sampleClient s ∧
    s.wolk.device = "on" := by
  obtain ⟨h, s, hrun, ht⟩ := (clientMachine sampleClient).exists_run_of_replay Free
    [.messageReceived "set" "on", .messageReceived "set" "off", .deliver, .handle,
      .execute sampleAnswers ⟨true, "1", true, true, true, true, true, true⟩]
    (fun h s => decide (h.filterMap (requestedCall sampleClient) =
        [.actuation "switch" "on", .actuation "switch" "off"] ∧
      h.filterMap handledCall = [(.actuation "switch" "on", true)])) (by decide +kernel)
  obtain ⟨hrequested, hhandled⟩ := of_decide_eq_true ht
  obtain ⟨horder, hdevice⟩ := commands_applied_in_order hrun
  refine ⟨h, s, hrun, hrequested, horder, ?_⟩
  rw [hdevice, hhandled]
  rfl

end WolkConnect
