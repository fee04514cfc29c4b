import WolkConnect.Data.Conservation
import WolkConnect.Transition.Queue

/-! The calls of the actuation and the configuration handler: which messages ask for them, and what
they make of the device. -/
namespace WolkConnect
open Transition Transition.Machine

/-- A call of `handleActuation` or of `handleConfiguration`. -/
inductive HandlerCall where
  | actuation (reference value : String)
  | configuration (values : List ConfigurationItem)
  deriving DecidableEq

def PlatformCommand.handlerCall : PlatformCommand → Option HandlerCall
  | .actuatorSet reference value => some (.actuation reference value)
  | .configurationSet values => some (.configuration values)
  | _ => none

def WolkCommand.handlerCall : WolkCommand → Option HandlerCall
  | .handleActuation reference value => some (.actuation reference value)
  | .handleConfiguration values => some (.configuration values)
  | _ => none

namespace Wolk

variable {σ : Type}

/-- The commands that are queued or will be pushed by the inbound message. -/
def pending (s : Wolk σ) : List WolkCommand := s.commandBuffer ++ s.handling

/-- The calls that are queued or will be pushed. -/
def handlerCalls (s : Wolk σ) : List HandlerCall := s.pending.filterMap WolkCommand.handlerCall

/-- The call that an event asks for. -/
def requestedCall : WolkEvent → Option HandlerCall
  | .messageReceived c => c.handlerCall
  | _ => none

/-- The call that a moment makes, and whether the handler object was alive by then. -/
def handledCall (m : Moment (Wolk σ) WolkEvent WolkOutput) : Option (HandlerCall × Bool) :=
  match m.event with
  | .execute a => (m.state.commandBuffer.head?.bind WolkCommand.handlerCall).map (·, a.alive)
  | _ => none

/-- What the user has set: the object while it is alive, or else the lambda. -/
def configured {α : Type} (alive : Bool) (object lambda : Option α) : Option α :=
  match alive, object with
  | true, some object => some object
  | _, _ => lambda

/-- The device that the configured handler leaves. Without one it stays as it is. -/
def applyCall (W : WolkConfig σ) (device : σ) : HandlerCall × Bool → σ
  | (.actuation reference value, alive) =>
    match configured alive W.actuationHandler W.actuationHandlerLambda with
    | some handler => handler device reference value
    | none => device
  | (.configuration values, alive) =>
    match configured alive W.configurationHandler W.configurationHandlerLambda with
    | some handler => handler device values
    | none => device

/-- The device as the calls of a history left it. -/
def deviceAfter (W : WolkConfig σ) (h : WolkHistory σ) : σ :=
  (h.filterMap handledCall).foldl (applyCall W) W.device

/-- What the worker still does of its command calls no handler. -/
def CallsNoHandler (s : Wolk σ) : Prop := ∀ c, .push c ∈ s.running → c.handlerCall = none

variable {W : WolkConfig σ} {h : WolkHistory σ} {s s' : Wolk σ} {ev : WolkEvent}
  {out : List WolkOutput}

theorem userCommand_handlerCall {connects : ℕ} {currentRtc : UInt64} {c : UserCall}
    {d : WolkCommand} (hd : userCommand connects currentRtc c = some d) : d.handlerCall = none := by
  cases c with
  | addSensorReadings reference values rtc =>
    by_cases hv : values.isEmpty
    · simp [userCommand, hv] at hd
    · obtain rfl : _ = d := by simpa [userCommand, hv] using hd
      rfl
  | _ =>
    cases hd
    rfl

theorem pushes_handlerCalls (c : PlatformCommand) :
    (pushes c).filterMap WolkCommand.handlerCall = c.handlerCall.toList := by
  cases c <;> rfl

theorem handlerCalls_push {c : WolkCommand} (hc : c.handlerCall = none) :
    (s.addToCommandBuffer c).handlerCalls = s.handlerCalls := by
  simp [handlerCalls, pending, addToCommandBuffer, hc]

theorem run_callsNoHandler {c : WolkCommand} {a : Answers} (hr : s.running = []) :
    (run W c a s).1.CallsNoHandler := by
  intro d hd
  rcases run_push W hr hd with ⟨reference, rfl⟩ | rfl | rfl | rfl
  · rfl
  · rfl
  · rfl
  · rfl

theorem locked_eq {α : Type} (alive : Bool) (object lambda : Option α) :
    locked alive object lambda = configured alive object lambda := by
  cases alive <;> cases object <;> rfl

theorem run_device (c : WolkCommand) (a : Answers) (s : Wolk σ) : (run W c a s).1.device =
    (c.handlerCall.map (·, a.alive)).toList.foldl (applyCall W) s.device := by
  cases c with
  | handleActuation reference value =>
    simp only [run, handleActuation, locked_eq]
    rfl
  | handleConfiguration values =>
    simp only [run, handleConfiguration, locked_eq]
    rfl
  | tryConnect firstTime => by_cases hc : a.connected <;> simp [run, hc, notifyConnected,
      WolkCommand.handlerCall]
  | _ => rfl

/-- What a step does to the calls that are to be made, and to the device. -/
structure CallEffects (W : WolkConfig σ) (m : Moment (Wolk σ) WolkEvent WolkOutput)
    (s' : Wolk σ) : Prop where
  calls : m.state.handlerCalls ++ (requestedCall m.event).toList =
    ((handledCall m).map Prod.fst).toList ++ s'.handlerCalls
  device : s'.device = (handledCall m).toList.foldl (applyCall W) m.state.device
  running : s'.CallsNoHandler

theorem Moves.callEffects (hm : Moves W s ev s' out) (hrunning : s.CallsNoHandler) :
    CallEffects W ⟨s, ev, out⟩ s' := by
  cases hm with
  | called c currentRtc =>
    rw [call_eq]
    refine ⟨?_, rfl, hrunning⟩
    cases hc : userCommand s.connects currentRtc c with
    | none => simp [requestedCall, handledCall, handlerCalls, pending]
    | some d =>
      simp [requestedCall, handledCall, handlerCalls, pending, userCommand_handlerCall hc]
  | received c hh =>
    refine ⟨?_, rfl, hrunning⟩
    simp [requestedCall, handledCall, handlerCalls, pending, hh, pushes_handlerCalls]
  | handled c rest hh =>
    refine ⟨?_, rfl, hrunning⟩
    simp [requestedCall, handledCall, handlerCalls, pending, addToCommandBuffer, hh]
  | connectionLost =>
    refine ⟨?_, rfl, hrunning⟩
    simp [requestedCall, handledCall, handlerCalls, pending, notifyDisonnected]
  | reconnected lost hl =>
    refine ⟨?_, rfl, hrunning⟩
    rw [handlerCalls_push rfl]
    simp [requestedCall, handledCall, handlerCalls, pending]
  | executed a c rest hr hq =>
    obtain ⟨hbuffer, hhandling, -⟩ := run_frame W c a { s with commandBuffer := rest }
    refine ⟨?_, ?_, run_callsNoHandler hr⟩
    · simp only [handlerCalls, pending, hbuffer, hhandling, requestedCall, handledCall, hq]
      cases hc : c.handlerCall <;> simp [hc]
    · simp only [handledCall, hq, List.head?_cons, Option.bind_some]
      exact run_device c a { s with commandBuffer := rest }
  | pushed c rest hr =>
    refine ⟨?_, rfl, ?_⟩
    · rw [handlerCalls_push (hrunning c (by simp [hr]))]
      simp [requestedCall, handledCall, handlerCalls, pending]
    · intro d hd
      exact hrunning d (hr ▸ List.mem_cons_of_mem _ hd)
  | sentFileList rest hr =>
    refine ⟨?_, rfl, ?_⟩
    · simp [requestedCall, handledCall, handlerCalls, pending]
    · intro d hd
      exact hrunning d (hr ▸ List.mem_cons_of_mem _ hd)

theorem callsNoHandler_of_run {C : Condition (Wolk σ) WolkEvent WolkOutput}
    (hrun : (wolkMachine W).Run C h s) : s.CallsNoHandler :=
  hrun.state_invariant _ (by simp [CallsNoHandler, wolkMachine, construct])
    fun _ hi _ hstep => ((step_moves hstep).callEffects hi).running

/-- Nothing but the calls changes the device. -/
theorem device_of_run {C : Condition (Wolk σ) WolkEvent WolkOutput}
    (hrun : (wolkMachine W).Run C h s) : s.device = deviceAfter W h := by
  induction hrun with
  | start => rfl
  | @step h s s' ev out hr hc hstep ih =>
    rw [deviceAfter, List.filterMap_append, filterMap_singleton_toList, List.foldl_append,
      ← deviceAfter, ← ih]
    exact ((step_moves hstep).callEffects (callsNoHandler_of_run hr)).device

end Wolk
end WolkConnect
