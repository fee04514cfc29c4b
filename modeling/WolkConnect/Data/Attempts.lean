import WolkConnect.Data.Disconnect
import WolkConnect.Data.Freshness
import WolkConnect.Transition.Queue
import WolkConnect.Transition.Segment

/-! The connection attempts of `Wolk`: each `connect()` and each lost connection is answered by one
connection, however often the attempts fail, and no attempt waits longer than its turn. -/
namespace WolkConnect
open Transition Transition.Machine

/-- The worker is to push a connection attempt. -/
def WorkerTask.isTryConnect : WorkerTask → Bool
  | .push c => c.isTryConnect
  | .sendFileList => false

/-- The user calls `connect()`, or a connection is lost. -/
def WolkEvent.asksForConnection : WolkEvent → Bool
  | .call .connect _ => true
  | .connectionLost => true
  | _ => false

namespace Wolk

variable {σ : Type}

/-- The attempts that are queued or will be pushed. -/
def attempts (s : Wolk σ) : ℕ :=
  s.pending.countP WolkCommand.isTryConnect + s.running.countP WorkerTask.isTryConnect + s.lost

/-- The command that the step puts in the queue. -/
def pushedCommand (m : Moment (Wolk σ) WolkEvent WolkOutput) : Option WolkCommand :=
  match m.event with
  | .call c currentRtc => userCommand m.state.connects currentRtc c
  | .handle => m.state.handling.head?
  | .reconnect => some (.tryConnect true)
  | .work =>
    match m.state.running with
    | .push c :: _ => some c
    | _ => none
  | _ => none

variable {W : WolkConfig σ} {h : WolkHistory σ} {s s' : Wolk σ} {ev : WolkEvent}
  {out : List WolkOutput}

/-- The queue is first in, first out. -/
theorem Moves.fifo (hm : Moves W s ev s' out) :
    s.commandBuffer ++ (pushedCommand ⟨s, ev, out⟩).toList =
      (executedCommand ⟨s, ev, out⟩).toList ++ s'.commandBuffer := by
  cases hm with
  | called c currentRtc =>
    rw [call_eq]
    rfl
  | received c hh => simp [pushedCommand, executedCommand]
  | handled c rest hh => simp [pushedCommand, executedCommand, hh, addToCommandBuffer]
  | connectionLost => simp [pushedCommand, executedCommand, notifyDisonnected]
  | reconnected lost hl => simp [pushedCommand, executedCommand, addToCommandBuffer]
  | executed a c rest hr hq =>
    simp [pushedCommand, executedCommand, hq, (run_frame W c a { s with commandBuffer := rest }).1]
  | pushed c rest hr => simp [pushedCommand, executedCommand, hr, addToCommandBuffer]
  | sentFileList rest hr => simp [pushedCommand, executedCommand, hr]

theorem attempts_push (c : WolkCommand) : (s.addToCommandBuffer c).attempts =
    s.attempts + if c.isTryConnect then 1 else 0 := by
  simp only [attempts, pending, addToCommandBuffer, List.countP_append, List.countP_singleton]
  omega

theorem userCommand_isTryConnect (connects : ℕ) (currentRtc : UInt64) (c : UserCall) :
    (userCommand connects currentRtc c).toList.countP WolkCommand.isTryConnect =
      if c = .connect then 1 else 0 := by
  cases c with
  | addSensorReadings reference values rtc =>
    by_cases hv : values.isEmpty <;> simp [userCommand, hv, WolkCommand.isTryConnect]
  | _ => simp [userCommand, WolkCommand.isTryConnect]

theorem pushes_isTryConnect (c : PlatformCommand) :
    (pushes c).countP WolkCommand.isTryConnect = 0 := by
  cases c <;> rfl

theorem connectedTasks_isTryConnect :
    (connectedTasks W).countP WorkerTask.isTryConnect = 0 := by
  rw [List.countP_eq_zero]
  intro task htask
  simp only [connectedTasks, List.mem_append, List.mem_map, List.mem_singleton] at htask
  rcases htask with ((⟨reference, -, rfl⟩ | rfl) | htask) | rfl
  · simp [WorkerTask.isTryConnect, WolkCommand.isTryConnect]
  · simp [WorkerTask.isTryConnect, WolkCommand.isTryConnect]
  · split at htask
    · simp [List.mem_singleton.mp htask, WorkerTask.isTryConnect]
    · cases htask
  · simp [WorkerTask.isTryConnect, WolkCommand.isTryConnect]

/-- A command that is run is an attempt that succeeds, an attempt that is to be repeated, or no
attempt. -/
theorem run_attempts (c : WolkCommand) (a : Answers) (hr : s.running = []) :
    s.attempts + (if c.isTryConnect then 1 else 0) =
      (run W c a s).1.attempts + (run W c a s).2.count (.connect true) := by
  cases c with
  | tryConnect firstTime =>
    by_cases hc : a.connected
    · by_cases hf : W.firmwareUpdateService <;>
        simp [run, hc, hf, notifyConnected, attempts, pending, hr, WolkCommand.isTryConnect,
          connectedTasks_isTryConnect]
    · simp [run, hc, attempts, pending, hr, WolkCommand.isTryConnect, WorkerTask.isTryConnect]
      omega
  | _ =>
    rw [List.count_eq_zero_of_not_mem]
    · rfl
    · intro ho
      cases run_isConnect (W := W) rfl a s _ ho

theorem Moves.attempts (hm : Moves W s ev s' out) :
    s.attempts + (if ev.asksForConnection then 1 else 0) =
      s'.attempts + out.count (.connect true) := by
  cases hm with
  | called c currentRtc =>
    have hcall := userCommand_isTryConnect s.connects currentRtc c
    rw [call_eq]
    simp only [Wolk.attempts, pending, List.countP_append, hcall]
    cases c with
    | connect =>
      simp [WolkEvent.asksForConnection]
      omega
    | _ => simp [WolkEvent.asksForConnection]
  | received c hh =>
    simp [Wolk.attempts, pending, hh, pushes_isTryConnect, WolkEvent.asksForConnection]
  | handled c rest hh =>
    rw [attempts_push]
    simp only [Wolk.attempts, pending, hh, List.countP_append, List.countP_cons]
    simp [WolkEvent.asksForConnection]
    omega
  | connectionLost =>
    simp [Wolk.attempts, pending, notifyDisonnected, WolkEvent.asksForConnection]
    omega
  | reconnected lost hl =>
    rw [attempts_push]
    simp [Wolk.attempts, pending, hl, WolkEvent.asksForConnection, WolkCommand.isTryConnect]
    omega
  | executed a c rest hr hq =>
    have hrun := run_attempts (W := W) (s := { s with commandBuffer := rest }) c a hr
    have hpending : s.attempts =
        Wolk.attempts { s with commandBuffer := rest } + if c.isTryConnect then 1 else 0 := by
      simp only [Wolk.attempts, pending, hq, List.cons_append, List.countP_cons]
      omega
    rw [hpending, hrun]
    rfl
  | pushed c rest hr =>
    rw [attempts_push]
    cases hc : c.isTryConnect with
    | false =>
      simp [Wolk.attempts, pending, hr, hc, WorkerTask.isTryConnect, WolkEvent.asksForConnection]
    | true =>
      simp [Wolk.attempts, pending, hr, hc, WorkerTask.isTryConnect, WolkEvent.asksForConnection]
      omega
  | sentFileList rest hr =>
    simp [Wolk.attempts, pending, hr, WorkerTask.isTryConnect, WolkEvent.asksForConnection]

/-- What becomes of the connections that were asked for along a run. An attempt that is queued
behind `n` commands is command `n + 1` that the worker takes from then on, and is made then. -/
structure Attempts (W : WolkConfig σ) (h : WolkHistory σ) (s : Wolk σ) : Prop where
  conserved : h.countP (fun m => m.event.asksForConnection) =
    (outputs h).count (.connect true) + s.attempts
  goesOn : s.attempts ≠ 0 → ∃ ev, (ev = .reconnect ∨ ev = .handle ∨ ev = .work ∨
    ∃ a, ev = .execute a) ∧ (s.step W ev).isSome = true
  inTurn : ∀ k m l before firstTime after, h = k ++ m :: l →
    m.state.commandBuffer = before ++ .tryConnect firstTime :: after →
      before.length < (executedCommands (m :: l)).length →
        ∃ waited n later a, m :: l = waited ++ n :: later ∧
          (executedCommands waited).length = before.length ∧
          executedCommand n = some (.tryConnect firstTime) ∧
          n.event = .execute a ∧ .connect a.connected ∈ n.output

/-- As long as an attempt is pending, there is a step that brings it on. -/
theorem goesOn_of_attempts (a : Answers) (h : s.attempts ≠ 0) :
    ∃ ev, (ev = .reconnect ∨ ev = .handle ∨ ev = .work ∨ ∃ a, ev = .execute a) ∧
      (s.step W ev).isSome = true := by
  cases hl : s.lost with
  | succ lost => exact ⟨.reconnect, .inl rfl, by simp [step, hl]⟩
  | zero =>
    cases hr : s.running with
    | cons task rest =>
      refine ⟨.work, .inr (.inr (.inl rfl)), ?_⟩
      cases task <;> simp [step, hr]
    | nil =>
      cases hq : s.commandBuffer with
      | cons c rest =>
        exact ⟨.execute a, .inr (.inr (.inr ⟨a, rfl⟩)), by simp [step, hr, hq]⟩
      | nil =>
        cases hh : s.handling with
        | cons c rest => exact ⟨.handle, .inr (.inl rfl), by simp [step, hh]⟩
        | nil => simp [attempts, pending, hl, hr, hq, hh] at h

theorem attempts_of_run {C : Condition (Wolk σ) WolkEvent WolkOutput}
    (hrun : (wolkMachine W).Run C h s) :
    h.countP (fun m => m.event.asksForConnection) =
      (outputs h).count (.connect true) + s.attempts := by
  induction hrun with
  | start => rfl
  | @step h s s' ev out _ _ hstep ih =>
    have hmoves := (step_moves hstep).attempts
    rw [outputs_append, outputs_singleton, List.count_append, List.countP_append,
      List.countP_singleton, ih]
    show _ + (if ev.asksForConnection then 1 else 0) = _ + out.count (.connect true) + _
    omega

/-- An attempt that the worker takes is made. -/
theorem Moves.connects {firstTime : Bool} (hm : Moves W s ev s' out)
    (hc : executedCommand ⟨s, ev, out⟩ = some (.tryConnect firstTime)) :
    ∃ a, ev = .execute a ∧ .connect a.connected ∈ out := by
  cases hm with
  | executed a c rest hr hq =>
    obtain rfl : c = .tryConnect firstTime := by simpa [executedCommand, hq] using hc
    refine ⟨a, rfl, ?_⟩
    by_cases hconnected : a.connected
    · simp [run, hconnected]
    · simp [run, hconnected]
  | _ => cases hc

/-- Every connection that was asked for has been made once or is still attempted, an attempt that
is pending can go on, and one that is queued is made when the commands before it have been run. -/
theorem connection_attempts (hrun : (wolkMachine W).Run Free h s) : Attempts W h s where
  conserved := attempts_of_run hrun
  goesOn hpending := by
    refine goesOn_of_attempts ⟨false, false, [], fun _ _ => .refused, [], fun _ _ => .refused, [],
      fun _ => .refused, .refused⟩ hpending
  inTurn := by
    rintro k m l before firstTime after rfl hq hlength
    have hrest := hrun.rest
    obtain ⟨waited, n, later, hsplit, hbefore, hc⟩ :=
      hrest.moment_of_turn pushedCommand executedCommand Wolk.commandBuffer
        (fun _ _ hstep => (step_moves hstep).fifo) hq hlength
    rw [hsplit] at hrest
    obtain ⟨-, -, s', hstep⟩ := hrest.moment
    obtain ⟨a, hev, ho⟩ := (step_moves hstep).connects hc
    exact ⟨waited, n, later, a, hsplit, hbefore, hc, hev, ho⟩

/-- The first attempt fails and a connection that was made is lost: one attempt is left. -/
theorem connection_attempts_sample : ∃ h s, (wolkMachine sampleConfig).Run Free h s ∧
    Attempts sampleConfig h s ∧ s.attempts = 1 ∧
      outputs h = [.connect false, .connect true, .notifyConnected] := by
  obtain ⟨h, s, hrun, ht⟩ := (wolkMachine sampleConfig).exists_run_of_replay Free
    [.call .connect 0, .execute { sampleAnswers with connected := false }, .work,
      .execute sampleAnswers, .connectionLost]
    (fun h s => decide (s.attempts = 1 ∧
      outputs h = [.connect false, .connect true, .notifyConnected])) (by decide +kernel)
  obtain ⟨hone, hout⟩ := of_decide_eq_true ht
  exact ⟨h, s, hrun, connection_attempts hrun, hone, hout⟩

end Wolk
end WolkConnect
