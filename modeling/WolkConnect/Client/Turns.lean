import WolkConnect.Client.Parts
import WolkConnect.Data.Attempts
import WolkConnect.Firmware.OneOutcome
import WolkConnect.Transition.Budget

/-! The worker of `Wolk` is never stuck: it waits for the services that it calls, but each of its
commands takes a bounded number of its steps, and so does the queue before any command. -/
namespace WolkConnect
open Transition Transition.Machine

variable {H : Host} {σ : Type}

namespace Wolk

variable {W : WolkConfig σ} {s s' : Wolk σ} {ev : WolkEvent} {out : List WolkOutput}

/-- Something is to be done after every connection. -/
theorem connectedTasks_length_pos (W : WolkConfig σ) : 0 < (connectedTasks W).length := by
  simp only [connectedTasks, List.length_append, List.length_singleton]
  omega

theorem run_running_length (c : WolkCommand) (a : Answers) (hr : s.running = []) :
    (run W c a s).1.running.length ≤ (connectedTasks W).length := by
  cases c with
  | tryConnect firstTime =>
    by_cases hc : a.connected
    · simp [run, hc, notifyConnected]
    · have hpos := connectedTasks_length_pos W
      simp only [run, hc, Bool.false_eq_true, if_false, List.length_singleton]
      omega
  | _ =>
    show s.running.length ≤ _
    rw [hr]
    exact Nat.zero_le _

/-- Only a connection makes the firmware service report, and then the worker has more to do. -/
theorem run_publishFirmwareStatus {c : WolkCommand} {a : Answers}
    (ho : .publishFirmwareStatus ∈ (run W c a s).2) : (run W c a s).1.running ≠ [] := by
  have hnone {α : Type} {f : α → WolkOutput} {os : List α} (hf : ∀ x, f x ≠ .publishFirmwareStatus)
      (ho : .publishFirmwareStatus ∈ os.map f) : False := by
    obtain ⟨x, -, hx⟩ := List.mem_map.mp ho
    exact hf x hx
  cases c with
  | tryConnect firstTime =>
    by_cases hc : a.connected
    · simp only [run, hc, if_true, notifyConnected]
      exact List.ne_nil_of_length_pos (connectedTasks_length_pos W)
    · simp [run, hc] at ho
  | publishActuatorStatus reference => exact (hnone (by simp) ho).elim
  | publishConfiguration => exact (hnone (by simp) ho).elim
  | publish =>
    simp only [run, flush, List.mem_append] at ho
    rcases ho with ((ho | ho) | ho) | ho
    · exact (hnone (by simp) ho).elim
    · exact (hnone (by simp) ho).elim
    · exact (hnone (by simp) ho).elim
    · exact (hnone (by simp) ho).elim
  | disconnect connects => simp [run] at ho
  | _ => cases ho

theorem running_of_execute {a : Answers} (h : s.step W (.execute a) = some (s', out)) :
    s.running = [] ∧ s.commandBuffer ≠ [] ∧ s'.running.length ≤ (connectedTasks W).length ∧
      (.publishFirmwareStatus ∈ out → s'.running ≠ []) := by
  cases step_moves h with
  | executed _ c rest hr hq =>
    refine ⟨hr, ?_, run_running_length c a hr, run_publishFirmwareStatus⟩
    rw [hq]
    exact List.cons_ne_nil c rest

theorem running_of_work (h : s.step W .work = some (s', out)) :
    s.running.length = s'.running.length + 1 := by
  cases step_moves h with
  | pushed c rest hr =>
    rw [hr]
    rfl
  | sentFileList rest hr =>
    rw [hr]
    rfl

/-- Only the worker changes what it has to do. -/
theorem running_of_stepIf {w : Option WolkEvent} (hexecute : ∀ a, w ≠ some (.execute a))
    (hwork : w ≠ some .work) (h : stepIf (step W) s w = some (s', out)) :
    s'.running = s.running := by
  cases w with
  | none =>
    obtain ⟨rfl, -⟩ := Prod.mk.inj (Option.some.inj h)
    rfl
  | some ev =>
    cases step_moves h with
    | called c currentRtc => rw [call_eq]
    | executed a c rest hr hq => exact absurd rfl (hexecute a)
    | pushed c rest hr => exact absurd rfl hwork
    | sentFileList rest hr => exact absurd rfl hwork
    | _ => rfl

end Wolk

/-- How many steps the report still takes. -/
def ReportWorker.left : ReportWorker → ℕ
  | .idle => 0
  | .decided _ _ => 2
  | .sent => 1

namespace FirmwareUpdateService

variable {W : FirmwareConfig} {s s' : FirmwareUpdateService} {ev : FirmwareEvent}
  {out : List FirmwareOutput}

theorem reportFirmwareUpdateResult_left (s : FirmwareUpdateService) (a : FirmwareAnswers)
    (hr : s.reporter = .idle) : (reportFirmwareUpdateResult W s a).1.reporter.left ≤ 2 := by
  obtain ⟨cs, reporter, heq, hreporter, -⟩ := reportFirmwareUpdateResult_eq (W := W) (n := 0) s a
  rw [heq]
  show reporter.left ≤ 2
  rcases hreporter with rfl | rfl | ⟨status, marker, -, -, -, rfl⟩
  · rw [hr]
    exact Nat.zero_le _
  · exact Nat.zero_le _
  · exact Nat.le_refl _

theorem reporter_of_notified {a : FirmwareAnswers}
    (h : step W s (.notifyConnected a) = some (s', out)) : s'.reporter.left ≤ 2 := by
  cases step_moves h with
  | notified _ hr => exact reportFirmwareUpdateResult_left s a hr

theorem reporter_of_report {a : FirmwareAnswers} (h : step W s (.report a) = some (s', out)) :
    ∃ status installation, s.reporter = .decided status installation ∧ s'.reporter = .sent := by
  cases step_moves h with
  | sent status installation _ hr => exact ⟨status, installation, hr, rfl⟩

theorem reporter_of_deleteMarker {a : FirmwareAnswers}
    (h : step W s (.deleteMarker a) = some (s', out)) :
    s.reporter = .sent ∧ s'.reporter = .idle := by
  cases step_moves h with
  | deleted _ hr => exact ⟨hr, rfl⟩

theorem Runs.reporter {c : FirmwareCommand} {a : FirmwareAnswers} (hr : Runs s c a s' out) :
    s'.reporter = s.reporter := by
  cases hr <;> rfl

theorem announce_reporter (s : FirmwareUpdateService) (installation : ℕ)
    (fileInfo : Option FileInfo) (a : FirmwareAnswers) :
    (announce s installation fileInfo a).1.reporter = s.reporter := by
  cases fileInfo <;> rfl

/-- The report is left alone by all events but its own. -/
theorem reporter_of_stepIf {f : Option FirmwareEvent}
    (hf : ∀ a, f ≠ some (.notifyConnected a) ∧ f ≠ some (.report a) ∧ f ≠ some (.deleteMarker a))
    (hrestart : f ≠ some .restart) (h : stepIf (step W) s f = some (s', out)) :
    s'.reporter = s.reporter := by
  cases f with
  | none =>
    obtain ⟨rfl, -⟩ := Prod.mk.inj (Option.some.inj h)
    rfl
  | some ev =>
    cases step_moves h with
    | ran c rest a _ _ hw hq hrun => exact hrun.reporter
    | announced file installation fileInfo a hw => exact announce_reporter s _ fileInfo a
    | notified a hr => exact absurd rfl (hf a).1
    | sent status installation a hr => exact absurd rfl (hf a).2.1
    | deleted a hr => exact absurd rfl (hf a).2.2
    | restarted => exact absurd rfl hrestart
    | _ => rfl

end FirmwareUpdateService

/-- The steps of the worker of `Wolk`: two of them are inside `reportFirmwareUpdateResult`. -/
def ClientEvent.ofWorker : ClientEvent → Bool
  | .execute _ _ | .work | .firmware (.report _) | .firmware (.deleteMarker _) => true
  | _ => false

namespace Client

/-- How many steps the worker takes for its command at most. -/
def price (W : ClientConfig H σ) : ℕ := (Wolk.connectedTasks W.wolk).length + 3

/-- How many of them are left. -/
def left (s : Client H σ) : ℕ := s.wolk.running.length + s.firmware.reporter.left

/-- The command that the worker takes. -/
def takenCommand (m : ClientMoment H σ) : Option WolkCommand :=
  match m.event with
  | .execute _ _ => m.state.wolk.commandBuffer.head?
  | _ => none

/-- What a step does to the worker of `Wolk` and to the report that it waits for. -/
inductive WorkerMoves (W : ClientConfig H σ) (s s' : Client H σ) : ClientEvent → Prop where
  | took (a f) (hidle : s.wolk.running = []) (hq : s.wolk.commandBuffer ≠ [])
      (hlength : s'.wolk.running.length ≤ (Wolk.connectedTasks W.wolk).length)
      (hreport : s'.firmware.reporter = s.firmware.reporter ∨
        (s'.firmware.reporter.left ≤ 2 ∧ s'.wolk.running ≠ [])) :
      WorkerMoves W s s' (.execute a f)
  | worked (hreport : s.firmware.reporter = .idle)
      (hlength : s.wolk.running.length = s'.wolk.running.length + 1)
      (hsame : s'.firmware.reporter = s.firmware.reporter) : WorkerMoves W s s' .work
  | reported (a status installation) (hr : s.firmware.reporter = .decided status installation)
      (hr' : s'.firmware.reporter = .sent) (hsame : s'.wolk.running = s.wolk.running) :
      WorkerMoves W s s' (.firmware (.report a))
  | deleted (a) (hr : s.firmware.reporter = .sent) (hr' : s'.firmware.reporter = .idle)
      (hsame : s'.wolk.running = s.wolk.running) : WorkerMoves W s s' (.firmware (.deleteMarker a))
  | other (e) (he : e.ofWorker = false) (hrunning : s'.wolk.running = s.wolk.running)
      (hreporter : s'.firmware.reporter = s.firmware.reporter) : WorkerMoves W s s' e

variable {W : ClientConfig H σ} {h k l : List (ClientMoment H σ)} {s s' t : Client H σ}
  {e : ClientEvent} {out : List ClientOutput} {C : Condition (Client H σ) ClientEvent ClientOutput}

theorem workerMoves_of_step (hstep : s.step W e = some (s', out)) : WorkerMoves W s s' e := by
  have hcomposed := composed_of_step hstep
  have hwolk := hcomposed.wolk
  have hfirmware := hcomposed.firmware
  have hreporter {f : Option FirmwareEvent}
      (h : stepIf (FirmwareUpdateService.step W.firmware) s.firmware f =
        some (s'.firmware, out.filterMap ClientOutput.ofFirmware))
      (hf : ∀ a, f ≠ some (.notifyConnected a) ∧ f ≠ some (.report a) ∧ f ≠ some (.deleteMarker a))
      (hrestart : f ≠ some .restart) : s'.firmware.reporter = s.firmware.reporter :=
    FirmwareUpdateService.reporter_of_stepIf hf hrestart h
  cases e with
  | execute a f =>
    obtain ⟨hr, hq, hlength, hstatus⟩ := Wolk.running_of_execute hwolk
    refine .took a f hr hq hlength ?_
    by_cases ho : .publishFirmwareStatus ∈ out.filterMap ClientOutput.ofWolk
    · have hact : (firmwarePart W).act ⟨s, .execute a f, out⟩ = some (.notifyConnected f) :=
        if_pos ho
      rw [hact] at hfirmware
      exact .inr ⟨FirmwareUpdateService.reporter_of_notified hfirmware, hstatus ho⟩
    · have hact : (firmwarePart W).act ⟨s, .execute a f, out⟩ = none := if_neg ho
      rw [hact] at hfirmware
      exact .inl (hreporter hfirmware (by simp) (by simp))
  | work =>
    have hidle : s.firmware.reporter = .idle := by
      by_contra hbusy
      simp [step, hbusy] at hstep
    refine .worked hidle (Wolk.running_of_work (W := W.wolk) hwolk) ?_
    exact hreporter (f := none) hfirmware (by simp) (by simp)
  | firmware ev =>
    have hown : ev.own = true := by
      by_contra hother
      simp [step, hother] at hstep
    have hrunning : s'.wolk.running = s.wolk.running :=
      Wolk.running_of_stepIf (w := none) (by simp) (by simp) hwolk
    have hstep : stepIf (FirmwareUpdateService.step W.firmware) s.firmware (some ev) =
        some (s'.firmware, out.filterMap ClientOutput.ofFirmware) := hfirmware
    cases ev with
    | report a =>
      obtain ⟨status, installation, hr, hr'⟩ :=
        FirmwareUpdateService.reporter_of_report (W := W.firmware) hstep
      exact .reported a status installation hr hr' hrunning
    | deleteMarker a =>
      obtain ⟨hr, hr'⟩ :=
        FirmwareUpdateService.reporter_of_deleteMarker (W := W.firmware) hstep
      exact .deleted a hr hr' hrunning
    | notifyConnected a => cases hown
    | restart => cases hown
    | messageReceived c => cases hown
    | announce fileInfo a => cases hown
    | _ => exact .other _ rfl hrunning (hreporter hstep (by simp) (by simp))
  | announce a =>
    have hrunning : s'.wolk.running = s.wolk.running :=
      Wolk.running_of_stepIf (w := none) (by simp) (by simp) hwolk
    refine .other _ rfl hrunning (hreporter hfirmware ?_ ?_)
    · intro a'
      simp only [firmwarePart]
      split <;> simp
    · simp only [firmwarePart]
      split <;> simp
  | deliver =>
    have hother {α β : Type} {f : α → β} {o : Option α} {b : β} (hf : ∀ x, f x ≠ b) :
        o.map f ≠ some b := by
      intro h
      obtain ⟨x, -, hx⟩ := Option.map_eq_some_iff.mp h
      exact hf x hx
    refine .other _ rfl ?_ (hreporter hfirmware ?_ ?_)
    · exact Wolk.running_of_stepIf (fun a => hother (by simp)) (hother (by simp)) hwolk
    · exact fun a => ⟨hother (by simp), hother (by simp), hother (by simp)⟩
    · exact hother (by simp)
  | connectionLost =>
    refine .other _ rfl ?_ (hreporter (f := none) hfirmware (by simp) (by simp))
    exact Wolk.running_of_stepIf (w := some .connectionLost) (by simp) (by simp) hwolk
  | _ =>
    refine .other _ rfl ?_ (hreporter (f := none) hfirmware (by simp) (by simp))
    exact Wolk.running_of_stepIf (by simp [wolkPart]) (by simp [wolkPart]) hwolk

/-- Between two commands no report is going on. -/
def Settled (s : Client H σ) : Prop := s.wolk.running = [] → s.firmware.reporter = .idle

theorem WorkerMoves.settled (hm : WorkerMoves W s s' e) (hs : s.Settled) : s'.Settled := by
  intro hidle
  cases hm with
  | took a f hr hq hlength hreport =>
    rcases hreport with hsame | ⟨-, hbusy⟩
    · rw [hsame]
      exact hs hr
    · exact absurd hidle hbusy
  | worked hreport hlength hsame =>
    rw [hsame]
    exact hreport
  | reported a status installation hr hr' hsame =>
    rw [hsame] at hidle
    rw [hs hidle] at hr
    cases hr
  | deleted a hr hr' hsame => exact hr'
  | other e he hrunning hreporter =>
    rw [hrunning] at hidle
    rw [hreporter]
    exact hs hidle

/-- What a step of the worker uses up, its command has paid for. -/
theorem WorkerMoves.left (hm : WorkerMoves W s s' e) (hs : s.Settled) :
    s'.left + (if e.ofWorker then 1 else 0) ≤
      s.left + if (takenCommand ⟨s, e, out⟩).isSome then price W else 0 := by
  unfold Client.left
  cases hm with
  | took a f hr hq hlength hreport =>
    have hreport : s'.firmware.reporter.left ≤ 2 := by
      rcases hreport with hsame | ⟨hle, -⟩
      · rw [hsame, hs hr]
        exact Nat.zero_le _
      · exact hle
    have htaken : (takenCommand ⟨s, .execute a f, out⟩).isSome = true := by
      rw [takenCommand, List.head?_eq_some_head hq]
      rfl
    rw [htaken]
    simp only [ClientEvent.ofWorker, if_true, price]
    omega
  | worked hreport hlength hsame =>
    rw [hsame, hlength]
    simp only [ClientEvent.ofWorker, if_true]
    omega
  | reported a status installation hr hr' hsame =>
    rw [hr, hr', hsame]
    exact Nat.le_refl _
  | deleted a hr hr' hsame =>
    rw [hr, hr', hsame]
    exact Nat.le_refl _
  | other e he hrunning hreporter =>
    rw [hrunning, hreporter, he]
    exact Nat.le_add_right _ _

/-- A command never takes more than its price. -/
theorem WorkerMoves.left_lt (hm : WorkerMoves W s s' e) (hs : s.Settled)
    (hleft : s.left < price W) : s'.left < price W := by
  unfold Client.left price at *
  cases hm with
  | took a f hr hq hlength hreport =>
    rcases hreport with hsame | ⟨hle, -⟩
    · rw [hsame, hs hr]
      show s'.wolk.running.length + 0 < _
      omega
    · omega
  | worked hreport hlength hsame =>
    rw [hsame]
    omega
  | reported a status installation hr hr' hsame =>
    rw [hr] at hleft
    rw [hr', hsame]
    simp only [ReportWorker.left] at hleft ⊢
    omega
  | deleted a hr hr' hsame =>
    rw [hr] at hleft
    rw [hr', hsame]
    simp only [ReportWorker.left] at hleft ⊢
    omega
  | other e he hrunning hreporter =>
    rw [hrunning, hreporter]
    exact hleft

theorem settled_of_run (hrun : (clientMachine W).Run C h s) : s.Settled ∧ s.left < price W := by
  induction hrun with
  | start => exact ⟨fun _ => rfl, Nat.zero_lt_succ _⟩
  | step _ _ hstep ih =>
    have hm := workerMoves_of_step hstep
    exact ⟨hm.settled ih.1, hm.left_lt ih.1 ih.2⟩

theorem settled_from (ht : t.Settled) (hrun : ((clientMachine W).startAt t).Run C h s) :
    s.Settled :=
  hrun.state_invariant Settled ht fun _ hs _ hstep => (workerMoves_of_step hstep).settled hs

/-- The file service and the keep-alive service never refuse a call of `Wolk`. -/
theorem filesCall_enabled (os : List WolkOutput) :
    (s.stepFiles W (ClientConfig.filesCall os)).isSome = true := by
  unfold ClientConfig.filesCall
  split <;> rfl

theorem keepAliveCall_enabled (os : List WolkOutput) :
    ∃ t ks, s.stepKeepAlive W (W.keepAliveCall os) = some (t, ks) ∧ t.firmware = s.firmware := by
  unfold ClientConfig.keepAliveCall
  split_ifs
  · exact ⟨_, _, rfl, rfl⟩
  · exact ⟨_, _, rfl, rfl⟩
  · exact ⟨_, _, rfl, rfl⟩
  · exact ⟨_, _, rfl, rfl⟩

theorem firmwareCall_enabled (f : FirmwareAnswers) (os : List WolkOutput)
    (hr : s.firmware.reporter = .idle) :
    (s.stepFirmware W (ClientConfig.firmwareCall f os)).isSome = true := by
  unfold ClientConfig.firmwareCall
  split
  · simp [stepFirmware, stepIf, FirmwareUpdateService.step, hr]
  · rfl

theorem work_enabled {task : WorkerTask} {rest : List WorkerTask}
    (hr : s.firmware.reporter = .idle) (hw : s.wolk.running = task :: rest) :
    (s.step W .work).isSome = true := by
  obtain ⟨⟨t, os⟩, ht⟩ : ∃ r, s.wolk.step W.wolk .work = some r := by
    cases task <;> simp [Wolk.step, hw]
  have hfiles := filesCall_enabled (W := W) (s := { s with wolk := t }) os
  obtain ⟨r, hr'⟩ := Option.isSome_iff_exists.mp hfiles
  simp [step, hr, ht, hr']

theorem execute_enabled (a : Answers) (f : FirmwareAnswers) {c : WolkCommand}
    {rest : List WolkCommand} (hr : s.firmware.reporter = .idle) (hw : s.wolk.running = [])
    (hq : s.wolk.commandBuffer = c :: rest) : (s.step W (.execute a f)).isSome = true := by
  obtain ⟨⟨t, os⟩, ht⟩ : ∃ r, s.wolk.step W.wolk (.execute a) = some r := by
    simp [Wolk.step, hw, hq]
  obtain ⟨u, ks, hu, hsame⟩ := keepAliveCall_enabled (W := W) (s := { s with wolk := t }) os
  have hreporter : u.firmware.reporter = .idle := by
    rw [hsame]
    exact hr
  obtain ⟨r, hr'⟩ := Option.isSome_iff_exists.mp (firmwareCall_enabled (W := W) f os hreporter)
  simp [step, ht, hu, hr']

/-- Where something is to be done, the worker can take a step. -/
theorem worker_enabled (a : Answers) (f : FirmwareAnswers)
    (hq : s.wolk.commandBuffer ≠ []) :
    ∃ e : ClientEvent, e.ofWorker = true ∧ (s.step W e).isSome = true := by
  cases hr : s.firmware.reporter with
  | decided status installation =>
    refine ⟨.firmware (.report f), rfl, ?_⟩
    simp [step, FirmwareEvent.own, stepFirmware, stepIf, FirmwareUpdateService.step, hr]
  | sent =>
    refine ⟨.firmware (.deleteMarker f), rfl, ?_⟩
    simp [step, FirmwareEvent.own, stepFirmware, stepIf, FirmwareUpdateService.step, hr]
  | idle =>
    cases hw : s.wolk.running with
    | cons task rest => exact ⟨.work, rfl, work_enabled hr hw⟩
    | nil =>
      obtain ⟨c, rest, hq⟩ := List.exists_cons_of_ne_nil hq
      exact ⟨.execute a f, rfl, execute_enabled a f hr hw hq⟩

/-- The commands that the client takes are those of its `Wolk`. -/
theorem takenCommand_eq (m : ClientMoment H σ) :
    takenCommand m = ((wolkPart W).moment m).bind Wolk.executedCommand := by
  obtain ⟨s, e, out⟩ := m
  cases e with
  | deliver =>
    show none = _
    simp only [Part.moment, wolkPart]
    cases (delivered .dataService ⟨s, .deliver, out⟩).bind
      (DataService.commandOf W.dataProtocol W.wolk.deviceKey) <;> rfl
  | _ => rfl

theorem fifo_of_step (hstep : s.step W e = some (s', out)) :
    s.wolk.commandBuffer ++ (((wolkPart W).moment ⟨s, e, out⟩).bind Wolk.pushedCommand).toList =
      (takenCommand ⟨s, e, out⟩).toList ++ s'.wolk.commandBuffer := by
  rw [takenCommand_eq (W := W)]
  rcases (wolkPart_of W).step_cases hstep with ⟨hact, hview, -⟩ | ⟨d, hact, hd⟩
  · have hview : s'.wolk = s.wolk := hview
    rw [Part.moment, hact, hview]
    simp
  · rw [Part.moment, hact]
    exact (Wolk.step_moves hd).fifo

/-- A command that waits is taken in its turn. Until then the worker has taken a bounded number of
steps for it and those before it, and can take another one. -/
theorem queued_commands_run {m : ClientMoment H σ} (hrun : (clientMachine W).Run C (k ++ m :: l) s)
    {before after : List WolkCommand} {c : WolkCommand}
    (hq : m.state.wolk.commandBuffer = before ++ c :: after) :
    ((m :: l).filterMap takenCommand)[before.length]? = some c ∨
      ((m :: l).countP (fun n => n.event.ofWorker) < (before.length + 1) * price W ∧
        (∃ rest, s.wolk.commandBuffer =
          before.drop ((m :: l).filterMap takenCommand).length ++ c :: rest) ∧
        ∃ e : ClientEvent, e.ofWorker = true ∧ (s.step W e).isSome = true) := by
  obtain ⟨hsettled, hleft⟩ := settled_of_run hrun.moment.1
  have hrest := hrun.rest
  have hpaid : s.left + (m :: l).countP (fun n => n.event.ofWorker) ≤
      m.state.left + price W * (m :: l).countP (fun n => (takenCommand n).isSome) :=
    hrest.budget Client.left _ _ (price W) fun hr _ hstep =>
      (workerMoves_of_step hstep).left (settled_from hsettled hr)
  rcases hrest.turn (fun n => ((wolkPart W).moment n).bind Wolk.pushedCommand) takenCommand
    (fun t => t.wolk.commandBuffer) (fun _ _ hstep => fifo_of_step hstep) hq with
    htaken | ⟨hlength, rest, hwaits⟩
  · exact .inl htaken
  · refine .inr ⟨?_, ⟨rest, hwaits⟩, ?_⟩
    · rw [← List.length_filterMap_eq_countP] at hpaid
      have hprice := Nat.mul_le_mul_left (price W) hlength
      rw [Nat.add_mul, Nat.one_mul, Nat.mul_comm]
      omega
    · refine worker_enabled ⟨false, false, [], fun _ _ => .refused, [], fun _ _ => .refused, [],
        fun _ => .refused, .refused⟩ ⟨false, "", false, false, false, false, false, false⟩ ?_
      rw [hwaits]
      simp

/-- The client has connected and is on its way back to the queue, where `publish` waits. -/
theorem queued_commands_run_sample : ∃ k m l s,
    (clientMachine sampleClient).Run Free (k ++ m :: l) s ∧
      m.state.wolk.commandBuffer = [.tryConnect true] ++ .publish :: [] ∧
      (m :: l).countP (fun n => n.event.ofWorker) < 2 * price sampleClient ∧
      (∃ rest, s.wolk.commandBuffer = .publish :: rest) ∧
      ∃ e : ClientEvent, e.ofWorker = true ∧ (s.step sampleClient e).isSome = true := by
  obtain ⟨h, s, hrun, ht⟩ := (clientMachine sampleClient).exists_run_of_replay Free
    (let f : FirmwareAnswers := ⟨true, "1", true, true, true, true, true, true⟩
    [.call .connect 0, .call .publish 0, .execute sampleAnswers f, .work])
    (fun h _ => decide (((h.drop 2).filterMap takenCommand).length = 1 ∧
      (h.drop 2).head?.any (fun m =>
        m.state.wolk.commandBuffer = [.tryConnect true, .publish]) = true))
    (by decide +kernel)
  obtain ⟨hone, hany⟩ := of_decide_eq_true ht
  obtain ⟨m, hm, hq⟩ := (Option.any_eq_true _ _).mp hany
  have hq : m.state.wolk.commandBuffer = [.tryConnect true] ++ .publish :: [] :=
    of_decide_eq_true hq
  obtain ⟨l, hdrop⟩ := List.head?_eq_some_iff.mp hm
  have hsplit : h = h.take 2 ++ m :: l := by rw [← hdrop, List.take_append_drop]
  rw [hdrop] at hone
  rw [hsplit] at hrun
  refine ⟨_, m, _, s, hrun, hq, ?_⟩
  rcases queued_commands_run hrun hq with htaken | ⟨hsteps, hwaits, henabled⟩
  · have hlast : [WolkCommand.tryConnect true].length < 1 := hone ▸
      (List.getElem?_eq_some_iff.mp htaken).1
    cases hlast with
    | step hlt => cases hlt
  · rw [hone] at hwaits
    exact ⟨hsteps, hwaits, henabled⟩

end Client
end WolkConnect
