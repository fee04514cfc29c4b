import WolkConnect.Firmware.FirmwareUpdateService
import Mathlib.Data.List.Nodup

/-! The outcomes of one firmware installation: how many terminal statuses are sent for it, and
what a reconnect reports while the installer is running. -/
namespace WolkConnect
open Transition Transition.Machine

/-- A terminal status of the installation. -/
def FirmwareOutput.isOutcomeOf (n : ℕ) : FirmwareOutput → Bool
  | .publishStatus installation .completed _ => installation == some n
  | .publishStatus installation .aborted _ => installation == some n
  | .publishStatus installation (.error .installationFailed) _ => installation == some n
  | _ => false

def firmwareOutcomes (n : ℕ) (os : List FirmwareOutput) : ℕ :=
  os.countP (FirmwareOutput.isOutcomeOf n)

@[simp] theorem firmwareOutcomes_nil (n : ℕ) : firmwareOutcomes n [] = 0 := rfl

@[simp] theorem firmwareOutcomes_append (n : ℕ) (os ps : List FirmwareOutput) :
    firmwareOutcomes n (os ++ ps) = firmwareOutcomes n os + firmwareOutcomes n ps :=
  List.countP_append

abbrev FirmwareHistory := List (Moment FirmwareUpdateService FirmwareEvent FirmwareOutput)

/-- The installation that a report on its way is about. -/
def ReportWorker.about : ReportWorker → Option ℕ
  | .decided _ installation => some installation
  | _ => none

namespace FirmwareUpdateService

variable {W : FirmwareConfig} {h : FirmwareHistory} {s s' : FirmwareUpdateService}
  {ev : FirmwareEvent} {out : List FirmwareOutput} {n : ℕ}

/-- The reconnect that the report belongs to tells of a failed installation. -/
def ReportsFailure (m : Moment FirmwareUpdateService FirmwareEvent FirmwareOutput) : Prop :=
  (∃ a, m.event = .report a) ∧
    ∃ installation published,
      .publishStatus installation (.error .installationFailed) published ∈ m.output

/-- An announced installation has at most one outcome, and no reconnect reports a failure
while the installer is running. -/
structure OneOutcome (h : FirmwareHistory) : Prop where
  once : ∀ n k l published, h = k ++ l →
    .publishStatus (some n) .installation published ∈ outputs k →
      firmwareOutcomes n (outputs l) ≤ 1
  notRunning : ∀ m ∈ h, ReportsFailure m → m.state.running = []

/-- The installation for which the installer is called. -/
def calledAt (m : Moment FirmwareUpdateService FirmwareEvent FirmwareOutput) : Option ℕ :=
  match m.event with
  | .start => m.state.starting
  | _ => none

/-- The installations that the end of the process cuts short. -/
def cutShortAt (m : Moment FirmwareUpdateService FirmwareEvent FirmwareOutput) : List ℕ :=
  match m.event with
  | .restart => m.state.running
  | _ => []

/-- The installation about which a report is sent. -/
def reportSentAt (m : Moment FirmwareUpdateService FirmwareEvent FirmwareOutput) : Option ℕ :=
  match m.event with
  | .report _ => m.state.reporter.about
  | _ => none

def called (h : FirmwareHistory) : List ℕ := h.filterMap calledAt

def cutShort (h : FirmwareHistory) : List ℕ := h.flatMap cutShortAt

def reportsSent (h : FirmwareHistory) : List ℕ := h.filterMap reportSentAt

/-- Nothing is being installed, the process ended before the installer was through with the
installation, if it was called for it, and no report has been sent from its marker. -/
def LeftBehind (h : FirmwareHistory) (s : FirmwareUpdateService) (installation : ℕ) : Prop :=
  s.worker = .idle ∧ s.running = [] ∧
    (installation ∈ called h → installation ∈ cutShort h) ∧ installation ∉ reportsSent h

instance (h : FirmwareHistory) (s : FirmwareUpdateService) (installation : ℕ) :
    Decidable (LeftBehind h s installation) :=
  inferInstanceAs (Decidable (_ ∧ _ ∧ (_ → _) ∧ _ ∉ _))

/-- The command that the worker takes next is an abort. -/
def takesAbort (s : FirmwareUpdateService) : Bool :=
  match s.commandBuffer with
  | .abort _ :: _ => true
  | _ => false

/-- A connection that can report from a marker finds it left behind, the installer is not called
while a report is on its way, and it says to have aborted only while it works on something. -/
def Undisturbed (W : FirmwareConfig) :
    Condition FirmwareUpdateService FirmwareEvent FirmwareOutput := fun h s ev =>
  match ev with
  | .notifyConnected a => ∀ marker ∈ s.marker, W.firmwareVersionProvider = true →
      a.version ≠ "" → LeftBehind h s marker.installation
  | .start => s.reporter.about = none
  | .execute a => s.takesAbort = true → a.aborted = true → s.running ≠ []
  | _ => True

instance (W : FirmwareConfig) (h : FirmwareHistory) (s : FirmwareUpdateService)
    (ev : FirmwareEvent) : Decidable (Undisturbed W h s ev) :=
  match ev with
  | .notifyConnected _ => inferInstanceAs (Decidable (∀ marker ∈ s.marker, _ → _ → _))
  | .start => inferInstanceAs (Decidable (_ = none))
  | .execute _ => inferInstanceAs (Decidable (_ = true → _ = true → s.running ≠ []))
  | .messageReceived _ | .announce _ _ | .installSucceeded _ _ | .installFailed _ _ | .report _
  | .deleteMarker _ | .restart => isTrue trivial

/-- What the step ends has not ended before: a report is about an installation that does not go on
either, and an installer that aborts works on something. -/
def Concludes (s : FirmwareUpdateService) : FirmwareEvent → Prop
  | .report _ => ∀ n, s.reporter.about = some n →
      n ∉ s.ended ∧ n ∉ s.running ∧ s.starting ≠ some n
  | .execute a => s.takesAbort = true → a.aborted = true → s.running ≠ []
  | _ => True

/-- The installations that the state still knows. -/
def known (s : FirmwareUpdateService) : List ℕ :=
  s.ended ++ s.running ++ s.starting.toList ++ (s.marker.map Marker.installation).toList ++
    s.reporter.about.toList

/-- An installation is being started, running or ended, and a new one gets a new number. -/
structure Numbered (s : FirmwareUpdateService) : Prop where
  nodup : s.running.Nodup
  running : ∀ n ∈ s.running, n ∉ s.ended
  starting : ∀ n, s.starting = some n → n ∉ s.ended ∧ n ∉ s.running
  known : ∀ n ∈ s.known, n < s.installs

/-- A status is an outcome of its own installation at most. -/
theorem sendStatus_outcomes {ended ended' : List ℕ} {installation : Option ℕ}
    (hnew : ∀ n, installation = some n → n ∈ ended' ∧ n ∉ ended) (response : FirmwareStatus)
    (a : FirmwareAnswers) :
    firmwareOutcomes n (sendStatus installation response a) ≤
      if n ∈ ended' ∧ n ∉ ended then 1 else 0 := by
  unfold sendStatus
  split
  · unfold firmwareOutcomes
    rw [List.countP_singleton]
    split
    next hn =>
      have hn : installation = some n := by
        unfold FirmwareOutput.isOutcomeOf at hn
        split at hn
        all_goals simp_all
      simp [hnew n hn]
    next => exact Nat.zero_le _
  · exact Nat.zero_le _

theorem sendStatus_none (response : FirmwareStatus) (a : FirmwareAnswers) :
    firmwareOutcomes n (sendStatus none response a) = 0 := by
  have hn : firmwareOutcomes n (sendStatus none response a) ≤
      if n ∈ ([] : List ℕ) ∧ n ∉ ([] : List ℕ) then 1 else 0 :=
    sendStatus_outcomes (fun _ hk => by cases hk) response a
  simpa using hn

theorem sendStatus_installation (installation : Option ℕ) (a : FirmwareAnswers) :
    firmwareOutcomes n (sendStatus installation .installation a) = 0 := by
  unfold sendStatus
  split <;> simp [firmwareOutcomes, FirmwareOutput.isOutcomeOf]

theorem Runs.outcomes {c : FirmwareCommand} {a : FirmwareAnswers} (hr : Runs s c a s' out)
    (hs : Numbered s) (ha : ∀ keys, c = .abort keys → a.aborted = true → s.running ≠ []) :
    s.ended ⊆ s'.ended ∧ firmwareOutcomes n out ≤ if n ∈ s'.ended ∧ n ∉ s.ended then 1 else 0 := by
  cases hr with
  | marked keys firmwareFile a => exact ⟨List.Subset.refl _, Nat.zero_le _⟩
  | aborted keys a haborted =>
    refine ⟨List.subset_append_right _ _, ?_⟩
    apply sendStatus_outcomes
    intro k hk
    obtain ⟨m, rest, hm⟩ := List.exists_cons_of_ne_nil (ha keys rfl haborted)
    obtain rfl : m = k := by simpa [abortable, hm] using hk
    have hmem : m ∈ s.running := by simp [hm]
    exact ⟨List.mem_append_left _ hmem, hs.running m hmem⟩
  | kept c a out hout =>
    refine ⟨List.Subset.refl _, ?_⟩
    obtain rfl | rfl | ⟨error, rfl⟩ | ⟨version, published, rfl⟩ := hout
    · exact Nat.zero_le _
    · exact Nat.zero_le _
    · rw [sendStatus_none]
      exact Nat.zero_le _
    · exact Nat.zero_le _

/-- What the report will send is decided, and no more. -/
theorem reportFirmwareUpdateResult_eq (s : FirmwareUpdateService) (a : FirmwareAnswers) :
    ∃ cs reporter, (reportFirmwareUpdateResult W s a).1 =
        { s with commandBuffer := cs, reporter := reporter } ∧
      (reporter = s.reporter ∨ reporter = .idle ∨
        ∃ status marker, s.marker = some marker ∧ W.firmwareVersionProvider = true ∧
          a.version ≠ "" ∧ reporter = .decided status marker.installation) ∧
      firmwareOutcomes n (reportFirmwareUpdateResult W s a).2 = 0 := by
  unfold reportFirmwareUpdateResult
  split
  next => exact ⟨_, _, rfl, .inr (.inl rfl), rfl⟩
  next marker hmarker =>
    split
    · exact ⟨_, _, rfl, .inl rfl, rfl⟩
    next hprovider =>
      have hprovider : W.firmwareVersionProvider = true := by simpa using hprovider
      dsimp only
      split
      · exact ⟨_, _, rfl, .inr (.inl rfl), rfl⟩
      next hversion =>
        generalize W.removeTrailingWhitespace _ = stored
        split
        · exact ⟨_, _, rfl, .inr (.inr ⟨_, marker, hmarker, hprovider, hversion, rfl⟩), rfl⟩
        · exact ⟨_, _, rfl, .inr (.inr ⟨_, marker, hmarker, hprovider, hversion, rfl⟩), rfl⟩

/-- The worker goes on to start the installation, or gives up. -/
theorem announce_eq (s : FirmwareUpdateService) (installation : ℕ) (fileInfo : Option FileInfo)
    (a : FirmwareAnswers) :
    ∃ worker last, (announce s installation fileInfo a).1 =
        { s with worker := worker, last := last } ∧
      (worker = .idle ∨ ∃ path, worker = .announced path installation) ∧
      firmwareOutcomes n (announce s installation fileInfo a).2 = 0 := by
  unfold announce
  split
  · exact ⟨_, _, rfl, .inl rfl, sendStatus_none _ _⟩
  · exact ⟨_, _, rfl, .inr ⟨_, rfl⟩, sendStatus_installation _ _⟩

/-- A step sends an outcome only of what it ends. -/
theorem Moves.outcomes (hm : Moves W s ev s' out) (hs : Numbered s) (hc : s.Concludes ev) :
    s.ended ⊆ s'.ended ∧ firmwareOutcomes n out ≤ if n ∈ s'.ended ∧ n ∉ s.ended then 1 else 0 := by
  cases hm with
  | received c => exact ⟨List.Subset.refl _, Nat.zero_le _⟩
  | ran c rest a s' out hw hq hr =>
    have hs : Numbered { s with commandBuffer := rest } :=
      ⟨hs.nodup, hs.running, hs.starting, hs.known⟩
    apply hr.outcomes hs
    rintro keys rfl ha
    exact hc (by simp [takesAbort, hq]) ha
  | announced file installation fileInfo a hw =>
    obtain ⟨worker, last, heq, -, hout⟩ := announce_eq (n := n) s installation fileInfo a
    rw [heq, hout]
    exact ⟨List.Subset.refl _, Nat.zero_le _⟩
  | started path installation hw => exact ⟨List.Subset.refl _, Nat.zero_le _⟩
  | succeeded installation a hn =>
    refine ⟨List.subset_cons_self _ _, ?_⟩
    apply sendStatus_outcomes
    rintro k ⟨⟩
    exact ⟨List.mem_cons_self, hs.running _ hn⟩
  | failed installation a hn =>
    refine ⟨List.subset_cons_self _ _, ?_⟩
    apply sendStatus_outcomes
    rintro k ⟨⟩
    exact ⟨List.mem_cons_self, hs.running _ hn⟩
  | notified a hr =>
    obtain ⟨cs, reporter, heq, -, hout⟩ := reportFirmwareUpdateResult_eq (W := W) (n := n) s a
    rw [heq, hout]
    exact ⟨List.Subset.refl _, Nat.zero_le _⟩
  | sent status installation a hr =>
    refine ⟨List.subset_cons_self _ _, ?_⟩
    apply sendStatus_outcomes
    rintro k ⟨⟩
    exact ⟨List.mem_cons_self, (hc installation (by simp [hr, ReportWorker.about])).1⟩
  | deleted a hr => exact ⟨List.Subset.refl _, Nat.zero_le _⟩
  | restarted => exact ⟨List.Subset.refl _, Nat.zero_le _⟩

/-- A step that only forgets about installations keeps the others apart. -/
theorem Numbered.mono (hs : Numbered s)
    (hsame : s'.running = s.running ∧ s'.ended = s.ended ∧ s'.installs = s.installs)
    (hstarting : ∀ n, s'.starting = some n → s.starting = some n)
    (hknown : ∀ n ∈ s'.known, n ∈ s.known) : Numbered s' := by
  obtain ⟨hrunning, hended, hinstalls⟩ := hsame
  constructor
  · rw [hrunning]
    exact hs.nodup
  · rw [hrunning, hended]
    exact hs.running
  · intro n hn
    rw [hrunning, hended]
    exact hs.starting n (hstarting n hn)
  · intro n hn
    rw [hinstalls]
    exact hs.known n (hknown n hn)

theorem mem_known : n ∈ s.known ↔ n ∈ s.ended ∨ n ∈ s.running ∨ s.starting = some n ∨
    (∃ marker, s.marker = some marker ∧ marker.installation = n) ∨
      s.reporter.about = some n := by
  simp only [known, List.mem_append, Option.mem_toList, Option.map_eq_some_iff, or_assoc]

/-- A step after which nothing is running or being started. -/
theorem Numbered.stop (hs : Numbered s) (hrunning : s'.running = [])
    (hstarting : s'.starting = none) (hknown : ∀ n ∈ s'.known, n ∈ s.known)
    (hinstalls : s'.installs = s.installs) : Numbered s' := by
  constructor
  · rw [hrunning]
    exact List.nodup_nil
  · simp [hrunning]
  · simp [hstarting]
  · intro n hn
    rw [hinstalls]
    exact hs.known n (hknown n hn)

theorem Runs.numbered {c : FirmwareCommand} {a : FirmwareAnswers} (hr : Runs s c a s' out)
    (hw : s.worker = .idle) (hs : Numbered s) : Numbered s' := by
  cases hr with
  | marked keys firmwareFile a =>
    have hnew : s.installs ∉ s.known := fun hn => Nat.lt_irrefl _ (hs.known _ hn)
    rw [mem_known] at hnew
    push Not at hnew
    constructor
    · exact hs.nodup
    · exact hs.running
    · rintro n ⟨⟩
      exact ⟨hnew.1, hnew.2.1⟩
    · intro n hn
      apply Nat.lt_succ_of_le
      by_cases hn' : n ∈ s.known
      · exact Nat.le_of_lt (hs.known n hn')
      · simp only [mem_known, starting] at hn hn'
        grind
  | aborted keys a ha =>
    apply hs.stop
    · rfl
    · simp [starting, hw]
    · intro n hn
      simp only [mem_known, starting, List.mem_append] at hn ⊢
      grind
    · rfl
  | kept c a out hout => exact hs

/-- The installation leaves `running` for `ended`, or was never there. -/
theorem Numbered.conclude (hs : Numbered s) {installation : ℕ} {running : List ℕ}
    (hknown : installation ∈ s.known) (hrunning : running = s.running.erase installation)
    (hstarting : s.starting ≠ some installation) :
    Numbered { s with running := running, ended := installation :: s.ended } := by
  subst hrunning
  constructor
  · exact hs.nodup.erase installation
  · intro n hn
    obtain ⟨hne, hn⟩ := hs.nodup.mem_erase_iff.mp hn
    simp only [List.mem_cons, not_or]
    exact ⟨hne, hs.running n hn⟩
  · intro n hn
    obtain ⟨hended, hrunning⟩ := hs.starting n hn
    simp only [List.mem_cons, not_or]
    refine ⟨⟨?_, hended⟩, fun hn => hrunning (List.mem_of_mem_erase hn)⟩
    rintro rfl
    exact hstarting hn
  · intro n hn
    by_cases hn' : n = installation
    · subst hn'
      exact hs.known n hknown
    · apply hs.known
      apply mem_known.mpr
      obtain hn | hn | hn | hn | hn := mem_known.mp hn
      · exact .inl (List.mem_of_ne_of_mem hn' hn)
      · exact .inr (.inl (List.mem_of_mem_erase hn))
      · exact .inr (.inr (.inl hn))
      · exact .inr (.inr (.inr (.inl hn)))
      · exact .inr (.inr (.inr (.inr hn)))

theorem Numbered.finish (hs : Numbered s) (hn : n ∈ s.running) : Numbered (s.finish n) := by
  have hknown : n ∈ s.known := mem_known.mpr (.inr (.inl hn))
  exact hs.conclude hknown rfl fun h => (hs.starting n h).2 hn

theorem Moves.numbered (hm : Moves W s ev s' out) (hs : Numbered s) (hc : s.Concludes ev) :
    Numbered s' := by
  cases hm with
  | received c => exact hs.mono ⟨rfl, rfl, rfl⟩ (fun _ hn => hn) fun _ hn => hn
  | ran c rest a s' out hw hq hr =>
    apply hr.numbered hw
    exact hs.mono ⟨rfl, rfl, rfl⟩ (fun _ hn => hn) fun _ hn => hn
  | announced file installation fileInfo a hw =>
    obtain ⟨worker, last, heq, hworker, -⟩ := announce_eq (n := 0) s installation fileInfo a
    rw [heq]
    have hstarting : ∀ n, starting { s with worker := worker, last := last } = some n →
        s.starting = some n := by
      intro n hn
      simp only [starting, hw] at hn ⊢
      grind
    apply hs.mono
    · exact ⟨rfl, rfl, rfl⟩
    · exact hstarting
    · intro n hn
      apply mem_known.mpr
      obtain hn | hn | hn | hn | hn := mem_known.mp hn
      · exact .inl hn
      · exact .inr (.inl hn)
      · exact .inr (.inr (.inl (hstarting n hn)))
      · exact .inr (.inr (.inr (.inl hn)))
      · exact .inr (.inr (.inr (.inr hn)))
  | started path installation hw =>
    have hstarting : s.starting = some installation := by simp [starting, hw]
    obtain ⟨hended, hrunning⟩ := hs.starting installation hstarting
    constructor
    · exact List.nodup_cons.mpr ⟨hrunning, hs.nodup⟩
    · exact List.forall_mem_cons.mpr ⟨hended, hs.running⟩
    · rintro n ⟨⟩
    · intro n hn
      apply hs.known
      simp only [mem_known, starting, hw, List.mem_cons] at hn ⊢
      grind
  | succeeded installation a hn =>
    have hs := hs.finish hn
    apply hs.mono
    · exact ⟨rfl, rfl, rfl⟩
    · exact fun _ hn => hn
    · exact fun _ hn => hn
  | failed installation a hn => exact hs.finish hn
  | notified a hr =>
    obtain ⟨cs, reporter, heq, hreporter, -⟩ := reportFirmwareUpdateResult_eq (W := W) (n := 0) s a
    rw [heq]
    apply hs.mono
    · exact ⟨rfl, rfl, rfl⟩
    · exact fun _ hn => hn
    · intro n hn
      simp only [mem_known, starting] at hn ⊢
      grind [ReportWorker.about]
  | sent status installation a hr =>
    have habout : s.reporter.about = some installation := by simp [hr, ReportWorker.about]
    obtain ⟨hended, hrunning, hstarting⟩ := hc installation habout
    have hknown : installation ∈ s.known := mem_known.mpr (.inr (.inr (.inr (.inr habout))))
    have hs := hs.conclude hknown (List.erase_of_not_mem hrunning).symm hstarting
    apply hs.mono
    · exact ⟨rfl, rfl, rfl⟩
    · exact fun _ hn => hn
    · intro n hn
      simp only [mem_known, starting] at hn ⊢
      grind [ReportWorker.about]
  | deleted a hr =>
    apply hs.mono
    · exact ⟨rfl, rfl, rfl⟩
    · exact fun _ hn => hn
    · intro n hn
      simp only [mem_known, reported, addToCommandBuffer, starting] at hn ⊢
      grind [ReportWorker.about]
  | restarted =>
    apply hs.stop
    · rfl
    · rfl
    · intro n hn
      simp only [mem_known, starting] at hn ⊢
      grind [ReportWorker.about]
    · rfl

/-! What the condition on connections and starts comes to at the steps that send. -/

/-- An installation that runs was called for and not cut short; one that has ended was reported,
or ended by its installer; and a report on its way is about none of these. -/
structure Tracked (h : FirmwareHistory) (s : FirmwareUpdateService) : Prop where
  numbered : Numbered s
  running : ∀ n ∈ s.running, n ∈ called h
  cut : ∀ n ∈ cutShort h, n < s.installs ∧ n ∉ s.running ∧ s.starting ≠ some n
  ended : ∀ n ∈ s.ended, n ∈ reportsSent h ∨ (n ∈ called h ∧ n ∉ cutShort h)
  reporting : ∀ n, s.reporter.about = some n →
    s.running = [] ∧ n ∉ s.ended ∧ s.starting ≠ some n

theorem mem_called_concat {m : Moment FirmwareUpdateService FirmwareEvent FirmwareOutput} :
    n ∈ called (h ++ [m]) ↔ n ∈ called h ∨ calledAt m = some n := by
  simp [called]

theorem mem_cutShort_concat {m : Moment FirmwareUpdateService FirmwareEvent FirmwareOutput} :
    n ∈ cutShort (h ++ [m]) ↔ n ∈ cutShort h ∨ n ∈ cutShortAt m := by
  simp [cutShort]

theorem mem_reportsSent_concat {m : Moment FirmwareUpdateService FirmwareEvent FirmwareOutput} :
    n ∈ reportsSent (h ++ [m]) ↔ n ∈ reportsSent h ∨ reportSentAt m = some n := by
  simp [reportsSent]

/-- An undisturbed step ends what has not ended before. -/
theorem Tracked.concludes (ht : Tracked h s) (hc : Undisturbed W h s ev) : s.Concludes ev := by
  cases ev with
  | report a =>
    intro n hn
    obtain ⟨hrunning, hended, hstarting⟩ := ht.reporting n hn
    exact ⟨hended, by simp [hrunning], hstarting⟩
  | execute a => exact hc
  | _ => trivial

/-- A step keeps track if it starts an installation with a new number, ends what it runs or
reports, and leaves nothing at work where it cuts something short. -/
theorem Tracked.concat (ht : Tracked h s)
    {m : Moment FirmwareUpdateService FirmwareEvent FirmwareOutput} (hm : m.state = s)
    (hnumbered : Numbered s') (hinstalls : s.installs ≤ s'.installs)
    (hrunning : ∀ n ∈ s'.running, n ∈ s.running ∨ calledAt m = some n)
    (hstarting : ∀ n, s'.starting = some n → s.starting = some n ∨ n = s.installs)
    (hended : ∀ n ∈ s'.ended,
      n ∈ s.ended ∨ (n ∈ s.running ∧ cutShortAt m = []) ∨ reportSentAt m = some n)
    (hcut : cutShortAt m = [] ∨ (s'.running = [] ∧ s'.starting = none))
    (hreporting : ∀ n, s'.reporter.about = some n →
      s'.running = [] ∧ n ∉ s'.ended ∧ s'.starting ≠ some n) : Tracked (h ++ [m]) s' := by
  have hcutShort (n : ℕ) (hn : n ∈ cutShortAt m) : n ∈ s.running := by
    unfold cutShortAt at hn
    split at hn
    · rwa [← hm]
    · cases hn
  have hcalled (n : ℕ) (hn : calledAt m = some n) : s.starting = some n := by
    unfold calledAt at hn
    split at hn
    · rwa [← hm]
    · cases hn
  constructor
  · exact hnumbered
  · intro n hn
    rw [mem_called_concat]
    exact (hrunning n hn).imp_left (ht.running n)
  · intro n hn
    rcases mem_cutShort_concat.mp hn with hn | hn
    · obtain ⟨hlt, hidle, hnew⟩ := ht.cut n hn
      refine ⟨Nat.lt_of_lt_of_le hlt hinstalls, ?_, ?_⟩
      · intro hn
        rcases hrunning n hn with hn | hn
        · exact hidle hn
        · exact hnew (hcalled n hn)
      · intro hn
        rcases hstarting n hn with hn | rfl
        · exact hnew hn
        · exact Nat.lt_irrefl _ hlt
    · have hknown : n ∈ s.known := mem_known.mpr (.inr (.inl (hcutShort n hn)))
      rcases hcut with hnone | ⟨hidle, hstopped⟩
      · simp [hnone] at hn
      · exact ⟨Nat.lt_of_lt_of_le (ht.numbered.known n hknown) hinstalls, by simp [hidle],
          by simp [hstopped]⟩
  · intro n hn
    rw [mem_reportsSent_concat, mem_called_concat, mem_cutShort_concat]
    rcases hended n hn with hn | ⟨hn, hnone⟩ | hn
    · rcases ht.ended n hn with hsent | ⟨hc, hnot⟩
      · exact .inl (.inl hsent)
      · refine .inr ⟨.inl hc, ?_⟩
        rintro (hn' | hn')
        · exact hnot hn'
        · exact ht.numbered.running n (hcutShort n hn') hn
    · refine .inr ⟨.inl (ht.running n hn), ?_⟩
      rintro (hn' | hn')
      · exact (ht.cut n hn').2.1 hn
      · simp [hnone] at hn'
    · exact .inl (.inr hn)
  · exact hreporting

/-- A step that leaves the installations as they are. -/
theorem Tracked.kept (ht : Tracked h s)
    {m : Moment FirmwareUpdateService FirmwareEvent FirmwareOutput} (hm : m.state = s)
    (hnumbered : Numbered s')
    (hsame : s'.running = s.running ∧ s'.ended = s.ended ∧ s'.installs = s.installs)
    (hstarting : ∀ n, s'.starting = some n → s.starting = some n) (hcut : cutShortAt m = [])
    (hreporting : ∀ n, s'.reporter.about = some n →
      s'.running = [] ∧ n ∉ s'.ended ∧ s'.starting ≠ some n) : Tracked (h ++ [m]) s' := by
  obtain ⟨hrunning, hended, hinstalls⟩ := hsame
  apply ht.concat hm hnumbered (Nat.le_of_eq hinstalls.symm)
  · exact fun n hn => .inl (hrunning ▸ hn)
  · exact fun n hn => .inl (hstarting n hn)
  · exact fun n hn => .inl (hended ▸ hn)
  · exact .inl hcut
  · exact hreporting

theorem Runs.tracked {c : FirmwareCommand} {a : FirmwareAnswers}
    {rest : List FirmwareCommand} (hr : Runs { s with commandBuffer := rest } c a s' out)
    (hnumbered : Numbered s') (ht : Tracked h s)
    (ha : ∀ keys, c = .abort keys → a.aborted = true → s.running ≠ []) :
    Tracked (h ++ [⟨s, .execute a, out⟩]) s' := by
  cases hr with
  | marked keys firmwareFile a =>
    apply ht.concat rfl hnumbered (Nat.le_succ _)
    · exact fun n hn => .inl hn
    · rintro n ⟨⟩
      exact .inr rfl
    · exact fun n hn => .inl hn
    · exact .inl rfl
    · intro n hn
      obtain ⟨hrunning, hended, -⟩ := ht.reporting n hn
      refine ⟨hrunning, hended, ?_⟩
      rintro ⟨⟩
      exact Nat.lt_irrefl _ (ht.numbered.known _ (mem_known.mpr (.inr (.inr (.inr (.inr hn))))))
  | aborted keys a haborted =>
    apply ht.concat rfl hnumbered (Nat.le_refl _)
    · exact fun n hn => absurd hn List.not_mem_nil
    · exact fun n hn => .inl hn
    · intro n hn
      rcases List.mem_append.mp hn with hn | hn
      · exact .inr (.inl ⟨hn, rfl⟩)
      · exact .inl hn
    · exact .inl rfl
    · intro n hn
      exact absurd (ht.reporting n hn).1 (ha keys rfl haborted)
  | kept c a out hout =>
    exact ht.kept rfl hnumbered ⟨rfl, rfl, rfl⟩ (fun _ hn => hn) rfl ht.reporting

theorem Tracked.finish (ht : Tracked h s) (hn : n ∈ s.running)
    {m : Moment FirmwareUpdateService FirmwareEvent FirmwareOutput} (hm : m.state = s)
    (hcut : cutShortAt m = []) : Tracked (h ++ [m]) (s.finish n) := by
  apply ht.concat hm (ht.numbered.finish hn) (Nat.le_refl _)
  · exact fun k hk => .inl (List.mem_of_mem_erase hk)
  · exact fun k hk => .inl hk
  · intro k hk
    rcases List.mem_cons.mp hk with rfl | hk
    · exact .inr (.inl ⟨hn, hcut⟩)
    · exact .inl hk
  · exact .inl hcut
  · intro k hk
    rw [(ht.reporting k hk).1] at hn
    cases hn

theorem Moves.tracked (hm : Moves W s ev s' out) (ht : Tracked h s) (hc : Undisturbed W h s ev) :
    Tracked (h ++ [⟨s, ev, out⟩]) s' := by
  have hnumbered : Numbered s' := hm.numbered ht.numbered (ht.concludes hc)
  cases hm with
  | received c =>
    exact ht.kept rfl hnumbered ⟨rfl, rfl, rfl⟩ (fun _ hn => hn) rfl ht.reporting
  | ran c rest a s' out hw hq hr =>
    apply hr.tracked hnumbered ht
    rintro keys rfl ha
    exact hc (by simp [takesAbort, hq]) ha
  | announced file installation fileInfo a hw =>
    obtain ⟨worker, last, heq, hworker, -⟩ := announce_eq (n := 0) s installation fileInfo a
    have hstarting (n : ℕ) (hn : starting { s with worker := worker, last := last } = some n) :
        s.starting = some n := by
      simp only [starting, hw] at hn ⊢
      grind
    rw [heq] at hnumbered ⊢
    refine ht.kept rfl hnumbered ⟨rfl, rfl, rfl⟩ hstarting rfl ?_
    intro n hn
    obtain ⟨hrunning, hended, hother⟩ := ht.reporting n hn
    exact ⟨hrunning, hended, fun hn => hother (hstarting n hn)⟩
  | started path installation hw =>
    apply ht.concat rfl hnumbered (Nat.le_refl _)
    · intro n hn
      rcases List.mem_cons.mp hn with rfl | hn
      · exact .inr (by simp [calledAt, starting, hw])
      · exact .inl hn
    · rintro n ⟨⟩
    · exact fun n hn => .inl hn
    · exact .inl rfl
    · intro n hn
      have hnone : s.reporter.about = none := hc
      rw [hnone] at hn
      cases hn
  | succeeded installation a hn =>
    have hf := ht.finish hn (m := ⟨s, .installSucceeded installation a,
      sendStatus (some installation) .completed a⟩) rfl rfl
    exact ⟨hnumbered, hf.running, hf.cut, hf.ended, hf.reporting⟩
  | failed installation a hn => exact ht.finish hn rfl rfl
  | notified a hr =>
    obtain ⟨cs, reporter, heq, hreporter, -⟩ := reportFirmwareUpdateResult_eq (W := W) (n := 0) s a
    rw [heq] at hnumbered ⊢
    refine ht.kept rfl hnumbered ⟨rfl, rfl, rfl⟩ (fun _ hn => hn) rfl ?_
    intro n hn
    rcases hreporter with rfl | rfl | ⟨status, marker, hmarker, hprovider, hversion, rfl⟩
    · exact ht.reporting n hn
    · cases hn
    · obtain rfl : marker.installation = n := Option.some.inj hn
      obtain ⟨hidle, hrunning, hcut, hsent⟩ := hc marker hmarker hprovider hversion
      refine ⟨hrunning, ?_, by simp [starting, hidle]⟩
      intro hended
      rcases ht.ended _ hended with hn | ⟨hcalled, hnot⟩
      · exact hsent hn
      · exact hnot (hcut hcalled)
  | sent status installation a hr =>
    apply ht.concat rfl hnumbered (Nat.le_refl _)
    · exact fun n hn => .inl hn
    · exact fun n hn => .inl hn
    · intro n hn
      rcases List.mem_cons.mp hn with rfl | hn
      · exact .inr (.inr (by simp [reportSentAt, hr, ReportWorker.about]))
      · exact .inl hn
    · exact .inl rfl
    · rintro n ⟨⟩
  | deleted a hr => exact ht.kept rfl hnumbered ⟨rfl, rfl, rfl⟩ (fun _ hn => hn) rfl nofun
  | restarted =>
    apply ht.concat rfl hnumbered (Nat.le_refl _)
    · exact fun n hn => absurd hn List.not_mem_nil
    · rintro n ⟨⟩
    · exact fun n hn => .inl hn
    · exact .inr ⟨rfl, rfl⟩
    · rintro n ⟨⟩

theorem run_tracked (hrun : (firmwareMachine W).Run (Undisturbed W) h s) : Tracked h s := by
  apply hrun.invariant Tracked
  · have hnumbered : Numbered (firmwareMachine W).start := by
      constructor <;> simp [firmwareMachine, construct, known, starting, ReportWorker.about]
    refine ⟨hnumbered, ?_, ?_, ?_, ?_⟩
    all_goals simp [firmwareMachine, construct, cutShort, ReportWorker.about]
  · intro h s s' ev out _ ih hc hstep
    exact (step_moves hstep).tracked ih hc

/-- Only what has ended has had an outcome, and then one at most. -/
theorem run_outcomes (hrun : (firmwareMachine W).Run (Undisturbed W) h s) (n : ℕ) :
    firmwareOutcomes n (outputs h) ≤ if n ∈ s.ended then 1 else 0 := by
  induction hrun with
  | start => exact Nat.zero_le _
  | @step h s s' ev out hr hc hstep ih =>
    have ht := run_tracked hr
    obtain ⟨hended, hout⟩ := (step_moves hstep).outcomes (n := n) ht.numbered (ht.concludes hc)
    rw [outputs_append, outputs_singleton, firmwareOutcomes_append]
    refine Nat.le_trans (Nat.add_le_add ih hout) ?_
    by_cases hn : n ∈ s.ended
    · simp [hn, hended hn]
    · simp [hn]

end FirmwareUpdateService

open FirmwareUpdateService

variable {W : FirmwareConfig} {h : FirmwareHistory} {s : FirmwareUpdateService}

/-- In an undisturbed run every installation has at most one outcome. -/
theorem one_outcome (hrun : (firmwareMachine W).Run (Undisturbed W) h s) : OneOutcome h := by
  constructor
  · rintro n k l published rfl -
    have hn := run_outcomes hrun n
    rw [outputs_append, firmwareOutcomes_append] at hn
    have hone : (if n ∈ s.ended then 1 else 0) ≤ 1 := by
      split <;> decide
    omega
  · rintro m hm ⟨⟨a, ha⟩, installation, published, hout⟩
    obtain ⟨k, l, rfl⟩ := List.append_of_mem hm
    obtain ⟨hr, -, t, hstep⟩ := hrun.moment
    have hmoves := step_moves hstep
    rw [ha] at hmoves
    generalize hos : m.output = os at hmoves hout
    cases hmoves with
    | sent status n a hdecided =>
      exact ((run_tracked hr).reporting n (by simp [hdecided, ReportWorker.about])).1

def sampleFirmware : FirmwareConfig where
  deviceKey := "D"
  firmwareInstaller := true
  firmwareVersionProvider := true
  removeTrailingWhitespace s :=
    String.ofList (s.toList.reverse.dropWhile Char.isWhitespace).reverse

def firmwareAnswers (version : String) : FirmwareAnswers where
  filePresent := true
  version := version
  created := true
  readable := true
  deleted := true
  aborted := false
  makesMessage := true
  published := true

/-- The installation of one file, up to the call of the installer. -/
def sampleInstall : List FirmwareEvent :=
  [.messageReceived (.install ["D"] "fw"), .execute (firmwareAnswers "1"),
    .announce (some ⟨"fw", "h", "/files/fw"⟩) (firmwareAnswers "1"), .start]

/-- The connection that reports the result. -/
def sampleReport (version : String) : List FirmwareEvent :=
  [.notifyConnected (firmwareAnswers version), .report (firmwareAnswers version),
    .deleteMarker (firmwareAnswers version)]

/-- The device restarts with its new firmware, and reports it when it connects. -/
theorem one_outcome_sample : ∃ h s,
    (firmwareMachine sampleFirmware).Run (Undisturbed sampleFirmware) h s ∧
    firmwareOutcomes 0 (outputs h) = 1 ∧ OneOutcome h := by
  obtain ⟨h, s, hr, hp⟩ := (firmwareMachine sampleFirmware).exists_run_of_replay
    (Undisturbed sampleFirmware)
    (sampleInstall ++ .restart :: sampleReport "2")
    (fun h _ => decide (firmwareOutcomes 0 (outputs h) = 1)) (by decide +kernel)
  exact ⟨h, s, hr, of_decide_eq_true hp, one_outcome hr⟩

/-- The installer has reported its success, and the reconnect reports a failure. -/
theorem reconnect_reports_again :
    ¬ ∀ h s, (firmwareMachine sampleFirmware).Run Free h s → OneOutcome h := by
  intro hall
  obtain ⟨h, s, hr, hp⟩ := (firmwareMachine sampleFirmware).exists_run_of_replay Free
    (sampleInstall ++ .installSucceeded 0 (firmwareAnswers "1") :: sampleReport "1")
    (fun h _ => decide (.publishStatus (some 0) .installation true ∈ outputs (h.take 3) ∧
      firmwareOutcomes 0 (outputs (h.drop 3)) = 2)) (by decide +kernel)
  obtain ⟨hannounced, htwo⟩ := of_decide_eq_true hp
  have hone := (hall h s hr).once 0 _ _ true (List.take_append_drop 3 h).symm hannounced
  omega

end WolkConnect
