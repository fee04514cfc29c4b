import WolkConnect.Data.HandlerCalls
import WolkConnect.Transition.Past
import WolkConnect.Transition.Followed

/-! The newest actuator status of a reference: the one that is persisted, or else the last
one published, was evaluated after the last actuation of the reference. -/
namespace WolkConnect
open Transition Transition.Machine

namespace DataService

variable {ι : Type}

/-- The items of a key that were published, oldest first. -/
def published (key : String) (log : List (Batch ι)) : List ι :=
  log.flatMap fun b => if b.key = key ∧ b.attempt = .published then b.items else []

@[simp] theorem published_append (key : String) (l m : List (Batch ι)) :
    published key (l ++ m) = published key l ++ published key m := List.flatMap_append

/-- With messages that can be made, an item of a key is kept or published. -/
theorem publishOne_split {attempt : Attempt} (ha : attempt ≠ .noMessage)
    (items : String → Option ι) (k key : String) :
    (items key).toList =
      published key (publishOne attempt items k).2 ++
        ((publishOne attempt items k).1 key).toList := by
  unfold publishOne
  cases hk : items k with
  | none => rfl
  | some item =>
    cases attempt with
    | noMessage => exact absurd rfl ha
    | refused => simp [published]
    | published =>
      by_cases h : k = key
      · subst h
        simp [published, hk]
      · simp [published, h, Function.update_of_ne (Ne.symm h)]

theorem publishEach_split {attempts : ℕ → Attempt} (ha : ∀ n, attempts n ≠ .noMessage)
    (keys : List String) (items : String → Option ι) (key : String) :
    (items key).toList =
      published key (publishEach keys attempts items).2 ++
        ((publishEach keys attempts items).1 key).toList := by
  induction keys generalizing attempts items with
  | nil => rfl
  | cons k keys ih =>
    rw [publishEach, published_append, List.append_assoc, ← ih fun n => ha (n + 1)]
    exact publishOne_split (ha 0) items k key

end DataService

namespace Wolk

variable {σ : Type}

def statusBatch : WolkOutput → Option (Batch ActuatorStatus)
  | .actuatorStatus batch => some batch
  | _ => none

/-- The statuses of a reference whose publish returned true, oldest first. -/
def publishedStatuses (reference : String) (os : List WolkOutput) : List ActuatorStatus :=
  DataService.published reference (os.filterMap statusBatch)

/-- The persisted status, or else the last one published. -/
def newestStatus (h : WolkHistory σ) (s : Wolk σ) (reference : String) : Option ActuatorStatus :=
  (s.persistence.actuatorStatuses reference).or (publishedStatuses reference (outputs h)).getLast?

/-- A message can be made of every actuator status. -/
def MakesMessages : Condition (Wolk σ) WolkEvent WolkOutput :=
  fun _ _ ev => ∀ a, ev = .execute a → ∀ n, a.actuatorStatusesAttempts n ≠ .noMessage

/-- Nothing is queued, and no inbound message is between an actuation and its status. -/
def Drained (s : Wolk σ) (reference : String) : Prop :=
  s.commandBuffer = [] ∧ .publishActuatorStatus reference ∉ s.handling

instance (s : Wolk σ) (reference : String) : Decidable (s.Drained reference) :=
  inferInstanceAs (Decidable (s.commandBuffer = [] ∧ _ ∉ s.handling))

/-- What the configured provider says of a device. Without one it is `ActuatorStatus()`. -/
def providerAnswer (W : WolkConfig σ) (alive : Bool) (device : σ) (reference : String) :
    String × ActuatorState :=
  match configured alive W.actuatorStatusProvider W.actuatorStatusProviderLambda with
  | some provider => provider device reference
  | none => W.defaultActuatorStatus

/-- At this moment the worker takes a command for the reference, and the status is what the
provider says of the device as the handler calls before it left it. -/
structure Evaluates (W : WolkConfig σ) (reference : String) (status : ActuatorStatus)
    (before : WolkHistory σ) (m : Moment (Wolk σ) WolkEvent WolkOutput) : Prop where
  taken : executedCommand m = some (.publishActuatorStatus reference)
  about : status.reference = reference
  stamp : status.evaluated = m.state.executed
  answer : ∃ a, m.event = .execute a ∧
    (status.value, status.state) = providerAnswer W a.alive (deviceAfter W before) reference

variable (W : WolkConfig σ)

/-- The status that a `publishActuatorStatus` command puts into the persistence. -/
def evaluatedStatus (a : Answers) (s : Wolk σ) (reference : String) : ActuatorStatus :=
  let status := getActuatorStatus W a.alive s.device reference
  ⟨status.1, reference, status.2, s.executed⟩

/-- The status of a reference that a command can publish. -/
def offered (c : WolkCommand) (a : Answers) (s : Wolk σ) (reference : String) :
    Option ActuatorStatus :=
  if c = .publishActuatorStatus reference then some (evaluatedStatus W a s reference)
  else s.persistence.actuatorStatuses reference

theorem run_statuses {a : Answers} (ha : ∀ n, a.actuatorStatusesAttempts n ≠ .noMessage)
    (c : WolkCommand) (s : Wolk σ) (reference : String) :
    (offered W c a s reference).toList = publishedStatuses reference (run W c a s).2 ++
      ((run W c a s).1.persistence.actuatorStatuses reference).toList := by
  cases c with
  | publish =>
    have hsplit := DataService.publishEach_split ha a.actuatorStatusesKeys
      s.persistence.actuatorStatuses reference
    rw [run, flush_eq]
    simpa [offered, publishedStatuses, List.filterMap_append, List.filterMap_map, statusBatch,
      Function.comp_def] using hsplit
  | publishActuatorStatus r =>
    have hsplit := DataService.publishEach_split ha a.actuatorStatusesKeys
      (Function.update s.persistence.actuatorStatuses r (some (evaluatedStatus W a s r))) reference
    have hoffered : Function.update s.persistence.actuatorStatuses r
        (some (evaluatedStatus W a s r)) reference =
        offered W (.publishActuatorStatus r) a s reference := by
      by_cases hr : r = reference
      · subst hr
        simp [offered]
      · simp [offered, hr, Function.update_of_ne (Ne.symm hr)]
    rw [hoffered] at hsplit
    rw [hsplit]
    simp [run, flushActuatorStatuses, DataService.publishActuatorStatuses,
      DataService.addActuatorStatus, publishedStatuses, List.filterMap_map, statusBatch,
      Function.comp_def, evaluatedStatus]
  | publishConfiguration =>
    simp [run, flushConfiguration, DataService.publishConfiguration, DataService.addConfiguration,
      publishedStatuses, List.filterMap_map, statusBatch, Function.comp_def, offered,
      DataService.published]
  | tryConnect firstTime =>
    by_cases hc : a.connected
    · by_cases hf : W.firmwareUpdateService <;>
        simp [run, hc, notifyConnected, hf, publishedStatuses, statusBatch, offered,
          DataService.published]
    · simp [run, hc, publishedStatuses, statusBatch, offered, DataService.published]
  | _ => rfl

/-- The published statuses of a reference, and then the persisted one. -/
def trail (h : WolkHistory σ) (s : Wolk σ) (reference : String) : List ActuatorStatus :=
  publishedStatuses reference (outputs h) ++ (s.persistence.actuatorStatuses reference).toList

theorem newestStatus_eq (h : WolkHistory σ) (s : Wolk σ) (reference : String) :
    newestStatus h s reference = (trail h s reference).getLast? := by
  unfold newestStatus trail
  cases s.persistence.actuatorStatuses reference <;> simp

/-- The value of a set command of the reference that the step receives. -/
def receivedSet (reference : String) (m : Moment (Wolk σ) WolkEvent WolkOutput) : Option String :=
  match m.event with
  | .messageReceived (.actuatorSet r value) => if r = reference then some value else none
  | _ => none

/-- The value that a command hands to the actuation handler for the reference. -/
def handledSet (reference : String) : WolkCommand → Option String
  | .handleActuation r value => if r = reference then some value else none
  | _ => none

def receivedSets (reference : String) (h : WolkHistory σ) : List String :=
  h.filterMap (receivedSet reference)

def handledSets (reference : String) (h : WolkHistory σ) : List String :=
  (executedCommands h).filterMap (handledSet reference)

/-- The step runs the handler for the reference. -/
def Handled (m : Moment (Wolk σ) WolkEvent WolkOutput) (reference : String) : Prop :=
  ∃ value, executedCommand m = some (.handleActuation reference value)

/-- The newest status was evaluated after every actuation of the reference. -/
def Fresh (h : WolkHistory σ) (s : Wolk σ) (reference : String) : Prop :=
  ∃ status before m after, (trail h s reference).getLast? = some status ∧
    h = before ++ m :: after ∧ Evaluates W reference status before m ∧
    ∀ n ∈ m :: after, ¬ Handled n reference

/-- `ordered` to `origin` say that the statuses of a reference are evaluated in the order of
the trail; the others that no actuation is lost, or forgotten before its status is evaluated. -/
structure StatusInv (h : WolkHistory σ) (s : Wolk σ) (reference : String) : Prop where
  ordered : (trail h s reference).Pairwise fun x y => x.evaluated < y.evaluated
  bound : ∀ status ∈ trail h s reference, status.evaluated < s.executed
  origin : ∀ status ∈ trail h s reference, Once (Evaluates W reference status) h
  sets : receivedSets reference h =
    handledSets reference h ++ s.pending.filterMap (handledSet reference)
  followed : Followed (fun c => ∃ value, c = .handleActuation reference value)
    (fun c => c = .publishActuatorStatus reference) s.pending
  answered : (∃ m ∈ h, Handled m reference) →
    .publishActuatorStatus reference ∈ s.pending ∨ Fresh W h s reference
  running : ∀ c, .push c ∈ s.running → ∀ value, c ≠ .handleActuation reference value

variable {W} {h : WolkHistory σ} {s s' : Wolk σ} {ev : WolkEvent} {out : List WolkOutput}
  {reference : String}

theorem trail_kept (hp : s'.persistence = s.persistence)
    (hout : out = [] ∨ out = [.sendFileList]) :
    trail (h ++ [⟨s, ev, out⟩]) s' reference = trail h s reference := by
  have hnone : publishedStatuses reference out = [] := by
    rcases hout with rfl | rfl <;> rfl
  rw [publishedStatuses] at hnone
  simp [trail, publishedStatuses, hnone, hp]

/-- A step that neither changes the trail nor runs the handler leaves the newest status fresh. -/
theorem Fresh.concat (hfresh : Fresh W h s reference)
    {m : Moment (Wolk σ) WolkEvent WolkOutput} (hm : ¬ Handled m reference)
    (htrail : trail (h ++ [m]) s' reference = trail h s reference) :
    Fresh W (h ++ [m]) s' reference := by
  obtain ⟨status, before, n, after, hlast, rfl, heval, hnone⟩ := hfresh
  refine ⟨status, before, n, after ++ [m], by rw [htrail, hlast], by simp, heval, ?_⟩
  intro k hk
  rcases List.mem_cons.mp hk with rfl | hk
  · exact hnone _ List.mem_cons_self
  · rcases List.mem_append.mp hk with hk | hk
    · exact hnone _ (List.mem_cons_of_mem _ hk)
    · obtain rfl := List.mem_singleton.mp hk
      exact hm

theorem receivedSets_concat (m : Moment (Wolk σ) WolkEvent WolkOutput) :
    receivedSets reference (h ++ [m]) =
      receivedSets reference h ++ (receivedSet reference m).toList := by
  cases hm : receivedSet reference m <;> simp [receivedSets, hm]

theorem handledSets_concat {m : Moment (Wolk σ) WolkEvent WolkOutput} {c : WolkCommand}
    (hc : executedCommand m = some c) : handledSets reference (h ++ [m]) =
      handledSets reference h ++ (handledSet reference c).toList := by
  cases hs : handledSet reference c <;> simp [handledSets, executedCommands, hc, hs]

theorem handledSet_eq_none {c : WolkCommand}
    (hc : ∀ value, c ≠ .handleActuation reference value) : handledSet reference c = none := by
  unfold handledSet
  split
  next r value =>
    rw [if_neg]
    rintro rfl
    exact hc value rfl
  next => rfl

/-- Only the pending commands change: none is dropped, those that are new keep `followed`,
and an actuation is new only if it is received. -/
theorem StatusInv.kept (hi : StatusInv W h s reference) (s' : Wolk σ)
    (hp : s'.persistence = s.persistence) (he : s'.executed = s.executed)
    (hout : out = [] ∨ out = [.sendFileList]) (hev : ∀ a, ev ≠ .execute a)
    (hpending : s.pending ⊆ s'.pending)
    (hsets : s'.pending.filterMap (handledSet reference) =
      s.pending.filterMap (handledSet reference) ++ (receivedSet reference ⟨s, ev, out⟩).toList)
    (hfollowed : Followed (fun c => ∃ value, c = .handleActuation reference value)
      (fun c => c = .publishActuatorStatus reference) s'.pending)
    (hrunning : ∀ c, .push c ∈ s'.running → ∀ value, c ≠ .handleActuation reference value) :
    StatusInv W (h ++ [⟨s, ev, out⟩]) s' reference := by
  have htrail : trail (h ++ [⟨s, ev, out⟩]) s' reference = trail h s reference :=
    trail_kept hp hout
  have hnone : executedCommand ⟨s, ev, out⟩ = none := by
    cases ev with
    | execute a => exact absurd rfl (hev a)
    | _ => rfl
  have hnew : ¬ Handled ⟨s, ev, out⟩ reference := by
    rintro ⟨value, hv⟩
    rw [hnone] at hv
    cases hv
  constructor
  · rw [htrail]
    exact hi.ordered
  · rw [htrail, he]
    exact hi.bound
  · rw [htrail]
    intro status hs
    exact (hi.origin status hs).append _
  · have hhandled : handledSets reference (h ++ [⟨s, ev, out⟩]) = handledSets reference h := by
      simp [handledSets, executedCommands, hnone]
    rw [receivedSets_concat, hhandled, hsets, hi.sets, List.append_assoc]
  · exact hfollowed
  · rintro ⟨m, hm, hhandled⟩
    rcases List.mem_append.mp hm with hm | hm
    · rcases hi.answered ⟨m, hm, hhandled⟩ with hmem | hfresh
      · exact .inl (hpending hmem)
      · exact .inr (hfresh.concat hnew htrail)
    · obtain rfl := List.mem_singleton.mp hm
      exact absurd hhandled hnew
  · exact hrunning

/-- A pushed command that is no actuation. -/
theorem StatusInv.pushed (hi : StatusInv W h s reference) {c : WolkCommand}
    (hc : ∀ value, c ≠ .handleActuation reference value) :
    Followed (fun c => ∃ value, c = .handleActuation reference value)
      (fun c => c = .publishActuatorStatus reference)
      ((s.commandBuffer ++ [c]) ++ s.handling) ∧
    s.pending ⊆ (s.commandBuffer ++ [c]) ++ s.handling ∧
    ((s.commandBuffer ++ [c]) ++ s.handling).filterMap (handledSet reference) =
      s.pending.filterMap (handledSet reference) := by
  refine ⟨?_, ?_, ?_⟩
  · rw [List.append_assoc]
    exact hi.followed.insert fun ⟨value, hv⟩ => hc value hv
  · intro d hd
    simp only [pending, List.mem_append] at hd ⊢
    tauto
  · simp [pending, handledSet_eq_none hc]

theorem userCommand_ne {connects : ℕ} {currentRtc : UInt64} {c : UserCall} {d : WolkCommand}
    (hd : userCommand connects currentRtc c = some d) (value : String) :
    d ≠ .handleActuation reference value := by
  rintro rfl
  cases c with
  | addSensorReadings reference values rtc =>
    by_cases hv : values.isEmpty <;> simp [userCommand, hv] at hd
  | _ => cases hd

theorem pushes_followed (c : PlatformCommand) :
    Followed (fun c => ∃ value, c = .handleActuation reference value)
      (fun c => c = .publishActuatorStatus reference) (pushes c) := by
  cases c <;> simp +contextual [pushes, Followed]

theorem pushes_sets (c : PlatformCommand) (s : Wolk σ) (out : List WolkOutput) :
    (pushes c).filterMap (handledSet reference) =
      (receivedSet reference ⟨s, .messageReceived c, out⟩).toList := by
  cases c with
  | actuatorSet r value =>
    by_cases hr : r = reference <;> simp [pushes, handledSet, receivedSet, hr]
  | _ => simp [pushes, handledSet, receivedSet]

theorem StatusInv.other (hi : StatusInv W h s reference) (hm : Moves W s ev s' out)
    (hev : ∀ a, ev ≠ .execute a) : StatusInv W (h ++ [⟨s, ev, out⟩]) s' reference := by
  cases hm with
  | called c currentRtc =>
    rw [call_eq]
    cases hc : userCommand s.connects currentRtc c with
    | none =>
      refine hi.kept _ rfl rfl (.inl rfl) hev ?_ ?_ ?_ hi.running
      · simp [pending]
      · simp [pending, receivedSet]
      · simpa [pending] using hi.followed
    | some d =>
      obtain ⟨hfollowed, hsub, hsets⟩ := hi.pushed (userCommand_ne hc)
      exact hi.kept _ rfl rfl (.inl rfl) hev hsub (hsets.trans (by simp [receivedSet])) hfollowed
        hi.running
  | received c hh =>
    have hpending : s.pending = s.commandBuffer := by simp [pending, hh]
    have hfollowed := hi.followed
    rw [hpending] at hfollowed
    refine hi.kept _ rfl rfl (.inl rfl) hev ?_ ?_ ?_ hi.running
    · rw [hpending]
      exact List.subset_append_left _ _
    · rw [hpending, pending, List.filterMap_append, pushes_sets]
    · exact hfollowed.append (pushes_followed c)
  | handled c rest hh =>
    have hpending :
        (Wolk.addToCommandBuffer { s with handling := rest } c).pending = s.pending := by
      simp [pending, addToCommandBuffer, hh]
    refine hi.kept _ rfl rfl (.inl rfl) hev ?_ ?_ ?_ hi.running
    · rw [hpending]
      exact List.Subset.refl _
    · simp [hpending, receivedSet]
    · rw [hpending]
      exact hi.followed
  | connectionLost =>
    exact hi.kept _ rfl rfl (.inl rfl) hev (List.Subset.refl _)
      (by simp [pending, notifyDisonnected, receivedSet]) hi.followed hi.running
  | reconnected lost hl =>
    obtain ⟨hfollowed, hsub, hsets⟩ := hi.pushed (c := .tryConnect true) (by simp)
    exact hi.kept _ rfl rfl (.inl rfl) hev hsub (hsets.trans (by simp [receivedSet])) hfollowed
      hi.running
  | executed a c rest hr hq => exact absurd rfl (hev a)
  | pushed c rest hr =>
    obtain ⟨hfollowed, hsub, hsets⟩ := hi.pushed (hi.running c (by simp [hr]))
    refine hi.kept _ rfl rfl (.inl rfl) hev hsub (hsets.trans (by simp [receivedSet])) hfollowed ?_
    intro d hd
    exact hi.running d (hr ▸ List.mem_cons_of_mem _ hd)
  | sentFileList rest hr =>
    refine hi.kept _ rfl rfl (.inr rfl) hev (List.Subset.refl _)
      (by simp [pending, receivedSet]) hi.followed ?_
    intro d hd
    exact hi.running d (hr ▸ List.mem_cons_of_mem _ hd)

/-- The trail of a reference changes only when its status is evaluated: the new status
takes the place of the persisted one. -/
theorem trail_execute {a : Answers} (ha : ∀ n, a.actuatorStatusesAttempts n ≠ .noMessage)
    (c : WolkCommand) (rest : List WolkCommand) :
    trail (h ++ [⟨s, .execute a, (run W c a { s with commandBuffer := rest }).2⟩])
      { (run W c a { s with commandBuffer := rest }).1 with executed := s.executed + 1 } reference =
      publishedStatuses reference (outputs h) ++
        (offered W c a { s with commandBuffer := rest } reference).toList := by
  rw [run_statuses W ha]
  simp [trail, publishedStatuses]

/-- The parts of `StatusInv` that are about the trail alone, and where the newest status
comes from. -/
theorem StatusInv.execute_trail (hi : StatusInv W h s reference) {a : Answers} {c : WolkCommand}
    {rest : List WolkCommand} {out : List WolkOutput} {t : List ActuatorStatus}
    (hdevice : s.device = deviceAfter W h) (hq : s.commandBuffer = c :: rest)
    (ht : t = publishedStatuses reference (outputs h) ++
      (offered W c a { s with commandBuffer := rest } reference).toList) :
    t.Pairwise (fun x y => x.evaluated < y.evaluated) ∧
    (∀ status ∈ t, status.evaluated < s.executed + 1) ∧
    (∀ status ∈ t, Once (Evaluates W reference status) (h ++ [⟨s, .execute a, out⟩])) ∧
    (c = .publishActuatorStatus reference →
      ∃ status, t.getLast? = some status ∧ Evaluates W reference status h ⟨s, .execute a, out⟩) ∧
    (c ≠ .publishActuatorStatus reference → t = trail h s reference) := by
  have hsub : publishedStatuses reference (outputs h) <+: trail h s reference :=
    List.prefix_append _ _
  by_cases hc : c = .publishActuatorStatus reference
  · have heval : Evaluates W reference (evaluatedStatus W a { s with commandBuffer := rest }
        reference) h ⟨s, .execute a, out⟩ := by
      refine ⟨by simp [executedCommand, hq, hc], rfl, rfl, a, rfl, ?_⟩
      rw [← hdevice]
      simp only [evaluatedStatus, getActuatorStatus, locked_eq]
      rfl
    rw [offered, if_pos hc, Option.toList_some] at ht
    have hlt : ∀ status ∈ publishedStatuses reference (outputs h), status.evaluated < s.executed :=
      fun status hs => hi.bound status (hsub.subset hs)
    refine ⟨?_, ?_, ?_, ?_, fun hne => absurd hc hne⟩
    · rw [ht]
      apply List.pairwise_append.mpr
        ⟨hi.ordered.sublist hsub.sublist, List.pairwise_singleton _ _, ?_⟩
      intro x hx y hy
      obtain rfl := List.mem_singleton.mp hy
      exact hlt x hx
    · intro status hs
      rw [ht] at hs
      rcases List.mem_append.mp hs with hs | hs
      · exact (hlt status hs).trans (Nat.lt_succ_self _)
      · obtain rfl := List.mem_singleton.mp hs
        exact Nat.lt_succ_self _
    · intro status hs
      rw [ht] at hs
      rcases List.mem_append.mp hs with hs | hs
      · exact (hi.origin status (hsub.subset hs)).append _
      · obtain rfl := List.mem_singleton.mp hs
        exact .concat heval
    · intro _
      exact ⟨_, by simp [ht], heval⟩
  · rw [offered, if_neg hc] at ht
    have ht : t = trail h s reference := ht
    subst ht
    refine ⟨hi.ordered, ?_, ?_, fun he => absurd he hc, fun _ => rfl⟩
    · intro status hs
      exact (hi.bound status hs).trans (Nat.lt_succ_self _)
    · intro status hs
      exact (hi.origin status hs).append _

/-- Behind an actuation there is always an evaluation of its reference, and the evaluation
that is executed now is newer than all actuations so far. -/
theorem StatusInv.execute_answered (hi : StatusInv W h s reference)
    {m : Moment (Wolk σ) WolkEvent WolkOutput} {c : WolkCommand}
    (hcommand : executedCommand m = some c) (hpending : s.pending = c :: s'.pending)
    (hnew : c = .publishActuatorStatus reference →
      ∃ status, (trail (h ++ [m]) s' reference).getLast? = some status ∧
        Evaluates W reference status h m)
    (hsame : c ≠ .publishActuatorStatus reference →
      trail (h ++ [m]) s' reference = trail h s reference)
    (hm : ∃ n ∈ h ++ [m], Handled n reference) :
    .publishActuatorStatus reference ∈ s'.pending ∨ Fresh W (h ++ [m]) s' reference := by
  obtain ⟨n, hn, hhandled⟩ := hm
  by_cases hmh : Handled m reference
  · have hfollowed := hi.followed
    rw [hpending] at hfollowed
    obtain ⟨value, hv⟩ := hmh
    obtain rfl := Option.some.inj (hcommand.symm.trans hv)
    obtain ⟨d, hd, rfl⟩ := hfollowed.1 ⟨value, rfl⟩
    exact .inl hd
  · by_cases hc : c = .publishActuatorStatus reference
    · obtain ⟨status, hlast, heval⟩ := hnew hc
      refine .inr ⟨status, h, m, [], hlast, rfl, heval, ?_⟩
      intro k hk
      obtain rfl := List.mem_singleton.mp hk
      exact hmh
    · have hold : n ∈ h := by
        rcases List.mem_append.mp hn with hn | hn
        · exact hn
        · obtain rfl := List.mem_singleton.mp hn
          exact absurd hhandled hmh
      rcases hi.answered ⟨n, hold, hhandled⟩ with hmem | hfresh
      · rw [hpending] at hmem
        exact .inl ((List.mem_cons.mp hmem).resolve_left (Ne.symm hc))
      · exact .inr (hfresh.concat hmh (hsame hc))

theorem StatusInv.execute (hi : StatusInv W h s reference) {a : Answers} {c : WolkCommand}
    {rest : List WolkCommand} (hdevice : s.device = deviceAfter W h)
    (ha : ∀ n, a.actuatorStatusesAttempts n ≠ .noMessage) (hr : s.running = [])
    (hq : s.commandBuffer = c :: rest) :
    StatusInv W (h ++ [⟨s, .execute a, (run W c a { s with commandBuffer := rest }).2⟩])
      { (run W c a { s with commandBuffer := rest }).1 with executed := s.executed + 1 }
      reference := by
  obtain ⟨hb, hh, -⟩ := run_frame W c a { s with commandBuffer := rest }
  have htrail : trail (h ++ [⟨s, .execute a, (run W c a { s with commandBuffer := rest }).2⟩])
      { (run W c a { s with commandBuffer := rest }).1 with executed := s.executed + 1 }
        reference = _ := trail_execute ha c rest
  obtain ⟨hordered, hbound, horigin, hnew, hsame⟩ := hi.execute_trail hdevice hq htrail
  set m : Moment (Wolk σ) WolkEvent WolkOutput :=
    ⟨s, .execute a, (run W c a { s with commandBuffer := rest }).2⟩ with hm
  set s' : Wolk σ :=
    { (run W c a { s with commandBuffer := rest }).1 with executed := s.executed + 1 } with hs'
  have hcommand : executedCommand m = some c := by simp [hm, executedCommand, hq]
  have hpending : s.pending = c :: s'.pending := by
    simp only [pending, hs', hb, hh, hq, List.cons_append]
  have hfollowed := hi.followed
  rw [hpending] at hfollowed
  constructor
  · exact hordered
  · exact hbound
  · exact horigin
  · have hsets := hi.sets
    rw [hpending] at hsets
    have hreceived : receivedSet reference m = none := rfl
    rw [receivedSets_concat, hreceived, handledSets_concat hcommand, hsets]
    cases hc : handledSet reference c <;> simp [hc]
  · exact hfollowed.tail
  · exact hi.execute_answered hcommand hpending hnew hsame
  · intro d hd
    rcases run_push W (by exact hr) hd with ⟨r, rfl⟩ | rfl | rfl | rfl <;> simp

theorem exists_handled (hne : handledSets reference h ≠ []) : ∃ m ∈ h, Handled m reference := by
  obtain ⟨value, hvalue⟩ := List.exists_mem_of_ne_nil _ hne
  obtain ⟨c, hc, hset⟩ := List.mem_filterMap.mp hvalue
  obtain ⟨m, hm, hcommand⟩ := List.mem_filterMap.mp hc
  by_contra hnone
  rw [handledSet_eq_none] at hset
  · cases hset
  · rintro v rfl
    exact hnone ⟨m, hm, v, hcommand⟩

/-- Moments that do not run the handler for the reference hand it nothing. -/
theorem handledSets_append_of_not {k : WolkHistory σ} (hnone : ∀ m ∈ k, ¬ Handled m reference) :
    handledSets reference (h ++ k) = handledSets reference h := by
  have hk : handledSets reference k = [] := by
    by_contra hne
    obtain ⟨m, hm, hhandled⟩ := exists_handled hne
    exact hnone m hm hhandled
  rw [handledSets, executedCommands, List.filterMap_append, List.filterMap_append]
  exact (congrArg _ hk).trans (List.append_nil _)

theorem run_statusInv (hrun : (wolkMachine W).Run MakesMessages h s) (reference : String) :
    StatusInv W h s reference := by
  induction hrun with
  | start =>
    constructor <;> simp [trail, publishedStatuses, DataService.published, pending, Followed,
      wolkMachine, construct, receivedSets, handledSets, executedCommands]
  | @step h s s' ev out hr hc hstep ih =>
    have hm := step_moves hstep
    by_cases hev : ∀ a, ev ≠ .execute a
    · exact ih.other hm hev
    · push Not at hev
      obtain ⟨a, rfl⟩ := hev
      cases hm with
      | executed _ c rest hidle hq => exact ih.execute (device_of_run hr) (hc a rfl) hidle hq

end Wolk

open Wolk

variable {σ : Type} {W : WolkConfig σ} {h : WolkHistory σ} {s : Wolk σ}

/-- The statuses of a reference are published in the order in which the provider gave them. Once
the queue is drained, every set command of the reference has been handed to the handler, in
order, and the newest status was evaluated when the last of them had been: it is what the provider
says of the device that the configured handlers left. -/
theorem newest_status_fresh (hrun : (wolkMachine W).Run MakesMessages h s) (reference : String) :
    (publishedStatuses reference (outputs h)).Pairwise (fun x y => x.evaluated < y.evaluated) ∧
    (∀ status ∈ publishedStatuses reference (outputs h), Once (Evaluates W reference status) h) ∧
    (s.Drained reference → handledSets reference h = receivedSets reference h ∧
      (receivedSets reference h ≠ [] →
        ∃ status before m after, newestStatus h s reference = some status ∧
          h = before ++ m :: after ∧ Evaluates W reference status before m ∧
          handledSets reference before = receivedSets reference h)) := by
  have hi := run_statusInv hrun reference
  refine ⟨hi.ordered.sublist (List.sublist_append_left _ _),
    fun status hs => hi.origin status (List.mem_append_left _ hs), ?_⟩
  rintro ⟨hqueue, hhandling⟩
  have hnone : ∀ c ∈ s.pending, c ≠ .publishActuatorStatus reference := by
    rintro c hc rfl
    simp only [pending, hqueue, List.nil_append] at hc
    exact hhandling hc
  have hpending : s.pending.filterMap (handledSet reference) = [] := by
    rw [List.filterMap_eq_nil_iff]
    intro c hc
    apply handledSet_eq_none
    rintro value rfl
    exact hi.followed.not_mem hnone _ hc ⟨value, rfl⟩
  have hsets := hi.sets
  rw [hpending, List.append_nil] at hsets
  refine ⟨hsets.symm, ?_⟩
  intro hreceived
  rw [hsets] at hreceived
  rcases hi.answered (exists_handled hreceived) with hmem | hfresh
  · exact absurd rfl (hnone _ hmem)
  · obtain ⟨status, before, m, after, hlast, hh, heval, hnew⟩ := hfresh
    refine ⟨status, before, m, after, by rw [newestStatus_eq, hlast], hh, heval, ?_⟩
    rw [hsets, hh]
    exact (handledSets_append_of_not hnew).symm

/-- The switch is set while the user flushes. -/
def sampleSet : List WolkEvent :=
  [.messageReceived (.actuatorSet "switch" "on"), .handle, .call .publish 0, .handle,
    .execute sampleAnswers, .execute sampleAnswers, .execute sampleAnswers]

theorem newest_status_fresh_sample : ∃ h s status before m after,
    (wolkMachine sampleConfig).Run MakesMessages h s ∧
      newestStatus h s "switch" = some status ∧ status.value = "on" ∧
      h = before ++ m :: after ∧ Evaluates sampleConfig "switch" status before m ∧
      handledSets "switch" before = ["on"] := by
  have hmakes : ∀ ev ∈ sampleSet, ∀ a, ev = .execute a →
      ∀ n, a.actuatorStatusesAttempts n ≠ .noMessage := by
    intro ev hev a ha n
    subst ha
    obtain rfl : a = sampleAnswers := by simpa [sampleSet] using hev
    exact nofun
  obtain ⟨h, s, hrun, hp⟩ := (wolkMachine sampleConfig).exists_run_of_events sampleSet hmakes
    (fun h s => decide (s.Drained "switch" ∧ receivedSets "switch" h = ["on"] ∧
      (newestStatus h s "switch").map ActuatorStatus.value = some "on")) (by decide +kernel)
  obtain ⟨hdrained, hset, hvalue⟩ := of_decide_eq_true hp
  obtain ⟨-, hfresh⟩ := (newest_status_fresh hrun "switch").2.2 hdrained
  obtain ⟨status, before, m, after, hnewest, hh, heval, hhandled⟩ := hfresh (by simp [hset])
  rw [hnewest] at hvalue
  exact ⟨h, s, status, before, m, after, hrun, hnewest, Option.some.inj hvalue, hh, heval,
    hhandled.trans hset⟩

end WolkConnect
