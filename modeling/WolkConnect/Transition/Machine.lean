import Mathlib.Data.List.Basic

/-! Deterministic machines with outputs, their finite runs with the full history,
and the induction rule for what holds along every run. -/
namespace Transition

/-- The step is `none` where the event is not enabled in the state. -/
structure Machine (σ ε ω : Type*) where
  start : σ
  step : σ → ε → Option (σ × List ω)

/-- One step of a run: the state it was taken in, its event and its outputs. -/
structure Moment (σ ε ω : Type*) where
  state : σ
  event : ε
  output : List ω

variable {σ ε ω : Type*}

/-- Everything a history put out, oldest first. -/
def outputs (h : List (Moment σ ε ω)) : List ω := h.flatMap Moment.output

@[simp] theorem outputs_nil : outputs ([] : List (Moment σ ε ω)) = [] := rfl

@[simp] theorem outputs_append (h k : List (Moment σ ε ω)) :
    outputs (h ++ k) = outputs h ++ outputs k := List.flatMap_append

@[simp] theorem outputs_singleton (m : Moment σ ε ω) : outputs [m] = m.output := by
  simp [outputs]

namespace Machine

/-- A condition on one step of a run: it sees the history, the state and the event. -/
abbrev Condition (σ ε ω : Type*) := List (Moment σ ε ω) → σ → ε → Prop

/-- The condition that allows every step. -/
def Free : Condition σ ε ω := fun _ _ _ => True

instance (h : List (Moment σ ε ω)) (s : σ) (e : ε) : Decidable (Free h s e) := isTrue trivial

/-- `M.Run C h s`: a run from the start with history `h` ends in `s`, and every
one of its steps met `C`. -/
inductive Run (M : Machine σ ε ω) (C : Condition σ ε ω) : List (Moment σ ε ω) → σ → Prop where
  | start : Run M C [] M.start
  | step {h : List (Moment σ ε ω)} {s s' : σ} {e : ε} {out : List ω} :
      Run M C h s → C h s e → M.step s e = some (s', out) → Run M C (h ++ [⟨s, e, out⟩]) s'

namespace Run

variable {M : Machine σ ε ω} {C D : Condition σ ε ω} {h : List (Moment σ ε ω)} {s : σ}

/-- What holds at the start and is kept by every allowed step holds along every run. -/
theorem invariant (I : List (Moment σ ε ω) → σ → Prop) (hstart : I [] M.start)
    (hstep : ∀ {h s s' e out}, M.Run C h s → I h s → C h s e → M.step s e = some (s', out) →
      I (h ++ [⟨s, e, out⟩]) s') (hrun : M.Run C h s) : I h s := by
  induction hrun with
  | start => exact hstart
  | step hr hc hs ih => exact hstep hr ih hc hs

/-- The rule for properties of the state alone. -/
theorem state_invariant (I : σ → Prop) (hstart : I M.start)
    (hstep : ∀ {h s s' e out}, M.Run C h s → I s → C h s e → M.step s e = some (s', out) → I s')
    (hrun : M.Run C h s) : I s :=
  hrun.invariant (fun _ s => I s) hstart hstep

theorem eq_start (hrun : M.Run C [] s) : s = M.start := by
  generalize hh : [] = h at hrun
  cases hrun with
  | start => rfl
  | step hr hc hs => simp at hh

theorem mono (hCD : ∀ {h s e}, M.Run C h s → C h s e → D h s e) (hrun : M.Run C h s) :
    M.Run D h s := by
  induction hrun with
  | start => exact .start
  | step hr hc hs ih => exact .step ih (hCD hr hc) hs

/-- Every moment of a history is a step taken at the end of the run before it. -/
theorem moment {m : Moment σ ε ω} {k l : List (Moment σ ε ω)} (hrun : M.Run C (k ++ m :: l) s) :
    M.Run C k m.state ∧ C k m.state m.event ∧
      ∃ s', M.step m.state m.event = some (s', m.output) := by
  generalize hh : k ++ m :: l = h at hrun
  induction hrun generalizing l with
  | start => simp at hh
  | @step h s s' e out hr hc hs ih =>
    rcases l.eq_nil_or_concat' with rfl | ⟨q, x, rfl⟩
    · obtain ⟨rfl, hm⟩ := List.append_inj' hh rfl
      obtain rfl := List.head_eq_of_cons_eq hm
      exact ⟨hr, hc, s', hs⟩
    · rw [← List.cons_append, ← List.append_assoc] at hh
      exact ih (List.append_inj' hh rfl).1

end Run

variable (M : Machine σ ε ω) (C : Condition σ ε ω) [∀ h s e, Decidable (C h s e)]

/-- Take the given events one after another, checking the condition before each. -/
def replay : List ε → List (Moment σ ε ω) → σ → Option (List (Moment σ ε ω) × σ)
  | [], h, s => some (h, s)
  | e :: es, h, s =>
    if C h s e then
      match M.step s e with
      | some (s', out) => replay es (h ++ [⟨s, e, out⟩]) s'
      | none => none
    else none

theorem replay_run {es : List ε} {h k : List (Moment σ ε ω)} {s t : σ} (hrun : M.Run C h s)
    (hes : M.replay C es h s = some (k, t)) : M.Run C k t := by
  induction es generalizing h s with
  | nil =>
    obtain ⟨rfl, rfl⟩ : h = k ∧ s = t := by simpa [replay] using hes
    exact hrun
  | cons e es ih =>
    simp only [replay] at hes
    split at hes
    case isFalse => cases hes
    case isTrue hc =>
      split at hes
      case h_2 => cases hes
      case h_1 s' out hs => exact ih (hrun.step hc hs) hes

/-- A computed replay whose end passes the test `p` is a run whose end does. -/
theorem exists_run_of_replay (es : List ε) (p : List (Moment σ ε ω) → σ → Bool)
    (hp : ((M.replay C es [] M.start).any fun r => p r.1 r.2) = true) :
    ∃ h s, M.Run C h s ∧ p h s = true := by
  obtain ⟨⟨h, s⟩, hr, hs⟩ := (Option.any_eq_true _ _).mp hp
  exact ⟨h, s, M.replay_run C .start hr, hs⟩

/-- Where the condition is on the events alone, it need not be decided. -/
theorem replay_events {P : ε → Prop} {es : List ε} {h k : List (Moment σ ε ω)} {s t : σ}
    (hrun : M.Run (fun _ _ e => P e) h s) (hP : ∀ e ∈ es, P e)
    (hes : M.replay Free es h s = some (k, t)) : M.Run (fun _ _ e => P e) k t := by
  induction es generalizing h s with
  | nil =>
    obtain ⟨rfl, rfl⟩ : h = k ∧ s = t := by simpa [replay] using hes
    exact hrun
  | cons e es ih =>
    rw [replay, if_pos (by trivial : Free h s e)] at hes
    split at hes
    case h_2 => cases hes
    case h_1 s' out hs =>
      exact ih (hrun.step (hP e List.mem_cons_self) hs)
        (fun e he => hP e (List.mem_cons_of_mem _ he)) hes

theorem exists_run_of_events {P : ε → Prop} (es : List ε) (hP : ∀ e ∈ es, P e)
    (p : List (Moment σ ε ω) → σ → Bool)
    (hp : ((M.replay Free es [] M.start).any fun r => p r.1 r.2) = true) :
    ∃ h s, M.Run (fun _ _ e => P e) h s ∧ p h s = true := by
  obtain ⟨⟨h, s⟩, hr, hs⟩ := (Option.any_eq_true _ _).mp hp
  exact ⟨h, s, M.replay_events .start hP hr, hs⟩

end Machine
end Transition
