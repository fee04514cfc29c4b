import Mathlib.Data.List.Induction
import WolkConnect.Transition.Erasure

/-! The rule for what holds along a segment of a run, from one of its steps on. -/
namespace Transition.Machine.Run

variable {σ ε ω : Type*} {M : Machine σ ε ω} {C : Condition σ ε ω} {s : σ}
  {h k l : List (Moment σ ε ω)} {m : Moment σ ε ω}

/-- The last moment is the step to the end of the run. -/
theorem last (hrun : M.Run C (h ++ [m]) s) :
    M.Run C h m.state ∧ C h m.state m.event ∧ M.step m.state m.event = some (s, m.output) := by
  generalize hh : h ++ [m] = k at hrun
  cases hrun with
  | start => simp at hh
  | step hr hc hs =>
    obtain ⟨rfl, hm⟩ := List.append_inj' hh rfl
    obtain rfl := List.singleton_inj.mp hm
    exact ⟨hr, hc, hs⟩

/-- The run up to some moment. -/
theorem stopped (hrun : M.Run C (k ++ l) s) : ∃ t, M.Run C k t := by
  cases l with
  | nil =>
    rw [List.append_nil] at hrun
    exact ⟨s, hrun⟩
  | cons m l => exact ⟨m.state, hrun.moment.1⟩

/-- What holds after the first step of a segment and is kept by its other steps holds at its
end. -/
theorem segment (I : List (Moment σ ε ω) → σ → Prop)
    (hfirst : ∀ {t}, M.Run C k m.state → C k m.state m.event →
      M.step m.state m.event = some (t, m.output) → I [m] t)
    (hnext : ∀ {l' n t}, l' ++ [n] <+: l → M.Run C (k ++ m :: l') n.state →
      I (m :: l') n.state → C (k ++ m :: l') n.state n.event →
        M.step n.state n.event = some (t, n.output) → I (m :: l' ++ [n]) t)
    (hrun : M.Run C (k ++ m :: l) s) : I (m :: l) s := by
  induction l using List.reverseRecOn generalizing s with
  | nil =>
    obtain ⟨hk, hc, hstep⟩ := hrun.last
    exact hfirst hk hc hstep
  | append_singleton l n ih =>
    rw [← List.cons_append, ← List.append_assoc] at hrun
    obtain ⟨hl, hc, hstep⟩ := hrun.last
    have hprev : I (m :: l) n.state :=
      ih (fun hpre => hnext (hpre.trans (List.prefix_append l [n]))) hl
    exact hnext List.prefix_rfl hl hprev hc hstep

/-- The rest of a run from one of its moments on. -/
theorem rest (hrun : M.Run C (k ++ m :: l) s) : (M.startAt m.state).Run Free (m :: l) s := by
  refine hrun.segment (fun l s => (M.startAt m.state).Run Free l s) ?_ ?_
  · intro t _ _ hstep
    exact startAt_run_step hstep
  · intro l' n t _ _ hprev _ hstep
    exact hprev.step trivial hstep

end Transition.Machine.Run
