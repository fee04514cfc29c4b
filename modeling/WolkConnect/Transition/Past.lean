import WolkConnect.Transition.Machine

/-! What has happened in a history, with all that had happened before it. -/
namespace Transition

variable {σ ε ω : Type*} {P Q : List (Moment σ ε ω) → Moment σ ε ω → Prop}
  {h k l : List (Moment σ ε ω)} {m : Moment σ ε ω}

/-- At some moment of the history, `P` held of what had come before and of the moment. -/
def Once (P : List (Moment σ ε ω) → Moment σ ε ω → Prop) (h : List (Moment σ ε ω)) : Prop :=
  ∃ k m l, h = k ++ m :: l ∧ P k m

namespace Once

theorem append (hP : Once P h) (k : List (Moment σ ε ω)) : Once P (h ++ k) := by
  obtain ⟨before, m, after, rfl, hm⟩ := hP
  exact ⟨before, m, after ++ k, by simp, hm⟩

theorem concat (hP : P h m) : Once P (h ++ [m]) := ⟨h, m, [], rfl, hP⟩

/-- What had to come first has happened, too. -/
theorem earlier (hP : Once P h) (hPQ : ∀ k m, P k m → Once Q k) : Once Q h := by
  obtain ⟨before, m, after, rfl, hm⟩ := hP
  exact (hPQ before m hm).append _

end Once
end Transition
