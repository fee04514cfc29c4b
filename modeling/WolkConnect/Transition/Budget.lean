import WolkConnect.Transition.Machine

/-! Accounting along a run: the steps that use something up are bounded by what was there at the
start and what other steps have paid in. -/
namespace Transition.Machine

variable {σ ε ω : Type*} {M : Machine σ ε ω} {C : Condition σ ε ω}

/-- One step uses up at most one, and pays in at most `price`. -/
theorem Run.budget (left : σ → ℕ) (uses pays : Moment σ ε ω → Bool) (price : ℕ)
    (hstep : ∀ {h s s' e out}, M.Run C h s → C h s e → M.step s e = some (s', out) →
      left s' + (if uses ⟨s, e, out⟩ then 1 else 0) ≤
        left s + if pays ⟨s, e, out⟩ then price else 0)
    {h : List (Moment σ ε ω)} {s : σ} (hrun : M.Run C h s) :
    left s + h.countP uses ≤ left M.start + price * h.countP pays := by
  induction hrun with
  | start => simp
  | @step h s s' e out hr hc hs ih =>
    have hlast := hstep hr hc hs
    generalize (⟨s, e, out⟩ : Moment σ ε ω) = m at hlast ⊢
    have hprice : price * (h ++ [m]).countP pays =
        price * h.countP pays + if pays m then price else 0 := by
      rw [List.countP_append, List.countP_singleton, Nat.mul_add]
      split <;> simp
    rw [hprice, List.countP_append, List.countP_singleton]
    omega

end Transition.Machine
