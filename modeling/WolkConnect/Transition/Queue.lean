import WolkConnect.Transition.Machine

/-! First in, first out: what was pushed along a run is what was taken, in the same order, and
behind it what still waits. -/
namespace Transition.Machine

variable {σ ε ω α : Type*} {M : Machine σ ε ω} {C : Condition σ ε ω}

theorem filterMap_singleton_toList (f : Moment σ ε ω → Option α) (m : Moment σ ε ω) :
    [m].filterMap f = (f m).toList := by
  cases hm : f m <;> simp [hm]

/-- What every step puts out of some kind is, along a run, what its moments say. -/
theorem Run.outputs_filterMap (f : ω → Option α) (g : Moment σ ε ω → Option α)
    (hstep : ∀ {h s s' e out}, M.Run C h s → C h s e → M.step s e = some (s', out) →
      out.filterMap f = (g ⟨s, e, out⟩).toList)
    {h : List (Moment σ ε ω)} {s : σ} (hrun : M.Run C h s) :
    (outputs h).filterMap f = h.filterMap g := by
  induction hrun with
  | start => rfl
  | step hr hc hs ih =>
    rw [outputs_append, outputs_singleton, List.filterMap_append, List.filterMap_append, ih,
      filterMap_singleton_toList, hstep hr hc hs]

/-- If every step takes from the front and pushes to the back, nothing is lost, taken twice or
overtaken. -/
theorem Run.fifo_from (pushed taken : Moment σ ε ω → Option α) (waiting : σ → List α)
    (hstep : ∀ {h s s' e out}, M.Run C h s → C h s e → M.step s e = some (s', out) →
      waiting s ++ (pushed ⟨s, e, out⟩).toList = (taken ⟨s, e, out⟩).toList ++ waiting s')
    {h : List (Moment σ ε ω)} {s : σ} (hrun : M.Run C h s) :
    waiting M.start ++ h.filterMap pushed = h.filterMap taken ++ waiting s := by
  induction hrun with
  | start => simp
  | @step h s s' e out hr hc hs ih =>
    have hqueue := hstep hr hc hs
    generalize (⟨s, e, out⟩ : Moment σ ε ω) = m at hqueue ⊢
    calc waiting M.start ++ (h ++ [m]).filterMap pushed
        = h.filterMap taken ++ (waiting s ++ (pushed m).toList) := by
          rw [List.filterMap_append, filterMap_singleton_toList, ← List.append_assoc, ih,
            List.append_assoc]
      _ = h.filterMap taken ++ ((taken m).toList ++ waiting s') := by rw [hqueue]
      _ = (h ++ [m]).filterMap taken ++ waiting s' := by
          rw [List.filterMap_append, filterMap_singleton_toList, List.append_assoc]

/-- The rule for a queue that is empty at the start. -/
theorem Run.fifo (pushed taken : Moment σ ε ω → Option α) (waiting : σ → List α)
    (hstart : waiting M.start = [])
    (hstep : ∀ {h s s' e out}, M.Run C h s → C h s e → M.step s e = some (s', out) →
      waiting s ++ (pushed ⟨s, e, out⟩).toList = (taken ⟨s, e, out⟩).toList ++ waiting s')
    {h : List (Moment σ ε ω)} {s : σ} (hrun : M.Run C h s) :
    h.filterMap pushed = h.filterMap taken ++ waiting s := by
  have hqueue := hrun.fifo_from pushed taken waiting hstep
  rwa [hstart, List.nil_append] at hqueue

/-- What waits at the start is taken in its turn, and until then waits behind the rest of what was
before it. -/
theorem Run.turn (pushed taken : Moment σ ε ω → Option α) (waiting : σ → List α)
    (hstep : ∀ {h s s' e out}, M.Run C h s → C h s e → M.step s e = some (s', out) →
      waiting s ++ (pushed ⟨s, e, out⟩).toList = (taken ⟨s, e, out⟩).toList ++ waiting s')
    {h : List (Moment σ ε ω)} {s : σ} (hrun : M.Run C h s) {before after : List α} {a : α}
    (hwaiting : waiting M.start = before ++ a :: after) :
    (h.filterMap taken)[before.length]? = some a ∨
      ((h.filterMap taken).length ≤ before.length ∧
        ∃ rest, waiting s = before.drop (h.filterMap taken).length ++ a :: rest) := by
  have hqueue := hrun.fifo_from pushed taken waiting hstep
  rw [hwaiting, List.append_assoc] at hqueue
  rcases Nat.lt_or_ge before.length (h.filterMap taken).length with hlength | hlength
  · have hget := congrArg (fun l => l[before.length]?) hqueue
    rw [List.getElem?_append_right (Nat.le_refl _), Nat.sub_self,
      List.getElem?_append_left hlength] at hget
    exact .inl hget.symm
  · have hdrop := congrArg (List.drop (h.filterMap taken).length) hqueue
    rw [List.drop_append_of_le_length hlength, List.drop_left] at hdrop
    exact .inr ⟨hlength, after ++ h.filterMap pushed, hdrop.symm⟩

/-- The moment at which what waited at the start has its turn: as many were taken before as were
before it. -/
theorem Run.moment_of_turn (pushed taken : Moment σ ε ω → Option α) (waiting : σ → List α)
    (hstep : ∀ {h s s' e out}, M.Run C h s → C h s e → M.step s e = some (s', out) →
      waiting s ++ (pushed ⟨s, e, out⟩).toList = (taken ⟨s, e, out⟩).toList ++ waiting s')
    {h : List (Moment σ ε ω)} {s : σ} (hrun : M.Run C h s) {before after : List α} {a : α}
    (hwaiting : waiting M.start = before ++ a :: after)
    (hlength : before.length < (h.filterMap taken).length) :
    ∃ k m l, h = k ++ m :: l ∧ (k.filterMap taken).length = before.length ∧ taken m = some a := by
  rcases hrun.turn pushed taken waiting hstep hwaiting with hget | ⟨hle, -⟩
  · obtain ⟨hbound, ha⟩ := List.getElem?_eq_some_iff.mp hget
    have hsplit := List.take_append_drop before.length (h.filterMap taken)
    rw [List.drop_eq_getElem_cons hbound, ha] at hsplit
    obtain ⟨k₁, k₂, hh, hk₁, hk₂⟩ := List.filterMap_eq_append_iff.mp hsplit.symm
    obtain ⟨k₃, m, l, rfl, hnone, hm, -⟩ := List.filterMap_eq_cons_iff.mp hk₂
    refine ⟨k₁ ++ k₃, m, l, by simp [hh], ?_, hm⟩
    rw [List.filterMap_append, hk₁, List.filterMap_eq_nil_iff.mpr hnone, List.append_nil,
      List.length_take, Nat.min_eq_left (Nat.le_of_lt hbound)]
  · omega

end Transition.Machine
