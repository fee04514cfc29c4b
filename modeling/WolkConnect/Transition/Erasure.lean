import WolkConnect.Transition.Machine

/-! A run without some of its steps: where the dropped steps change nothing that the others see,
the rest is a run of its own. -/
namespace Transition

variable {σ ε ω τ : Type*}

/-- The moments that are kept, as another machine sees their states. -/
def erase (view : σ → τ) (keeps : Moment σ ε ω → Bool) (h : List (Moment σ ε ω)) :
    List (Moment τ ε ω) := (h.filter keeps).map fun m => ⟨view m.state, m.event, m.output⟩

section

variable {view : σ → τ} {keeps : Moment σ ε ω → Bool} {h : List (Moment σ ε ω)}
  {m : Moment σ ε ω}

theorem erase_concat_of_kept (hm : keeps m = true) : erase view keeps (h ++ [m]) =
    erase view keeps h ++ [⟨view m.state, m.event, m.output⟩] := by
  simp [erase, hm]

theorem erase_concat_of_dropped (hm : keeps m = false) :
    erase view keeps (h ++ [m]) = erase view keeps h := by
  simp [erase, hm]

/-- What the dropped moments have nothing of is the same in both histories. -/
theorem filterMap_erase {β : Type*} (f : Moment σ ε ω → Option β) (g : Moment τ ε ω → Option β)
    (hkept : ∀ m ∈ h, keeps m = true → g ⟨view m.state, m.event, m.output⟩ = f m)
    (hdropped : ∀ m ∈ h, keeps m = false → f m = none) :
    (erase view keeps h).filterMap g = h.filterMap f := by
  induction h with
  | nil => rfl
  | cons m h ih =>
    have ih := ih (fun m hm => hkept m (List.mem_cons_of_mem _ hm))
      fun m hm => hdropped m (List.mem_cons_of_mem _ hm)
    cases hm : keeps m with
    | true =>
      have hf := hkept m List.mem_cons_self hm
      simp only [erase, List.filter_cons_of_pos hm, List.map_cons, List.filterMap_cons, hf] at ih ⊢
      rw [ih]
    | false =>
      have hf := hdropped m List.mem_cons_self hm
      have hneg : ¬ keeps m = true := by simp [hm]
      simp only [erase, List.filter_cons_of_neg hneg, List.filterMap_cons, hf] at ih ⊢
      exact ih

/-- Outputs that the dropped moments do not have are the same in both histories. -/
theorem outputs_erase (p : ω → Bool)
    (hdropped : ∀ m ∈ h, keeps m = false → ∀ o ∈ m.output, p o = false) :
    (outputs (erase view keeps h)).filter p = (outputs h).filter p := by
  induction h with
  | nil => rfl
  | cons m h ih =>
    have ih := ih fun m hm => hdropped m (List.mem_cons_of_mem _ hm)
    unfold outputs at ih ⊢
    rw [List.flatMap_cons, List.filter_append, ← ih]
    cases hm : keeps m with
    | true => simp [erase, List.filter_cons_of_pos hm, List.filter_append]
    | false =>
      have hneg : ¬ keeps m = true := by simp [hm]
      have hnone : m.output.filter p = [] := by
        rw [List.filter_eq_nil_iff]
        intro o ho
        simp [hdropped m List.mem_cons_self hm o ho]
      rw [hnone, erase, List.filter_cons_of_neg hneg]
      rfl

end

namespace Machine

variable {M : Machine σ ε ω} {N : Machine τ ε ω} {C D : Condition σ ε ω}

/-- The machine with another start. -/
def startAt (M : Machine σ ε ω) (s : σ) : Machine σ ε ω := { M with start := s }

theorem startAt_step (s t : σ) (e : ε) : (M.startAt s).step t e = M.step t e := rfl

theorem startAt_run_step {s s' : σ} {e : ε} {out : List ω} (h : M.step s e = some (s', out)) :
    (M.startAt s).Run Free [⟨s, e, out⟩] s' :=
  Run.start.step (e := e) trivial h

/-- A step that is dropped is not seen, and a step that is kept is one of the other machine. -/
theorem Run.erased (view : σ → τ) (keeps : Moment σ ε ω → Bool) (hstart : view M.start = N.start)
    (hdropped : ∀ {h s s' e out}, C h s e → M.step s e = some (s', out) →
      keeps ⟨s, e, out⟩ = false → view s' = view s)
    (hkept : ∀ {h s s' e out}, C h s e → M.step s e = some (s', out) →
      keeps ⟨s, e, out⟩ = true → N.step (view s) e = some (view s', out))
    {h : List (Moment σ ε ω)} {s : σ} (hrun : M.Run C h s) :
    N.Run Free (erase view keeps h) (view s) := by
  induction hrun with
  | start =>
    rw [hstart]
    exact .start
  | @step h s s' e out hr hc hs ih =>
    cases hm : keeps ⟨s, e, out⟩ with
    | true =>
      rw [erase_concat_of_kept hm]
      exact ih.step trivial (hkept hc hs hm)
    | false =>
      rw [erase_concat_of_dropped hm, hdropped hc hs hm]
      exact ih

/-- The events determine the run. -/
theorem Run.eq_of_events {h k : List (Moment σ ε ω)} {s t : σ} (hrun : M.Run C h s)
    (hrun' : M.Run D k t) (he : h.map Moment.event = k.map Moment.event) : h = k ∧ s = t := by
  induction hrun generalizing k t with
  | start =>
    obtain rfl := List.map_eq_nil_iff.mp he.symm
    exact ⟨rfl, hrun'.eq_start.symm⟩
  | @step h s s' e out hr hc hs ih =>
    cases hrun' with
    | start => simp at he
    | @step k t t' e' out' hr' hc' hs' =>
      rw [List.map_append, List.map_append] at he
      obtain ⟨hhist, hlast⟩ := List.append_inj' he rfl
      obtain ⟨rfl, rfl⟩ := ih hr' hhist
      obtain rfl : e = e' := by simpa using hlast
      obtain ⟨rfl, rfl⟩ := Prod.mk.inj (Option.some.inj (hs.symm.trans hs'))
      exact ⟨rfl, rfl⟩

end Machine
end Transition
