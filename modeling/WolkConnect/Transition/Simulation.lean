import WolkConnect.Transition.Machine

/-! Simulation between machines with the same outputs: a step of one is matched by any
number of steps of the other. -/
namespace Transition.Machine

variable {σ ε ω τ δ : Type*}

/-- Steps from one state to another, with everything they put out. -/
inductive Path (M : Machine σ ε ω) : σ → List ω → σ → Prop where
  | nil (s : σ) : Path M s [] s
  | cons {s s' t : σ} {e : ε} {out os : List ω} :
      M.step s e = some (s', out) → Path M s' os t → Path M s (out ++ os) t

namespace Path

variable {M : Machine σ ε ω} {s t u : σ} {os ps : List ω}

theorem single {e : ε} (h : M.step s e = some (t, os)) : M.Path s os t := by
  have hp := cons h (nil t)
  rwa [List.append_nil] at hp

theorem trans (hst : M.Path s os t) (htu : M.Path t ps u) : M.Path s (os ++ ps) u := by
  induction hst with
  | nil s => exact htu
  | cons hs _ ih =>
    rw [List.append_assoc]
    exact cons hs (ih htu)

/-- A path from the end of a run makes it longer. -/
theorem extends_run {h : List (Moment σ ε ω)} (hp : M.Path s os t) (hrun : M.Run Free h s) :
    ∃ k, M.Run Free k t ∧ outputs k = outputs h ++ os := by
  induction hp generalizing h with
  | nil s => exact ⟨h, hrun, by simp⟩
  | cons hs _ ih =>
    obtain ⟨k, hk, ho⟩ := ih (hrun.step trivial hs)
    refine ⟨k, hk, ?_⟩
    simp [ho]

end Path

/-- Steps of one kind from one state to another. -/
inductive PathBy (M : Machine σ ε ω) (P : ε → Prop) : σ → List ω → σ → Prop where
  | nil (s : σ) : PathBy M P s [] s
  | cons {s s' t : σ} {e : ε} {out os : List ω} (he : P e) :
      M.step s e = some (s', out) → PathBy M P s' os t → PathBy M P s (out ++ os) t

namespace PathBy

variable {M : Machine σ ε ω} {P : ε → Prop} {s t u : σ} {os ps : List ω}

theorem single {e : ε} (he : P e) (h : M.step s e = some (t, os)) : M.PathBy P s os t := by
  have hp := cons he h (nil t)
  rwa [List.append_nil] at hp

theorem trans (hst : M.PathBy P s os t) (htu : M.PathBy P t ps u) :
    M.PathBy P s (os ++ ps) u := by
  induction hst with
  | nil s => exact htu
  | cons he hs _ ih =>
    rw [List.append_assoc]
    exact cons he hs (ih htu)

theorem path (hp : M.PathBy P s os t) : M.Path s os t := by
  induction hp with
  | nil s => exact .nil s
  | cons _ hs _ ih => exact .cons hs ih

end PathBy

variable {M : Machine σ ε ω} {N : Machine τ δ ω} {C : Condition σ ε ω}

/-- If related starts stay related when every step of a run of `M` is matched by a path of
`N` with its outputs, every run of `M` is matched by a run of `N`. -/
theorem Run.simulated (R : σ → τ → Prop) (hstart : R M.start N.start)
    (hstep : ∀ {h s s' e out x}, M.Run C h s → R s x → C h s e → M.step s e = some (s', out) →
      ∃ x', N.Path x out x' ∧ R s' x')
    {h : List (Moment σ ε ω)} {s : σ} (hrun : M.Run C h s) :
    ∃ k x, N.Run Free k x ∧ outputs k = outputs h ∧ R s x := by
  induction hrun with
  | start => exact ⟨[], N.start, .start, rfl, hstart⟩
  | step hr hc hs ih =>
    obtain ⟨k, x, hk, ho, hR⟩ := ih
    obtain ⟨x', hp, hR'⟩ := hstep hr hR hc hs
    obtain ⟨k', hk', ho'⟩ := hp.extends_run hk
    exact ⟨k', x', hk', by simp [ho', ho], hR'⟩

/-- The rule where each machine puts out more than what is to be compared. -/
theorem Run.simulated_visibly {ω' κ : Type*} {N : Machine τ δ ω'} (f : ω → Option κ)
    (g : ω' → Option κ) (R : σ → τ → Prop) (hstart : R M.start N.start)
    (hstep : ∀ {h s s' e out x}, M.Run C h s → R s x → C h s e → M.step s e = some (s', out) →
      ∃ os x', N.Path x os x' ∧ os.filterMap g = out.filterMap f ∧ R s' x')
    {h : List (Moment σ ε ω)} {s : σ} (hrun : M.Run C h s) :
    ∃ k x, N.Run Free k x ∧ (outputs k).filterMap g = (outputs h).filterMap f ∧ R s x := by
  induction hrun with
  | start => exact ⟨[], N.start, .start, rfl, hstart⟩
  | step hr hc hs ih =>
    obtain ⟨k, x, hk, ho, hR⟩ := ih
    obtain ⟨os, x', hp, hos, hR'⟩ := hstep hr hR hc hs
    obtain ⟨k', hk', ho'⟩ := hp.extends_run hk
    refine ⟨k', x', hk', ?_, hR'⟩
    rw [ho', List.filterMap_append, ho, hos, outputs_append, outputs_singleton,
      List.filterMap_append]

end Transition.Machine
