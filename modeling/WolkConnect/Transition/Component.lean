import WolkConnect.Transition.Machine

/-! A machine with parts that are machines of their own: each of its steps is at most one step of a
part, and every run of the whole is a run of the part. -/
namespace Transition

variable {σ τ ε δ ω υ : Type*}

/-- A part that takes a step, or is left alone. -/
def stepIf (step : τ → δ → Option (τ × List υ)) (t : τ) : Option δ → Option (τ × List υ)
  | some d => step t d
  | none => some (t, [])

/-- Of two calls one after another, one leaves the part alone. -/
theorem stepIf_or {step : τ → δ → Option (τ × List υ)} {t u v : τ} {a b : Option δ}
    {os ps : List υ} (hab : a = none ∨ b = none) (ha : stepIf step t a = some (u, os))
    (hb : stepIf step u b = some (v, ps)) : stepIf step t (a.or b) = some (v, os ++ ps) := by
  cases a with
  | none =>
    obtain ⟨rfl, rfl⟩ := Prod.mk.inj (Option.some.inj ha)
    exact hb
  | some d =>
    obtain rfl : b = none := by simpa using hab
    obtain ⟨rfl, rfl⟩ := Prod.mk.inj (Option.some.inj hb)
    rw [List.append_nil]
    exact ha

/-- What a part sees of the whole: its own state, the event that it takes part in with, if it does,
and the outputs that are its own. -/
structure Part (σ τ ε δ ω υ : Type*) where
  view : σ → τ
  act : Moment σ ε ω → Option δ
  output : ω → Option υ

namespace Part

variable (p : Part σ τ ε δ ω υ)

/-- The moment of the part. -/
def moment (m : Moment σ ε ω) : Option (Moment τ δ υ) :=
  (p.act m).map fun d => ⟨p.view m.state, d, m.output.filterMap p.output⟩

def project (h : List (Moment σ ε ω)) : List (Moment τ δ υ) := h.filterMap p.moment

variable {p} {h k : List (Moment σ ε ω)} {m : Moment σ ε ω}

theorem project_append : p.project (h ++ k) = p.project h ++ p.project k := List.filterMap_append

theorem project_concat_of_act {d : δ} (hact : p.act m = some d) : p.project (h ++ [m]) =
    p.project h ++ [⟨p.view m.state, d, m.output.filterMap p.output⟩] := by
  rw [project_append]
  simp [project, moment, hact]

theorem project_concat_of_idle (hact : p.act m = none) : p.project (h ++ [m]) = p.project h := by
  rw [project_append]
  simp [project, moment, hact]

variable (p)

/-- The part is a machine of its own within the whole. -/
structure Of (M : Machine σ ε ω) (N : Machine τ δ υ) : Prop where
  start : p.view M.start = N.start
  steps : ∀ {s e s' out}, M.step s e = some (s', out) →
    stepIf N.step (p.view s) (p.act ⟨s, e, out⟩) = some (p.view s', out.filterMap p.output)

namespace Of

variable {p} {M : Machine σ ε ω} {N : Machine τ δ υ} {C : Machine.Condition σ ε ω}
  {D : Machine.Condition τ δ υ} {s : σ}

/-- The part is left alone, or takes a step of its own. -/
theorem step_cases (hp : p.Of M N) {s s' : σ} {e : ε} {out : List ω}
    (hstep : M.step s e = some (s', out)) :
    (p.act ⟨s, e, out⟩ = none ∧ p.view s' = p.view s ∧ out.filterMap p.output = []) ∨
      ∃ d, p.act ⟨s, e, out⟩ = some d ∧
        N.step (p.view s) d = some (p.view s', out.filterMap p.output) := by
  have hsteps := hp.steps hstep
  cases hact : p.act ⟨s, e, out⟩ with
  | none =>
    rw [hact] at hsteps
    obtain ⟨hview, hout⟩ := Prod.mk.inj (Option.some.inj hsteps)
    exact .inl ⟨rfl, hview.symm, hout.symm⟩
  | some d =>
    rw [hact] at hsteps
    exact .inr ⟨d, rfl, hsteps⟩

/-- Where it puts something out, it takes a step. -/
theorem step_of_output (hp : p.Of M N) {s s' : σ} {e : ε} {out : List ω}
    (hstep : M.step s e = some (s', out)) {o : υ} (ho : o ∈ out.filterMap p.output) :
    ∃ d, p.act ⟨s, e, out⟩ = some d ∧
      N.step (p.view s) d = some (p.view s', out.filterMap p.output) := by
  rcases hp.step_cases hstep with ⟨-, -, hout⟩ | htaken
  · rw [hout] at ho
    cases ho
  · exact htaken

/-- A run of the whole is a run of the part, whose steps meet what the steps of the whole
promise. -/
theorem run (hp : p.Of M N)
    (hD : ∀ {h s e s' out d}, M.Run C h s → C h s e → M.step s e = some (s', out) →
      p.act ⟨s, e, out⟩ = some d → D (p.project h) (p.view s) d)
    (hrun : M.Run C h s) : N.Run D (p.project h) (p.view s) := by
  induction hrun with
  | start =>
    rw [hp.start]
    exact .start
  | @step h s s' e out hr hc hs ih =>
    rcases hp.step_cases hs with ⟨hact, hview, -⟩ | ⟨d, hact, hstep⟩
    · rwa [project_concat_of_idle hact, hview]
    · rw [project_concat_of_act hact]
      exact ih.step (hD hr hc hs hact) hstep

theorem run_free (hp : p.Of M N) (hrun : M.Run C h s) :
    N.Run Machine.Free (p.project h) (p.view s) :=
  hp.run (fun _ _ _ _ => trivial) hrun

/-- The outputs of the part are those outputs of the whole that are its own. -/
theorem outputs_project (hp : p.Of M N) (hrun : M.Run C h s) :
    outputs (p.project h) = (outputs h).filterMap p.output := by
  induction hrun with
  | start => rfl
  | @step h s s' e out hr hc hs ih =>
    rw [outputs_append, outputs_singleton, List.filterMap_append, ← ih]
    rcases hp.step_cases hs with ⟨hact, -, hout⟩ | ⟨d, hact, -⟩
    · rw [project_concat_of_idle hact, hout, List.append_nil]
    · rw [project_concat_of_act hact, outputs_append, outputs_singleton]

end Of

/-- The part has taken a run of its own machine, and its outputs are among those of the whole. -/
structure Follows (N : Machine τ δ υ) (h : List (Moment σ ε ω)) (s : σ) : Prop where
  run : N.Run Machine.Free (p.project h) (p.view s)
  outputs : outputs (p.project h) = (outputs h).filterMap p.output

theorem Of.follows {p : Part σ τ ε δ ω υ} {M : Machine σ ε ω} {N : Machine τ δ υ}
    {C : Machine.Condition σ ε ω} {s : σ} (hp : p.Of M N) (hrun : M.Run C h s) :
    p.Follows N h s :=
  ⟨hp.run_free hrun, hp.outputs_project hrun⟩

end Part
end Transition
