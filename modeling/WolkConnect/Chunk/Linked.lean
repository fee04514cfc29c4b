import Mathlib.Data.List.Chain

/-! Lists whose elements name the one before them by its tag; the first one names a start. -/
namespace Linked

variable {α κ : Type*} {start : κ} {link tag : α → κ} {l : List α} {a : α}

/-- What the next element has to name. -/
def tip (start : κ) (tag : α → κ) (l : List α) : κ := (l.getLast?.map tag).getD start

theorem tip_nil (start : κ) (tag : α → κ) : tip start tag [] = start := rfl

theorem tip_concat (start : κ) (tag : α → κ) (l : List α) (a : α) :
    tip start tag (l ++ [a]) = tag a := by
  simp [tip]

/-- The tip is the start only of the empty list, where no tag is the start. -/
theorem tip_eq_start_iff (h : ∀ a ∈ l, tag a ≠ start) : tip start tag l = start ↔ l = [] := by
  rcases l.eq_nil_or_concat' with rfl | ⟨l, a, rfl⟩
  · simp [tip_nil]
  · rw [tip_concat]
    simpa using h a (by simp)

/-- Two tips agree on a list that is not empty. -/
theorem tip_congr (start₁ start₂ : κ) (h : l ≠ []) : tip start₁ tag l = tip start₂ tag l := by
  obtain ⟨l, a, rfl⟩ := (l.eq_nil_or_concat').resolve_left h
  rw [tip_concat, tip_concat]

structure IsLinked (start : κ) (link tag : α → κ) (l : List α) : Prop where
  first : ∀ a ∈ l.head?, link a = start
  later : l.IsChain fun a b => link b = tag a

theorem isLinked_nil : IsLinked start link tag [] := by
  constructor
  · simp
  · exact .nil

/-- A linked list grows by the elements that name its tip. -/
theorem isLinked_concat : IsLinked start link tag (l ++ [a]) ↔
    IsLinked start link tag l ∧ link a = tip start tag l := by
  rcases l.eq_nil_or_concat' with rfl | ⟨l, b, rfl⟩
  · constructor
    · intro h
      exact ⟨isLinked_nil, h.first a rfl⟩
    · rintro ⟨_, h⟩
      exact ⟨by simpa [tip_nil] using h, .singleton a⟩
  · rw [tip_concat]
    have hhead : (l ++ [b] ++ [a]).head? = (l ++ [b]).head? := by
      cases l <;> rfl
    constructor
    · rintro ⟨hfirst, hlater⟩
      obtain ⟨hl, -, hlast⟩ := List.isChain_append.mp hlater
      exact ⟨⟨hhead ▸ hfirst, hl⟩, hlast b (by simp) a rfl⟩
    · rintro ⟨⟨hfirst, hlater⟩, h⟩
      refine ⟨hhead ▸ hfirst, List.isChain_append.mpr ⟨hlater, .singleton a, ?_⟩⟩
      simpa using h

end Linked
