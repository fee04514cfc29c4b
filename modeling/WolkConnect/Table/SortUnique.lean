import Mathlib.Data.List.Destutter
import Mathlib.Data.List.Sort

/-! Sorting a list and dropping adjacent repetitions gives the one strictly increasing list
with the same elements. -/
namespace Table

variable {α : Type*} [LinearOrder α]

def sortUnique (l : List α) : List α := (l.insertionSort (· ≤ ·)).destutter (· ≠ ·)

theorem mem_destutter'_ne {x a : α} {l : List α} :
    x ∈ l.destutter' (· ≠ ·) a ↔ x = a ∨ x ∈ l := by
  induction l generalizing a with
  | nil => simp
  | cons b l ih =>
    by_cases h : a = b
    · subst h
      rw [List.destutter'_cons_neg (h := by simp), ih]
      simp
    · rw [List.destutter'_cons_pos (h := h), List.mem_cons, ih]
      simp

variable {x : α} {l : List α}

theorem mem_sortUnique : x ∈ sortUnique l ↔ x ∈ l := by
  have hmem : ∀ k : List α, x ∈ k.destutter (· ≠ ·) ↔ x ∈ k := by
    intro k
    cases k with
    | nil => simp
    | cons a k => rw [List.destutter_cons', mem_destutter'_ne, List.mem_cons]
  rw [sortUnique, hmem, List.mem_insertionSort]

theorem sortUnique_strict (l : List α) : (sortUnique l).Pairwise (· < ·) := by
  have hle : (sortUnique l).Pairwise (· ≤ ·) :=
    (List.pairwise_insertionSort (· ≤ ·) l).sublist (List.destutter_sublist _ _)
  have hne : (sortUnique l).IsChain (· ≠ ·) := List.isChain_destutter _ _
  rw [← List.isChain_iff_pairwise, List.isChain_iff_getElem] at hle ⊢
  rw [List.isChain_iff_getElem] at hne
  intro i hi
  exact lt_of_le_of_ne (hle i hi) (hne i hi)

end Table
