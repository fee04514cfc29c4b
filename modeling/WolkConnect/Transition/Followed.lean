import Mathlib.Data.List.Basic

/-! Queues in which elements of one kind are always followed by one of another kind. -/
namespace Transition

variable {α : Type*} {p q : α → Prop} {a : α} {l m : List α}

/-- Every element with `p` has one with `q` behind it. -/
def Followed (p q : α → Prop) : List α → Prop
  | [] => True
  | a :: l => (p a → ∃ b ∈ l, q b) ∧ Followed p q l

namespace Followed

theorem tail (h : Followed p q (a :: l)) : Followed p q l := h.2

theorem append (hl : Followed p q l) (hm : Followed p q m) : Followed p q (l ++ m) := by
  induction l with
  | nil => exact hm
  | cons a l ih =>
    refine ⟨fun ha => ?_, ih hl.2⟩
    obtain ⟨b, hb, hq⟩ := hl.1 ha
    exact ⟨b, List.mem_append_left _ hb, hq⟩

theorem of_forall (h : ∀ a ∈ l, ¬ p a) : Followed p q l := by
  induction l with
  | nil => trivial
  | cons a l ih =>
    exact ⟨fun ha => absurd ha (h a List.mem_cons_self),
      ih fun b hb => h b (List.mem_cons_of_mem _ hb)⟩

/-- An element without `p` can be pushed anywhere. -/
theorem insert (h : Followed p q (l ++ m)) (ha : ¬ p a) : Followed p q (l ++ a :: m) := by
  induction l with
  | nil => exact ⟨fun hp => absurd hp ha, h⟩
  | cons b l ih =>
    refine ⟨fun hb => ?_, ih h.2⟩
    obtain ⟨c, hc, hq⟩ := h.1 hb
    refine ⟨c, List.mem_append.mpr ?_, hq⟩
    rcases List.mem_append.mp hc with hc | hc
    · exact .inl hc
    · exact .inr (List.mem_cons_of_mem _ hc)

/-- Where nothing has `q`, nothing has `p`. -/
theorem not_mem (h : Followed p q l) (hq : ∀ b ∈ l, ¬ q b) : ∀ a ∈ l, ¬ p a := by
  induction l with
  | nil => simp
  | cons b l ih =>
    intro a ha hp
    rcases List.mem_cons.mp ha with rfl | ha
    · obtain ⟨c, hc, hqc⟩ := h.1 hp
      exact hq c (List.mem_cons_of_mem _ hc) hqc
    · exact ih h.2 (fun c hc => hq c (List.mem_cons_of_mem _ hc)) a ha hp

end Followed
end Transition
