import Mathlib.Data.List.Basic

/-! Ordered maps: a value for many keys, and the search for the first key that passes a test. -/
namespace Table

variable {κ β : Type*} {cmp : κ → κ → Ordering}

/-- The first entry whose key passes the test, in the order of the keys. -/
def firstMatch (t : Std.TreeMap κ β cmp) (p : κ → Bool) : Option (κ × β) :=
  t.toList.find? fun entry => p entry.1

variable [Std.TransCmp cmp] [Std.LawfulEqCmp cmp] {t : Std.TreeMap κ β cmp} {p : κ → Bool}

theorem firstMatch_eq_some_iff {k : κ} {v : β} : firstMatch t p = some (k, v) ↔
    t[k]? = some v ∧ p k = true ∧ ∀ j ∈ t, p j = true → cmp k j ≠ .gt := by
  have hordered : t.toList.Pairwise fun a b => cmp a.1 b.1 = .lt :=
    Std.TreeMap.ordered_keys_toList
  have hmem (j : κ) (hj : j ∈ t) : ∃ w, (j, w) ∈ t.toList := by
    refine ⟨t[j], ?_⟩
    rw [Std.TreeMap.mem_toList_iff_getElem?_eq_some]
    exact Std.TreeMap.getElem?_eq_some_getElem hj
  unfold firstMatch
  rw [List.find?_eq_some_iff_append, ← Std.TreeMap.mem_toList_iff_getElem?_eq_some]
  constructor
  · rintro ⟨hp, before, after, hlist, hbefore⟩
    refine ⟨by simp [hlist], hp, ?_⟩
    intro j hj hpj
    obtain ⟨w, hw⟩ := hmem j hj
    rw [hlist] at hw hordered
    rcases List.mem_append.mp hw with hw | hw
    · have hnot := hbefore _ hw
      simp [hpj] at hnot
    · rcases List.mem_cons.mp hw with he | hw
      · obtain ⟨rfl, -⟩ := Prod.mk.inj he
        simp [Std.ReflCmp.compare_self]
      · have hlt := (List.pairwise_cons.mp (List.pairwise_append.mp hordered).2.1).1 _ hw
        simp [hlt]
  · rintro ⟨hk, hp, hleast⟩
    obtain ⟨before, after, hlist⟩ := List.append_of_mem hk
    refine ⟨hp, before, after, hlist, ?_⟩
    intro e he
    rw [hlist] at hordered
    have hlt := (List.pairwise_append.mp hordered).2.2 e he _ List.mem_cons_self
    have hin : e.1 ∈ t := by
      rw [← Std.TreeMap.mem_keys, ← Std.TreeMap.map_fst_toList_eq_keys, hlist]
      simp only [List.map_append, List.mem_append, List.mem_map]
      exact .inl ⟨e, he, rfl⟩
    by_contra hpe
    exact hleast e.1 hin (by simpa using hpe) (Std.OrientedCmp.gt_iff_lt.mpr hlt)

theorem getElem?_foldl_insert [DecidableEq κ] (ks : List κ) (v : β) (j : κ) :
    (ks.foldl (fun t k => t.insert k v) t)[j]? = if j ∈ ks then some v else t[j]? := by
  induction ks generalizing t with
  | nil => simp
  | cons k ks ih =>
    rw [List.foldl_cons, ih, Std.TreeMap.getElem?_insert]
    by_cases hin : j ∈ ks
    · simp [hin]
    · by_cases hk : k = j
      · simp [hk]
      · simp [hin, hk, Ne.symm hk]

end Table
