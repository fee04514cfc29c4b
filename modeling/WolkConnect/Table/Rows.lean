import Mathlib.Data.List.Nodup

/-! Tables with a key and a second unique column: lookup, deletion, and an insertion
that leaves the table as it is where a constraint would be violated. -/
namespace Table

/-- Rows in an order, no two with the same `key` and no two with the same `column`. -/
structure Rows {α κ μ : Type*} (key : α → κ) (column : α → μ) where
  list : List α
  key_nodup : (list.map key).Nodup
  column_nodup : (list.map column).Nodup

namespace Rows

variable {α κ μ : Type*} {key : α → κ} {column : α → μ}

@[ext] theorem ext {t u : Rows key column} (h : t.list = u.list) : t = u := by
  cases t
  cases u
  subst h
  rfl

def empty : Rows key column := ⟨[], List.nodup_nil, List.nodup_nil⟩

def keys (t : Rows key column) : List κ := t.list.map key

/-- A row of the table violates a constraint against `r`. -/
def Clash (t : Rows key column) (r : α) : Prop := ∃ q ∈ t.list, key q = key r ∨ column q = column r

theorem eq_of_key {t : Rows key column} {q r : α} (hq : q ∈ t.list) (hr : r ∈ t.list)
    (h : key q = key r) : q = r := List.inj_on_of_nodup_map t.key_nodup hq hr h

theorem eq_of_column {t : Rows key column} {q r : α} (hq : q ∈ t.list) (hr : r ∈ t.list)
    (h : column q = column r) : q = r := List.inj_on_of_nodup_map t.column_nodup hq hr h

variable [DecidableEq κ]

def get (t : Rows key column) (k : κ) : Option α := t.list.find? fun r => decide (key r = k)

def delete (t : Rows key column) (k : κ) : Rows key column where
  list := t.list.filter fun r => decide (key r ≠ k)
  key_nodup := t.key_nodup.sublist (List.filter_sublist.map key)
  column_nodup := t.column_nodup.sublist (List.filter_sublist.map column)

variable {t : Rows key column} {k : κ} {q r : α}

theorem get_eq_some : t.get k = some r ↔ r ∈ t.list ∧ key r = k := by
  constructor
  · intro h
    exact ⟨List.mem_of_find?_eq_some h, by simpa using List.find?_some h⟩
  · rintro ⟨hr, rfl⟩
    cases hf : t.get (key r) with
    | none => simpa using List.find?_eq_none.mp hf r hr
    | some q =>
      have hk : key q = key r := by simpa using List.find?_some hf
      rw [eq_of_key (List.mem_of_find?_eq_some hf) hr hk]

theorem get_eq_none : t.get k = none ↔ k ∉ t.keys := by
  simp [get, keys]

theorem mem_keys : k ∈ t.keys ↔ ∃ r, t.get k = some r := by
  rw [← Option.ne_none_iff_exists', ne_eq, get_eq_none, not_not]

theorem get_self (h : r ∈ t.list) : t.get (key r) = some r := get_eq_some.mpr ⟨h, rfl⟩

theorem mem_delete : r ∈ (t.delete k).list ↔ r ∈ t.list ∧ key r ≠ k := by
  simp [delete]

/-- Two tables with the same rows of a key answer alike for it. -/
theorem get_congr {u : Rows key column}
    (h : ∀ r, key r = k → (r ∈ t.list ↔ r ∈ u.list)) : t.get k = u.get k := by
  apply Option.ext
  intro r
  rw [get_eq_some, get_eq_some]
  constructor
  · rintro ⟨hr, hk⟩
    exact ⟨(h r hk).mp hr, hk⟩
  · rintro ⟨hr, hk⟩
    exact ⟨(h r hk).mpr hr, hk⟩

@[simp] theorem get_delete_self : (t.delete k).get k = none := by
  rw [get_eq_none, keys, List.mem_map]
  rintro ⟨r, hr, hk⟩
  exact (mem_delete.mp hr).2 hk

theorem get_delete_ne {j : κ} (h : j ≠ k) : (t.delete k).get j = t.get j := by
  apply get_congr
  rintro r rfl
  simp [mem_delete, h]

theorem delete_comm (t : Rows key column) (j k : κ) :
    (t.delete j).delete k = (t.delete k).delete j := by
  apply ext
  show (t.list.filter _).filter _ = (t.list.filter _).filter _
  rw [List.filter_filter, List.filter_filter]
  apply List.filter_congr
  intro r _
  exact Bool.and_comm _ _

theorem delete_of_notMem (h : k ∉ t.keys) : t.delete k = t := by
  apply ext
  apply List.filter_eq_self.mpr
  intro r hr
  have hk : key r ≠ k := fun he => h (he ▸ List.mem_map_of_mem hr)
  simpa using hk

theorem mem_keys_delete {j : κ} : j ∈ (t.delete k).keys ↔ j ∈ t.keys ∧ j ≠ k := by
  by_cases h : j = k
  · subst h
    simp [mem_keys]
  · simp [mem_keys, get_delete_ne h, h]

theorem nodup_map_concat {ν : Type*} {f : α → ν} {l : List α} {r : α} (hl : (l.map f).Nodup)
    (hr : ∀ q ∈ l, f q ≠ f r) : ((l ++ [r]).map f).Nodup := by
  rw [List.map_append, List.nodup_append]
  refine ⟨hl, by simp, ?_⟩
  rintro a ha b hb rfl
  obtain ⟨q, hq, rfl⟩ := List.mem_map.mp ha
  exact hr q hq (by simpa using hb)

variable [DecidableEq μ]

instance (t : Rows key column) (r : α) : Decidable (t.Clash r) :=
  inferInstanceAs (Decidable (∃ q ∈ t.list, key q = key r ∨ column q = column r))

def insert (t : Rows key column) (r : α) : Rows key column :=
  if h : t.Clash r then t else
    { list := t.list ++ [r]
      key_nodup := nodup_map_concat t.key_nodup fun q hq hk => h ⟨q, hq, .inl hk⟩
      column_nodup := nodup_map_concat t.column_nodup fun q hq hc => h ⟨q, hq, .inr hc⟩ }

theorem insert_of_clash (h : t.Clash r) : t.insert r = t := dif_pos h

theorem list_insert (h : ¬ t.Clash r) : (t.insert r).list = t.list ++ [r] := by
  simp [insert, h]

theorem mem_insert {q : α} (hq : q ∈ (t.insert r).list) : q = r ∨ q ∈ t.list := by
  by_cases h : t.Clash r
  · rw [insert_of_clash h] at hq
    exact .inr hq
  · rw [list_insert h] at hq
    exact (List.mem_append.mp hq).symm.imp_left List.mem_singleton.mp

theorem get_insert_self (h : ¬ t.Clash r) : (t.insert r).get (key r) = some r := by
  apply get_self
  simp [list_insert h]

theorem get_insert_ne (h : k ≠ key r) : (t.insert r).get k = t.get k := by
  by_cases hc : t.Clash r
  · rw [insert_of_clash hc]
  · apply get_congr
    rintro q rfl
    have hq : q ≠ r := fun he => h (congrArg key he)
    simp [list_insert hc, hq]

end Rows
end Table
