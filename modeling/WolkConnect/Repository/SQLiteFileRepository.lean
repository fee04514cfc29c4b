import WolkConnect.File.Host
import WolkConnect.Table.Rows
import Mathlib.Data.Set.Function
import Mathlib.Logic.Function.Iterate

/-! `SQLiteFileRepository`: the statements it issues, each of which may throw, and what its
operations leave in the table. -/
namespace WolkConnect

/-- The table `file_info`: `name` and `path` are UNIQUE. The automatic `id` is never read. -/
abbrev FileTable := Table.Rows FileInfo.name FileInfo.path

/-- The calls that change a repository. -/
inductive RepositoryCall where
  | remove (fileName : String)
  | store (info : FileInfo)
  deriving DecidableEq

namespace SQLiteFileRepository

/-- Whether the statement issued as number `n` is executed; the others throw. An INSERT
that is executed can still violate a constraint. -/
abbrev Outcomes := ℕ → Bool

/-- The table and the number of statements issued so far. -/
structure Session where
  table : FileTable
  issued : ℕ

/-- One more statement was issued and left `table` behind. -/
def Session.issue (s : Session) (table : FileTable) : Session := ⟨table, s.issued + 1⟩

variable (executes : Outcomes)

def getFileInfo (s : Session) (fileName : String) : Option FileInfo × Session :=
  (if executes s.issued then s.table.get fileName else none, s.issue s.table)

def getAllFileNames (s : Session) : List String × Session :=
  (if executes s.issued then s.table.keys else [], s.issue s.table)

def containsInfoForFile (s : Session) (fileName : String) : Bool × Session :=
  (executes s.issued && decide (fileName ∈ s.table.keys), s.issue s.table)

def remove (s : Session) (fileName : String) : Session :=
  let (contains, s) := containsInfoForFile executes s fileName
  if !contains then s
  else if executes s.issued then s.issue (s.table.delete fileName)
  else s.issue s.table

/-- `store` is the recursive call. -/
def update (store : Session → FileInfo → Option Session) (s : Session) (info : FileInfo) :
    Option Session :=
  store (remove executes s info.name) info

/-- `none` when the calls nest deeper than the fuel. -/
def store : ℕ → Session → FileInfo → Option Session
  | 0, _, _ => none
  | fuel + 1, s, info =>
    let (contains, s) := containsInfoForFile executes s info.name
    if contains then update executes (store fuel) s info
    else if executes s.issued then some (s.issue (s.table.insert info))
    else some (s.issue s.table)

def perform (fuel : ℕ) (s : Session) : RepositoryCall → Option Session
  | .remove fileName => some (remove executes s fileName)
  | .store info => store executes fuel s info

/-- The calls of one caller, one after another. -/
def performAll (fuel : ℕ) (s : Session) (calls : List RepositoryCall) : Option Session :=
  calls.foldlM (perform executes fuel) s

/-- `store` returns after finitely many statements. -/
def Terminates (s : Session) (info : FileInfo) : Prop :=
  ∃ fuel s', store executes fuel s info = some s'

/-- A call of `store` for a present name, issuing statement `n` first, is not followed by
another one for a present name: its SELECT throws, or the record is deleted. -/
def Settles (n : ℕ) : Prop :=
  executes n = false ∨ (executes (n + 1) = true ∧ executes (n + 2) = true)

/-- The first statement of the call of `store` after one that issued statement `n` first and
did not settle: `remove` issues its DELETE only when its SELECT was executed. -/
def nextStore (n : ℕ) : ℕ := n + if executes (n + 1) then 3 else 2

variable {executes} {s : Session} {info : FileInfo} {fuel : ℕ}

/-- The name is absent, or the SELECT that looks for it throws. -/
theorem store_not_contained (h : info.name ∉ s.table.keys ∨ executes s.issued = false) :
    ∃ s', store executes (fuel + 1) s info = some s' := by
  have hc : (containsInfoForFile executes s info.name).1 = false := by
    rcases h with h | h <;> simp [containsInfoForFile, h]
  simp only [store, hc, Bool.false_eq_true, if_false]
  split
  · exact ⟨_, rfl⟩
  · exact ⟨_, rfl⟩

/-- A settled call ends at the latest in the call that follows it. -/
theorem store_settles (h : Settles executes s.issued) :
    ∃ s', store executes (fuel + 2) s info = some s' := by
  by_cases hname : info.name ∈ s.table.keys
  · rcases h with h | ⟨hselect, hdelete⟩
    · exact store_not_contained (.inr h)
    · by_cases hs : executes s.issued = true
      · have hgone : info.name ∉ (s.table.delete info.name).keys := by
          simp [Table.Rows.mem_keys_delete]
        have hrest : ∃ s', store executes (fuel + 1)
            ⟨s.table.delete info.name, s.issued + 3⟩ info = some s' :=
          store_not_contained (.inl hgone)
        rw [store]
        simpa [containsInfoForFile, update, remove, Session.issue, hs, hname, hselect, hdelete,
          Nat.add_assoc] using hrest
      · exact store_not_contained (.inr (by simpa using hs))
  · exact store_not_contained (.inl hname)

/-- A call that does not settle leaves the table and calls `store` again. -/
theorem store_again (hname : info.name ∈ s.table.keys) (h : ¬ Settles executes s.issued) :
    store executes (fuel + 1) s info =
      store executes fuel ⟨s.table, nextStore executes s.issued⟩ info := by
  obtain ⟨hs, hr⟩ := not_or.mp h
  rw [store]
  by_cases hselect : executes (s.issued + 1) = true
  · have hdelete : ¬ executes (s.issued + 2) = true := fun hd => hr ⟨hselect, hd⟩
    simp [containsInfoForFile, update, remove, Session.issue, nextStore, hs, hname, hselect,
      hdelete, Nat.add_assoc]
  · simp [containsInfoForFile, update, remove, Session.issue, nextStore, hs, hname, hselect,
      Nat.add_assoc]

theorem terminates_of_settles {k : ℕ}
    (h : Settles executes ((nextStore executes)^[k] s.issued)) : Terminates executes s info := by
  by_cases hname : info.name ∈ s.table.keys
  · induction k generalizing s with
    | zero => exact ⟨2, store_settles h⟩
    | succ k ih =>
      by_cases hs : Settles executes s.issued
      · exact ⟨2, store_settles hs⟩
      · obtain ⟨fuel, s', hrest⟩ := ih (s := ⟨s.table, nextStore executes s.issued⟩) h hname
        exact ⟨fuel + 1, s', (store_again hname hs).trans hrest⟩
  · exact ⟨1, store_not_contained (.inl hname)⟩

theorem settles_of_terminates (hname : info.name ∈ s.table.keys)
    (h : Terminates executes s info) :
    ∃ k, Settles executes ((nextStore executes)^[k] s.issued) := by
  obtain ⟨fuel, s', h⟩ := h
  induction fuel generalizing s with
  | zero => cases h
  | succ fuel ih =>
    by_cases hs : Settles executes s.issued
    · exact ⟨0, hs⟩
    · rw [store_again hname hs] at h
      obtain ⟨k, hk⟩ := ih (s := ⟨s.table, nextStore executes s.issued⟩) hname h
      exact ⟨k + 1, hk⟩

/-- `store` terminates exactly when the name has no record, or in some round of the recursion
its SELECT throws or the SELECT and the DELETE of `remove` are both executed. -/
theorem store_terminates_iff (executes : Outcomes) (s : Session) (info : FileInfo) :
    Terminates executes s info ↔
      info.name ∉ s.table.keys ∨ ∃ k, Settles executes ((nextStore executes)^[k] s.issued) := by
  constructor
  · intro h
    by_cases hname : info.name ∈ s.table.keys
    · exact .inr (settles_of_terminates hname h)
    · exact .inl hname
  · rintro (hname | ⟨k, hk⟩)
    · exact ⟨1, store_not_contained (.inl hname)⟩
    · exact terminates_of_settles hk

/-- A database that can be read but not written, as `store` meets it for a present name: of
every three statements the third, the DELETE, throws. -/
def readOnly : Outcomes := fun n => decide (n % 3 ≠ 2)

def sampleRecord : FileInfo := ⟨"f", "hash", "/files/f"⟩

def sampleTable : FileTable := ⟨[sampleRecord], by decide, by decide⟩

theorem store_runs_forever : ¬ ∀ executes s info, Terminates executes s info := by
  intro h
  obtain ⟨k, hk⟩ := settles_of_terminates (by decide) (h readOnly ⟨sampleTable, 0⟩ sampleRecord)
  have hround : ∀ k, (nextStore readOnly)^[k] 0 = 3 * k := by
    intro k
    induction k with
    | zero => rfl
    | succ k ih =>
      rw [Function.iterate_succ_apply', ih]
      have hselect : readOnly (3 * k + 1) = true := by simp [readOnly]
      simp [nextStore, hselect, Nat.mul_succ]
  rw [hround k] at hk
  rcases hk with hk | ⟨_, hk⟩
  · simp [readOnly] at hk
  · simp [readOnly] at hk

/-! Where statements fail only by violating a constraint. -/

def reliable : Outcomes := fun _ => true

/-- What `store` leaves in the table: the old record is deleted before the new one is
inserted, and the insertion can be refused. -/
def stored (t : FileTable) (info : FileInfo) : FileTable := (t.delete info.name).insert info

/-- The record of another name has the path. -/
def PathTaken (t : FileTable) (info : FileInfo) : Prop :=
  ∃ r ∈ t.list, r.name ≠ info.name ∧ r.path = info.path

instance (t : FileTable) (info : FileInfo) : Decidable (PathTaken t info) :=
  inferInstanceAs (Decidable (∃ r ∈ t.list, r.name ≠ info.name ∧ r.path = info.path))

/-- `remove` deletes the record if its SELECT and its DELETE are both executed. -/
theorem remove_table (executes : Outcomes) (s : Session) (fileName : String) :
    (remove executes s fileName).table =
      if executes s.issued = true ∧ executes (s.issued + 1) = true then s.table.delete fileName
      else s.table := by
  by_cases h : fileName ∈ s.table.keys
  · cases hselect : executes s.issued
    · simp [remove, containsInfoForFile, hselect, Session.issue]
    cases hdelete : executes (s.issued + 1)
    · simp [remove, containsInfoForFile, hselect, hdelete, h, Session.issue]
    · simp [remove, containsInfoForFile, hselect, hdelete, h, Session.issue]
  · simp [remove, containsInfoForFile, h, Session.issue, Table.Rows.delete_of_notMem]

theorem remove_reliable (s : Session) (fileName : String) :
    (remove reliable s fileName).table = s.table.delete fileName := by
  rw [remove_table]
  exact if_pos ⟨rfl, rfl⟩

/-- The recursion ends with the second call. -/
theorem store_reliable (s : Session) (info : FileInfo) (fuel : ℕ) :
    ∃ issued, store reliable (fuel + 2) s info = some ⟨stored s.table info, issued⟩ := by
  by_cases h : info.name ∈ s.table.keys
  · have hgone : info.name ∉ (s.table.delete info.name).keys := by
      simp [Table.Rows.mem_keys_delete]
    simp [store, containsInfoForFile, update, remove, reliable, h, hgone, Session.issue, stored]
  · have hsame : s.table.delete info.name = s.table := Table.Rows.delete_of_notMem h
    simp [store, containsInfoForFile, reliable, h, Session.issue, stored, hsame]

/-- What a call leaves in the table. -/
def performed (t : FileTable) : RepositoryCall → FileTable
  | .remove fileName => t.delete fileName
  | .store info => stored t info

theorem performAll_reliable (s : Session) (calls : List RepositoryCall) (fuel : ℕ) :
    ∃ issued, performAll reliable (fuel + 2) s calls =
      some ⟨calls.foldl performed s.table, issued⟩ := by
  induction calls generalizing s with
  | nil => exact ⟨s.issued, rfl⟩
  | cons c calls ih =>
    cases c with
    | remove fileName =>
      obtain ⟨issued, hrest⟩ := ih (remove reliable s fileName)
      rw [remove_reliable] at hrest
      exact ⟨issued, hrest⟩
    | store info =>
      obtain ⟨issued, hs⟩ := store_reliable s info fuel
      obtain ⟨issued', hrest⟩ := ih ⟨stored s.table info, issued⟩
      refine ⟨issued', ?_⟩
      rw [performAll, List.foldlM_cons, perform, hs]
      exact hrest

variable {t : FileTable} {name : String}

theorem clash_iff_pathTaken : (t.delete info.name).Clash info ↔ PathTaken t info := by
  constructor
  · rintro ⟨r, hr, h⟩
    obtain ⟨hmem, hname⟩ := Table.Rows.mem_delete.mp hr
    exact ⟨r, hmem, hname, h.resolve_left hname⟩
  · rintro ⟨r, hr, hname, hpath⟩
    exact ⟨r, Table.Rows.mem_delete.mpr ⟨hr, hname⟩, .inr hpath⟩

/-- A refused insertion loses the old record. -/
theorem stored_of_pathTaken (h : PathTaken t info) : stored t info = t.delete info.name :=
  Table.Rows.insert_of_clash (clash_iff_pathTaken.mpr h)

theorem get_stored_self (h : ¬ PathTaken t info) : (stored t info).get info.name = some info :=
  Table.Rows.get_insert_self (mt clash_iff_pathTaken.mp h)

theorem get_stored_ne (h : name ≠ info.name) : (stored t info).get name = t.get name := by
  rw [stored, Table.Rows.get_insert_ne h, Table.Rows.get_delete_ne h]

theorem get_foldl_remove (names : List String) (t : FileTable) :
    ((names.map RepositoryCall.remove).foldl performed t).get name =
      if name ∈ names then none else t.get name := by
  induction names generalizing t with
  | nil => simp
  | cons n names ih =>
    rw [List.map_cons, List.foldl_cons, ih, performed]
    by_cases h : name = n
    · subst h
      simp
    · simp [h, Table.Rows.get_delete_ne h]

/-- Every record has a name of `S` and the path that `place` gives to it. -/
def Placed (place : String → String) (S : Set String) (t : FileTable) : Prop :=
  ∀ r ∈ t.list, r.name ∈ S ∧ r.path = place r.name

section

variable {place : String → String} {S : Set String}

theorem Placed.not_pathTaken (ht : Placed place S t) (hinj : S.InjOn place)
    (hname : info.name ∈ S) (hpath : info.path = place info.name) : ¬ PathTaken t info := by
  rintro ⟨r, hr, hne, he⟩
  obtain ⟨hrS, hrpath⟩ := ht r hr
  exact hne (hinj hrS hname (by rw [← hrpath, he, hpath]))

theorem Placed.delete (ht : Placed place S t) : Placed place S (t.delete name) :=
  fun r hr => ht r (Table.Rows.mem_delete.mp hr).1

theorem Placed.stored (ht : Placed place S t) (hname : info.name ∈ S)
    (hpath : info.path = place info.name) : Placed place S (stored t info) := by
  intro r hr
  by_cases hc : (t.delete info.name).Clash info
  · rw [SQLiteFileRepository.stored, Table.Rows.insert_of_clash hc] at hr
    exact ht.delete r hr
  · rw [SQLiteFileRepository.stored, Table.Rows.list_insert hc] at hr
    rcases List.mem_append.mp hr with hr | hr
    · exact ht.delete r hr
    · obtain rfl := List.mem_singleton.mp hr
      exact ⟨hname, hpath⟩

theorem Placed.foldl_remove (ht : Placed place S t) (names : List String) :
    Placed place S ((names.map RepositoryCall.remove).foldl performed t) := by
  induction names generalizing t with
  | nil => exact ht
  | cons n names ih => exact ih ht.delete

end

theorem get_foldl_store_ne (infos : List FileInfo) (h : ∀ i ∈ infos, i.name ≠ name) :
    ((infos.map RepositoryCall.store).foldl performed t).get name = t.get name := by
  induction infos generalizing t with
  | nil => rfl
  | cons i infos ih =>
    rw [List.map_cons, List.foldl_cons, ih fun j hj => h j (List.mem_cons_of_mem _ hj), performed]
    exact get_stored_ne (h i List.mem_cons_self).symm

/-- Records that are stored at their own places all end up in the table. -/
theorem get_foldl_store {place : String → String} {S : Set String} (hinj : S.InjOn place)
    (ht : Placed place S t) {infos : List FileInfo}
    (hinfos : ∀ i ∈ infos, i.name ∈ S ∧ i.path = place i.name)
    (hsame : ∀ i ∈ infos, ∀ j ∈ infos, i.name = j.name → i = j) (hmem : info ∈ infos) :
    ((infos.map RepositoryCall.store).foldl performed t).get info.name = some info := by
  induction infos generalizing t with
  | nil => cases hmem
  | cons i infos ih =>
    obtain ⟨hi, hpath⟩ := hinfos i List.mem_cons_self
    rw [List.map_cons, List.foldl_cons, performed]
    by_cases hlater : info ∈ infos
    · exact ih (ht.stored hi hpath) (fun j hj => hinfos j (List.mem_cons_of_mem _ hj))
        (fun j hj k hk => hsame j (List.mem_cons_of_mem _ hj) k (List.mem_cons_of_mem _ hk)) hlater
    · obtain rfl : info = i := (List.mem_cons.mp hmem).resolve_right hlater
      rw [get_foldl_store_ne infos]
      · exact get_stored_self (ht.not_pathTaken hinj hi hpath)
      · intro j hj he
        have := hsame info List.mem_cons_self j (List.mem_cons_of_mem _ hj) he.symm
        exact hlater (this ▸ hj)

/-- The new record is there or nothing has changed, and nothing has changed for other names. -/
def Atomic (s s' : Session) (info : FileInfo) : Prop :=
  ((getFileInfo reliable s' info.name).1 = some info ∨ s'.table = s.table) ∧
    ∀ name ≠ info.name, (getFileInfo reliable s' name).1 = (getFileInfo reliable s name).1

@[simp] theorem getFileInfo_reliable : (getFileInfo reliable s name).1 = s.table.get name := rfl

variable {issued : ℕ}

theorem atomic_of_not_pathTaken (h : ¬ PathTaken s.table info) :
    Atomic s ⟨stored s.table info, issued⟩ info :=
  ⟨.inl (get_stored_self h), fun _ hne => get_stored_ne hne⟩

theorem not_atomic_of_pathTaken (hname : info.name ∈ s.table.keys) (h : PathTaken s.table info) :
    ¬ Atomic s ⟨stored s.table info, issued⟩ info := by
  rintro ⟨hself, -⟩
  have hgone : (stored s.table info).get info.name = none := by
    rw [stored_of_pathTaken h, Table.Rows.get_delete_self]
  rcases hself with hself | (hself : stored s.table info = s.table)
  · rw [getFileInfo_reliable, hgone] at hself
    cases hself
  · rw [hself] at hgone
    exact Table.Rows.get_eq_none.mp hgone hname

/-- `store` is atomic unless it replaces the record of a name by one whose path another
name's record has. -/
theorem store_atomic_iff (s : Session) (info : FileInfo) (fuel : ℕ) :
    ∃ s', store reliable (fuel + 2) s info = some s' ∧
      (Atomic s s' info ↔ ¬ (info.name ∈ s.table.keys ∧ PathTaken s.table info)) := by
  obtain ⟨issued, hs⟩ := store_reliable s info fuel
  refine ⟨_, hs, ?_⟩
  constructor
  · rintro hatomic ⟨hname, hpath⟩
    exact not_atomic_of_pathTaken hname hpath hatomic
  · intro h
    by_cases hpath : PathTaken s.table info
    · have hname : info.name ∉ s.table.keys := fun hn => h ⟨hn, hpath⟩
      have hsame : stored s.table info = s.table := by
        rw [stored_of_pathTaken hpath, Table.Rows.delete_of_notMem hname]
      exact ⟨.inr hsame, fun _ hne => get_stored_ne hne⟩
    · exact atomic_of_not_pathTaken hpath

/-- Replacing the record of `f` by one with the path of `g` loses the record of `f`. -/
theorem store_not_atomic :
    ¬ ∀ s info fuel s', store reliable fuel s info = some s' → Atomic s s' info := by
  intro h
  have hs := store_reliable ⟨⟨[sampleRecord, ⟨"g", "hash", "/files/g"⟩], by decide, by decide⟩, 0⟩
    ⟨"f", "new hash", "/files/g"⟩ 0
  obtain ⟨issued, hs⟩ := hs
  exact not_atomic_of_pathTaken (by decide) (by decide) (h _ _ _ _ hs)

end SQLiteFileRepository
end WolkConnect
