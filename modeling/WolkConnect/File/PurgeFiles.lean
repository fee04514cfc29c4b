import WolkConnect.File.FileRemoval
import Mathlib.Data.List.Perm.Basic

/-! A purge against the deletion of every file of the repository on its own, in any order. -/
namespace WolkConnect
open SQLiteFileRepository

namespace Device

variable {H : Host}

/-- `deleteFile` for some names, one after another. -/
def deleteEach (executes : Outcomes) (deletes : String → Bool) :
    Device H → List String → Option (Device H)
  | D, [] => some D
  | D, name :: names =>
    (D.deleteFile executes deletes name).bind fun D => D.deleteEach executes deletes names

/-- What a deletion can change. -/
def contents (D : Device H) : FileTable × Disk := (D.repository.table, D.disk)

/-- The records and the disk once the file of a name was tried. -/
def tried (deletes : String → Bool) (r : FileTable × Disk) (name : String) : FileTable × Disk :=
  match r.1.get name with
  | none => r
  | some info =>
    if deletes info.path then (r.1.delete name, Function.update r.2 info.path none) else r

variable {deletes : String → Bool} {D : Device H} {r : FileTable × Disk} {name other path : String}
  {info : FileInfo} {names : List String}

theorem tried_of_missing (h : r.1.get name = none) : tried deletes r name = r := by
  simp [tried, h]

theorem tried_of_deleted (h : r.1.get name = some info) (hdel : deletes info.path = true) :
    tried deletes r name = (r.1.delete name, Function.update r.2 info.path none) := by
  simp [tried, h, hdel]

theorem tried_of_refused (h : r.1.get name = some info) (hdel : deletes info.path = false) :
    tried deletes r name = r := by
  simp [tried, h, hdel]

/-- What a try does is decided by the record of its name. -/
theorem tried_cases (deletes : String → Bool) (r : FileTable × Disk) (name : String) :
    (∀ t : FileTable × Disk, t.1.get name = r.1.get name → tried deletes t name = t) ∨
      ∃ path, ∀ t : FileTable × Disk, t.1.get name = r.1.get name →
        tried deletes t name = (t.1.delete name, Function.update t.2 path none) := by
  cases hr : r.1.get name with
  | none =>
    left
    intro t ht
    exact tried_of_missing ht
  | some info =>
    by_cases hdel : deletes info.path = true
    · right
      exact ⟨info.path, fun t ht => tried_of_deleted ht hdel⟩
    · left
      intro t ht
      exact tried_of_refused ht (by simpa using hdel)

theorem get_tried_ne (h : other ≠ name) : (tried deletes r name).1.get other = r.1.get other := by
  rcases tried_cases deletes r name with hkept | ⟨path, hdeleted⟩
  · rw [hkept r rfl]
  · rw [hdeleted r rfl]
    exact Table.Rows.get_delete_ne h

/-- No deletion makes a record. -/
theorem get_of_tried (h : (tried deletes r name).1.get other = some info) :
    r.1.get other = some info := by
  rcases tried_cases deletes r name with hkept | ⟨path, hdeleted⟩
  · rwa [hkept r rfl] at h
  · rw [hdeleted r rfl] at h
    obtain ⟨hmem, hname⟩ := Table.Rows.get_eq_some.mp h
    exact Table.Rows.get_eq_some.mpr ⟨(Table.Rows.mem_delete.mp hmem).1, hname⟩

/-- Neither the records nor the disk tell in which order two files were tried. -/
theorem tried_comm (r : FileTable × Disk) (name other : String) :
    tried deletes (tried deletes r name) other = tried deletes (tried deletes r other) name := by
  by_cases hname : other = name
  · rw [hname]
  have hother : (tried deletes r name).1.get other = r.1.get other := get_tried_ne hname
  have hself : (tried deletes r other).1.get name = r.1.get name := get_tried_ne (Ne.symm hname)
  rcases tried_cases deletes r name with hkept | ⟨path, hdeleted⟩
  · rw [hkept r rfl, hkept _ hself]
  · rcases tried_cases deletes r other with hkept' | ⟨path', hdeleted'⟩
    · rw [hkept' r rfl, hkept' _ hother]
    · rw [hdeleted' _ hother, hdeleted _ hself, hdeleted r rfl, hdeleted' r rfl]
      dsimp only
      rw [Table.Rows.delete_comm]
      by_cases hpath : path = path'
      · rw [hpath]
      · rw [Function.update_comm hpath]

theorem foldl_tried_perm {names' : List String} (h : names.Perm names') (r : FileTable × Disk) :
    names.foldl (tried deletes) r = names'.foldl (tried deletes) r :=
  h.foldl_eq' (fun name _ other _ t => tried_comm t name other) r

/-- What is gone from the disk stays gone. -/
theorem foldl_tried_gone (h : r.2 path = none) :
    (names.foldl (tried deletes) r).2 path = none := by
  induction names generalizing r with
  | nil => exact h
  | cons name names ih =>
    apply ih
    rcases tried_cases deletes r name with hkept | ⟨p, hdeleted⟩
    · rw [hkept r rfl]
      exact h
    · rw [hdeleted r rfl]
      by_cases hp : path = p
      · rw [hp]
        exact Function.update_self ..
      · exact (Function.update_of_ne hp ..).trans h

/-- A file that no record asks to delete stays as it is. -/
theorem foldl_tried_kept (h : ∀ name info, r.1.get name = some info →
    deletes info.path = true → info.path ≠ path) :
    (names.foldl (tried deletes) r).2 path = r.2 path := by
  induction names generalizing r with
  | nil => rfl
  | cons name names ih =>
    have hstep : (tried deletes r name).2 path = r.2 path := by
      cases hr : r.1.get name with
      | none => rw [tried_of_missing hr]
      | some info =>
        by_cases hdel : deletes info.path = true
        · rw [tried_of_deleted hr hdel]
          exact Function.update_of_ne (h name info hr hdel).symm ..
        · rw [tried_of_refused hr (by simpa using hdel)]
    rw [List.foldl_cons, ih fun n info hget => h n info (get_of_tried hget), hstep]

/-- A file whose record is tried is gone, wherever its turn is. -/
theorem foldl_tried_deleted (hmem : name ∈ names) (hr : r.1.get name = some info)
    (hdel : deletes info.path = true) : (names.foldl (tried deletes) r).2 info.path = none := by
  rw [foldl_tried_perm (List.perm_cons_erase hmem), List.foldl_cons, tried_of_deleted hr hdel]
  apply foldl_tried_gone
  exact Function.update_self ..

/-! Both ways of deleting try one file after another. -/

theorem purgeFile_contents (deletes : String → Bool) (D : Device H) (name : String) :
    (D.purgeFile reliable deletes name).1.contents = tried deletes D.contents name := by
  cases hr : D.record name with
  | none =>
    rw [tried_of_missing (r := D.contents) hr]
    unfold record at hr
    simp [purgeFile, getFileInfo, SQLiteFileRepository.getFileInfo, hr, contents, Session.issue]
  | some info =>
    unfold purgeFile
    rw [getFileInfo_of_record hr rfl]
    by_cases hdel : deletes info.path = true
    · rw [tried_of_deleted (r := D.contents) hr hdel]
      simp only [hdel, if_true]
      exact Prod.ext (remove_reliable _ _) rfl
    · rw [tried_of_refused (r := D.contents) hr (by simpa using hdel)]
      simp only [hdel]
      rfl

theorem purgeEach_contents (deletes : String → Bool) (D : Device H) (names : List String) :
    (D.purgeEach reliable deletes names).1.contents =
      names.foldl (tried deletes) D.contents := by
  induction names generalizing D with
  | nil => rfl
  | cons name names ih =>
    rw [List.foldl_cons, ← purgeFile_contents]
    exact ih _

theorem handleFilePurge_contents (deletes : String → Bool) (D : Device H) :
    (D.handleFilePurge reliable deletes).1.contents =
      D.repository.table.keys.foldl (tried deletes) D.contents :=
  purgeEach_contents deletes D.looked D.repository.table.keys

theorem deleteFile_contents (deletes : String → Bool) (hr : D.record name = some info) :
    ∃ D', D.deleteFile reliable deletes name = some D' ∧
      D'.contents = tried deletes D.contents name ∧
      D'.service = { D.service with
        commandBuffer := D.service.commandBuffer ++ [.sendFileListUpdate] } := by
  refine ⟨_, deleteFile_of_record hr rfl, ?_⟩
  by_cases hdel : deletes info.path = true
  · rw [if_pos hdel, tried_of_deleted (r := D.contents) hr hdel]
    exact ⟨Prod.ext (remove_reliable _ _) rfl, rfl⟩
  · rw [if_neg hdel, tried_of_refused (r := D.contents) hr (by simpa using hdel)]
    exact ⟨rfl, rfl⟩

/-- Where every name has a record and none comes twice, no deletion misses its record. -/
theorem deleteEach_contents (deletes : String → Bool) (D : Device H) (hnodup : names.Nodup)
    (hrecords : ∀ name ∈ names, ∃ info, D.record name = some info) :
    ∃ D', D.deleteEach reliable deletes names = some D' ∧
      D'.contents = names.foldl (tried deletes) D.contents ∧
      D'.service = { D.service with commandBuffer :=
        D.service.commandBuffer ++ List.replicate names.length .sendFileListUpdate } := by
  induction names generalizing D with
  | nil =>
    refine ⟨D, rfl, rfl, ?_⟩
    simp
  | cons name names ih =>
    obtain ⟨hname, hnodup⟩ := List.nodup_cons.mp hnodup
    obtain ⟨info, hr⟩ := hrecords name List.mem_cons_self
    obtain ⟨D₁, hdelete, hcontents, hservice⟩ := deleteFile_contents deletes hr
    have hrest : ∀ other ∈ names, ∃ info, D₁.record other = some info := by
      intro other hother
      obtain ⟨i, hi⟩ := hrecords other (List.mem_cons_of_mem _ hother)
      have hne : other ≠ name := fun he => hname (he ▸ hother)
      refine ⟨i, ?_⟩
      show D₁.contents.1.get other = some i
      rw [hcontents, get_tried_ne hne]
      exact hi
    obtain ⟨D', heach, hcontents', hservice'⟩ := ih D₁ hnodup hrest
    refine ⟨D', ?_, ?_, ?_⟩
    · rw [deleteEach, hdelete]
      exact heach
    · rw [hcontents', hcontents]
      rfl
    · rw [hservice', hservice]
      simp [List.replicate_succ]

/-- A purge ends where the deletions of the names end, with one update of the file list instead
of one for each name: the records whose files could not be deleted are left, and on disk only
the deleted files are gone. -/
structure PurgeEqualsDeletions (deletes : String → Bool) (D : Device H) (names : List String) :
    Prop where
  deletions : ∃ D', D.deleteEach reliable deletes names = some D' ∧
    D'.contents = (D.handleFilePurge reliable deletes).1.contents ∧
    D'.service = { D.service with commandBuffer :=
      D.service.commandBuffer ++ List.replicate names.length .sendFileListUpdate }
  service : (D.handleFilePurge reliable deletes).1.service = { D.service with
    commandBuffer := D.service.commandBuffer ++ [.sendFileListUpdate] }
  record : ∀ name, (D.handleFilePurge reliable deletes).1.record name =
    (D.record name).filter fun info => !deletes info.path
  file : ∀ name info, D.record name = some info →
    (D.handleFilePurge reliable deletes).1.disk info.path =
      if deletes info.path then none else D.disk info.path
  untouched : ∀ path, (∀ name info, D.record name = some info → info.path ≠ path) →
    (D.handleFilePurge reliable deletes).1.disk path = D.disk path

end Device

open Device

variable {H : Host}

/-- Purging equals deleting every file of the repository, in whichever order. -/
theorem purge_equals_deletions (deletes : String → Bool) (D : Device H) {names : List String}
    (hnames : names.Perm D.repository.table.keys) : PurgeEqualsDeletions deletes D names := by
  have hdisk : (D.handleFilePurge reliable deletes).1.disk =
      (D.repository.table.keys.foldl (tried deletes) D.contents).2 :=
    congrArg Prod.snd (handleFilePurge_contents deletes D)
  constructor
  · have hnodup : names.Nodup := hnames.nodup_iff.mpr D.repository.table.key_nodup
    have hrecords : ∀ name ∈ names, ∃ info, D.record name = some info := fun name hname =>
      Table.Rows.mem_keys.mp (hnames.mem_iff.mp hname)
    obtain ⟨D', heach, hcontents, hservice⟩ := deleteEach_contents deletes D hnodup hrecords
    refine ⟨D', heach, ?_, hservice⟩
    rw [hcontents, handleFilePurge_contents, foldl_tried_perm hnames]
  · exact handleFilePurge_service reliable deletes D
  · exact handleFilePurge_record deletes D
  · intro name info hr
    rw [hdisk]
    by_cases hdel : deletes info.path = true
    · rw [if_pos hdel]
      exact foldl_tried_deleted (Table.Rows.mem_keys.mpr ⟨info, hr⟩) hr hdel
    · rw [if_neg hdel]
      apply foldl_tried_kept
      intro other i _ hi hpath
      rw [hpath] at hi
      exact hdel hi
  · intro path hpath
    rw [hdisk]
    apply foldl_tried_kept
    intro name info hr _
    exact hpath name info hr

/-- Two files, of which only the second can be deleted. -/
def sampleFiles : Device sampleHost where
  service := .construct sampleHost "device" "/files" 66
  repository := ⟨⟨[⟨"f", "hash", "/files/f"⟩, ⟨"g", "hash", "/files/g"⟩], by decide, by decide⟩, 0⟩
  disk _ := some [97]

theorem purge_equals_deletions_sample :
    PurgeEqualsDeletions (fun path => path = "/files/g") sampleFiles ["g", "f"] :=
  purge_equals_deletions _ sampleFiles (.swap "f" "g" [])

end WolkConnect
