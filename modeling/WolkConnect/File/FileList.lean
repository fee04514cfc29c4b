import WolkConnect.File.FileDownloadService
import WolkConnect.Repository.SQLiteFileRepository
import WolkConnect.Table.SortUnique
import Mathlib.Data.String.Basic
import Mathlib.Data.Set.Function

/-! `FileDownloadService::updateFileList`: the download directory and the repository are
reconciled, and the names that are left make up the file list. -/
namespace WolkConnect

/-- The three vectors that the scans of `updateFileList` fill. -/
structure Scan where
  newFilesOnDisk : List (String × ByteArray)
  filesMissingOnDisk : List String
  allValidFiles : List String

/-- The path in the records that `downloadCompleted` and `updateFileList` store. -/
def recordPath (H : Host) (directory name : String) : String :=
  H.absolutePath (H.composePath name directory)

/-- The body of the loop over the names in the repository. -/
def scanRepoFile (filesOnDisk : List String) (scan : Scan) (repoFile : String) : Scan :=
  if repoFile ∈ filesOnDisk then
    { scan with allValidFiles := scan.allValidFiles ++ [repoFile] }
  else { scan with filesMissingOnDisk := scan.filesMissingOnDisk ++ [repoFile] }

section

variable (H : Host) (base64Encode : ByteArray → String) (directory : String)
  (readBinaryFileContent : String → Option ByteArray)

/-- The body of the loop over the names in the directory. -/
def scanDiskFile (filesInRepo : List String) (scan : Scan) (diskFile : String) : Scan :=
  if diskFile ∈ filesInRepo then
    { scan with allValidFiles := scan.allValidFiles ++ [diskFile] }
  else
    match readBinaryFileContent (H.composePath diskFile directory) with
    | some content =>
      { scan with
        newFilesOnDisk := scan.newFilesOnDisk ++ [(diskFile, content)]
        allValidFiles := scan.allValidFiles ++ [diskFile] }
    | none => scan

def newFileInfo (newFile : String × ByteArray) : FileInfo where
  name := newFile.1
  hash := base64Encode (H.hashSHA256 newFile.2)
  path := recordPath H directory newFile.1

/-- The file list and the calls that change the repository, in order. `filesOnDisk` and
`filesInRepo` are the answers of `listFiles` and `getAllFileNames`, where `none` is null. -/
def updateFileList (filesOnDisk : List String) (filesInRepo : Option (List String)) :
    List String × List RepositoryCall :=
  match filesInRepo with
  | none => (filesOnDisk, [])
  | some filesInRepo =>
    let scan := filesInRepo.foldl (scanRepoFile filesOnDisk) ⟨[], [], []⟩
    let scan := filesOnDisk.foldl (scanDiskFile H directory readBinaryFileContent filesInRepo) scan
    (Table.sortUnique scan.allValidFiles,
      scan.filesMissingOnDisk.map .remove ++ scan.newFilesOnDisk.map fun newFile =>
        .store (newFileInfo H base64Encode directory newFile))

end

section

variable {H : Host} {directory : String} {readBinaryFileContent : String → Option ByteArray}
  {filesOnDisk filesInRepo : List String}

theorem foldl_scanRepoFile (names : List String) (scan : Scan) :
    names.foldl (scanRepoFile filesOnDisk) scan =
      { scan with
        filesMissingOnDisk := scan.filesMissingOnDisk ++ names.filter (· ∉ filesOnDisk)
        allValidFiles := scan.allValidFiles ++ names.filter (· ∈ filesOnDisk) } := by
  induction names generalizing scan with
  | nil => simp
  | cons name names ih =>
    rw [List.foldl_cons, ih]
    by_cases h : name ∈ filesOnDisk <;> simp [scanRepoFile, h]

/-- A file of the directory that is not in the repository, with its content if it can be read. -/
def newFile (H : Host) (directory : String) (readBinaryFileContent : String → Option ByteArray)
    (filesInRepo : List String) (diskFile : String) : Option (String × ByteArray) :=
  if diskFile ∈ filesInRepo then none
  else (readBinaryFileContent (H.composePath diskFile directory)).map (diskFile, ·)

theorem foldl_scanDiskFile (names : List String) (scan : Scan) :
    names.foldl (scanDiskFile H directory readBinaryFileContent filesInRepo) scan =
      { scan with
        newFilesOnDisk := scan.newFilesOnDisk ++
          names.filterMap (newFile H directory readBinaryFileContent filesInRepo)
        allValidFiles := scan.allValidFiles ++ names.filter fun name =>
          decide (name ∈ filesInRepo) ||
            (readBinaryFileContent (H.composePath name directory)).isSome } := by
  induction names generalizing scan with
  | nil => simp
  | cons name names ih =>
    rw [List.foldl_cons, ih]
    by_cases h : name ∈ filesInRepo
    · simp [scanDiskFile, newFile, h]
    · cases hr : readBinaryFileContent (H.composePath name directory) <;>
        simp [scanDiskFile, newFile, h, hr]

theorem mem_newFiles {name : String} {content : ByteArray} :
    (name, content) ∈
        filesOnDisk.filterMap (newFile H directory readBinaryFileContent filesInRepo) ↔
      name ∈ filesOnDisk ∧ name ∉ filesInRepo ∧
        readBinaryFileContent (H.composePath name directory) = some content := by
  rw [List.mem_filterMap]
  constructor
  · rintro ⟨diskFile, hdisk, hnew⟩
    unfold newFile at hnew
    split at hnew
    · cases hnew
    · obtain ⟨c, hc, heq⟩ := Option.map_eq_some_iff.mp hnew
      obtain ⟨rfl, rfl⟩ := Prod.mk.inj heq
      exact ⟨hdisk, by assumption, hc⟩
  · rintro ⟨hdisk, hrepo, hc⟩
    exact ⟨name, hdisk, by simp [newFile, hrepo, hc]⟩

variable {base64Encode : ByteArray → String}

theorem updateFileList_strict :
    (updateFileList H base64Encode directory readBinaryFileContent filesOnDisk
      (some filesInRepo)).1.Pairwise (· < ·) := Table.sortUnique_strict _

theorem mem_updateFileList {name : String} :
    name ∈ (updateFileList H base64Encode directory readBinaryFileContent filesOnDisk
      (some filesInRepo)).1 ↔
      name ∈ filesOnDisk ∧ (name ∈ filesInRepo ∨
        (readBinaryFileContent (H.composePath name directory)).isSome) := by
  simp only [updateFileList, foldl_scanRepoFile, foldl_scanDiskFile, Table.mem_sortUnique,
    List.nil_append, List.mem_append, List.mem_filter, decide_eq_true_eq, Bool.or_eq_true]
  tauto

theorem updateFileList_calls :
    (updateFileList H base64Encode directory readBinaryFileContent filesOnDisk
      (some filesInRepo)).2 =
      (filesInRepo.filter (· ∉ filesOnDisk)).map .remove ++
        ((filesOnDisk.filterMap (newFile H directory readBinaryFileContent filesInRepo)).map
          (newFileInfo H base64Encode directory)).map .store := by
  simp only [updateFileList, foldl_scanRepoFile, foldl_scanDiskFile, List.nil_append,
    List.map_map, Function.comp_def]

end

section

open SQLiteFileRepository

variable (H : Host) (base64Encode : ByteArray → String) (directory : String)
  (readBinaryFileContent : String → Option ByteArray) (filesOnDisk : List String)

/-- The table after an update of the file list in which no statement throws. -/
def updatedTable (t : FileTable) : FileTable :=
  (updateFileList H base64Encode directory readBinaryFileContent filesOnDisk
    (some t.keys)).2.foldl performed t

/-- The names that an update handles. -/
def handledNames (t : FileTable) : Set String := {name | name ∈ t.keys ∨ name ∈ filesOnDisk}

variable {H base64Encode directory readBinaryFileContent filesOnDisk} {t : FileTable}
  {name : String}

theorem get_updatedTable_of_not_new (h : name ∈ t.keys ∨ name ∉ filesOnDisk ∨
      readBinaryFileContent (H.composePath name directory) = none) :
    (updatedTable H base64Encode directory readBinaryFileContent filesOnDisk t).get name =
      if name ∈ filesOnDisk then t.get name else none := by
  rw [updatedTable, updateFileList_calls, List.foldl_append, get_foldl_store_ne, get_foldl_remove]
  · by_cases hname : name ∈ t.keys
    · by_cases hdisk : name ∈ filesOnDisk <;> simp [hname, hdisk]
    · have hnone : t.get name = none := Table.Rows.get_eq_none.mpr hname
      simp [hname, hnone]
  · intro i hi hiname
    obtain ⟨⟨n, content⟩, hnew, rfl⟩ := List.mem_map.mp hi
    obtain ⟨hdisk, hrepo, hread⟩ := mem_newFiles.mp hnew
    obtain rfl : n = name := hiname
    rcases h with h | h | h
    · exact hrepo h
    · exact h hdisk
    · rw [h] at hread
      cases hread

theorem get_updatedTable_of_new
    (hplaced : Placed (recordPath H directory) (handledNames filesOnDisk t) t)
    (hinj : (handledNames filesOnDisk t).InjOn (recordPath H directory))
    (hdisk : name ∈ filesOnDisk) (hname : name ∉ t.keys) {content : ByteArray}
    (hread : readBinaryFileContent (H.composePath name directory) = some content) :
    (updatedTable H base64Encode directory readBinaryFileContent filesOnDisk t).get name =
      some (newFileInfo H base64Encode directory (name, content)) := by
  rw [updatedTable, updateFileList_calls, List.foldl_append]
  have hmem : newFileInfo H base64Encode directory (name, content) ∈
      (filesOnDisk.filterMap (newFile H directory readBinaryFileContent t.keys)).map
        (newFileInfo H base64Encode directory) :=
    List.mem_map_of_mem (mem_newFiles.mpr ⟨hdisk, hname, hread⟩)
  have hkept := hplaced.foldl_remove (t.keys.filter fun name => decide (name ∉ filesOnDisk))
  have hstored := get_foldl_store hinj hkept ?_ ?_ hmem
  · exact hstored
  · intro i hi
    obtain ⟨⟨n, c⟩, hnew, rfl⟩ := List.mem_map.mp hi
    exact ⟨.inr (mem_newFiles.mp hnew).1, rfl⟩
  · intro i hi j hj hij
    obtain ⟨⟨n, c⟩, hn, rfl⟩ := List.mem_map.mp hi
    obtain ⟨⟨m, d⟩, hm, rfl⟩ := List.mem_map.mp hj
    obtain rfl : n = m := hij
    have hcd := (mem_newFiles.mp hn).2.2.symm.trans (mem_newFiles.mp hm).2.2
    rw [Option.some.inj hcd]

theorem mem_keys_updatedTable
    (hplaced : Placed (recordPath H directory) (handledNames filesOnDisk t) t)
    (hinj : (handledNames filesOnDisk t).InjOn (recordPath H directory)) :
    name ∈ (updatedTable H base64Encode directory readBinaryFileContent filesOnDisk t).keys ↔
      name ∈ filesOnDisk ∧ (name ∈ t.keys ∨
        (readBinaryFileContent (H.composePath name directory)).isSome) := by
  rw [Table.Rows.mem_keys]
  by_cases hnew : name ∈ t.keys ∨ name ∉ filesOnDisk ∨
      readBinaryFileContent (H.composePath name directory) = none
  · rw [get_updatedTable_of_not_new hnew]
    by_cases hdisk : name ∈ filesOnDisk
    · by_cases hname : name ∈ t.keys
      · simpa [hdisk, hname] using Table.Rows.mem_keys.mp hname
      · have hread : readBinaryFileContent (H.composePath name directory) = none := by tauto
        have hnone : t.get name = none := Table.Rows.get_eq_none.mpr hname
        simp [hdisk, hname, hread, hnone]
    · simp [hdisk]
  · push Not at hnew
    obtain ⟨hname, hdisk, hread⟩ := hnew
    obtain ⟨content, hread⟩ := Option.ne_none_iff_exists'.mp hread
    simp [get_updatedTable_of_new hplaced hinj hdisk hname hread, hdisk, hread]

/-- The names of the repository are those of the directory, and all other files of the
directory are unreadable: there is nothing to do. -/
theorem updateFileList_calls_nil {filesInRepo : List String}
    (h : ∀ name, name ∈ filesInRepo ↔ name ∈ filesOnDisk ∧ (name ∈ filesInRepo ∨
      (readBinaryFileContent (H.composePath name directory)).isSome)) :
    (updateFileList H base64Encode directory readBinaryFileContent filesOnDisk
      (some filesInRepo)).2 = [] := by
  have hmissing : filesInRepo.filter (· ∉ filesOnDisk) = [] := by
    rw [List.filter_eq_nil_iff]
    intro name hname
    simpa using ((h name).mp hname).1
  have hnew :
      filesOnDisk.filterMap (newFile H directory readBinaryFileContent filesInRepo) = [] := by
    rw [List.eq_nil_iff_forall_not_mem]
    rintro ⟨name, content⟩ hmem
    obtain ⟨hdisk, hrepo, hread⟩ := mem_newFiles.mp hmem
    exact hrepo ((h name).mpr ⟨hdisk, .inr (by simp [hread])⟩)
  rw [updateFileList_calls, hmissing, hnew]
  rfl

/-- The file list and the table after an update, in terms of the directory and the table
before it. -/
structure Reconciled (H : Host) (base64Encode : ByteArray → String) (directory : String)
    (readBinaryFileContent : String → Option ByteArray) (filesOnDisk : List String)
    (t t' : FileTable) (fileList : List String) : Prop where
  strict : fileList.Pairwise (· < ·)
  mem_iff : ∀ name, name ∈ fileList ↔ (name ∈ t.keys ∧ name ∈ filesOnDisk) ∨
    (name ∈ filesOnDisk ∧ name ∉ t.keys ∧
      (readBinaryFileContent (H.composePath name directory)).isSome)
  names : ∀ name, name ∈ t'.keys ↔ name ∈ fileList
  kept : ∀ name ∈ t.keys, name ∈ filesOnDisk → t'.get name = t.get name
  added : ∀ name ∈ filesOnDisk, name ∉ t.keys → ∀ content,
    readBinaryFileContent (H.composePath name directory) = some content →
      t'.get name = some ⟨name, base64Encode (H.hashSHA256 content), recordPath H directory name⟩

/-- An update of the file list reconciles the repository with the directory, and another
one finds nothing to do and gives the same list. -/
theorem updateFileList_reconciles {s : Session} (fuel : ℕ)
    (hplaced : ∀ r ∈ s.table.list, r.path = recordPath H directory r.name)
    (hinj : {name | name ∈ s.table.keys ∨ name ∈ filesOnDisk}.InjOn (recordPath H directory)) :
    let update := updateFileList H base64Encode directory readBinaryFileContent filesOnDisk
      (some (getAllFileNames reliable s).1)
    ∃ s', performAll reliable (fuel + 2) s update.2 = some s' ∧
      Reconciled H base64Encode directory readBinaryFileContent filesOnDisk s.table s'.table
        update.1 ∧
      updateFileList H base64Encode directory readBinaryFileContent filesOnDisk
        (some (getAllFileNames reliable s').1) = (update.1, []) := by
  intro update
  have hplaced : Placed (recordPath H directory) (handledNames filesOnDisk s.table) s.table :=
    fun r hr => ⟨.inl (List.mem_map_of_mem hr), hplaced r hr⟩
  obtain ⟨issued, hs⟩ := performAll_reliable s update.2 fuel
  set t' := updatedTable H base64Encode directory readBinaryFileContent filesOnDisk s.table
    with ht'
  have hnames : ∀ name, name ∈ t'.keys ↔ name ∈ update.1 := fun name => by
    rw [ht', mem_keys_updatedTable hplaced hinj]
    exact mem_updateFileList.symm
  refine ⟨⟨t', issued⟩, hs, ?_, ?_⟩
  · constructor
    · exact updateFileList_strict
    · intro name
      rw [mem_updateFileList, getAllFileNames]
      simp only [reliable, if_true]
      tauto
    · exact hnames
    · intro name hname hdisk
      rw [ht', get_updatedTable_of_not_new (.inl hname), if_pos hdisk]
    · intro name hdisk hname content hread
      exact get_updatedTable_of_new hplaced hinj hdisk hname hread
  · have hmem : ∀ name, name ∈ t'.keys ↔ name ∈ filesOnDisk ∧ (name ∈ t'.keys ∨
        (readBinaryFileContent (H.composePath name directory)).isSome) := fun name => by
      rw [ht', mem_keys_updatedTable hplaced hinj]
      tauto
    apply Prod.ext
    · apply updateFileList_strict.eq_of_mem_iff updateFileList_strict
      intro name
      exact (mem_updateFileList.trans (hmem name).symm).trans (hnames name)
    · exact updateFileList_calls_nil hmem

theorem sampleHost_recordPath_injective :
    Function.Injective (recordPath sampleHost directory) := by
  intro a b h
  have hl : (directory ++ "/" ++ a).toList = (directory ++ "/" ++ b).toList := congrArg _ h
  simpa [String.toList_inj] using hl

/-- A record of a file that is gone, one of a file that is there, a file without a record and one
that cannot be read. -/
theorem updateFileList_reconciles_sample :
    let s : Session :=
      ⟨⟨[⟨"f", "hash", "/files/f"⟩, ⟨"k", "kept", "/files/k"⟩], by decide, by decide⟩, 0⟩
    let readBinaryFileContent : String → Option ByteArray :=
      fun path => if path = "/files/g" then some [97] else none
    let filesOnDisk := ["g", "h", "k"]
    let update := updateFileList sampleHost (fun _ => sampleHash) "/files" readBinaryFileContent
      filesOnDisk (some (getAllFileNames reliable s).1)
    ∃ s', performAll reliable 2 s update.2 = some s' ∧
      Reconciled sampleHost (fun _ => sampleHash) "/files" readBinaryFileContent filesOnDisk s.table
        s'.table update.1 ∧
      updateFileList sampleHost (fun _ => sampleHash) "/files" readBinaryFileContent filesOnDisk
        (some (getAllFileNames reliable s').1) = (update.1, []) := by
  apply updateFileList_reconciles 0
  · intro r hr
    rcases List.mem_pair.mp hr with rfl | rfl <;> rfl
  · intro a _ b _ h
    exact sampleHost_recordPath_injective h

end

end WolkConnect
