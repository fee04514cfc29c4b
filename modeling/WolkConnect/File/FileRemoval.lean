import WolkConnect.File.FileList

/-! How files leave the device: `FileDownloadService::deleteFile` and `purgeFiles`, with the
records of the repository, the files on disk and the queue of the service. -/
namespace WolkConnect
open SQLiteFileRepository

/-- The contents of the files, by path. -/
abbrev Disk := String → Option ByteArray

/-- The service with what it deletes from. -/
structure Device (H : Host) where
  service : FileDownloadService H
  repository : Session
  disk : Disk

namespace Device

variable {H : Host}

/-- The record of a name. -/
def record (D : Device H) (fileName : String) : Option FileInfo := D.repository.table.get fileName

def sendFileList (D : Device H) : Device H := { D with service := D.service.sendFileList }

section

variable (executes : Outcomes) (deletes : String → Bool)

def getFileInfo (D : Device H) (fileName : String) : Option FileInfo × Device H :=
  let (info, repository) := SQLiteFileRepository.getFileInfo executes D.repository fileName
  (info, { D with repository := repository })

def remove (D : Device H) (fileName : String) : Device H :=
  { D with repository := SQLiteFileRepository.remove executes D.repository fileName }

/-- `FileSystemUtils::deleteFile` for a path that it can delete. -/
def unlink (D : Device H) (path : String) : Device H :=
  { D with disk := Function.update D.disk path none }

/-- `none` where the null pointer of a missing record is dereferenced. -/
def deleteFile (D : Device H) (fileName : String) : Option (Device H) :=
  let (info, D) := D.getFileInfo executes fileName
  match info with
  | none => none
  | some info =>
    if deletes info.path then some ((D.unlink info.path).remove executes fileName).sendFileList
    else some D.sendFileList

/-- `handle(FileDelete)`. -/
def handleFileDelete (D : Device H) (name : String) : Option (Device H) :=
  if name = "" then some D.sendFileList else D.deleteFile executes deletes name

/-- The body of the loop of `purgeFiles`, with the errors it logs. -/
def purgeFile (D : Device H) (name : String) : Device H × List String :=
  let (info, D) := D.getFileInfo executes name
  match info with
  | none => (D, ["File info missing for file: " ++ name ++ ",  can't delete"])
  | some info =>
    if deletes info.path then ((D.unlink info.path).remove executes name, [])
    else (D, ["Failed to delete file: " ++ info.path])

def purgeEach (D : Device H) : List String → Device H × List String
  | [] => (D, [])
  | name :: names =>
    let (D, logged) := D.purgeFile executes deletes name
    let (D, rest) := D.purgeEach names
    (D, logged ++ rest)

/-- `fileNames` is the answer of `getAllFileNames`, where `none` is null. -/
def purgeFiles (D : Device H) (fileNames : Option (List String)) : Device H × List String :=
  match fileNames with
  | none => (D.sendFileList, ["Failed to fetch file names"])
  | some fileNames =>
    let (D, logged) := D.purgeEach executes deletes fileNames
    (D.sendFileList, logged)

/-- The pointer that `getAllFileNames` returns is never null. -/
def getAllFileNames (D : Device H) : Option (List String) × Device H :=
  let (fileNames, repository) := SQLiteFileRepository.getAllFileNames executes D.repository
  (some fileNames, { D with repository := repository })

/-- The command of a purge request. -/
def handleFilePurge (D : Device H) : Device H × List String :=
  let (fileNames, D) := D.getAllFileNames executes
  D.purgeFiles executes deletes fileNames

end

variable {executes : Outcomes} {deletes : String → Bool} {D D' : Device H} {fileName : String}

/-- The record and the file of the name are gone if the file could be deleted, the file list is
queued once, and everything else is as it was. -/
structure SafeDeletion (deletes : String → Bool) (D D' : Device H) (fileName : String) : Prop where
  queued : D'.service = { D.service with
    commandBuffer := D.service.commandBuffer ++ [.sendFileListUpdate] }
  record : D'.record fileName = (D.record fileName).filter fun info => !deletes info.path
  records : ∀ name ≠ fileName, D'.record name = D.record name
  file : ∀ info, D.record fileName = some info →
    D'.disk info.path = if deletes info.path then none else D.disk info.path
  files : ∀ path, (∀ info, D.record fileName = some info → path ≠ info.path) →
    D'.disk path = D.disk path
  absent : D.record fileName = none →
    D'.repository.table = D.repository.table ∧ D'.disk = D.disk

theorem deleteFile_of_missing
    (h : D.record fileName = none ∨ executes D.repository.issued = false) :
    D.deleteFile executes deletes fileName = none := by
  unfold record at h
  rcases h with h | h
  · simp [deleteFile, getFileInfo, SQLiteFileRepository.getFileInfo, h]
  · simp [deleteFile, getFileInfo, SQLiteFileRepository.getFileInfo, h]

/-- The device after the SELECT of the record. -/
def looked (D : Device H) : Device H :=
  { D with repository := D.repository.issue D.repository.table }

theorem getFileInfo_of_record {info : FileInfo} (hr : D.record fileName = some info)
    (hselect : executes D.repository.issued = true) :
    D.getFileInfo executes fileName = (some info, D.looked) := by
  unfold record at hr
  simp [getFileInfo, SQLiteFileRepository.getFileInfo, hr, hselect, looked]

theorem deleteFile_of_record {info : FileInfo} (hr : D.record fileName = some info)
    (hselect : executes D.repository.issued = true) :
    D.deleteFile executes deletes fileName = some (if deletes info.path then
        ((D.looked.unlink info.path).remove executes fileName).sendFileList
      else D.looked.sendFileList) := by
  unfold deleteFile
  rw [getFileInfo_of_record hr hselect]
  cases h : deletes info.path
  · simp [h]
  · simp [h]

theorem record_remove (executes : Outcomes) (D : Device H) (fileName name : String) :
    (D.remove executes fileName).record name =
      if executes D.repository.issued = true ∧ executes (D.repository.issued + 1) = true ∧
        name = fileName then none else D.record name := by
  unfold record remove
  rw [remove_table]
  by_cases h : executes D.repository.issued = true ∧ executes (D.repository.issued + 1) = true
  · rw [if_pos h]
    by_cases hname : name = fileName
    · subst hname
      simp [h]
    · simp [hname, Table.Rows.get_delete_ne hname]
  · rw [if_neg h, if_neg fun h' => h ⟨h'.1, h'.2.1⟩]

/-- The file is deleted and so is the record, if `remove` gets through. -/
theorem safeDeletion_of_deleted {info : FileInfo} (hr : D.record fileName = some info)
    (hdel : deletes info.path = true) (hselect : executes (D.repository.issued + 1) = true)
    (hdelete : executes (D.repository.issued + 2) = true) :
    SafeDeletion deletes D ((D.looked.unlink info.path).remove executes fileName).sendFileList
      fileName := by
  have hrecord (name : String) :
      ((D.looked.unlink info.path).remove executes fileName).sendFileList.record name =
        if name = fileName then none else D.record name := by
    refine (record_remove executes (D.looked.unlink info.path) fileName name).trans ?_
    simp only [unlink, looked, Session.issue, hselect, hdelete, true_and]
    rfl
  constructor
  · rfl
  · rw [hrecord, if_pos rfl, hr, Option.filter_some, hdel]
    rfl
  · intro name hname
    rw [hrecord, if_neg hname]
  · intro i hi
    obtain rfl := Option.some.inj (hr.symm.trans hi)
    rw [if_pos hdel]
    exact Function.update_self ..
  · intro path hpath
    exact Function.update_of_ne (hpath info hr) ..
  · intro hnone
    rw [hnone] at hr
    cases hr

/-- Otherwise the record stays without its file. -/
theorem safeDeletion_deleted_iff {info : FileInfo} (hr : D.record fileName = some info)
    (hdel : deletes info.path = true) :
    SafeDeletion deletes D ((D.looked.unlink info.path).remove executes fileName).sendFileList
        fileName ↔
      executes (D.repository.issued + 1) = true ∧ executes (D.repository.issued + 2) = true := by
  constructor
  · intro hsafe
    by_contra hremove
    have hkept : ((D.looked.unlink info.path).remove executes fileName).sendFileList.record
        fileName = D.record fileName := by
      refine (record_remove executes (D.looked.unlink info.path) fileName fileName).trans ?_
      exact if_neg fun h => hremove ⟨h.1, h.2.1⟩
    rw [hsafe.record, hr] at hkept
    simp [hdel] at hkept
  · rintro ⟨hselect, hdelete⟩
    exact safeDeletion_of_deleted hr hdel hselect hdelete

/-- The file could not be deleted: only the list is sent. -/
theorem safeDeletion_of_refused {info : FileInfo} (hr : D.record fileName = some info)
    (hdel : deletes info.path = false) : SafeDeletion deletes D D.looked.sendFileList fileName := by
  constructor
  · rfl
  · show D.record fileName = _
    rw [hr, Option.filter_some, hdel]
    rfl
  · intro name hname
    rfl
  · intro i hi
    obtain rfl := Option.some.inj (hr.symm.trans hi)
    simp [hdel, sendFileList, looked]
  · intro path hpath
    rfl
  · intro hnone
    rw [hnone] at hr
    cases hr

/-! A purge whose statements are all executed. -/

theorem purgeFile_service (executes : Outcomes) (deletes : String → Bool) (D : Device H)
    (name : String) : (D.purgeFile executes deletes name).1.service = D.service := by
  unfold purgeFile getFileInfo
  dsimp only
  split
  · rfl
  · split <;> rfl

theorem purgeEach_service (executes : Outcomes) (deletes : String → Bool) (D : Device H)
    (names : List String) : (D.purgeEach executes deletes names).1.service = D.service := by
  induction names generalizing D with
  | nil => rfl
  | cons name names ih => exact (ih _).trans (purgeFile_service executes deletes D name)

/-- One round of the loop takes the record of its name, if the file could be deleted. -/
theorem purgeFile_record (deletes : String → Bool) (D : Device H) (name other : String) :
    (D.purgeFile reliable deletes name).1.record other =
      if other = name then (D.record other).filter fun info => !deletes info.path
      else D.record other := by
  cases hr : D.record name with
  | none =>
    have hkept : (D.purgeFile reliable deletes name).1.record other = D.record other := by
      unfold record at hr
      simp [purgeFile, getFileInfo, SQLiteFileRepository.getFileInfo, hr, record, Session.issue]
    rw [hkept]
    by_cases hname : other = name
    · rw [if_pos hname, hname, hr]
      rfl
    · rw [if_neg hname]
  | some info =>
    unfold purgeFile
    rw [getFileInfo_of_record hr rfl]
    by_cases hdel : deletes info.path = true
    · simp only [hdel, if_true]
      rw [record_remove]
      by_cases hname : other = name
      · rw [if_pos ⟨rfl, rfl, hname⟩, if_pos hname, hname, hr, Option.filter_some, hdel]
        rfl
      · rw [if_neg fun h => hname h.2.2, if_neg hname]
        rfl
    · have hkept : D.looked.record name = some info := hr
      simp only [hdel]
      by_cases hname : other = name
      · rw [if_pos hname, hname, hr, Option.filter_some]
        simpa [hdel] using hkept
      · rw [if_neg hname]
        rfl

theorem purgeEach_record (deletes : String → Bool) (D : Device H) (names : List String)
    (other : String) : (D.purgeEach reliable deletes names).1.record other =
      if other ∈ names then (D.record other).filter fun info => !deletes info.path
      else D.record other := by
  induction names generalizing D with
  | nil => rfl
  | cons name names ih =>
    refine (ih (D.purgeFile reliable deletes name).1).trans ?_
    rw [purgeFile_record]
    by_cases hname : other = name
    · simp [hname]
    · simp [hname]

/-- A purge leaves the records of the files that could not be deleted, and no others. -/
theorem handleFilePurge_record (deletes : String → Bool) (D : Device H) (name : String) :
    (D.handleFilePurge reliable deletes).1.record name =
      (D.record name).filter fun info => !deletes info.path := by
  have hlisted : D.getAllFileNames reliable = (some D.repository.table.keys, D.looked) := rfl
  unfold handleFilePurge
  rw [hlisted]
  refine (purgeEach_record deletes D.looked D.repository.table.keys name).trans ?_
  have hkept : D.looked.record name = D.record name := rfl
  rw [hkept]
  by_cases hname : name ∈ D.repository.table.keys
  · rw [if_pos hname]
  · have hnone : D.record name = none := Table.Rows.get_eq_none.mpr hname
    rw [if_neg hname, hnone]
    rfl

/-- Whatever the statements come to, it queues the file list once. -/
theorem handleFilePurge_service (executes : Outcomes) (deletes : String → Bool) (D : Device H) :
    (D.handleFilePurge executes deletes).1.service = D.service.sendFileList :=
  congrArg FileDownloadService.sendFileList (purgeEach_service executes deletes _ _)

end Device

open Device

variable {H : Host}

/-- Deleting a file is safe exactly when the name has a record that can be read, and what is
deleted on disk can be deleted from the repository. -/
theorem handleFileDelete_safe_iff (executes : Outcomes) (deletes : String → Bool) (D : Device H)
    {fileName : String} (hname : fileName ≠ "") :
    (∃ D', D.handleFileDelete executes deletes fileName = some D' ∧
        SafeDeletion deletes D D' fileName) ↔
      ∃ info, D.record fileName = some info ∧ executes D.repository.issued = true ∧
        (deletes info.path = true → executes (D.repository.issued + 1) = true ∧
          executes (D.repository.issued + 2) = true) := by
  rw [handleFileDelete, if_neg hname]
  by_cases hselect : executes D.repository.issued = true
  · cases hr : D.record fileName with
    | none =>
      rw [deleteFile_of_missing (.inl hr)]
      simp
    | some info =>
      rw [deleteFile_of_record hr hselect]
      by_cases hdel : deletes info.path = true
      · rw [if_pos hdel]
        constructor
        · rintro ⟨D', hD', hsafe⟩
          obtain rfl := Option.some.inj hD'
          exact ⟨info, rfl, hselect, fun _ => (safeDeletion_deleted_iff hr hdel).mp hsafe⟩
        · rintro ⟨i, hi, -, hremove⟩
          obtain rfl := Option.some.inj hi
          exact ⟨_, rfl, (safeDeletion_deleted_iff hr hdel).mpr (hremove hdel)⟩
      · have hdel : deletes info.path = false := by simpa using hdel
        rw [hdel]
        apply iff_of_true
        · exact ⟨_, rfl, safeDeletion_of_refused hr hdel⟩
        · exact ⟨info, rfl, hselect, by simp [hdel]⟩
  · rw [deleteFile_of_missing (.inr (by simpa using hselect))]
    simp [hselect]

/-- A device with one file and its record. -/
def sampleDevice : Device sampleHost where
  service := .construct sampleHost "device" "/files" 66
  repository := ⟨sampleTable, 0⟩
  disk path := if path = "/files/f" then some [97] else none

theorem handleFileDelete_safe_sample :
    ∃ D', sampleDevice.handleFileDelete reliable (fun _ => true) "f" = some D' ∧
      SafeDeletion (fun _ => true) sampleDevice D' "f" :=
  (handleFileDelete_safe_iff reliable (fun _ => true) sampleDevice (by decide)).mpr
    ⟨sampleRecord, by decide +kernel, rfl, fun _ => ⟨rfl, rfl⟩⟩

/-- A name without a record: its missing record is dereferenced. -/
theorem missing_record_dereferenced :
    ¬ ∀ (D : Device sampleHost) deletes fileName, fileName ≠ "" →
      ∃ D', D.handleFileDelete reliable deletes fileName = some D' ∧
        SafeDeletion deletes D D' fileName := by
  intro hall
  obtain ⟨D', hD', -⟩ := hall sampleDevice (fun _ => true) "g" (by decide)
  have hnone : sampleDevice.deleteFile reliable (fun _ => true) "g" = none :=
    deleteFile_of_missing (.inl (by decide +kernel))
  rw [handleFileDelete, if_neg (by decide), hnone] at hD'
  cases hD'

/-- What the two callers of `getAllFileNames` do for a null pointer: the list is what is on
disk, and the purge ends with its error. -/
structure FailureSignalled (base64Encode : ByteArray → String) (filesOnDisk : List String)
    (executes : Outcomes) (deletes : String → Bool) (D : Device H) : Prop where
  listed : updateFileList H base64Encode D.service.fileDownloadDirectory D.disk filesOnDisk
    (D.getAllFileNames executes).1 = (filesOnDisk, [])
  purged : D.handleFilePurge executes deletes =
    ((D.getAllFileNames executes).2.sendFileList, ["Failed to fetch file names"])

theorem getAllFileNames_of_failed {executes : Outcomes} {D : Device H}
    (hfail : executes D.repository.issued = false) :
    D.getAllFileNames executes = (some [], D.looked) := by
  simp [Device.getAllFileNames, SQLiteFileRepository.getAllFileNames, hfail, looked]

/-- Every readable file of the directory is new to a repository without names. -/
theorem updateFileList_without_names {base64Encode : ByteArray → String} {directory : String}
    {readBinaryFileContent : String → Option ByteArray} {filesOnDisk : List String} :
    updateFileList H base64Encode directory readBinaryFileContent filesOnDisk (some []) =
      (filesOnDisk, []) ↔ filesOnDisk = [] := by
  constructor
  · intro h
    apply List.eq_nil_iff_forall_not_mem.mpr
    intro name hname
    have hlist : name ∈ (updateFileList H base64Encode directory readBinaryFileContent filesOnDisk
        (some [])).1 := by
      rw [h]
      exact hname
    obtain ⟨-, hcontent⟩ := mem_updateFileList.mp hlist
    obtain ⟨content, hread⟩ : ∃ content,
        readBinaryFileContent (H.composePath name directory) = some content := by
      simpa [Option.isSome_iff_exists] using hcontent
    have hnew := mem_newFiles.mpr ⟨hname, List.not_mem_nil, hread⟩
    have hcalls := congrArg Prod.snd h
    rw [updateFileList_calls] at hcalls
    have hnone : filesOnDisk.filterMap (newFile H directory readBinaryFileContent []) = [] := by
      simpa using hcalls
    rw [hnone] at hnew
    cases hnew
  · rintro rfl
    rfl

/-- A failed query of the names is never signalled: the list is what is on disk only when
nothing is, and the purge does not end with its error. -/
theorem failed_query_not_signalled (base64Encode : ByteArray → String) (filesOnDisk : List String)
    (executes : Outcomes) (deletes : String → Bool) (D : Device H)
    (hfail : executes D.repository.issued = false) :
    (updateFileList H base64Encode D.service.fileDownloadDirectory D.disk filesOnDisk
        (D.getAllFileNames executes).1 = (filesOnDisk, []) ↔ filesOnDisk = []) ∧
      ¬ FailureSignalled base64Encode filesOnDisk executes deletes D := by
  constructor
  · rw [getAllFileNames_of_failed hfail]
    exact updateFileList_without_names
  · intro h
    have hpurged := h.purged
    rw [handleFilePurge, getAllFileNames_of_failed hfail] at hpurged
    simp [purgeFiles, purgeEach] at hpurged

theorem failed_query_not_signalled_sample :
    ¬ FailureSignalled (fun _ => sampleHash) ["f"] (fun n => n != 0) (fun _ => true) sampleDevice :=
  (failed_query_not_signalled (fun _ => sampleHash) ["f"] (fun n => n != 0) (fun _ => true)
    sampleDevice rfl).2

/-- The file of a record counts as new, and its record is stored again. -/
theorem failed_query_rewrites_record :
    ¬ ∀ (D : Device sampleHost) base64Encode filesOnDisk executes deletes,
      executes D.repository.issued = false →
        FailureSignalled base64Encode filesOnDisk executes deletes D := by
  intro hall
  have hlisted := (hall sampleDevice (fun _ => sampleHash) ["f"] (fun n => n != 0) (fun _ => true)
    rfl).listed
  have hcalls : (updateFileList sampleHost (fun _ => sampleHash) "/files" sampleDevice.disk ["f"]
      (some [])).2 = [.store ⟨"f", sampleHash, "/files/f"⟩] := by
    decide +kernel
  have hnone := congrArg Prod.snd hlisted
  rw [getAllFileNames_of_failed rfl] at hnone
  exact absurd (hcalls.symm.trans hnone) (by simp)

end WolkConnect
