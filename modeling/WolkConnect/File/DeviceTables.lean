import WolkConnect.File.DeviceRuns

/-! What a command of the device leaves in the records and on the disk where every statement is
executed. -/
namespace WolkConnect
open Transition Transition.Machine

namespace SQLiteFileRepository

variable {s s' : Session} {t : FileTable} {info r : FileInfo} {fuel : ℕ}

/-- With any fuel that is enough. -/
theorem store_reliable_table (h : store reliable fuel s info = some s') :
    s'.table = stored s.table info := by
  match fuel with
  | 0 => cases h
  | 1 =>
    by_cases hname : info.name ∈ s.table.keys
    · simp [store, containsInfoForFile, reliable, hname, update] at h
    · simp only [store, containsInfoForFile, reliable, hname, decide_false, Bool.and_false,
        Bool.false_eq_true, if_false, if_true, Option.some.injEq] at h
      subst h
      simp [Session.issue, stored, Table.Rows.delete_of_notMem hname]
  | fuel + 2 =>
    obtain ⟨issued, hs⟩ := store_reliable s info fuel
    rw [hs] at h
    obtain rfl := Option.some.inj h
    rfl

theorem performAll_reliable_table {calls : List RepositoryCall}
    (h : performAll reliable fuel s calls = some s') :
    s'.table = calls.foldl performed s.table := by
  induction calls generalizing s with
  | nil =>
    obtain rfl := Option.some.inj h
    rfl
  | cons c calls ih =>
    rw [performAll, List.foldlM_cons] at h
    obtain ⟨u, hu, hrest⟩ := Option.bind_eq_some_iff.mp h
    rw [List.foldl_cons, ih hrest]
    congr 1
    cases c with
    | remove fileName =>
      obtain rfl := Option.some.inj hu
      exact remove_reliable s fileName
    | store info => exact store_reliable_table hu

theorem mem_remove {executes : Outcomes} {fileName : String}
    (h : r ∈ (remove executes s fileName).table.list) : r ∈ s.table.list := by
  rw [remove_table] at h
  split at h
  · exact (Table.Rows.mem_delete.mp h).1
  · exact h

/-- A record of the table after `store` is the stored one or an old one of another name. -/
theorem mem_stored (h : r ∈ (stored t info).list) :
    r = info ∨ (r ∈ t.list ∧ r.name ≠ info.name) :=
  (Table.Rows.mem_insert h).imp_right Table.Rows.mem_delete.mp

end SQLiteFileRepository

open SQLiteFileRepository

section

variable {H : Host} {base64Encode : ByteArray → String} {directory : String}
  {readBinaryFileContent : String → Option ByteArray} {filesOnDisk : List String} {t : FileTable}
  {r : FileInfo}

/-- A record after an update of the file list was there before, or it is that of a new file;
its name is one of the directory. -/
theorem mem_updatedTable
    (hplaced : Placed (recordPath H directory) (handledNames filesOnDisk t) t)
    (hinj : (handledNames filesOnDisk t).InjOn (recordPath H directory))
    (hr : r ∈ (updatedTable H base64Encode directory readBinaryFileContent filesOnDisk t).list) :
    r.name ∈ filesOnDisk ∧ (r ∈ t.list ∨ ∃ content,
      readBinaryFileContent (H.composePath r.name directory) = some content ∧
        r = newFileInfo H base64Encode directory (r.name, content)) := by
  have hget := Table.Rows.get_self hr
  by_cases hnew : r.name ∈ t.keys ∨ r.name ∉ filesOnDisk ∨
      readBinaryFileContent (H.composePath r.name directory) = none
  · rw [get_updatedTable_of_not_new hnew] at hget
    split at hget
    · next hdisk => exact ⟨hdisk, .inl (Table.Rows.get_eq_some.mp hget).1⟩
    · cases hget
  · push Not at hnew
    obtain ⟨hname, hdisk, hread⟩ := hnew
    obtain ⟨content, hread⟩ := Option.ne_none_iff_exists'.mp hread
    rw [get_updatedTable_of_new hplaced hinj hdisk hname hread] at hget
    exact ⟨hdisk, .inr ⟨content, hread, (Option.some.inj hget).symm⟩⟩

end

variable {H : Host}

/-- The file lists among the outputs. -/
def DeviceOutput.fileList : DeviceOutput → Option (List String)
  | .publishFileList fileNames => some fileNames
  | _ => none

namespace DeviceCommand

/-- The command stores a record. -/
def stores : DeviceCommand H → Bool
  | .service (.storeFile _ _) => true
  | .storeUrlFile _ _ _ => true
  | _ => false

def isFileListUpdate : DeviceCommand H → Bool
  | .service .sendFileListUpdate => true
  | _ => false

end DeviceCommand

namespace Device

theorem readBinaryFileContent_some {D : Device H} {opens : String → Bool} {path : String}
    {content : ByteArray} (hread : D.readBinaryFileContent opens path = some content) :
    D.disk (H.absolutePath path) = some content := by
  unfold readBinaryFileContent at hread
  split at hread
  · exact hread
  · cases hread

/-- Records and files are at most taken away. -/
structure Shrinks (D D' : Device H) : Prop where
  records : ∀ r ∈ D'.repository.table.list, r ∈ D.repository.table.list
  files : ∀ path, D'.disk path = D.disk path ∨ D'.disk path = none

theorem Shrinks.of_same {D D' : Device H} (htable : D'.repository.table = D.repository.table)
    (hdisk : D'.disk = D.disk) : Shrinks D D' :=
  ⟨fun _ hr => htable ▸ hr, fun path => .inl (congrFun hdisk path)⟩

theorem Shrinks.trans {D D' E : Device H} (h : Shrinks D D') (h' : Shrinks D' E) : Shrinks D E := by
  refine ⟨fun r hr => h.records r (h'.records r hr), fun path => ?_⟩
  rcases h'.files path with hp | hp
  · rw [hp]
    exact h.files path
  · exact .inr hp

theorem shrinks_unlink (D : Device H) (path : String) : Shrinks D (D.unlink path) := by
  refine ⟨fun _ hr => hr, fun p => ?_⟩
  by_cases hp : p = path
  · subst hp
    exact .inr (Function.update_self ..)
  · exact .inl (Function.update_of_ne hp ..)

variable {executes : Outcomes} {deletes : String → Bool} {D D' : Device H}

theorem shrinks_remove (D : Device H) (fileName : String) :
    Shrinks D (D.remove executes fileName) :=
  ⟨fun _ hr => mem_remove hr, fun _ => .inl rfl⟩

/-- Deleting the file of a record and then the record. -/
theorem shrinks_deleted (D : Device H) (path fileName : String) :
    Shrinks D ((D.looked.unlink path).remove executes fileName) := by
  have hlooked : Shrinks D D.looked := .of_same rfl rfl
  have hunlink := shrinks_unlink D.looked path
  exact (hlooked.trans hunlink).trans (shrinks_remove _ fileName)

theorem shrinks_handleFileDelete {name : String}
    (h : D.handleFileDelete executes deletes name = some D') : Shrinks D D' := by
  unfold handleFileDelete at h
  split at h
  · obtain rfl := Option.some.inj h
    exact .of_same rfl rfl
  · simp only [deleteFile, getFileInfo] at h
    split at h
    · cases h
    · next info hinfo =>
      split at h
      · obtain rfl := Option.some.inj h
        have hdeleted : Shrinks D ((D.looked.unlink info.path).remove executes name) :=
          shrinks_deleted D info.path name
        exact hdeleted.trans (.of_same rfl rfl)
      · obtain rfl := Option.some.inj h
        exact .of_same rfl rfl

theorem shrinks_purgeFile (D : Device H) (name : String) :
    Shrinks D (D.purgeFile executes deletes name).1 := by
  simp only [purgeFile, getFileInfo]
  split
  · exact .of_same rfl rfl
  · next info hinfo =>
    split
    · exact shrinks_deleted D info.path name
    · exact .of_same rfl rfl

theorem shrinks_purgeEach (D : Device H) (names : List String) :
    Shrinks D (D.purgeEach executes deletes names).1 := by
  induction names generalizing D with
  | nil => exact .of_same rfl rfl
  | cons name names ih => exact (shrinks_purgeFile D name).trans (ih _)

theorem shrinks_handleFilePurge (D : Device H) :
    Shrinks D (D.handleFilePurge executes deletes).1 := by
  have hlooked : Shrinks D D.looked := .of_same rfl rfl
  have heach : Shrinks D.looked (D.looked.purgeEach executes deletes
      (SQLiteFileRepository.getAllFileNames executes D.repository).1).1 := shrinks_purgeEach _ _
  exact (hlooked.trans heach).trans (.of_same rfl rfl)

variable {W : DeviceConfig H}

theorem sendUrlStatus_fileList (response : FileUrlDownloadStatus) :
    (D.sendUrlStatus W response).filterMap DeviceOutput.fileList = [] := by
  unfold sendUrlStatus
  split <;> rfl

/-- What a command leaves behind where every statement is executed. -/
inductive CommandMoves (W : DeviceConfig H) (a : DeviceAnswers) (D : Device H) :
    DeviceCommand H → Device H → List DeviceOutput → Prop where
  | kept (c D' out) (hc : c.stores = false) (hupdate : c.isFileListUpdate = false)
      (htable : D'.repository.table = D.repository.table) (hdisk : D'.disk = D.disk)
      (hpushed : D'.service.commandBuffer = [])
      (hlist : out.filterMap DeviceOutput.fileList = []) : CommandMoves W a D c D' out
  | stored (info call D' out) (htable : D'.repository.table = stored D.repository.table info)
      (hdisk : D'.disk = D.disk) (hpushed : D'.service.commandBuffer = [])
      (hlist : out.filterMap DeviceOutput.fileList = []) :
      CommandMoves W a D (.service (.storeFile info call)) D' out
  | listed (D' out) (htable : D'.repository.table = updatedTable H W.base64Encode
        D.service.fileDownloadDirectory (D.readBinaryFileContent a.opens) a.filesOnDisk
        D.repository.table)
      (hdisk : D'.disk = D.disk) (hpushed : D'.service.commandBuffer = [])
      (hlist : W.MakesFileLists → out.filterMap DeviceOutput.fileList =
        [(updateFileList H W.base64Encode D.service.fileDownloadDirectory
          (D.readBinaryFileContent a.opens) a.filesOnDisk (some D.repository.table.keys)).1]) :
      CommandMoves W a D (.service .sendFileListUpdate) D' out
  | removed (c D' out) (hc : c.stores = false) (hshrinks : Shrinks D D')
      (hpushed : D'.service.commandBuffer = [.sendFileListUpdate])
      (hlist : out.filterMap DeviceOutput.fileList = []) : CommandMoves W a D c D' out
  | urlStored (fileUrl fileName filePath content D' out)
      (hread : D.readBinaryFileContent a.opens filePath = some content)
      (htable : D'.repository.table = stored D.repository.table
        ⟨fileName, W.base64Encode (H.hashSHA256 content), filePath⟩)
      (hdisk : D'.disk = D.disk) (hpushed : D'.service.commandBuffer = [])
      (hlist : out.filterMap DeviceOutput.fileList = []) :
      CommandMoves W a D (.storeUrlFile fileUrl fileName filePath) D' out
  | urlUnreadable (fileUrl fileName filePath D' out) (hshrinks : Shrinks D D')
      (hpushed : D'.service.commandBuffer = [])
      (hlist : out.filterMap DeviceOutput.fileList = []) :
      CommandMoves W a D (.storeUrlFile fileUrl fileName filePath) D' out

theorem serve_fileList (D : Device H) (c : ServiceCommand H) (fileInfo : Option FileInfo) :
    (D.serve c fileInfo).2.filterMap DeviceOutput.fileList = [] := by
  rw [List.filterMap_eq_nil_iff]
  intro o ho
  obtain ⟨o', -, rfl⟩ := List.mem_map.mp ho
  rfl

theorem store_table {info : FileInfo} {fuel : ℕ} (h : D.store reliable fuel info = some D') :
    D'.service = D.service ∧ D'.repository.table = stored D.repository.table info ∧
      D'.disk = D.disk := by
  obtain ⟨repository, hs, rfl⟩ := Option.map_eq_some_iff.mp h
  exact ⟨rfl, store_reliable_table hs, rfl⟩

variable {c : DeviceCommand H} {a : DeviceAnswers} {out : List DeviceOutput}

theorem commandMoves_of_handle (hdrained : D.service.commandBuffer = []) {E : Device H}
    {message : Inbound H} {fileInfo : Option FileInfo} (hservice : E.service = D.service)
    (htable : E.repository.table = D.repository.table) (hdisk : E.disk = D.disk)
    (hrun : E.serve (.handle message) fileInfo = (D', out)) :
    CommandMoves W a D (.service (.handle message)) D' out := by
  have hlist := serve_fileList E (.handle message) fileInfo
  rw [hrun] at hlist
  obtain ⟨rfl, -⟩ := Prod.mk.inj hrun
  refine .kept _ _ _ rfl rfl htable hdisk ?_ hlist
  show (E.service.runCommand _ _).1.commandBuffer = []
  rw [FileDownloadService.runCommand_commandBuffer, hservice, hdrained]

theorem commandMoves_of_storeFile (hW : W.executes = reliable)
    (hdrained : D.service.commandBuffer = []) {info : FileInfo} {call : ℕ}
    (hrun : D.runCommand W (.service (.storeFile info call)) a = some (D', out)) :
    CommandMoves W a D (.service (.storeFile info call)) D' out := by
  obtain ⟨E, hE, he⟩ := Option.map_eq_some_iff.mp hrun
  have hlist := serve_fileList E (.storeFile info call) none
  rw [he] at hlist
  rw [hW] at hE
  obtain ⟨hservice, htable, hdisk⟩ := store_table hE
  obtain ⟨rfl, -⟩ := Prod.mk.inj he
  refine .stored info call _ _ htable hdisk ?_ hlist
  show (E.service.runCommand _ _).1.commandBuffer = []
  rw [FileDownloadService.runCommand_commandBuffer, hservice, hdrained]

theorem commandMoves_of_fileListUpdate (hW : W.executes = reliable)
    (hdrained : D.service.commandBuffer = [])
    (hrun : D.runCommand W (.service .sendFileListUpdate) a = some (D', out)) :
    CommandMoves W a D (.service .sendFileListUpdate) D' out := by
  have hserved : (D.sendFileListUpdate W a).map
      (fun r => (r.1, .service .sendFileListUpdate :: r.2)) = some (D', out) := hrun
  obtain ⟨r, hr, he⟩ := Option.map_eq_some_iff.mp hserved
  have hnames : D.getAllFileNames reliable = (some D.repository.table.keys, D.looked) := rfl
  simp only [sendFileListUpdate, hW, hnames] at hr
  obtain ⟨repository, hs, rfl⟩ := Option.map_eq_some_iff.mp hr
  obtain ⟨rfl, rfl⟩ := Prod.mk.inj he
  have htable := performAll_reliable_table hs
  refine .listed _ _ htable rfl hdrained fun hmakes => ?_
  have hsent : W.protocol.makesFileList D.looked.service.deviceKey (updateFileList H W.base64Encode
      D.looked.service.fileDownloadDirectory (D.looked.readBinaryFileContent a.opens)
      a.filesOnDisk (some D.repository.table.keys)).1 = true := hmakes _ _
  rw [if_pos hsent]
  rfl

theorem commandMoves_of_storeUrlFile (hW : W.executes = reliable)
    (hdrained : D.service.commandBuffer = []) {fileUrl fileName filePath : String}
    (hrun : D.runCommand W (.storeUrlFile fileUrl fileName filePath) a = some (D', out)) :
    CommandMoves W a D (.storeUrlFile fileUrl fileName filePath) D' out := by
  simp only [runCommand, storeUrlFile] at hrun
  split at hrun
  · obtain ⟨rfl, rfl⟩ := Prod.mk.inj (Option.some.inj hrun)
    split
    · exact .urlUnreadable _ _ _ _ _ (shrinks_unlink _ _) hdrained (sendUrlStatus_fileList _)
    · exact .urlUnreadable _ _ _ _ _ (.of_same rfl rfl) hdrained (sendUrlStatus_fileList _)
  · next content hread =>
    obtain ⟨E, hE, he⟩ := Option.map_eq_some_iff.mp hrun
    rw [hW] at hE
    obtain ⟨hservice, htable, hdisk⟩ := store_table hE
    obtain ⟨rfl, rfl⟩ := Prod.mk.inj he
    refine .urlStored _ _ _ content _ _ hread htable hdisk ?_ (sendUrlStatus_fileList _)
    rw [hservice, hdrained]

theorem commandMoves_of_run (hW : W.executes = reliable)
    (hdrained : D.service.commandBuffer = []) (hrun : D.runCommand W c a = some (D', out)) :
    CommandMoves W a D c D' out := by
  have hqueued (hs : D'.service = D.service.sendFileList) :
      D'.service.commandBuffer = [.sendFileListUpdate] := by
    rw [hs, FileDownloadService.sendFileList, FileDownloadService.addToCommandBuffer, hdrained]
    rfl
  cases c with
  | service c =>
    cases c with
    | handle message =>
      cases message with
      | fileUploadInitiate name size hash =>
        have hsame : (D.initiateInfo W.executes name size hash).2.service = D.service ∧
            (D.initiateInfo W.executes name size hash).2.repository.table = D.repository.table ∧
              (D.initiateInfo W.executes name size hash).2.disk = D.disk := by
          unfold initiateInfo
          split <;> exact ⟨rfl, rfl, rfl⟩
        exact commandMoves_of_handle hdrained hsame.1 hsame.2.1 hsame.2.2 (Option.some.inj hrun)
      | binaryData b => exact commandMoves_of_handle hdrained rfl rfl rfl (Option.some.inj hrun)
      | fileUploadAbort name =>
        exact commandMoves_of_handle hdrained rfl rfl rfl (Option.some.inj hrun)
    | storeFile info call => exact commandMoves_of_storeFile hW hdrained hrun
    | sendFileListUpdate => exact commandMoves_of_fileListUpdate hW hdrained hrun
  | fileDelete name =>
    obtain ⟨E, hE, he⟩ := Option.map_eq_some_iff.mp hrun
    obtain ⟨rfl, rfl⟩ := Prod.mk.inj he
    exact .removed _ _ _ rfl (shrinks_handleFileDelete hE)
      (hqueued (handleFileDelete_service hE)) rfl
  | purgeFiles =>
    obtain ⟨rfl, rfl⟩ := Prod.mk.inj (Option.some.inj hrun)
    exact .removed _ _ _ rfl (shrinks_handleFilePurge D)
      (hqueued (handleFilePurge_service _ _ _)) rfl
  | fileUrlDownloadInitiate url =>
    obtain ⟨rfl, rfl⟩ := Prod.mk.inj (Option.some.inj hrun)
    refine .kept _ _ _ rfl rfl rfl rfl hdrained ?_
    unfold handleUrlDownloadInitiate
    split_ifs
    · exact sendUrlStatus_fileList _
    · exact sendUrlStatus_fileList _
    · rfl
  | fileUrlDownloadAbort url =>
    obtain ⟨rfl, rfl⟩ := Prod.mk.inj (Option.some.inj hrun)
    refine .kept _ _ _ rfl rfl rfl rfl hdrained ?_
    unfold handleUrlDownloadAbort
    split_ifs
    · exact sendUrlStatus_fileList _
    · exact sendUrlStatus_fileList _
    · exact sendUrlStatus_fileList _
  | storeUrlFile fileUrl fileName filePath => exact commandMoves_of_storeUrlFile hW hdrained hrun

end Device

end WolkConnect
