import WolkConnect.File.DeviceWrites
import WolkConnect.Transition.Followed

/-! The file list that the platform has seen last against the repository and the disk, whatever
uploads, downloads from a URL, deletions, purges and sweeps come in between. -/
namespace WolkConnect
open Transition Transition.Machine SQLiteFileRepository

variable {H : Host}

abbrev DeviceHistory (H : Host) := List (Moment (QueuedDevice H) DeviceEvent DeviceOutput)

/-- The file lists that were sent, oldest first. -/
def fileLists (os : List DeviceOutput) : List (List String) := os.filterMap DeviceOutput.fileList

/-- The hash of the record is that of the content. -/
def Describes (H : Host) (r : FileInfo) (content : ByteArray) : Prop :=
  H.base64Decode r.hash = H.hashSHA256 content

namespace DeviceCommand

/-- The names that the command brings in are in use, and what it stores lies at the place of its
name. -/
def Proper (place : String → String) (S : Set String) : DeviceCommand H → Prop
  | .service (.handle (.fileUploadInitiate name _ _)) => name ∈ S
  | .service (.storeFile info _) => info.name ∈ S ∧ info.path = place info.name
  | .storeUrlFile _ fileName filePath => fileName ∈ S ∧ filePath = place fileName
  | _ => True

/-- The record that a finished upload stores at the path. -/
def storedAt (path : String) : DeviceCommand H → Option FileInfo
  | .service (.storeFile info _) => if info.path = path then some info else none
  | _ => none

end DeviceCommand

/-- The list names the records, and their files are on disk. -/
structure Listed (names : List String) (t : FileTable) (disk : Disk) : Prop where
  names_iff : ∀ name, name ∈ names ↔ name ∈ t.keys
  present : ∀ r ∈ t.list, ∃ content, disk r.path = some content

/-- What holds of the outputs, the records, the disk and the queue: a record that no queued one is
about to replace describes its file, the last queued one does, and the last file list names the
records unless another one is queued. `lists` says that a list can always be sent. -/
structure View (lists : Prop) (place : String → String) (S : Set String)
    (os : List DeviceOutput) (t : FileTable)
    (disk : Disk) (queue : List (DeviceCommand H)) : Prop where
  calls : ∀ call name size hash, .service (.download call name size hash) ∈ os → name ∈ S
  proper : ∀ c ∈ queue, c.Proper place S
  placed : Placed place S t
  followed : Followed (fun c => c.stores = true) (fun c => c.isFileListUpdate = true) queue
  described : ∀ r ∈ t.list, ∀ content, disk r.path = some content →
    queue.filterMap (DeviceCommand.storedAt r.path) = [] → Describes H r content
  latest : ∀ path content, disk path = some content →
    ∀ info ∈ (queue.filterMap (DeviceCommand.storedAt path)).getLast?, Describes H info content
  current : lists → ∀ names ∈ (fileLists os).getLast?,
    (∃ c ∈ queue, c.isFileListUpdate = true) ∨ Listed names t disk

namespace View

variable {lists : Prop} {place : String → String} {S : Set String}
  {os out : List DeviceOutput} {t t' : FileTable}
  {disk disk' : Disk} {c : DeviceCommand H} {queue : List (DeviceCommand H)}

/-- The outputs of a step that sends no file list. -/
structure Unlisted (S : Set String) (out : List DeviceOutput) : Prop where
  lists : out.filterMap DeviceOutput.fileList = []
  calls : ∀ call name size hash, .service (.download call name size hash) ∈ out → name ∈ S

theorem unlisted_nil : Unlisted S [] := ⟨rfl, by simp⟩

theorem fileLists_append (hout : Unlisted S out) : fileLists (os ++ out) = fileLists os := by
  rw [fileLists, List.filterMap_append, hout.lists, List.append_nil]
  rfl

theorem output (h : View lists place S os t disk queue) (hout : Unlisted S out) :
    View lists place S (os ++ out) t disk queue where
  calls := by
    intro call name size hash ho
    rcases List.mem_append.mp ho with ho | ho
    · exact h.calls call name size hash ho
    · exact hout.calls call name size hash ho
  proper := h.proper
  placed := h.placed
  followed := h.followed
  described := h.described
  latest := h.latest
  current := by
    rw [fileLists_append hout]
    exact h.current

theorem describes (h : View lists place S os t disk queue) {r : FileInfo} {content : ByteArray}
    (hr : r ∈ t.list) (hdisk : disk r.path = some content)
    (hnone : ∀ info call, .service (.storeFile info call) ∈ queue → info.path ≠ r.path) :
    Describes H r content := by
  apply h.described r hr content hdisk
  rw [List.filterMap_eq_nil_iff]
  intro c hc
  cases c with
  | service c =>
    cases c with
    | storeFile info call => exact if_neg (hnone info call hc)
    | _ => rfl
  | _ => rfl

theorem storedAt_of_not_stores (hc : c.stores = false) (path : String) :
    c.storedAt path = none := by
  cases c with
  | service c =>
    cases c with
    | storeFile info call => cases hc
    | _ => rfl
  | _ => rfl

/-- Without a queued file list the last one is right, and no record is queued, either. -/
theorem quiet (h : View lists place S os t disk queue) (hlists : lists)
    (hquiet : .service .sendFileListUpdate ∉ queue) {names : List String}
    (hlast : (fileLists os).getLast? = some names) :
    (∀ name, name ∈ names ↔ name ∈ t.keys) ∧
      ∀ r ∈ t.list, ∃ content, disk r.path = some content ∧ Describes H r content := by
  have hupdates : ∀ c ∈ queue, ¬ c.isFileListUpdate = true := by
    intro c hc hupdate
    cases c with
    | service c =>
      cases c with
      | sendFileListUpdate => exact hquiet hc
      | _ => cases hupdate
    | _ => cases hupdate
  have hlisted : Listed names t disk := by
    rcases h.current hlists names hlast with ⟨c, hc, hupdate⟩ | hlisted
    · exact absurd hupdate (hupdates c hc)
    · exact hlisted
  refine ⟨hlisted.names_iff, fun r hr => ?_⟩
  obtain ⟨content, hdisk⟩ := hlisted.present r hr
  refine ⟨content, hdisk, h.described r hr content hdisk ?_⟩
  -- a queued record would have a file list behind it
  rw [List.filterMap_eq_nil_iff]
  intro c hc
  apply storedAt_of_not_stores
  simpa using h.followed.not_mem hupdates c hc

/-- Commands that store no finished upload are pushed. -/
theorem push (h : View lists place S os t disk queue) {cs : List (DeviceCommand H)}
    (hproper : ∀ c ∈ cs, c.Proper place S)
    (hfollowed : Followed (fun c => c.stores = true) (fun c => c.isFileListUpdate = true) cs)
    (hstored : ∀ path, cs.filterMap (DeviceCommand.storedAt path) = []) :
    View lists place S os t disk (queue ++ cs) where
  calls := h.calls
  proper := by
    intro c hc
    rcases List.mem_append.mp hc with hc | hc
    · exact h.proper c hc
    · exact hproper c hc
  placed := h.placed
  followed := h.followed.append hfollowed
  described := by
    intro r hr content hdisk hnone
    rw [List.filterMap_append, hstored, List.append_nil] at hnone
    exact h.described r hr content hdisk hnone
  latest := by
    intro path content hdisk
    rw [List.filterMap_append, hstored, List.append_nil]
    exact h.latest path content hdisk
  current := by
    intro hlists names hnames
    rcases h.current hlists names hnames with ⟨c, hc, hupdate⟩ | hlisted
    · exact .inl ⟨c, List.mem_append_left _ hc, hupdate⟩
    · exact .inr hlisted

/-- A file without a record, in the repository or in the queue, is changed. -/
theorem change (h : View lists place S os t disk queue) {path : String} (content : Option ByteArray)
    (hrecords : ∀ r ∈ t.list, r.path ≠ path)
    (hqueue : queue.filterMap (DeviceCommand.storedAt path) = []) :
    View lists place S os t (Function.update disk path content) queue where
  calls := h.calls
  proper := h.proper
  placed := h.placed
  followed := h.followed
  described := by
    intro r hr
    rw [Function.update_of_ne (hrecords r hr)]
    exact h.described r hr
  latest := by
    intro p
    by_cases hp : p = path
    · subst hp
      simp [hqueue]
    · rw [Function.update_of_ne hp]
      exact h.latest p
  current := by
    intro hlists names hnames
    rcases h.current hlists names hnames with hupdate | hlisted
    · exact .inl hupdate
    · refine .inr ⟨hlisted.names_iff, fun r hr => ?_⟩
      rw [Function.update_of_ne (hrecords r hr)]
      exact hlisted.present r hr

/-- The file of an upload is written and its record is queued. -/
theorem complete (h : View lists place S os t disk queue) {info : FileInfo} {content : ByteArray}
    (call : ℕ) (hproper : info.name ∈ S ∧ info.path = place info.name)
    (hdescribes : Describes H info content) :
    View lists place S os t (Function.update disk info.path (some content))
      (queue ++ [.service (.storeFile info call), .service .sendFileListUpdate]) where
  calls := h.calls
  proper := by
    intro c hc
    rcases List.mem_append.mp hc with hc | hc
    · exact h.proper c hc
    · rcases List.mem_cons.mp hc with rfl | hc
      · exact hproper
      · obtain rfl := List.mem_singleton.mp hc
        trivial
  placed := h.placed
  followed := by
    apply h.followed.append
    simp [Followed, DeviceCommand.stores, DeviceCommand.isFileListUpdate]
  described := by
    intro r hr c hdisk hnone
    have hpath : r.path ≠ info.path := by
      intro he
      simp [List.filterMap_append, DeviceCommand.storedAt, he] at hnone
    rw [Function.update_of_ne hpath] at hdisk
    rw [List.filterMap_append, List.append_eq_nil_iff] at hnone
    exact h.described r hr c hdisk hnone.1
  latest := by
    intro path c hdisk i hi
    by_cases hpath : path = info.path
    · subst hpath
      obtain rfl : content = c := by simpa using hdisk
      have hlast : [DeviceCommand.service (.storeFile info call),
          .service .sendFileListUpdate].filterMap (DeviceCommand.storedAt (H := H) info.path) =
            [info] := by
        simp [DeviceCommand.storedAt]
      rw [List.filterMap_append, hlast, List.getLast?_concat] at hi
      obtain rfl := Option.some.inj hi
      exact hdescribes
    · rw [Function.update_of_ne hpath] at hdisk
      have hsame : [DeviceCommand.service (.storeFile info call),
          .service .sendFileListUpdate].filterMap (DeviceCommand.storedAt (H := H) path) = [] := by
        simp [DeviceCommand.storedAt, Ne.symm hpath]
      rw [List.filterMap_append, hsame, List.append_nil] at hi
      exact h.latest path c hdisk i hi
  current := by
    intro _ names _
    exact .inl ⟨.service .sendFileListUpdate, by simp, rfl⟩

/-- A command that neither stores nor lists leaves everything as it is. -/
theorem take (h : View lists place S os t disk (c :: queue)) (hc : c.stores = false)
    (hupdate : c.isFileListUpdate = false) : View lists place S os t disk queue where
  calls := h.calls
  proper := fun d hd => h.proper d (List.mem_cons_of_mem _ hd)
  placed := h.placed
  followed := h.followed.tail
  described := by
    intro r hr content hdisk hnone
    apply h.described r hr content hdisk
    rw [List.filterMap_cons_none (storedAt_of_not_stores hc r.path), hnone]
  latest := by
    intro path content hdisk info hi
    apply h.latest path content hdisk info
    rwa [List.filterMap_cons_none (storedAt_of_not_stores hc path)]
  current := by
    intro hlists names hnames
    rcases h.current hlists names hnames with ⟨d, hd, hd'⟩ | hlisted
    · rcases List.mem_cons.mp hd with rfl | hd
      · rw [hupdate] at hd'
        cases hd'
      · exact .inl ⟨d, hd, hd'⟩
    · exact .inr hlisted

/-- A command takes records and files away, and an update of the file list is queued. -/
theorem shrink (h : View lists place S os t disk (c :: queue))
    (hstored : ∀ path, c.storedAt path = none) (hrecords : ∀ r ∈ t'.list, r ∈ t.list)
    (hfiles : ∀ path, disk' path = disk path ∨ disk' path = none)
    (hqueued : ∃ c ∈ queue, c.isFileListUpdate = true) : View lists place S os t' disk' queue where
  calls := h.calls
  proper := fun d hd => h.proper d (List.mem_cons_of_mem _ hd)
  placed := fun r hr => h.placed r (hrecords r hr)
  followed := h.followed.tail
  described := by
    intro r hr content hdisk hnone
    rcases hfiles r.path with hp | hp
    · rw [hp] at hdisk
      apply h.described r (hrecords r hr) content hdisk
      rw [List.filterMap_cons_none (hstored r.path), hnone]
    · rw [hp] at hdisk
      cases hdisk
  latest := by
    intro path content hdisk info hi
    rcases hfiles path with hp | hp
    · rw [hp] at hdisk
      apply h.latest path content hdisk info
      rwa [List.filterMap_cons_none (hstored path)]
    · rw [hp] at hdisk
      cases hdisk
  current := fun _ names _ => .inl hqueued

/-- The record of a finished upload is stored. -/
theorem store (hinj : S.InjOn place) {info : FileInfo} {call : ℕ}
    (h : View lists place S os t disk (.service (.storeFile info call) :: queue)) :
    View lists place S os (stored t info) disk queue where
  calls := h.calls
  proper := fun d hd => h.proper d (List.mem_cons_of_mem _ hd)
  placed := by
    obtain ⟨hname, hpath⟩ := h.proper _ List.mem_cons_self
    exact h.placed.stored hname hpath
  followed := h.followed.tail
  described := by
    intro r hr content hdisk hnone
    obtain ⟨hname, hpath⟩ := h.proper _ List.mem_cons_self
    rcases mem_stored hr with rfl | ⟨hr, hne⟩
    · -- the stored record was the last one queued for its file
      apply h.latest r.path content hdisk
      rw [List.filterMap_cons_some (b := r) (by simp [DeviceCommand.storedAt]), hnone]
      rfl
    · have hother : info.path ≠ r.path := by
        intro he
        obtain ⟨hrS, hrpath⟩ := h.placed r hr
        exact hne (hinj hrS hname (by rw [← hrpath, ← hpath, he]))
      apply h.described r hr content hdisk
      rw [List.filterMap_cons_none (by simp [DeviceCommand.storedAt, hother]), hnone]
  latest := by
    intro path content hdisk i hi
    apply h.latest path content hdisk i
    cases hstored :
      (DeviceCommand.service (.storeFile info call) : DeviceCommand H).storedAt path with
    | none => rwa [List.filterMap_cons_none hstored]
    | some j =>
      rw [List.filterMap_cons_some hstored]
      exact List.mem_getLast?_cons hi
  current := fun _ names _ => .inl (h.followed.1 rfl)

/-- The record of a file from a URL is stored. -/
theorem storeUrl {fileUrl fileName filePath hash : String}
    {content : ByteArray}
    (h : View lists place S os t disk (.storeUrlFile fileUrl fileName filePath :: queue))
    (hread : disk filePath = some content)
    (hdescribes : Describes H ⟨fileName, hash, filePath⟩ content) :
    View lists place S os (stored t ⟨fileName, hash, filePath⟩) disk queue where
  calls := h.calls
  proper := fun d hd => h.proper d (List.mem_cons_of_mem _ hd)
  placed := by
    obtain ⟨hname, hpath⟩ := h.proper _ List.mem_cons_self
    exact h.placed.stored hname hpath
  followed := h.followed.tail
  described := by
    intro r hr c hdisk hnone
    rcases mem_stored hr with rfl | ⟨hr, -⟩
    · obtain rfl := Option.some.inj (hread.symm.trans hdisk)
      exact hdescribes
    · exact h.described r hr c hdisk hnone
  latest := h.latest
  current := fun _ names _ => .inl (h.followed.1 rfl)

section

variable {base64Encode : ByteArray → String} {directory : String}
  {readBinaryFileContent : String → Option ByteArray} {filesOnDisk : List String}

/-- The file list is updated and sent. -/
theorem list (hinj : S.InjOn (recordPath H directory))
    (h : View lists (recordPath H directory) S os t disk (.service .sendFileListUpdate :: queue))
    (hdecode : ∀ content,
      H.base64Decode (base64Encode (H.hashSHA256 content)) = H.hashSHA256 content)
    (hread : ∀ path content, readBinaryFileContent path = some content →
      disk (H.absolutePath path) = some content)
    (hfiles : ∀ name ∈ filesOnDisk, name ∈ S ∧ ∃ content,
      disk (recordPath H directory name) = some content)
    (hlists : lists → out.filterMap DeviceOutput.fileList = [(updateFileList H base64Encode
      directory readBinaryFileContent filesOnDisk (some t.keys)).1])
    (hcalls : ∀ call name size hash, .service (.download call name size hash) ∈ out → name ∈ S) :
    View lists (recordPath H directory) S (os ++ out)
      (updatedTable H base64Encode directory readBinaryFileContent filesOnDisk t) disk queue := by
  have hplaced : Placed (recordPath H directory) (handledNames filesOnDisk t) t :=
    fun r hr => ⟨.inl (List.mem_map_of_mem hr), (h.placed r hr).2⟩
  have hused : handledNames filesOnDisk t ⊆ S := by
    rintro name (hname | hname)
    · obtain ⟨r, hr, rfl⟩ := List.mem_map.mp hname
      exact (h.placed r hr).1
    · exact (hfiles name hname).1
  have hinj' := hinj.mono hused
  have hmem {r : FileInfo} (hr : r ∈ (updatedTable H base64Encode directory readBinaryFileContent
      filesOnDisk t).list) := mem_updatedTable hplaced hinj' hr
  have hplaced' : Placed (recordPath H directory) S
      (updatedTable H base64Encode directory readBinaryFileContent filesOnDisk t) := by
    intro r hr
    obtain ⟨hdisk, hold | ⟨content, -, hnew⟩⟩ := hmem hr
    · exact h.placed r hold
    · exact ⟨(hfiles _ hdisk).1, by rw [hnew]; rfl⟩
  constructor
  · intro call name size hash ho
    rcases List.mem_append.mp ho with ho | ho
    · exact h.calls call name size hash ho
    · exact hcalls call name size hash ho
  · exact fun d hd => h.proper d (List.mem_cons_of_mem _ hd)
  · exact hplaced'
  · exact h.followed.tail
  · intro r hr content hdisk hnone
    obtain ⟨-, hold | ⟨c, hc, hnew⟩⟩ := hmem hr
    · exact h.described r hold content hdisk hnone
    · rw [(hplaced' r hr).2] at hdisk
      obtain rfl := Option.some.inj ((hread _ _ hc).symm.trans hdisk)
      rw [hnew]
      exact hdecode c
  · exact h.latest
  · intro hl names hnames
    rw [fileLists, List.filterMap_append, hlists hl, List.getLast?_concat] at hnames
    obtain rfl := Option.some.inj hnames
    refine .inr ⟨fun name => ?_, fun r hr => ?_⟩
    · rw [mem_keys_updatedTable hplaced hinj']
      exact mem_updateFileList
    · rw [(hplaced' r hr).2]
      exact (hfiles _ (hmem hr).1).2

end

end View
end WolkConnect
