import WolkConnect.File.FileList
import WolkConnect.File.Integrity

/-! What becomes of a finished transfer: the record that is stored when `FILE_READY` is
published, and the next update of the file list. -/
namespace WolkConnect
open Transition Transition.Machine SQLiteFileRepository

/-- The names that a directory can list: not empty, not `.` or `..`, without `/` and zero. -/
def PlainName (name : String) : Prop :=
  name ≠ "" ∧ name ≠ "." ∧ name ≠ ".." ∧ ∀ c ∈ name.toList, c ≠ '/' ∧ c ≠ Char.ofNat 0

instance (name : String) : Decidable (PlainName name) :=
  letI : Decidable (∀ c ∈ name.toList, c ≠ '/' ∧ c ≠ Char.ofNat 0) := List.decidableBAll _ _
  inferInstanceAs (Decidable (_ ∧ _ ∧ _ ∧ ∀ c ∈ name.toList, c ≠ '/' ∧ c ≠ Char.ofNat 0))

/-- The directory lists plain names only, among them the file saved under `name` if its
name is plain. -/
structure Lists (name : String) (filesOnDisk : List String) : Prop where
  plain : ∀ n ∈ filesOnDisk, PlainName n
  saved : PlainName name → name ∈ filesOnDisk

/-- A call that does not delete the file of the record: it removes another name, or stores
another name or another record of the same file. -/
def Spares (info : FileInfo) : RepositoryCall → Prop
  | .remove fileName => fileName ≠ info.name
  | .store i => i.name = info.name → i.path = info.path

/-- The record is there with the announced hash, and after any calls that spare it the next
update lists its name and keeps it, whatever else the directory holds. -/
structure RecordedAndListed (H : Host) (base64Encode : ByteArray → String) (directory : String)
    (s : Session) (info : FileInfo) : Prop where
  recorded : ∃ r, (getFileInfo reliable s info.name).1 = some r ∧ r.hash = info.hash
  listed : ∀ calls, (∀ c ∈ calls, Spares info c) →
    ∀ fuel u, performAll reliable (fuel + 2) s calls = some u →
    ∀ filesOnDisk, Lists info.name filesOnDisk → ∀ readBinaryFileContent,
      let update := updateFileList H base64Encode directory readBinaryFileContent filesOnDisk
        (some (getAllFileNames reliable u).1)
      info.name ∈ update.1 ∧ .remove info.name ∉ update.2 ∧
        ∃ v r, performAll reliable (fuel + 2) u update.2 = some v ∧
          (getFileInfo reliable u info.name).1 = some r ∧
          (getFileInfo reliable v info.name).1 = some r

section

variable {H : Host} {base64Encode : ByteArray → String} {directory : String} {s : Session}
  {info : FileInfo} {t : FileTable}

/-- No other name has the path of a record. -/
theorem not_pathTaken_of_get {i r : FileInfo} (hr : t.get i.name = some r)
    (hpath : i.path = r.path) : ¬ PathTaken t i := by
  obtain ⟨hmem, hname⟩ := Table.Rows.get_eq_some.mp hr
  rintro ⟨q, hq, hne, he⟩
  have : q = r := Table.Rows.eq_of_column hq hmem (he.trans hpath)
  exact hne (this ▸ hname)

/-- Calls that spare a record leave one for its name and file. -/
theorem spares_foldl {calls : List RepositoryCall} (hcalls : ∀ c ∈ calls, Spares info c)
    (ht : ∃ r, t.get info.name = some r ∧ r.path = info.path) :
    ∃ r, (calls.foldl performed t).get info.name = some r ∧ r.path = info.path := by
  induction calls generalizing t with
  | nil => exact ht
  | cons c calls ih =>
    have hc := hcalls c List.mem_cons_self
    apply ih fun d hd => hcalls d (List.mem_cons_of_mem _ hd)
    obtain ⟨r, hr, hpath⟩ := ht
    cases c with
    | remove fileName =>
      refine ⟨r, ?_, hpath⟩
      rw [performed, Table.Rows.get_delete_ne (Ne.symm hc), hr]
    | store i =>
      by_cases hname : i.name = info.name
      · have hi : i.path = info.path := hc hname
        have hfree : ¬ PathTaken t i :=
          not_pathTaken_of_get (r := r) (by rw [hname, hr]) (hi.trans hpath.symm)
        refine ⟨i, ?_, hi⟩
        rw [performed, ← hname]
        exact get_stored_self hfree
      · refine ⟨r, ?_, hpath⟩
        rw [performed, get_stored_ne (Ne.symm hname), hr]

theorem recordedAndListed_of_free {issued : ℕ} (hplain : PlainName info.name)
    (hfree : ¬ PathTaken t info) :
    RecordedAndListed H base64Encode directory ⟨stored t info, issued⟩ info := by
  have hget : (stored t info).get info.name = some info := get_stored_self hfree
  constructor
  · exact ⟨info, hget, rfl⟩
  · intro calls hcalls fuel u hu filesOnDisk hdisk readBinaryFileContent update
    obtain ⟨r, hr, hpath⟩ := spares_foldl hcalls ⟨info, hget, rfl⟩
    obtain ⟨n, hn⟩ := performAll_reliable ⟨stored t info, issued⟩ calls fuel
    obtain rfl := Option.some.inj (hu.symm.trans hn)
    have hname : info.name ∈ (calls.foldl performed (stored t info)).keys :=
      Table.Rows.mem_keys.mpr ⟨r, hr⟩
    have hsaved := hdisk.saved hplain
    refine ⟨mem_updateFileList.mpr ⟨hsaved, .inl hname⟩, ?_, ?_⟩
    · intro hremove
      rw [updateFileList_calls] at hremove
      simp [hsaved] at hremove
    · obtain ⟨m, hm⟩ := performAll_reliable ⟨calls.foldl performed (stored t info), n⟩ update.2 fuel
      refine ⟨_, r, hm, hr, ?_⟩
      have hkept : (updatedTable H base64Encode directory readBinaryFileContent filesOnDisk
          (calls.foldl performed (stored t info))).get info.name =
            if info.name ∈ filesOnDisk then (calls.foldl performed (stored t info)).get info.name
              else none :=
        get_updatedTable_of_not_new (.inl hname)
      rw [if_pos hsaved, hr] at hkept
      exact hkept

theorem plain_and_free_of_recordedAndListed {issued : ℕ}
    (h : RecordedAndListed H base64Encode directory ⟨stored t info, issued⟩ info) :
    PlainName info.name ∧ ¬ PathTaken t info := by
  constructor
  · by_contra hplain
    obtain ⟨hlist, -⟩ := h.listed [] (by simp) 0 _ rfl [] ⟨by simp, fun hp => absurd hp hplain⟩
      fun _ => none
    simpa using (mem_updateFileList.mp hlist).1
  · intro htaken
    obtain ⟨r, hr, -⟩ := h.recorded
    rw [getFileInfo_reliable, stored_of_pathTaken htaken, Table.Rows.get_delete_self] at hr
    cases hr

end

variable {H : Host} {deviceKey directory : String} {maxPacketSize : UInt64}
  {h : ServiceHistory H} {s s' : FileDownloadService H} {ev : ServiceEvent H} {out : List Output}

/-- Whenever a download is answered with `FILE_READY`, its record is stored with it, for the
name and the hash that were announced; it is there and its name is listed exactly when the
name is plain and the repository has no record of another name with the path of the file. -/
theorem finished_transfer_listed_iff (base64Encode : ByteArray → String) (repository : Session)
    (fuel : ℕ) (hrun : (fileDownloadMachine H deviceKey directory maxPacketSize).Run Free h s)
    (hstep : s.step ev = some (s', out)) {call : ℕ} {name : String}
    (hready : .publishStatus (some call) (.status name .fileReady) ∈ out) :
    ∃ info, info.name = name ∧ .store info ∈ out ∧ info.path = recordPath H directory name ∧
      (∃ size, .download call name size info.hash ∈ outputs h) ∧
      ∃ repository', store reliable (fuel + 2) repository info = some repository' ∧
        (RecordedAndListed H base64Encode directory repository' info ↔
          PlainName name ∧ ¬ PathTaken repository.table info) := by
  obtain ⟨info, content, rfl, hs, hc⟩ := run_fileReady_completed hrun hstep hready
  obtain ⟨issued, hstored⟩ := store_reliable repository info fuel
  refine ⟨info, rfl, hs, hc.path_eq, hc.call_mem, _, hstored, ?_⟩
  constructor
  · exact plain_and_free_of_recordedAndListed
  · rintro ⟨hplain, hfree⟩
    exact recordedAndListed_of_free hplain hfree

/-- The next command of the service answers the first download of `name` with `FILE_READY`. -/
def readyNext (name : String) (s : FileDownloadService sampleHost) : Bool :=
  (s.step (.serviceCommand none)).any fun r =>
    decide (.publishStatus (some 0) (.status name .fileReady) ∈ r.2)

theorem finished_transfer_listed_iff_sample : ∃ h s s' out info repository',
    sampleService.Run Free h s ∧ s.step (.serviceCommand none) = some (s', out) ∧
      .store info ∈ out ∧ store reliable 2 ⟨.empty, 0⟩ info = some repository' ∧
      RecordedAndListed sampleHost (fun _ => sampleHash) "/files" repository' info := by
  obtain ⟨h, s, hr, hp⟩ := sampleService.exists_run_of_replay Free
    (sampleTransfer ++ [.downloaderCommand "f" true]) (fun _ s => readyNext "f" s)
    (by decide +kernel)
  obtain ⟨⟨s', out⟩, hstep, ho⟩ := (Option.any_eq_true _ _).mp hp
  obtain ⟨info, hname, hstore, -, -, repository', hs, hiff⟩ :=
    finished_transfer_listed_iff (fun _ => sampleHash) ⟨.empty, 0⟩ 0 hr hstep (of_decide_eq_true ho)
  refine ⟨h, s, s', out, info, repository', hr, hstep, hstore, hs, hiff.mpr ⟨by decide +kernel, ?_⟩⟩
  rintro ⟨r, hr, -⟩
  cases hr

/-- The one-byte file is announced as `sub/f`. -/
def nestedTransfer : List (ServiceEvent sampleHost) :=
  [.messageReceived (.fileUploadInitiate "sub/f" 1 sampleHash), .serviceCommand none,
    .downloaderCommand "sub/f" true,
    .messageReceived (.binaryData (sampleHost.packet firstPreviousHash [97])),
    .serviceCommand none, .downloaderCommand "sub/f" true]

/-- The record of a file in a subdirectory is removed by the next update of the file list. -/
theorem nested_file_not_listed : ∃ h s s' out info, sampleService.Run Free h s ∧
    s.step (.serviceCommand none) = some (s', out) ∧ .store info ∈ out ∧
      .publishStatus (some 0) (.status "sub/f" .fileReady) ∈ out ∧
      ∀ base64Encode repository repository' fuel,
        store reliable (fuel + 2) repository info = some repository' →
          ¬ RecordedAndListed sampleHost base64Encode "/files" repository' info := by
  obtain ⟨h, s, hr, hp⟩ := sampleService.exists_run_of_replay Free nestedTransfer
    (fun _ s => readyNext "sub/f" s) (by decide +kernel)
  obtain ⟨⟨s', out⟩, hstep, ho⟩ := (Option.any_eq_true _ _).mp hp
  have hready := of_decide_eq_true ho
  obtain ⟨info, -, hname, hs, -⟩ := run_fileReady_completed hr hstep hready
  refine ⟨h, s, s', out, info, hr, hstep, hs, hready, ?_⟩
  intro base64Encode repository repository' fuel hstore hlisted
  obtain ⟨issued, hstored⟩ := store_reliable repository info fuel
  obtain rfl := Option.some.inj (hstore.symm.trans hstored)
  have hplain := (plain_and_free_of_recordedAndListed hlisted).1
  rw [hname] at hplain
  exact absurd hplain (by decide +kernel)

end WolkConnect
