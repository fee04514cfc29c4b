import WolkConnect.File.DeviceWrites

/-! Where the records come from: whatever statements of the database fail and whoever else writes
files, no record is made up. -/
namespace WolkConnect
open Transition Transition.Machine SQLiteFileRepository

namespace SQLiteFileRepository

variable {executes : Outcomes} {s s' : Session} {info r : FileInfo} {fuel : ℕ}

/-- However its statements end, `store` adds no other record than its own. -/
theorem mem_store (h : store executes fuel s info = some s') (hr : r ∈ s'.table.list) :
    r = info ∨ r ∈ s.table.list := by
  induction fuel generalizing s with
  | zero => cases h
  | succ fuel ih =>
    simp only [store] at h
    split at h
    · rcases ih h with hown | hold
      · exact .inl hown
      · have hkept := mem_remove hold
        exact .inr hkept
    · split at h <;> obtain rfl := Option.some.inj h
      · exact Table.Rows.mem_insert hr
      · exact .inr hr

theorem mem_performAll {calls : List RepositoryCall}
    (h : performAll executes fuel s calls = some s') (hr : r ∈ s'.table.list) :
    .store r ∈ calls ∨ r ∈ s.table.list := by
  induction calls generalizing s with
  | nil =>
    obtain rfl := Option.some.inj h
    exact .inr hr
  | cons c calls ih =>
    rw [performAll, List.foldlM_cons] at h
    obtain ⟨t, ht, hrest⟩ := Option.bind_eq_some_iff.mp h
    rcases ih hrest with hlater | hold
    · exact .inl (List.mem_cons_of_mem _ hlater)
    · cases c with
      | remove fileName =>
        obtain rfl := Option.some.inj ht
        exact .inr (mem_remove hold)
      | store info =>
        rcases mem_store ht hold with rfl | hold
        · exact .inl List.mem_cons_self
        · exact .inr hold

end SQLiteFileRepository

variable {H : Host}

/-- An update of the file list stores records of files that it has read. -/
theorem store_mem_updateFileList {base64Encode : ByteArray → String} {directory : String}
    {readBinaryFileContent : String → Option ByteArray} {filesOnDisk filesInRepo : List String}
    {r : FileInfo} (h : .store r ∈ (updateFileList H base64Encode directory readBinaryFileContent
      filesOnDisk (some filesInRepo)).2) :
    ∃ content, readBinaryFileContent (H.composePath r.name directory) = some content ∧
      r = newFileInfo H base64Encode directory (r.name, content) := by
  rw [updateFileList_calls] at h
  rcases List.mem_append.mp h with h | h
  · obtain ⟨name, -, hname⟩ := List.mem_map.mp h
    cases hname
  · obtain ⟨info, hinfo, he⟩ := List.mem_map.mp h
    obtain rfl := RepositoryCall.store.inj he
    obtain ⟨⟨name, content⟩, hnew, rfl⟩ := List.mem_map.mp hinfo
    exact ⟨content, (mem_newFiles.mp hnew).2.2, rfl⟩

/-- The command stores the record if it can read this path. -/
inductive DeviceCommand.ReadsFor (directory : String) (r : FileInfo) :
    DeviceCommand H → String → Prop where
  | list (hpath : r.path = recordPath H directory r.name) :
      ReadsFor directory r (.service .sendFileListUpdate) (H.composePath r.name directory)
  | url (fileUrl : String) : ReadsFor directory r (.storeUrlFile fileUrl r.name r.path) r.path

/-- The origin of a record: an earlier process, an upload that was announced with its hash and
written with that digest, or a command of the service that read its file, whose content it then
described. -/
inductive Origin (W : DeviceConfig H) (h : List (Moment (QueuedDevice H) DeviceEvent DeviceOutput))
    (r : FileInfo) : Prop where
  | initial (hr : r ∈ W.records.list)
  | uploaded (call : ℕ) (size : UInt64) (content : ByteArray)
      (hcall : .service (.download call r.name size r.hash) ∈ outputs h)
      (hwrite : .service (.createBinaryFileWithContent
        (H.composePath r.name W.fileDownloadDirectory) content true) ∈ outputs h)
      (hdescribes : H.base64Decode r.hash = H.hashSHA256 content)
      (hpath : r.path = recordPath H W.fileDownloadDirectory r.name)
  | read (m : Moment (QueuedDevice H) DeviceEvent DeviceOutput) (a : DeviceAnswers)
      (c : DeviceCommand H) (rest : List (DeviceCommand H)) (path : String) (content : ByteArray)
      (hm : m ∈ h) (hevent : m.event = .command a) (hq : m.state.commandBuffer = c :: rest)
      (hreads : c.ReadsFor W.fileDownloadDirectory r path)
      (hread : m.state.device.readBinaryFileContent a.opens path = some content)
      (hdisk : m.state.device.disk (H.absolutePath r.path) = some content)
      (hdescribes : H.base64Decode r.hash = H.hashSHA256 content)

section

variable {W : DeviceConfig H} {h k : List (Moment (QueuedDevice H) DeviceEvent DeviceOutput)}
  {s s' : QueuedDevice H} {D D' : Device H} {r : FileInfo} {a : DeviceAnswers}
  {c : DeviceCommand H} {out : List DeviceOutput}

theorem Origin.mono (ho : Origin W h r) (hsub : h ⊆ k) : Origin W k r := by
  have houtputs : outputs h ⊆ outputs k := by
    intro o ho
    obtain ⟨m, hm, ho⟩ := List.mem_flatMap.mp ho
    exact List.mem_flatMap.mpr ⟨m, hsub hm, ho⟩
  cases ho with
  | initial hr => exact .initial hr
  | uploaded call size content hcall hwrite hdescribes hpath =>
    exact .uploaded call size content (houtputs hcall) (houtputs hwrite) hdescribes hpath
  | read m a c rest path content hm hevent hq hreads hread hdisk hdescribes =>
    exact .read m a c rest path content (hsub hm) hevent hq hreads hread hdisk hdescribes

/-- A record that waits in the queue is that of an upload. -/
theorem origin_of_queued {C : Condition (QueuedDevice H) DeviceEvent DeviceOutput}
    (hrun : (deviceMachine W).Run C h s) {call : ℕ}
    (hq : .service (.storeFile r call) ∈ s.commandBuffer) : Origin W h r := by
  obtain ⟨k, x, hk, hvisible, hx⟩ := shadow_of_run hrun
  obtain ⟨content, hcompletion⟩ := run_storeFile_completed hk (hx.mem_storeFile hq)
  obtain ⟨size, hcall⟩ := hcompletion.call_mem
  exact .uploaded call size content (mem_outputs_of_visible hvisible hcall rfl)
    (mem_outputs_of_visible hvisible hcompletion.write_mem rfl) hcompletion.digest.symm
    hcompletion.path_eq

/-- A record after a command was there before, comes from the command, or describes a file that the
command has read. -/
theorem record_of_command (hencode : ∀ content,
      H.base64Decode (W.base64Encode (H.hashSHA256 content)) = H.hashSHA256 content)
    (habsolute : ∀ path, H.absolutePath (H.absolutePath path) = H.absolutePath path)
    (hrun : D.runCommand W c a = some (D', out)) (hr : r ∈ D'.repository.table.list) :
    r ∈ D.repository.table.list ∨ (∃ call, c = .service (.storeFile r call)) ∨
      ∃ path content, c.ReadsFor D.service.fileDownloadDirectory r path ∧
        D.readBinaryFileContent a.opens path = some content ∧
        D.disk (H.absolutePath r.path) = some content ∧
        H.base64Decode r.hash = H.hashSHA256 content := by
  cases c with
  | service c =>
    cases c with
    | handle message =>
      refine .inl ?_
      cases message with
      | fileUploadInitiate name size hash =>
        obtain ⟨rfl, -⟩ := Prod.mk.inj (Option.some.inj hrun)
        change r ∈ (D.initiateInfo W.executes name size hash).2.repository.table.list at hr
        unfold Device.initiateInfo at hr
        split at hr <;> exact hr
      | binaryData b =>
        obtain ⟨rfl, -⟩ := Prod.mk.inj (Option.some.inj hrun)
        exact hr
      | fileUploadAbort name =>
        obtain ⟨rfl, -⟩ := Prod.mk.inj (Option.some.inj hrun)
        exact hr
    | storeFile info call =>
      obtain ⟨E, hE, he⟩ := Option.map_eq_some_iff.mp hrun
      obtain ⟨repository, hstore, rfl⟩ := Option.map_eq_some_iff.mp hE
      obtain ⟨rfl, -⟩ := Prod.mk.inj he
      rcases mem_store hstore hr with rfl | hold
      · exact .inr (.inl ⟨call, rfl⟩)
      · exact .inl hold
    | sendFileListUpdate =>
      obtain ⟨⟨E, sent⟩, hE, he⟩ := Option.map_eq_some_iff.mp hrun
      obtain ⟨repository, hperform, hE⟩ := Option.map_eq_some_iff.mp hE
      obtain ⟨rfl, -⟩ := Prod.mk.inj hE
      obtain ⟨rfl, -⟩ := Prod.mk.inj he
      rcases mem_performAll hperform hr with hstored | hold
      · obtain ⟨content, hread, heq⟩ := store_mem_updateFileList hstored
        have hdisk := Device.readBinaryFileContent_some hread
        have hpath := congrArg FileInfo.path heq
        have hhash := congrArg FileInfo.hash heq
        refine .inr (.inr ⟨_, content, .list hpath, hread, ?_, ?_⟩)
        · rw [hpath]
          show D.disk (H.absolutePath (recordPath H _ r.name)) = some content
          rw [recordPath, habsolute]
          exact hdisk
        · rw [hhash]
          exact hencode content
      · exact .inl hold
  | fileDelete name =>
    obtain ⟨E, hE, he⟩ := Option.map_eq_some_iff.mp hrun
    obtain ⟨rfl, -⟩ := Prod.mk.inj he
    exact .inl ((Device.shrinks_handleFileDelete hE).records r hr)
  | purgeFiles =>
    obtain ⟨rfl, -⟩ := Prod.mk.inj (Option.some.inj hrun)
    exact .inl ((Device.shrinks_handleFilePurge D).records r hr)
  | fileUrlDownloadInitiate url =>
    obtain ⟨rfl, -⟩ := Prod.mk.inj (Option.some.inj hrun)
    exact .inl hr
  | fileUrlDownloadAbort url =>
    obtain ⟨rfl, -⟩ := Prod.mk.inj (Option.some.inj hrun)
    exact .inl hr
  | storeUrlFile fileUrl fileName filePath =>
    simp only [Device.runCommand, Device.storeUrlFile] at hrun
    split at hrun
    · obtain ⟨rfl, -⟩ := Prod.mk.inj (Option.some.inj hrun)
      refine .inl ?_
      split_ifs at hr <;> exact hr
    · next content hread =>
      obtain ⟨E, hE, he⟩ := Option.map_eq_some_iff.mp hrun
      obtain ⟨repository, hstore, rfl⟩ := Option.map_eq_some_iff.mp hE
      obtain ⟨rfl, -⟩ := Prod.mk.inj he
      rcases mem_store hstore hr with rfl | hold
      · exact .inr (.inr ⟨_, content, .url fileUrl, hread, Device.readBinaryFileContent_some hread,
          hencode content⟩)
      · exact .inl hold

/-- The records change by commands alone. -/
theorem records_of_event {ev : DeviceEvent} (hev : ∀ a, ev ≠ .command a)
    (hstep : s.step W ev = some (s', out)) :
    s'.device.repository.table = s.device.repository.table := by
  have hinternal {e : ServiceEvent H} (he : e.internal = true)
      (hstep : (s.device.stepService e).map (fun r =>
        (QueuedDevice.absorb r.1 s.commandBuffer, r.2)) = some (s', out)) :
      s'.device.repository.table = s.device.repository.table := by
    obtain ⟨r, hservice, heq⟩ := Option.map_eq_some_iff.mp hstep
    obtain ⟨rfl, -⟩ := Prod.mk.inj heq
    have hsame := (stepService_frame he hservice).1
    exact congrArg Session.table hsame
  cases ev with
  | command a => exact absurd rfl (hev a)
  | messageReceived message =>
    simp only [QueuedDevice.step] at hstep
    split at hstep <;> obtain ⟨rfl, -⟩ := Prod.mk.inj (Option.some.inj hstep) <;> rfl
  | downloaderCommand fileName created => exact hinternal rfl hstep
  | timerExpired fileName => exact hinternal rfl hstep
  | clearDownloads => exact hinternal (e := .clearDownloads) rfl hstep
  | _ =>
    obtain ⟨rfl, -⟩ := Prod.mk.inj (Option.some.inj hstep)
    rfl

/-- Whatever statements of the database fail, whatever the `UrlFileDownloader` reports and whoever
else changes files: no record is made up. -/
theorem records_have_origins (hencode : ∀ content,
      H.base64Decode (W.base64Encode (H.hashSHA256 content)) = H.hashSHA256 content)
    (habsolute : ∀ path, H.absolutePath (H.absolutePath path) = H.absolutePath path)
    (hrun : (deviceMachine W).Run Free h s) (hr : r ∈ s.device.repository.table.list) :
    Origin W h r := by
  induction hrun with
  | start => exact .initial hr
  | @step h s s' ev out hbefore _ hstep ih =>
    have hkept (hold : r ∈ s.device.repository.table.list) : Origin W (h ++ [⟨s, ev, out⟩]) r :=
      (ih hold).mono (List.subset_append_left _ _)
    by_cases hev : ∃ a, ev = .command a
    · obtain ⟨a, rfl⟩ := hev
      simp only [QueuedDevice.step, deviceMachine] at hstep
      split at hstep
      · cases hstep
      · next c rest hq =>
        obtain ⟨⟨D', ds⟩, hcommand, heq⟩ := Option.map_eq_some_iff.mp hstep
        obtain ⟨rfl, rfl⟩ := Prod.mk.inj heq
        rcases record_of_command hencode habsolute hcommand hr with
          hold | ⟨call, rfl⟩ | ⟨path, content, hreads, hread, hdisk, hdescribes⟩
        · exact hkept hold
        · have hqueued : .service (.storeFile r call) ∈ s.commandBuffer := by simp [hq]
          exact (origin_of_queued hbefore hqueued).mono (List.subset_append_left _ _)
        · rw [service_directory hbefore] at hreads
          exact .read ⟨s, .command a, ds⟩ a c rest path content
            (List.mem_append_right _ List.mem_cons_self) rfl hq hreads hread hdisk hdescribes
    · push Not at hev
      apply hkept
      rwa [← records_of_event hev hstep]

end

/-- The first statement of the database fails, so the repository seems not to have the file. -/
theorem records_have_origins_sample : ∃ h s,
    (deviceMachine { sampleDeviceConfig with executes := fun n => decide (n ≠ 0) }).Run Free h s ∧
      ⟨"f", sampleHash, "/files/f"⟩ ∈ s.device.repository.table.list ∧
      Origin { sampleDeviceConfig with executes := fun n => decide (n ≠ 0) } h
        ⟨"f", sampleHash, "/files/f"⟩ := by
  obtain ⟨h, s, hrun, hs⟩ := (deviceMachine
      { sampleDeviceConfig with executes := fun n => decide (n ≠ 0) }).exists_run_of_replay Free
    sampleUpload
    (fun _ s => decide (⟨"f", sampleHash, "/files/f"⟩ ∈ s.device.repository.table.list))
    (by decide +kernel)
  have hmem := of_decide_eq_true hs
  exact ⟨h, s, hrun, hmem,
    records_have_origins (fun _ => sampleDecode_sampleEncode _) (fun _ => rfl) hrun hmem⟩

end WolkConnect
