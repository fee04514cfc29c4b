import WolkConnect.File.DeviceView

/-! Over every run of the device: the records describe the files, and the file list that was sent
last is the list of the repository whenever no other one is queued. -/
namespace WolkConnect
open Transition Transition.Machine SQLiteFileRepository

variable {H : Host}

/-- Where the service keeps the file of a name. -/
def DeviceConfig.place (W : DeviceConfig H) (name : String) : String :=
  recordPath H W.fileDownloadDirectory name

/-- What the records take for granted of the names in use, of the database, of the utilities, and
of what an earlier process left behind. -/
structure Surroundings (W : DeviceConfig H) (S : Set String) : Prop where
  distinct : S.InjOn W.place
  executes : W.executes = reliable
  decodes : ∀ content,
    H.base64Decode (W.base64Encode (H.hashSHA256 content)) = H.hashSHA256 content
  absolute : ∀ path, H.absolutePath (H.absolutePath path) = H.absolutePath path
  placed : Placed W.place S W.records
  described : ∀ r ∈ W.records.list, ∀ content, W.disk r.path = some content → Describes H r content

/-- What the file lists take for granted. -/
structure Environment (W : DeviceConfig H) (S : Set String) : Prop extends Surroundings W S where
  makesFileList : W.MakesFileLists

/-- The platform and the `UrlFileDownloader` use names of `S`, the latter puts a file at the place
of its name, `listFiles` lists files of the directory, and nobody else touches a file that has a
record or is about to get one. -/
def Regular (W : DeviceConfig H) (S : Set String) :
    Condition (QueuedDevice H) DeviceEvent DeviceOutput :=
  fun _ s ev =>
    match ev with
    | .messageReceived message =>
      ∀ c, FileDownloadService.commandOf W.protocol message = some c → c.Proper W.place S
    | .urlDownloadCompleted _ fileName filePath => fileName ∈ S ∧ filePath = W.place fileName
    | .command a => ∀ name ∈ a.filesOnDisk, name ∈ S ∧
        ∃ content, s.device.disk (W.place name) = some content
    | .fileChanged path _ => (∀ r ∈ s.device.repository.table.list, r.path ≠ H.absolutePath path) ∧
        s.commandBuffer.filterMap (DeviceCommand.storedAt (H.absolutePath path)) = []
    | _ => True

namespace FileDownloadService

/-- Only an initiate message starts a download. -/
theorem runCommand_download {s : FileDownloadService H} {c : ServiceCommand H}
    {fileInfo : Option FileInfo} {call : ℕ} {name hash : String} {size : UInt64}
    (h : .download call name size hash ∈ (s.runCommand c fileInfo).2) :
    c = .handle (.fileUploadInitiate name size hash) := by
  have hstep : { s with commandBuffer := [c] }.step (.serviceCommand fileInfo) =
      some ({ s with commandBuffer := [] }.runCommand c fileInfo) := rfl
  rw [runCommand_behind] at hstep
  have hstatus {t : FileDownloadService H} {k : Option ℕ} {response : FileUploadStatus} :
      Output.download call name size hash ∉ t.sendStatus k response := by
    intro ho
    cases sendStatus_mem ho
  generalize (s.runCommand c fileInfo).2 = out at h hstep
  generalize ({ (s.runCommand c fileInfo).1 with commandBuffer := [] } :
    FileDownloadService H) = t at hstep
  cases step_moves hstep with
  | routed b _ rest e hq he => cases h
  | replied message _ rest _ hq hout =>
    rcases hout with rfl | ⟨response, rfl⟩
    · cases h
    · exact absurd h hstatus
  | started n z g rest hq hreach he =>
    rcases List.mem_append.mp h with h | h
    · exact absurd h hstatus
    · obtain ⟨-, rfl, rfl, rfl⟩ : call = _ ∧ name = n ∧ size = z ∧ hash = g := by simpa using h
      exact (List.cons_eq_cons.mp hq).1
  | aborted n _ rest e hq hname he => exact absurd h hstatus
  | stored info k _ rest hq =>
    rcases List.mem_cons.mp h with h | h
    · cases h
    · exact absurd h hstatus
  | listed _ rest hq => simp at h

end FileDownloadService

section

variable {W : DeviceConfig H} {S : Set String} {h : DeviceHistory H} {s s' : QueuedDevice H}
  {ev : DeviceEvent} {out : List DeviceOutput}

theorem mem_visible {o : Output} (ho : .service o ∈ out) (hvisible : o.visible = some o) :
    o ∈ out.filterMap DeviceOutput.visible := List.mem_filterMap.mpr ⟨_, ho, hvisible⟩

/-- What a proper command starts to download is in use. -/
theorem calls_of_command {a : DeviceAnswers} {D D' : Device H} {c : DeviceCommand H}
    (hc : c.Proper W.place S) (hrun : D.runCommand W c a = some (D', out)) {call : ℕ}
    {name hash : String} {size : UInt64} (ho : .service (.download call name size hash) ∈ out) :
    name ∈ S := by
  cases hd : c.waiting with
  | none =>
    have hvisible := mem_visible ho rfl
    rw [(Device.runCommand_of_not_waiting hd hrun).2] at hvisible
    cases hvisible
  | some d =>
    obtain ⟨fileInfo, -, rfl⟩ := Device.runCommand_of_waiting hd hrun
    obtain ⟨o, ho, he⟩ := List.mem_map.mp ho
    obtain rfl := DeviceOutput.service.inj he
    obtain rfl := FileDownloadService.runCommand_download ho
    obtain rfl : c = .service (.handle (.fileUploadInitiate name size hash)) := by
      cases c with
      | service c =>
        cases c <;> simp_all [DeviceCommand.waiting, ServiceCommand.waiting]
      | _ => cases hd
    exact hc

/-- A command keeps the view. -/
theorem view_command (E : Surroundings W S) {os : List DeviceOutput} {a : DeviceAnswers}
    {D D' : Device H} {c : DeviceCommand H} {rest : List (DeviceCommand H)}
    (hv : View W.MakesFileLists W.place S os D.repository.table D.disk (c :: rest))
    (hdrained : D.service.commandBuffer = [])
    (hdirectory : D.service.fileDownloadDirectory = W.fileDownloadDirectory)
    (hfiles : ∀ name ∈ a.filesOnDisk, name ∈ S ∧ ∃ content, D.disk (W.place name) = some content)
    (hrun : D.runCommand W c a = some (D', out)) :
    View W.MakesFileLists W.place S (os ++ out) D'.repository.table D'.disk
      (rest ++ D'.service.commandBuffer.map .service) := by
  have hproper := hv.proper c List.mem_cons_self
  have hcalls : ∀ call name size hash,
      .service (.download call name size hash) ∈ out → name ∈ S :=
    fun _ _ _ _ ho => calls_of_command hproper hrun ho
  cases Device.commandMoves_of_run E.executes hdrained hrun with
  | kept c D' out hc hupdate htable hdisk hpushed hlist =>
    rw [htable, hdisk, hpushed, List.map_nil, List.append_nil]
    exact (hv.take hc hupdate).output ⟨hlist, hcalls⟩
  | stored info call D' out htable hdisk hpushed hlist =>
    rw [htable, hdisk, hpushed, List.map_nil, List.append_nil]
    exact (hv.store E.distinct).output ⟨hlist, hcalls⟩
  | listed D' out htable hdisk hpushed hlist =>
    rw [htable, hdisk, hpushed, List.map_nil, List.append_nil]
    rw [hdirectory] at hlist ⊢
    exact hv.list E.distinct E.decodes (fun _ _ => Device.readBinaryFileContent_some) hfiles
      hlist hcalls
  | removed c D' out hc hshrinks hpushed hlist =>
    rw [hpushed]
    have hlisted : View W.MakesFileLists W.place S os D.repository.table D.disk
        (c :: (rest ++ [.service .sendFileListUpdate])) := by
      show View W.MakesFileLists W.place S os _ _ (c :: rest ++ [.service .sendFileListUpdate])
      refine hv.push ?_ ?_ ?_
      · intro d hd
        obtain rfl := List.mem_singleton.mp hd
        trivial
      · simp [Followed, DeviceCommand.stores]
      · intro path
        rfl
    refine (hlisted.shrink (View.storedAt_of_not_stores hc) hshrinks.records hshrinks.files
      ?_).output ⟨hlist, hcalls⟩
    exact ⟨.service .sendFileListUpdate, by simp, rfl⟩
  | urlStored fileUrl fileName filePath content D' out hread htable hdisk hpushed hlist =>
    rw [htable, hdisk, hpushed, List.map_nil, List.append_nil]
    obtain ⟨-, hpath⟩ : fileName ∈ S ∧ filePath = W.place fileName := hproper
    have hfile := Device.readBinaryFileContent_some hread
    have habsolute : H.absolutePath filePath = filePath := by
      rw [hpath]
      exact E.absolute _
    rw [habsolute] at hfile
    exact (hv.storeUrl hfile (E.decodes content)).output ⟨hlist, hcalls⟩
  | urlUnreadable fileUrl fileName filePath D' out hshrinks hpushed hlist =>
    rw [hpushed, List.map_nil, List.append_nil]
    exact (hv.shrink (fun _ => rfl) hshrinks.records hshrinks.files (hv.followed.1 rfl)).output
      ⟨hlist, hcalls⟩

/-- A step of the downloaders or the collector keeps the view. -/
theorem view_internal (hrun : (deviceMachine W).Run (Regular W S) h s)
    (hv : View W.MakesFileLists W.place S (outputs h) s.device.repository.table s.device.disk
      s.commandBuffer)
    {e : ServiceEvent H} (he : e.internal = true) {r : Device H × List DeviceOutput}
    (hr : s.device.stepService e = some r) :
    View W.MakesFileLists W.place S (outputs h ++ r.2) r.1.repository.table r.1.disk
      (s.commandBuffer ++ r.1.service.commandBuffer.map .service) := by
  obtain ⟨k, x, hk, hvisible, hx⟩ := shadow_of_run hrun
  obtain ⟨hrepository, hlists, hcalls⟩ := stepService_frame he hr
  have hout : View.Unlisted S r.2 :=
    ⟨hlists, fun call name size hash ho => absurd ho (hcalls call name size hash)⟩
  rw [hrepository]
  apply View.output ?_ hout
  cases internal_moves hx hk hvisible he hr with
  | kept n hpushed hdisk =>
    rw [hdisk, hpushed, List.map_replicate]
    apply hv.push
    · intro c hc
      obtain rfl := List.eq_of_mem_replicate hc
      trivial
    · exact Followed.of_forall fun c hc => by
        obtain rfl := List.eq_of_mem_replicate hc
        simp [DeviceCommand.stores]
    · intro path
      rw [List.filterMap_replicate]
      rfl
  | completed call info content size hcall hpushed hdisk hdigest hpath =>
    rw [hdisk, hpushed]
    exact hv.complete call ⟨hv.calls _ _ _ _ hcall, hpath⟩ hdigest

theorem commandOf_not_stores {message : Message} {c : DeviceCommand H}
    (hc : FileDownloadService.commandOf W.protocol message = some c) : c.stores = false := by
  rcases commandOf_cases hc with ⟨m, rfl⟩ | ⟨hwaiting, hurl⟩
  · rfl
  · cases c with
    | service c =>
      cases c with
      | storeFile info call => cases hwaiting
      | _ => rfl
    | storeUrlFile fileUrl fileName filePath => exact absurd rfl (hurl fileUrl fileName filePath)
    | _ => rfl

/-- A command that stores nothing is pushed. -/
theorem view_push {os : List DeviceOutput} {t : FileTable} {disk : Disk}
    {queue : List (DeviceCommand H)} (hv : View W.MakesFileLists W.place S os t disk queue)
    {c : DeviceCommand H}
    (hproper : c.Proper W.place S) (hc : c.stores = false) :
    View W.MakesFileLists W.place S os t disk (queue ++ [c]) := by
  apply hv.push
  · intro d hd
    obtain rfl := List.mem_singleton.mp hd
    exact hproper
  · simp [Followed, hc]
  · intro path
    rw [List.filterMap_cons_none (View.storedAt_of_not_stores hc path)]
    rfl

theorem followed_urlDownloadCompleted {fileUrl fileName filePath : String} :
    Followed (fun c => c.stores = true) (fun c => c.isFileListUpdate = true)
      [DeviceCommand.storeUrlFile (H := H) fileUrl fileName filePath,
        .service .sendFileListUpdate] := by
  simp [Followed, DeviceCommand.stores, DeviceCommand.isFileListUpdate]

theorem view_of_run (E : Surroundings W S) (hrun : (deviceMachine W).Run (Regular W S) h s) :
    View W.MakesFileLists W.place S (outputs h) s.device.repository.table s.device.disk
      s.commandBuffer := by
  induction hrun with
  | start =>
    constructor
    · simp [outputs]
    · simp [deviceMachine, QueuedDevice.construct]
    · exact E.placed
    · trivial
    · intro r hr content hdisk _
      exact E.described r hr content hdisk
    · simp [deviceMachine, QueuedDevice.construct]
    · simp [outputs, fileLists]
  | @step h s s' ev out hr hc hstep ih =>
    rw [outputs_append, outputs_singleton]
    have hinternal {e : ServiceEvent H} (he : e.internal = true)
        (hstep : (s.device.stepService e).map (fun r =>
          (QueuedDevice.absorb r.1 s.commandBuffer, r.2)) = some (s', out)) :
        View W.MakesFileLists W.place S (outputs h ++ out) s'.device.repository.table s'.device.disk
          s'.commandBuffer := by
      obtain ⟨r, hservice, heq⟩ := Option.map_eq_some_iff.mp hstep
      obtain ⟨rfl, rfl⟩ := Prod.mk.inj heq
      exact view_internal hr ih he hservice
    cases ev with
    | messageReceived message =>
      simp only [QueuedDevice.step, deviceMachine] at hstep
      split at hstep
      · next c hcommand =>
        obtain ⟨rfl, rfl⟩ := Prod.mk.inj (Option.some.inj hstep)
        exact (view_push ih (hc c hcommand) (commandOf_not_stores hcommand)).output
          View.unlisted_nil
      · obtain ⟨rfl, rfl⟩ := Prod.mk.inj (Option.some.inj hstep)
        exact ih.output View.unlisted_nil
    | command a =>
      simp only [QueuedDevice.step, deviceMachine] at hstep
      split at hstep
      · cases hstep
      · next c rest hq =>
        obtain ⟨r, hrun, heq⟩ := Option.map_eq_some_iff.mp hstep
        obtain ⟨rfl, rfl⟩ := Prod.mk.inj heq
        rw [hq] at ih
        exact view_command E ih s.drained (service_directory hr) hc hrun
    | downloaderCommand fileName created => exact hinternal rfl hstep
    | timerExpired fileName => exact hinternal rfl hstep
    | clearDownloads => exact hinternal (e := .clearDownloads) rfl hstep
    | urlDownloadCompleted fileUrl fileName filePath =>
      obtain ⟨rfl, rfl⟩ := Prod.mk.inj (Option.some.inj hstep)
      show View _ _ _ _ _ _ (s.commandBuffer ++ [_] ++ [_])
      rw [List.append_assoc]
      refine (ih.push ?_ followed_urlDownloadCompleted fun path => rfl).output View.unlisted_nil
      intro c hmem
      rcases List.mem_cons.mp hmem with rfl | hmem
      · exact hc
      · obtain rfl := List.mem_singleton.mp hmem
        trivial
    | urlDownloadFailed fileUrl errorCode =>
      obtain ⟨rfl, rfl⟩ := Prod.mk.inj (Option.some.inj hstep)
      refine (view_push (c := .service .sendFileListUpdate) ih trivial rfl).output
        ⟨Device.sendUrlStatus_fileList _, ?_⟩
      intro call name size hash ho
      unfold Device.sendUrlStatus at ho
      split at ho
      · simp at ho
      · cases ho
    | sendFileList =>
      obtain ⟨rfl, rfl⟩ := Prod.mk.inj (Option.some.inj hstep)
      exact (view_push (c := .service .sendFileListUpdate) ih trivial rfl).output View.unlisted_nil
    | getFileInfo fileName =>
      obtain ⟨rfl, rfl⟩ := Prod.mk.inj (Option.some.inj hstep)
      exact ih.output View.unlisted_nil
    | fileChanged path content =>
      obtain ⟨rfl, rfl⟩ := Prod.mk.inj (Option.some.inj hstep)
      exact (ih.change content hc.1 hc.2).output View.unlisted_nil

/-- Every record describes its file as long as no other record is queued for that file. -/
theorem records_describe_files (E : Surroundings W S)
    (hrun : (deviceMachine W).Run (Regular W S) h s) {r : FileInfo} {content : ByteArray}
    (hr : r ∈ s.device.repository.table.list) (hdisk : s.device.disk r.path = some content)
    (hnone : ∀ info call, .service (.storeFile info call) ∈ s.commandBuffer → info.path ≠ r.path) :
    Describes H r content :=
  (view_of_run E hrun).describes hr hdisk hnone

end

theorem sampleDeviceConfig_environment : Environment sampleDeviceConfig Set.univ where
  distinct _ _ _ _ h := sampleHost_recordPath_injective h
  executes := rfl
  makesFileList _ _ := rfl
  decodes _ := sampleDecode_sampleEncode _
  absolute _ := rfl
  placed := by
    intro r hr
    cases hr
  described := by
    intro r hr
    cases hr

/-- A decidable condition that makes a run regular. -/
def Present : Condition (QueuedDevice encodingHost) DeviceEvent DeviceOutput := fun _ s ev =>
  match ev with
  | .messageReceived message => message.channel = "upload" ∨ message.channel = "binary"
  | .command a =>
    ∀ name ∈ a.filesOnDisk, (s.device.disk (sampleDeviceConfig.place name)).isSome = true
  | .downloaderCommand _ _ | .sendFileList | .getFileInfo _ => True
  | _ => False

instance (h : DeviceHistory encodingHost) (s : QueuedDevice encodingHost) (ev : DeviceEvent) :
    Decidable (Present h s ev) :=
  match ev with
  | .messageReceived message =>
    inferInstanceAs (Decidable (message.channel = "upload" ∨ message.channel = "binary"))
  | .command a => inferInstanceAs (Decidable
      (∀ name ∈ a.filesOnDisk, (s.device.disk (sampleDeviceConfig.place name)).isSome = true))
  | .downloaderCommand _ _ | .sendFileList | .getFileInfo _ => isTrue trivial
  | .timerExpired _ | .clearDownloads | .urlDownloadCompleted _ _ _ | .urlDownloadFailed _ _
  | .fileChanged _ _ => isFalse id

theorem regular_of_present {h : DeviceHistory encodingHost} {s : QueuedDevice encodingHost}
    {ev : DeviceEvent} (hpresent : Present h s ev) :
    Regular sampleDeviceConfig Set.univ h s ev := by
  cases ev with
  | messageReceived message =>
    intro c hc
    rcases hpresent with hupload | hbinary
    · simp only [FileDownloadService.commandOf, sampleDeviceConfig, sampleProtocol, hupload] at hc
      obtain rfl := Option.some.inj hc
      trivial
    · simp only [FileDownloadService.commandOf, sampleDeviceConfig, sampleProtocol, hbinary] at hc
      obtain rfl := Option.some.inj hc
      trivial
  | command a =>
    intro name hname
    exact ⟨trivial, Option.isSome_iff_exists.mp (hpresent name hname)⟩
  | downloaderCommand fileName created => trivial
  | sendFileList => trivial
  | getFileInfo fileName => trivial
  | _ => cases hpresent

theorem sampleUpload_run : ∃ h s,
    (deviceMachine sampleDeviceConfig).Run (Regular sampleDeviceConfig Set.univ) h s ∧
      s.device.repository.table.list = [⟨"f", sampleHash, "/files/f"⟩] ∧
      s.device.disk "/files/f" = some [97] ∧ s.commandBuffer = [] ∧
      (fileLists (outputs h)).getLast? = some ["f"] := by
  obtain ⟨h, s, hr, hs⟩ := (deviceMachine sampleDeviceConfig).exists_run_of_replay Present
    sampleUpload
    (fun h s => decide (s.device.repository.table.list = [⟨"f", sampleHash, "/files/f"⟩] ∧
      s.device.disk "/files/f" = some [97] ∧ s.commandBuffer.length = 0 ∧
        (fileLists (outputs h)).getLast? = some ["f"])) (by decide +kernel)
  obtain ⟨hrecords, hdisk, hqueue, hlast⟩ := of_decide_eq_true hs
  exact ⟨h, s, hr.mono fun _ hpresent => regular_of_present hpresent, hrecords, hdisk,
    List.length_eq_zero_iff.mp hqueue, hlast⟩

theorem records_describe_files_sample : ∃ h s,
    (deviceMachine sampleDeviceConfig).Run (Regular sampleDeviceConfig Set.univ) h s ∧
      ⟨"f", sampleHash, "/files/f"⟩ ∈ s.device.repository.table.list ∧
      Describes encodingHost ⟨"f", sampleHash, "/files/f"⟩ [97] := by
  obtain ⟨h, s, hr, hrecords, hdisk, hqueue, -⟩ := sampleUpload_run
  have hmem : ⟨"f", sampleHash, "/files/f"⟩ ∈ s.device.repository.table.list := by
    rw [hrecords]
    exact List.mem_singleton_self _
  refine ⟨h, s, hr, hmem,
    records_describe_files sampleDeviceConfig_environment.toSurroundings hr hmem hdisk ?_⟩
  intro info call hc
  rw [hqueue] at hc
  cases hc

section

variable {W : DeviceConfig H} {S : Set String} {h : DeviceHistory H} {s : QueuedDevice H}

/-- While no file list is queued, the one sent last names exactly the records of the repository,
and the file of every record is on disk with the content that the record describes. -/
theorem platform_view_current (E : Environment W S)
    (hrun : (deviceMachine W).Run (Regular W S) h s)
    (hquiet : .service .sendFileListUpdate ∉ s.commandBuffer) {names : List String}
    (hlast : (fileLists (outputs h)).getLast? = some names) :
    (∀ name, name ∈ names ↔ name ∈ s.device.repository.table.keys) ∧
      ∀ r ∈ s.device.repository.table.list, ∃ content,
        s.device.disk r.path = some content ∧ Describes H r content :=
  (view_of_run E.toSurroundings hrun).quiet E.makesFileList hquiet hlast

end

theorem platform_view_current_sample : ∃ h s,
    (deviceMachine sampleDeviceConfig).Run (Regular sampleDeviceConfig Set.univ) h s ∧
      (fileLists (outputs h)).getLast? = some ["f"] ∧
      (∀ name, name ∈ ["f"] ↔ name ∈ s.device.repository.table.keys) ∧
      ∀ r ∈ s.device.repository.table.list, ∃ content,
        s.device.disk r.path = some content ∧ Describes encodingHost r content := by
  obtain ⟨h, s, hr, -, -, hqueue, hlast⟩ := sampleUpload_run
  refine ⟨h, s, hr, hlast, platform_view_current sampleDeviceConfig_environment hr ?_ hlast⟩
  rw [hqueue]
  exact List.not_mem_nil

end WolkConnect
