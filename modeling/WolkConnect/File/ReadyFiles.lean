import WolkConnect.File.PlatformView
import WolkConnect.Transition.Segment

/-! What the platform may conclude when a file is called ready: it is recorded under that name, with
the announced hash, and the record describes the file. -/
namespace WolkConnect
open Transition Transition.Machine SQLiteFileRepository

variable {H : Host}

namespace DeviceOutput

/-- The file that an answer calls ready. -/
def ready : DeviceOutput → Option String
  | .service (.publishStatus _ (.status fileName .fileReady)) => some fileName
  | .publishUrlStatus (.downloaded _ fileName) => some fileName
  | _ => none

/-- The record has the hash that the platform announced: in the `download` call that is answered,
or in the message at the head of the queue. A download from a URL announces none. -/
def Announced (os : List DeviceOutput) (queue : List (DeviceCommand H)) (r : FileInfo) :
    DeviceOutput → Prop
  | .service (.publishStatus (some call) _) =>
    ∃ size, .service (.download call r.name size r.hash) ∈ os
  | .service (.publishStatus none _) =>
    ∃ size, queue.head? = some (.service (.handle (.fileUploadInitiate r.name size r.hash)))
  | _ => True

theorem ready_cases {o : DeviceOutput} {name : String} (h : o.ready = some name) :
    (∃ call, o = .service (.publishStatus call (.status name .fileReady))) ∨
      ∃ fileUrl, o = .publishUrlStatus (.downloaded fileUrl name) := by
  unfold ready at h
  split at h
  · next call fileName =>
    obtain rfl := Option.some.inj h
    exact .inl ⟨call, rfl⟩
  · next fileUrl fileName =>
    obtain rfl := Option.some.inj h
    exact .inr ⟨fileUrl, rfl⟩
  · cases h

end DeviceOutput

namespace FileDownloadService

variable {s s' : FileDownloadService H} {call : Option ℕ} {name : String}

theorem sendStatus_not_ready {k : Option ℕ} {response : FileUploadStatus}
    (hresponse : response ≠ .status name .fileReady) :
    .publishStatus call (.status name .fileReady) ∉ s.sendStatus k response := by
  intro h
  exact hresponse (Output.publishStatus.inj (sendStatus_mem h)).2.symm

theorem download_not_ready {size : UInt64} {fileName hash : String} :
    .publishStatus call (.status name .fileReady) ∉ (s.download fileName size hash).2 := by
  unfold download
  split
  · split
    · exact sendStatus_not_ready (by simp)
    · exact sendStatus_not_ready (by simp)
  · intro h
    rcases List.mem_append.mp h with h | h
    · exact sendStatus_not_ready (by simp) h
    · simp at h

theorem abort_not_ready {fileName : String} :
    .publishStatus call (.status name .fileReady) ∉ (s.handleFileUploadAbort fileName).2 := by
  unfold handleFileUploadAbort
  split
  · exact sendStatus_not_ready (by simp)
  · unfold abortDownload
    split
    · exact List.not_mem_nil
    · exact sendStatus_not_ready (by simp)

/-- A command calls a file ready after it has stored its record, or where the repository has one
with the announced hash. -/
theorem runCommand_ready {c : ServiceCommand H} {fileInfo : Option FileInfo}
    (h : .publishStatus call (.status name .fileReady) ∈ (s.runCommand c fileInfo).2) :
    (∃ info k, c = .storeFile info k ∧ call = some k ∧ info.name = name) ∨
      ∃ size info, c = .handle (.fileUploadInitiate name size info.hash) ∧ call = none ∧
        fileInfo = some info := by
  cases c with
  | handle message =>
    cases message with
    | binaryData b => cases h
    | fileUploadAbort fileName => exact absurd h abort_not_ready
    | fileUploadInitiate fileName size hash =>
      change _ ∈ (s.handleFileUploadInitiate fileName size hash fileInfo).2 at h
      unfold handleFileUploadInitiate at h
      split_ifs at h
      · exact absurd h (sendStatus_not_ready (by simp))
      · exact absurd h (sendStatus_not_ready (by simp))
      · exact absurd h (sendStatus_not_ready (by simp))
      · exact absurd h (sendStatus_not_ready (by simp))
      cases fileInfo with
      | none => exact absurd h download_not_ready
      | some info =>
        simp only at h
        split_ifs at h with hhash
        · exact absurd h (sendStatus_not_ready (by simp))
        · obtain ⟨rfl, hstatus⟩ := Output.publishStatus.inj (sendStatus_mem h)
          obtain ⟨rfl, -⟩ := FileUploadStatus.status.inj hstatus
          obtain rfl := not_not.mp hhash
          exact .inr ⟨size, info, rfl, rfl, rfl⟩
  | storeFile info k =>
    rcases List.mem_cons.mp h with h | h
    · cases h
    · obtain ⟨rfl, hstatus⟩ := Output.publishStatus.inj (sendStatus_mem h)
      obtain ⟨hname, -⟩ := FileUploadStatus.status.inj hstatus
      exact .inl ⟨info, k, rfl, rfl, hname.symm⟩
  | sendFileListUpdate => simp [runCommand] at h

/-- The callbacks of a downloader call no file ready. -/
theorem effectOutput_not_ready {os : List (Effect Capture)} :
    .publishStatus call (.status name .fileReady) ∉ os.flatMap s.effectOutput := by
  intro h
  obtain ⟨o, -, ho⟩ := List.mem_flatMap.mp h
  cases o with
  | packetProvider k request =>
    simp only [effectOutput, requestPacket] at ho
    split at ho
    · simp at ho
    · cases ho
  | onFail k errorCode =>
    rcases List.mem_cons.mp ho with ho | ho
    · cases ho
    · exact sendStatus_not_ready (by simp) ho
  | _ => simp [effectOutput] at ho

theorem internal_not_ready {e : ServiceEvent H} {os : List Output} (he : e.internal = true)
    (hstep : s.step e = some (s', os)) :
    .publishStatus call (.status name .fileReady) ∉ os := by
  intro h
  cases step_moves hstep with
  | ran fileName created e c rest hf hc => exact effectOutput_not_ready h
  | expired fileName e r hf hr => exact effectOutput_not_ready h
  | swept => cases h
  | _ => cases he

end FileDownloadService

section

variable {W : DeviceConfig H} {S : Set String} {h : DeviceHistory H} {s s' : QueuedDevice H}
  {D D' : Device H} {out : List DeviceOutput} {o : DeviceOutput} {name : String}

theorem Device.serve_ready {c : ServiceCommand H} {fileInfo : Option FileInfo}
    (hserve : D.serve c fileInfo = (D', out)) (ho : o ∈ out) (hready : o.ready = some name) :
    ∃ call, o = .service (.publishStatus call (.status name .fileReady)) ∧
      .publishStatus call (.status name .fileReady) ∈ (D.service.runCommand c fileInfo).2 := by
  obtain ⟨-, rfl⟩ := Prod.mk.inj hserve
  obtain ⟨p, hp, rfl⟩ := List.mem_map.mp ho
  rcases DeviceOutput.ready_cases hready with ⟨call, he⟩ | ⟨fileUrl, he⟩
  · obtain rfl := DeviceOutput.service.inj he
    exact ⟨call, rfl, hp⟩
  · cases he

theorem Device.sendUrlStatus_ready {response : FileUrlDownloadStatus}
    (ho : o ∈ D.sendUrlStatus W response) (hready : o.ready = some name) :
    o = .publishUrlStatus response ∧ ∃ fileUrl, response = .downloaded fileUrl name := by
  unfold sendUrlStatus at ho
  split at ho
  · obtain rfl := List.mem_singleton.mp ho
    rcases DeviceOutput.ready_cases hready with ⟨call, he⟩ | ⟨fileUrl, he⟩
    · cases he
    · exact ⟨rfl, fileUrl, DeviceOutput.publishUrlStatus.inj he⟩
  · cases ho

/-- Only a command of the queue calls a file ready. -/
theorem QueuedDevice.ready_command {ev : DeviceEvent} (hstep : s.step W ev = some (s', out))
    (ho : o ∈ out) (hready : o.ready = some name) : ∃ a, ev = .command a := by
  have hinternal {e : ServiceEvent H} (he : e.internal = true)
      (hstep : (s.device.stepService e).map (fun r =>
        (QueuedDevice.absorb r.1 s.commandBuffer, r.2)) = some (s', out)) : False := by
    obtain ⟨r, hservice, heq⟩ := Option.map_eq_some_iff.mp hstep
    obtain ⟨t, ht, rfl⟩ := Option.map_eq_some_iff.mp hservice
    obtain ⟨-, rfl⟩ := Prod.mk.inj heq
    obtain ⟨p, hp, rfl⟩ := List.mem_map.mp ho
    rcases DeviceOutput.ready_cases hready with ⟨call, he'⟩ | ⟨fileUrl, he'⟩
    · obtain rfl := DeviceOutput.service.inj he'
      exact FileDownloadService.internal_not_ready he ht hp
    · cases he'
  cases ev with
  | command a => exact ⟨a, rfl⟩
  | messageReceived message =>
    simp only [QueuedDevice.step] at hstep
    split at hstep <;> obtain ⟨rfl, rfl⟩ := Prod.mk.inj (Option.some.inj hstep) <;> cases ho
  | downloaderCommand fileName created => exact (hinternal rfl hstep).elim
  | timerExpired fileName => exact (hinternal rfl hstep).elim
  | clearDownloads => exact (hinternal (e := .clearDownloads) rfl hstep).elim
  | urlDownloadFailed fileUrl errorCode =>
    obtain ⟨rfl, rfl⟩ := Prod.mk.inj (Option.some.inj hstep)
    obtain ⟨-, url, he⟩ := Device.sendUrlStatus_ready ho hready
    cases he
  | _ =>
    obtain ⟨rfl, rfl⟩ := Prod.mk.inj (Option.some.inj hstep)
    cases ho

variable {a : DeviceAnswers}

theorem Device.sendFileListUpdate_not_ready (hsent : D.sendFileListUpdate W a = some (D', out))
    (ho : o ∈ out) : o.ready ≠ some name := by
  obtain ⟨repository, -, he⟩ := Option.map_eq_some_iff.mp hsent
  obtain ⟨-, rfl⟩ := Prod.mk.inj he
  obtain ⟨-, ho⟩ := List.mem_ite_nil_right.mp ho
  obtain rfl := List.mem_singleton.mp ho
  simp [DeviceOutput.ready]

/-- The repository has a record of the announced name and hash. -/
theorem ready_of_initiate (E : Surroundings W S) {fileName hash : String} {size : UInt64}
    (hrun : D.runCommand W (.service (.handle (.fileUploadInitiate fileName size hash))) a =
      some (D', out)) (ho : o ∈ out) (hready : o.ready = some name) :
    ∃ r ∈ D'.repository.table.list, r.name = name ∧ fileName = name ∧ hash = r.hash ∧
      o = .service (.publishStatus none (.status name .fileReady)) := by
  have hserve : (D.initiateInfo W.executes fileName size hash).2.serve
      (.handle (.fileUploadInitiate fileName size hash))
      (D.initiateInfo W.executes fileName size hash).1 = (D', out) := Option.some.inj hrun
  obtain ⟨call, rfl, hmem⟩ := Device.serve_ready hserve ho hready
  obtain ⟨rfl, -⟩ := Prod.mk.inj hserve
  rcases FileDownloadService.runCommand_ready hmem with
    ⟨info, k, he, -, -⟩ | ⟨z, info, he, rfl, hinfo⟩
  · cases he
  · obtain ⟨rfl, rfl, rfl⟩ : fileName = name ∧ size = z ∧ hash = info.hash := by simpa using he
    suffices hget : D.repository.table.get fileName = some info ∧
        (D.initiateInfo W.executes fileName size info.hash).2.repository.table =
          D.repository.table by
      obtain ⟨hmem, hname⟩ := Table.Rows.get_eq_some.mp hget.1
      refine ⟨info, ?_, hname, rfl, rfl, rfl⟩
      show info ∈ (D.initiateInfo W.executes fileName size info.hash).2.repository.table.list
      rwa [hget.2]
    rw [Device.initiateInfo] at hinfo ⊢
    split_ifs at hinfo ⊢
    rw [E.executes] at hinfo
    exact ⟨hinfo, rfl⟩

/-- The record of a finished upload is stored first. -/
theorem ready_of_storeFile (E : Surroundings W S) {info : FileInfo} {k : ℕ}
    (hfree : info ∈ (stored D.repository.table info).list)
    (hrun : D.runCommand W (.service (.storeFile info k)) a = some (D', out)) (ho : o ∈ out)
    (hready : o.ready = some name) :
    info ∈ D'.repository.table.list ∧ info.name = name ∧
      o = .service (.publishStatus (some k) (.status name .fileReady)) := by
  obtain ⟨D₁, hD₁, hserve⟩ := Option.map_eq_some_iff.mp hrun
  rw [E.executes] at hD₁
  obtain ⟨-, htable, -⟩ := Device.store_table hD₁
  obtain ⟨call, rfl, hmem⟩ := Device.serve_ready hserve ho hready
  obtain ⟨rfl, -⟩ := Prod.mk.inj hserve
  rcases FileDownloadService.runCommand_ready hmem with
    ⟨i, j, he, rfl, hname⟩ | ⟨z, i, he, -, -⟩
  · obtain ⟨rfl, rfl⟩ : info = i ∧ k = j := by simpa using he
    refine ⟨?_, hname, rfl⟩
    show info ∈ D₁.repository.table.list
    rwa [htable]
  · cases he

/-- So is that of a file from a URL. -/
theorem ready_of_storeUrlFile (E : Surroundings W S) {fileUrl fileName filePath : String}
    (hfree : ∀ hash, ⟨fileName, hash, filePath⟩ ∈
      (stored D.repository.table ⟨fileName, hash, filePath⟩).list)
    (hrun : D.runCommand W (.storeUrlFile fileUrl fileName filePath) a = some (D', out))
    (ho : o ∈ out) (hready : o.ready = some name) :
    ∃ r ∈ D'.repository.table.list, r.name = name ∧
      o = .publishUrlStatus (.downloaded fileUrl name) := by
  simp only [Device.runCommand, Device.storeUrlFile] at hrun
  split at hrun
  · obtain ⟨rfl, rfl⟩ := Prod.mk.inj (Option.some.inj hrun)
    obtain ⟨-, url, he⟩ := Device.sendUrlStatus_ready ho hready
    cases he
  · next content hread =>
    obtain ⟨D₁, hD₁, he⟩ := Option.map_eq_some_iff.mp hrun
    rw [E.executes] at hD₁
    obtain ⟨-, htable, -⟩ := Device.store_table hD₁
    obtain ⟨rfl, rfl⟩ := Prod.mk.inj he
    obtain ⟨rfl, url, he⟩ := Device.sendUrlStatus_ready ho hready
    obtain ⟨rfl, rfl⟩ := FileUrlDownloadStatus.downloaded.inj he
    rw [htable]
    exact ⟨_, hfree _, rfl, rfl⟩

/-- The other commands call no file ready. -/
theorem only_stores_ready {c : DeviceCommand H} (hstores : c.stores = false)
    (hinitiate : ∀ fileName size hash,
      c ≠ .service (.handle (.fileUploadInitiate fileName size hash)))
    (hrun : D.runCommand W c a = some (D', out)) (ho : o ∈ out) : o.ready ≠ some name := by
  intro hready
  have hserved {d : ServiceCommand H} {fileInfo : Option FileInfo}
      (hd : (DeviceCommand.service d).stores = false)
      (hd' : ∀ fileName size hash, d ≠ .handle (.fileUploadInitiate fileName size hash))
      (hserve : D.serve d fileInfo = (D', out)) : False := by
    obtain ⟨call, rfl, hmem⟩ := Device.serve_ready hserve ho hready
    rcases FileDownloadService.runCommand_ready hmem with ⟨i, j, rfl, -, -⟩ | ⟨z, i, rfl, -, -⟩
    · cases hd
    · exact hd' _ _ _ rfl
  have hsent {response : FileUrlDownloadStatus} (hresponse : ∀ fileUrl, response ≠
      .downloaded fileUrl name) (ho : o ∈ D.sendUrlStatus W response) : False := by
    obtain ⟨-, fileUrl, he⟩ := Device.sendUrlStatus_ready ho hready
    exact hresponse fileUrl he
  cases c with
  | service c =>
    cases c with
    | handle message =>
      cases message with
      | fileUploadInitiate fileName size hash => exact hinitiate _ _ _ rfl
      | binaryData b => exact hserved rfl (by simp) (Option.some.inj hrun)
      | fileUploadAbort fileName => exact hserved rfl (by simp) (Option.some.inj hrun)
    | storeFile info call => cases hstores
    | sendFileListUpdate =>
      have hserved : (D.sendFileListUpdate W a).map
          (fun r => (r.1, .service .sendFileListUpdate :: r.2)) = some (D', out) := hrun
      obtain ⟨⟨D₁, sent⟩, hr, he⟩ := Option.map_eq_some_iff.mp hserved
      obtain ⟨-, rfl⟩ := Prod.mk.inj he
      rcases List.mem_cons.mp ho with rfl | ho
      · cases hready
      · exact Device.sendFileListUpdate_not_ready hr ho hready
  | fileDelete fileName =>
    obtain ⟨D₁, -, he⟩ := Option.map_eq_some_iff.mp hrun
    obtain ⟨-, rfl⟩ := Prod.mk.inj he
    cases ho
  | purgeFiles =>
    obtain ⟨-, rfl⟩ := Prod.mk.inj (Option.some.inj hrun)
    cases ho
  | fileUrlDownloadInitiate url =>
    obtain ⟨-, rfl⟩ := Prod.mk.inj (Option.some.inj hrun)
    unfold Device.handleUrlDownloadInitiate at ho
    split_ifs at ho
    · exact hsent (by simp) ho
    · exact hsent (by simp) ho
    · obtain rfl := List.mem_singleton.mp ho
      cases hready
  | fileUrlDownloadAbort url =>
    obtain ⟨-, rfl⟩ := Prod.mk.inj (Option.some.inj hrun)
    unfold Device.handleUrlDownloadAbort at ho
    split_ifs at ho
    · exact hsent (by simp) ho
    · exact hsent (by simp) ho
    · rcases List.mem_cons.mp ho with rfl | ho
      · cases hready
      · exact hsent (by simp) ho
  | storeUrlFile fileUrl fileName filePath => cases hstores

/-- What a command calls ready is in the repository afterwards. -/
theorem ready_recorded (E : Surroundings W S) {os : List DeviceOutput} {c : DeviceCommand H}
    {rest : List (DeviceCommand H)}
    (hv : View W.MakesFileLists W.place S os D.repository.table D.disk (c :: rest))
    (hcalls : ∀ info call, c = .service (.storeFile info call) →
      ∃ size, .service (.download call info.name size info.hash) ∈ os)
    (hrun : D.runCommand W c a = some (D', out)) (ho : o ∈ out) (hready : o.ready = some name) :
    ∃ r ∈ D'.repository.table.list, r.name = name ∧ o.Announced os (c :: rest) r := by
  have hproper := hv.proper c List.mem_cons_self
  have hfree {info : FileInfo} (hname : info.name ∈ S) (hpath : info.path = W.place info.name) :
      info ∈ (stored D.repository.table info).list :=
    (Table.Rows.get_eq_some.mp
      (get_stored_self (hv.placed.not_pathTaken E.distinct hname hpath))).1
  by_cases hinitiate : ∃ fileName size hash,
      c = .service (.handle (.fileUploadInitiate fileName size hash))
  · obtain ⟨fileName, size, hash, rfl⟩ := hinitiate
    obtain ⟨r, hr, rfl, rfl, rfl, rfl⟩ := ready_of_initiate E hrun ho hready
    exact ⟨r, hr, rfl, size, rfl⟩
  by_cases hstores : c.stores = true
  · cases c with
    | service c =>
      cases c with
      | storeFile info call =>
        obtain ⟨hr, hname, rfl⟩ :=
          ready_of_storeFile E (hfree hproper.1 hproper.2) hrun ho hready
        exact ⟨info, hr, hname, hcalls info call rfl⟩
      | _ => cases hstores
    | storeUrlFile fileUrl fileName filePath =>
      obtain ⟨r, hr, hname, rfl⟩ :=
        ready_of_storeUrlFile E (fun hash => hfree hproper.1 hproper.2) hrun ho hready
      exact ⟨r, hr, hname, trivial⟩
    | _ => cases hstores
  · push Not at hinitiate
    exact absurd hready
      (only_stores_ready (Bool.eq_false_of_not_eq_true hstores) hinitiate hrun ho)

/-- The record that waits in the queue is that of a `download` call. -/
theorem queued_call {C : Condition (QueuedDevice H) DeviceEvent DeviceOutput}
    (hrun : (deviceMachine W).Run C h s) {info : FileInfo} {call : ℕ}
    (hq : .service (.storeFile info call) ∈ s.commandBuffer) :
    ∃ size, .service (.download call info.name size info.hash) ∈ outputs h := by
  obtain ⟨k, x, hk, hvisible, hx⟩ := shadow_of_run hrun
  obtain ⟨content, hcompletion⟩ := run_storeFile_completed hk (hx.mem_storeFile hq)
  obtain ⟨size, hcall⟩ := hcompletion.call_mem
  exact ⟨size, mem_outputs_of_visible hvisible hcall rfl⟩

/-- When a file is called ready, the repository has a record of it with the announced hash, and the
record describes the file, unless a newer one is queued for it. -/
theorem ready_files_recorded (E : Surroundings W S)
    {m : Moment (QueuedDevice H) DeviceEvent DeviceOutput}
    (hrun : (deviceMachine W).Run (Regular W S) (h ++ [m]) s) (ho : o ∈ m.output)
    (hready : o.ready = some name) :
    ∃ r ∈ s.device.repository.table.list, r.name = name ∧ r.path = W.place name ∧
      o.Announced (outputs h) m.state.commandBuffer r ∧
        ∀ content, s.device.disk r.path = some content →
          (∀ info call, .service (.storeFile info call) ∈ s.commandBuffer → info.path ≠ r.path) →
            Describes H r content := by
  obtain ⟨hbefore, -, hstep⟩ := hrun.last
  have hv := view_of_run E hbefore
  have hv' := view_of_run E hrun
  obtain ⟨a, ha⟩ := QueuedDevice.ready_command hstep ho hready
  have hcommand : m.state.step W (.command a) = some (s, m.output) := ha ▸ hstep
  simp only [QueuedDevice.step] at hcommand
  split at hcommand
  · cases hcommand
  · next c rest hq =>
    obtain ⟨r, hr, heq⟩ := Option.map_eq_some_iff.mp hcommand
    obtain ⟨rfl, hout⟩ := Prod.mk.inj heq
    rw [hq] at hv ⊢
    rw [← hout] at ho
    have hcalls : ∀ info call, c = .service (.storeFile info call) →
        ∃ size, .service (.download call info.name size info.hash) ∈ outputs h := by
      rintro info call rfl
      exact queued_call hbefore (by rw [hq]; exact List.mem_cons_self)
    obtain ⟨info, hinfo, rfl, hannounced⟩ := ready_recorded E hv hcalls hr ho hready
    refine ⟨info, hinfo, rfl, (hv'.placed info hinfo).2, hannounced, ?_⟩
    intro content hdisk hnone
    exact hv'.describes hinfo hdisk hnone

end

theorem ready_files_recorded_sample : ∃ h m s o,
    (deviceMachine sampleDeviceConfig).Run (Regular sampleDeviceConfig Set.univ) (h ++ [m]) s ∧
      o ∈ m.output ∧ o.ready = some "f" ∧
      ∃ r ∈ s.device.repository.table.list, r.name = "f" ∧ r.path = "/files/f" ∧
        o.Announced (outputs h) m.state.commandBuffer r ∧
          ∀ content, s.device.disk r.path = some content →
            (∀ info call, .service (.storeFile info call) ∈ s.commandBuffer →
              info.path ≠ r.path) → Describes encodingHost r content := by
  obtain ⟨h, s, hr, hs⟩ := (deviceMachine sampleDeviceConfig).exists_run_of_replay Present
    (sampleUpload.take 7)
    (fun h _ => decide (h.getLast?.any (fun m =>
      .service (.publishStatus (some 0) (.status "f" .fileReady)) ∈ m.output) = true))
    (by decide +kernel)
  obtain ⟨m, hm, ho⟩ := (Option.any_eq_true _ _).mp (of_decide_eq_true hs)
  obtain ⟨k, rfl⟩ := List.getLast?_eq_some_iff.mp hm
  have hrun := hr.mono (D := Regular sampleDeviceConfig Set.univ)
    fun _ hpresent => regular_of_present hpresent
  exact ⟨k, m, s, _, hrun, of_decide_eq_true ho, rfl,
    ready_files_recorded sampleDeviceConfig_environment.toSurroundings hrun
      (of_decide_eq_true ho) rfl⟩

end WolkConnect
