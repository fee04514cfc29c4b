import WolkConnect.File.ServiceSteps

/-! Integrity of stored files: what `downloadCompleted` reports was written in the same
command, has the announced digest and belongs to one `download` call. -/
namespace WolkConnect
open Transition Transition.Machine

abbrev ServiceHistory (H : Host) :=
  List (Moment (FileDownloadService H) (ServiceEvent H) Output)

namespace FileDownloadService

variable {H : Host} {s s' : FileDownloadService H}

theorem sendStatus_mem {call : Option ℕ} {response : FileUploadStatus} {o : Output}
    (ho : o ∈ s.sendStatus call response) : o = .publishStatus call response := by
  unfold sendStatus at ho
  split at ho
  · exact List.mem_singleton.mp ho
  · cases ho

/-- Where an output of a step can come from, one case for each kind of output. -/
inductive Emits (s s' : FileDownloadService H) (out : List Output) : Output → Prop where
  | reply (response) : Emits s s' out (.publishStatus none response)
  | transfer (name) : Emits s s' out (.publishStatus (some s.calls) (.status name .fileTransfer))
  | download (name size hash) (hcalls : s'.calls = s.calls + 1)
      (hout : out = s.sendStatus (some s.calls) (.status name .fileTransfer) ++
        [.download s.calls name size hash]) : Emits s s' out (.download s.calls name size hash)
  | aborted (name call) : Emits s s' out (.publishStatus (some call) (.status name .aborted))
  | store (info call) (hq : .storeFile info call ∈ s.commandBuffer) : Emits s s' out (.store info)
  | ready (info call) (hq : .storeFile info call ∈ s.commandBuffer) (hs : .store info ∈ out) :
      Emits s s' out (.publishStatus (some call) (.status info.name .fileReady))
  | listed : Emits s s' out .sendFileListUpdate
  | request (k request) : Emits s s' out (.publishRequest k request)
  | written (path content created) :
      Emits s s' out (.createBinaryFileWithContent path content created)
  | completed (k path os) (hos : .onSuccess k path ∈ os) (hout : out = os.flatMap s.effectOutput)
      (hpushed : s'.commandBuffer = s.commandBuffer ++ os.flatMap (Effect.pushed H))
      (hran : ∃ name e c created, s.activeDownloads name = some e ∧ c ∈ e.commandBuffer.head? ∧
        os = (e.downloader.run H c created).2) : Emits s s' out (.downloadCompleted k path)
  | failed (k errorCode) : Emits s s' out (.downloadFailed k errorCode)
  | error (call name errorCode) :
      Emits s s' out (.publishStatus (some call) (.error name errorCode))
  | threw : Emits s s' out .badFunctionCall

/-- The outputs of callbacks, without their origin for the success callback. -/
theorem effectOutput_emits {out : List Output} {os : List (Effect Capture)} {o : Output}
    (ho : o ∈ os.flatMap s.effectOutput)
    (hsuccess : ∀ k path, .onSuccess k path ∈ os → Emits s s' out (.downloadCompleted k path)) :
    Emits s s' out o := by
  obtain ⟨f, hf, ho⟩ := List.mem_flatMap.mp ho
  cases f with
  | packetProvider k request =>
    simp only [effectOutput, requestPacket] at ho
    split at ho
    · obtain rfl := List.mem_singleton.mp ho
      exact .request _ _
    · cases ho
  | createBinaryFileWithContent path content created =>
    obtain rfl := List.mem_singleton.mp ho
    exact .written path content created
  | onSuccess k path =>
    obtain rfl := List.mem_singleton.mp ho
    exact hsuccess k path hf
  | onFail k errorCode =>
    rcases List.mem_cons.mp ho with rfl | ho
    · exact .failed k errorCode
    · rw [sendStatus_mem ho]
      exact .error _ _ errorCode
  | badFunctionCall =>
    obtain rfl := List.mem_singleton.mp ho
    exact .threw

theorem Moves.emits {ev : ServiceEvent H} {out : List Output} (hm : Moves s ev s' out)
    {o : Output} (ho : o ∈ out) : Emits s s' out o := by
  cases hm with
  | received message => cases ho
  | routed b fileInfo rest e hq he => cases ho
  | replied message fileInfo rest _ hq hout =>
    rcases hout with rfl | ⟨response, rfl⟩
    · cases ho
    · rw [sendStatus_mem ho]
      exact .reply response
  | started name size hash rest hq hreach he =>
    rcases List.mem_append.mp ho with ho | ho
    · rw [sendStatus_mem ho]
      exact .transfer name
    · obtain rfl := List.mem_singleton.mp ho
      exact .download name size hash rfl rfl
  | aborted name fileInfo rest e hq hname he =>
    rw [sendStatus_mem ho]
    exact .aborted name e.call
  | stored info call fileInfo rest hq =>
    have hmem : .storeFile info call ∈ s.commandBuffer := by simp [hq]
    rcases List.mem_cons.mp ho with rfl | ho
    · exact .store info call hmem
    · rw [sendStatus_mem ho]
      exact .ready info call hmem List.mem_cons_self
  | listed fileInfo rest hq =>
    obtain rfl := List.mem_singleton.mp ho
    exact .listed
  | ran name created e c rest he hc =>
    refine effectOutput_emits ho fun k path hk => .completed k path _ hk rfl ?_ ?_
    · rw [performAll_eq]
      rfl
    · exact ⟨name, e, c, created, he, by simp [hc], rfl⟩
  | expired name e r he hr =>
    refine effectOutput_emits ho fun k path hk => ?_
    exact absurd hk (FileDownloader.timerExpired_no_success hr k path)
  | swept => cases ho

/-- A step makes at most one `download` call, with the next number. -/
theorem Moves.download_call {ev : ServiceEvent H} {out : List Output} (hm : Moves s ev s' out)
    {call : ℕ} {name : String} {size : UInt64} {hash : String}
    (ho : .download call name size hash ∈ out) :
    call = s.calls ∧ s'.calls = s.calls + 1 ∧
      ∀ c n z g, .download c n z g ∈ out → n = name ∧ z = size ∧ g = hash := by
  cases hm.emits ho with
  | download _ _ _ hcalls hout =>
    refine ⟨rfl, hcalls, ?_⟩
    intro c n z g hc
    rw [hout] at hc
    rcases List.mem_append.mp hc with hc | hc
    · cases sendStatus_mem hc
    · obtain ⟨_, heq⟩ : c = s.calls ∧ n = name ∧ z = size ∧ g = hash := by simpa using hc
      exact heq

end FileDownloadService

/-- The completion of one `download` call, as the outputs show it: the call, the write
of content with the announced digest, and the report of the path of that file. -/
structure Completion (H : Host) (directory : String) (os : List Output) (call : ℕ)
    (info : FileInfo) (content : ByteArray) : Prop where
  call_mem : ∃ size, .download call info.name size info.hash ∈ os
  write_mem : .createBinaryFileWithContent (H.composePath info.name directory) content true ∈ os
  report_mem : .downloadCompleted ⟨info.name, info.hash, call⟩ info.path ∈ os
  digest : H.hashSHA256 content = H.base64Decode info.hash
  path_eq : info.path = H.absolutePath (H.composePath info.name directory)

/-- The step that reaches `downloadCompleted`: the write, the report, the queued record. -/
structure CompletingStep (H : Host) (s s' : FileDownloadService H) (directory : String)
    (out : List Output) (call : ℕ) (info : FileInfo) (content : ByteArray) : Prop where
  outputs_eq : out = [.createBinaryFileWithContent (H.composePath info.name directory) content true,
    .downloadCompleted ⟨info.name, info.hash, call⟩ info.path]
  digest : H.hashSHA256 content = H.base64Decode info.hash
  path_eq : info.path = H.absolutePath (H.composePath info.name directory)
  queued : s'.commandBuffer = s.commandBuffer ++ [.storeFile info call, .sendFileListUpdate]

theorem Completion.mono {H : Host} {directory : String} {os ps : List Output} {call : ℕ}
    {info : FileInfo} {content : ByteArray} (h : Completion H directory os call info content)
    (hsub : os ⊆ ps) : Completion H directory ps call info content where
  call_mem := h.call_mem.imp fun _ hs => hsub hs
  write_mem := hsub h.write_mem
  report_mem := hsub h.report_mem
  digest := h.digest
  path_eq := h.path_eq

variable {H : Host} {deviceKey directory : String} {maxPacketSize : UInt64}
  {C : Condition (FileDownloadService H) (ServiceEvent H) Output}
  {h : ServiceHistory H} {s s' : FileDownloadService H} {ev : ServiceEvent H}
  {out : List Output}

/-- Every entry was made by a `download` call of its name and hash. -/
theorem run_entry_call (hrun : (fileDownloadMachine H deviceKey directory maxPacketSize).Run C h s)
    {name : String} {e : Entry H} (he : s.activeDownloads name = some e) :
    ∃ size, .download e.call name size e.hash ∈ outputs h := by
  induction hrun generalizing name e with
  | start => cases he
  | step hr _ hstep ih =>
    rw [outputs_append, outputs_singleton]
    rcases (FileDownloadService.step_moves hstep).entry_origin (run_wf hr) he with
      ⟨f, hf, hcall, hhash, _⟩ | ⟨size, hnew, hout⟩
    · obtain ⟨size, hs⟩ := ih hf
      rw [hcall, hhash] at hs
      exact ⟨size, List.mem_append_left _ hs⟩
    · have hcall : e.call = _ := congrArg Entry.call hnew
      rw [hcall]
      exact ⟨size, List.mem_append_right _ hout⟩

theorem run_call_lt (hrun : (fileDownloadMachine H deviceKey directory maxPacketSize).Run C h s)
    {call : ℕ} {name : String} {size : UInt64} {hash : String}
    (ho : .download call name size hash ∈ outputs h) : call < s.calls := by
  induction hrun with
  | start => cases ho
  | step _ _ hstep ih =>
    have hm := FileDownloadService.step_moves hstep
    rw [outputs_append, outputs_singleton] at ho
    rcases List.mem_append.mp ho with ho | ho
    · exact (ih ho).trans_le hm.calls_le
    · obtain ⟨rfl, hcalls, _⟩ := hm.download_call ho
      omega

/-- A call number stands for one call: one name, one size, one hash. -/
theorem run_call_unique
    (hrun : (fileDownloadMachine H deviceKey directory maxPacketSize).Run C h s)
    {call : ℕ} {m n : String} {y z : UInt64} {f g : String}
    (hm : .download call m y f ∈ outputs h) (hn : .download call n z g ∈ outputs h) :
    n = m ∧ z = y ∧ g = f := by
  induction hrun with
  | start => cases hm
  | step hr _ hstep ih =>
    have hs := FileDownloadService.step_moves hstep
    rw [outputs_append, outputs_singleton] at hm hn
    rcases List.mem_append.mp hm with hm | hm <;> rcases List.mem_append.mp hn with hn | hn
    · exact ih hm hn
    · exact absurd (hs.download_call hn).1 (run_call_lt hr hm).ne
    · exact absurd (hs.download_call hm).1 (run_call_lt hr hn).ne
    · exact (hs.download_call hm).2.2 _ _ _ _ hn

/-- A step that reports a completed download wrote the file and queued its record. -/
theorem completed_step (hrun : (fileDownloadMachine H deviceKey directory maxPacketSize).Run C h s)
    (hstep : s.step ev = some (s', out)) {k : Capture} {path : String}
    (ho : .downloadCompleted k path ∈ out) : ∃ content,
    CompletingStep H s s' directory out k.call ⟨k.fileName, k.fileHash, path⟩ content ∧
    Completion H directory (outputs h ++ out) k.call ⟨k.fileName, k.fileHash, path⟩ content := by
  have hwf := run_wf hrun
  cases (FileDownloadService.step_moves hstep).emits ho with
  | completed _ _ os hos hout hpushed hran =>
    obtain ⟨name, e, c, created, he, hc, rfl⟩ := hran
    obtain ⟨rest, hc⟩ := List.head?_eq_some_iff.mp hc
    obtain ⟨content, hspec⟩ := FileDownloader.run_success hos
    obtain rfl : k = e.capture name := ((hwf.entry he).ran hc created).2 _ hos k rfl
    obtain ⟨hname, hhash, hdir⟩ := (hwf.entry he).announced _ hspec.callback
    rw [run_directory hrun] at hdir
    obtain ⟨size, hcall⟩ := run_entry_call hrun he
    have heffects := hspec.effects_eq
    have hpath := hspec.path_eq
    have hdigest := hspec.hash
    rw [hname, hdir] at heffects hpath
    rw [hhash] at hdigest
    rw [heffects] at hpushed hout
    refine ⟨content, ⟨hout, hdigest, hpath, hpushed⟩, ⟨size, ?_⟩, ?_, ?_, hdigest, hpath⟩
    · exact List.mem_append_left _ hcall
    · rw [hout]
      simp [FileDownloadService.effectOutput]
    · exact List.mem_append_right _ ho

/-- A queued record is that of a completed download. -/
theorem run_storeFile_completed
    (hrun : (fileDownloadMachine H deviceKey directory maxPacketSize).Run C h s)
    {info : FileInfo} {call : ℕ} (hi : .storeFile info call ∈ s.commandBuffer) :
    ∃ content, Completion H directory (outputs h) call info content := by
  induction hrun with
  | start => cases hi
  | step hr _ hstep ih =>
    rw [outputs_append, outputs_singleton]
    rcases (FileDownloadService.step_moves hstep).storeFile_origin hi with hi | ho
    · obtain ⟨content, hc⟩ := ih hi
      exact ⟨content, hc.mono (List.subset_append_left _ _)⟩
    · obtain ⟨content, _, hc⟩ := completed_step hr hstep ho
      exact ⟨content, hc⟩

/-- A download is answered with `FILE_READY` only where its record is stored. -/
theorem run_fileReady_completed
    (hrun : (fileDownloadMachine H deviceKey directory maxPacketSize).Run C h s)
    (hstep : s.step ev = some (s', out)) {call : ℕ} {name : String}
    (ho : .publishStatus (some call) (.status name .fileReady) ∈ out) :
    ∃ info content, info.name = name ∧ .store info ∈ out ∧
      Completion H directory (outputs h) call info content := by
  cases (FileDownloadService.step_moves hstep).emits ho with
  | ready info _ hq hs =>
    obtain ⟨content, hc⟩ := run_storeFile_completed hrun hq
    exact ⟨info, content, rfl, hs, hc⟩

/-- Whatever the packets are and whenever they come: a reported file was just written
with the announced digest, by the one `download` call it is reported for, its record is
queued, and only such records are stored and answered with `FILE_READY`. -/
theorem stored_files_intact
    (hrun : (fileDownloadMachine H deviceKey directory maxPacketSize).Run Free h s)
    (hstep : s.step ev = some (s', out)) :
    (∀ k path, .downloadCompleted k path ∈ out → ∃ content,
      CompletingStep H s s' directory out k.call ⟨k.fileName, k.fileHash, path⟩ content ∧
      Completion H directory (outputs h ++ out) k.call ⟨k.fileName, k.fileHash, path⟩ content) ∧
    (∀ call m n y z f g, .download call m y f ∈ outputs h → .download call n z g ∈ outputs h →
      n = m ∧ z = y ∧ g = f) ∧
    (∀ info, .store info ∈ out → ∃ call content,
      Completion H directory (outputs h) call info content) ∧
    ∀ call name, .publishStatus (some call) (.status name .fileReady) ∈ out → ∃ info content,
      info.name = name ∧ .store info ∈ out ∧
        Completion H directory (outputs h) call info content := by
  have hm := FileDownloadService.step_moves hstep
  refine ⟨?_, ?_, ?_, ?_⟩
  · intro k path ho
    exact completed_step hrun hstep ho
  · intro call m n y z f g hm hn
    exact run_call_unique hrun hm hn
  · intro info ho
    cases hm.emits ho with
    | store _ call hq => exact ⟨call, run_storeFile_completed hrun hq⟩
  · intro call name ho
    exact run_fileReady_completed hrun hstep ho

/-- The next command of the downloader of `f` reports the stored file. -/
def sampleCompletes (s : FileDownloadService sampleHost) : Bool :=
  (s.step (.downloaderCommand "f" true)).any fun r =>
    decide (.downloadCompleted ⟨"f", sampleHash, 0⟩ "/files/f" ∈ r.2)

theorem stored_files_intact_sample : ∃ h s s' out content, sampleService.Run Free h s ∧
    s.step (.downloaderCommand "f" true) = some (s', out) ∧
    CompletingStep sampleHost s s' "/files" out 0 ⟨"f", sampleHash, "/files/f"⟩ content := by
  obtain ⟨h, s, hr, hp⟩ := sampleService.exists_run_of_replay Free sampleTransfer
    (fun _ s => sampleCompletes s) (by decide +kernel)
  obtain ⟨⟨s', out⟩, hstep, ho⟩ := (Option.any_eq_true _ _).mp hp
  obtain ⟨content, hc, _⟩ := (stored_files_intact hr hstep).1 _ _ (of_decide_eq_true ho)
  exact ⟨h, s, s', out, content, hr, hstep, hc⟩

end WolkConnect
