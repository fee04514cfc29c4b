import WolkConnect.File.DeviceTables
import WolkConnect.File.EntryRuns
import WolkConnect.File.Integrity

/-! What the downloaders write: a file on disk, its report and its queued record come together. -/
namespace WolkConnect
open Transition Transition.Machine

namespace FileDownloader

variable {κ : Type} {H : Host} {d : FileDownloader κ} {path : String} {content : ByteArray}

theorem requestPacket_no_write (index : UInt32) (size : UInt64) :
    .createBinaryFileWithContent path content true ∉ (d.requestPacket index size).2 := by
  cases hp : d.packetProvider <;> simp [requestPacket, hp]

theorem notifyFail_no_write (code : FileTransferError) :
    .createBinaryFileWithContent path content true ∉ d.notifyFail code := by
  cases hf : d.currentOnFailCallback <;> simp [notifyFail, hf]

theorem packetFailed_no_write :
    .createBinaryFileWithContent path content true ∉ d.packetFailed.2 := by
  by_cases hr : d.retryCount = maxRetryCount
  · rw [packetFailed_of_eq hr]
    exact notifyFail_no_write _
  · rw [packetFailed_of_ne hr]
    exact requestPacket_no_write _ _

theorem timerExpired_no_write {r : FileDownloader κ × List (Effect κ)}
    (hr : d.timerExpired = some r) : .createBinaryFileWithContent path content true ∉ r.2 := by
  unfold timerExpired at hr
  split at hr
  · obtain rfl := Option.some.inj hr
    exact packetFailed_no_write
  · cases hr

/-- A downloader that writes a file reports it: an idle one has no hash that a file could have. -/
theorem downloadComplete_reports (hlife : (∃ callbacks, d.Live callbacks) ∨ d.Idle)
    {b : H.BinaryData} {created : Bool}
    (h : .createBinaryFileWithContent path content true ∈
      ((d.appended H b).downloadComplete H created).2) :
    ∃ k p, .onSuccess k p ∈ ((d.appended H b).downloadComplete H created).2 := by
  rcases (d.appended H b).downloadComplete_cases (H := H) created with
    ⟨_, he⟩ | ⟨_, _, he⟩ | ⟨hhash, _, he⟩
  · rw [he] at h
    exact absurd h (notifyFail_no_write _)
  · rw [he] at h
    rcases List.mem_cons.mp h with h | h
    · cases h
    · exact absurd h (notifyFail_no_write _)
  · rcases hlife with ⟨callbacks, hl⟩ | hi
    · have hsuccess : (d.appended H b).currentOnSuccessCallback = some callbacks := hl.success
      refine ⟨callbacks, H.absolutePath (H.composePath (d.appended H b).currentFileName
        (d.appended H b).currentDownloadDirectory), ?_⟩
      rw [he, notifySuccess, hsuccess]
      simp
    · have hempty : (d.appended H b).currentFileHash = [] := hi.fileHash
      rw [hempty] at hhash
      exact absurd hhash.symm (H.hashSHA256_ne_nil _)

theorem run_reports (hlife : (∃ callbacks, d.Live callbacks) ∨ d.Idle) {c : Command H κ}
    {created : Bool}
    (h : .createBinaryFileWithContent path content true ∈ (d.run H c created).2) :
    ∃ k p, .onSuccess k p ∈ (d.run H c created).2 := by
  cases c with
  | download => exact absurd h (requestPacket_no_write _ _)
  | abort => cases h
  | handleData b =>
    change .createBinaryFileWithContent path content true ∈ (d.handleData H b created).2 at h
    show ∃ k p, .onSuccess k p ∈ (d.handleData H b created).2
    by_cases ha : d.fileHandler.Accepts H b
    · by_cases hl : d.currentPacketIndex + 1 = d.currentPacketCount
      · rw [handleData_of_last ha hl] at h ⊢
        exact downloadComplete_reports hlife h
      · rw [handleData_of_not_last ha hl] at h
        exact absurd h (requestPacket_no_write _ _)
    · rw [handleData_of_not_accepts ha] at h
      exact absurd h packetFailed_no_write

end FileDownloader

variable {H : Host}

/-- The step writes no file and queues at most updates of the file list. -/
structure WritesNothing (x x' : FileDownloadService H) (os : List Output) : Prop where
  pushed : ∃ n, x'.commandBuffer = x.commandBuffer ++ List.replicate n .sendFileListUpdate
  unwritten : ∀ path content, .createBinaryFileWithContent path content true ∉ os

/-- Callbacks without a success. -/
theorem writesNothing_of_effects {x x' : FileDownloadService H} {os : List (Effect Capture)}
    (hpushed : x'.commandBuffer = x.commandBuffer ++ os.flatMap (Effect.pushed H))
    (hsuccess : ∀ k path, .onSuccess k path ∉ os)
    (hwrite : ∀ path content, .createBinaryFileWithContent path content true ∉ os) :
    WritesNothing x x' (os.flatMap x.effectOutput) := by
  constructor
  · have hlists : ∀ c ∈ os.flatMap (Effect.pushed H), c = .sendFileListUpdate := by
      intro c hc
      obtain ⟨o, ho, hc⟩ := List.mem_flatMap.mp hc
      cases o with
      | onSuccess k path => exact absurd ho (hsuccess k path)
      | onFail k errorCode => exact List.mem_singleton.mp hc
      | packetProvider k request => cases hc
      | createBinaryFileWithContent path content created => cases hc
      | badFunctionCall => cases hc
    refine ⟨(os.flatMap (Effect.pushed H)).length, ?_⟩
    rw [hpushed, ← List.eq_replicate_of_mem hlists]
  · intro path content hmem
    obtain ⟨o, ho, hmem⟩ := List.mem_flatMap.mp hmem
    cases o with
    | packetProvider k request =>
      simp only [FileDownloadService.effectOutput, FileDownloadService.requestPacket] at hmem
      split at hmem
      · simp at hmem
      · cases hmem
    | createBinaryFileWithContent p c created =>
      obtain ⟨rfl, rfl, rfl⟩ : path = p ∧ content = c ∧ true = created := by
        simpa [FileDownloadService.effectOutput] using hmem
      exact hwrite path content ho
    | onSuccess k p => exact absurd ho (hsuccess k p)
    | onFail k errorCode =>
      rcases List.mem_cons.mp hmem with hmem | hmem
      · cases hmem
      · exact absurd (FileDownloadService.sendStatus_mem hmem) (by simp)
    | badFunctionCall => simp [FileDownloadService.effectOutput] at hmem

/-- A step of the downloaders or the collector completes a download, or writes nothing. -/
theorem internal_step_cases {deviceKey directory : String} {maxPacketSize : UInt64}
    {k : ServiceHistory H} {x x' : FileDownloadService H} {e : ServiceEvent H} {os : List Output}
    (hrun : (fileDownloadMachine H deviceKey directory maxPacketSize).Run Free k x)
    (he : e.internal = true) (hstep : x.step e = some (x', os)) :
    WritesNothing x x' os ∨ ∃ call info content,
      CompletingStep H x x' directory os call info content ∧
        Completion H directory (outputs k ++ os) call info content := by
  have hm := FileDownloadService.step_moves hstep
  cases hm with
  | received message => cases he
  | routed b fileInfo rest e hq hf => cases he
  | replied message fileInfo rest out hq hout => cases he
  | started name size hash rest hq hreach hf => cases he
  | aborted name fileInfo rest e hq hname hf => cases he
  | stored info call fileInfo rest hq => cases he
  | listed fileInfo rest hq => cases he
  | swept => exact .inl ⟨⟨0, by simp [FileDownloadService.clearDownloads]⟩, by simp⟩
  | expired name e r hf hr =>
    refine .inl (writesNothing_of_effects ?_ ?_ ?_)
    · rw [FileDownloadService.performAll_eq]
      rfl
    · exact FileDownloader.timerExpired_no_success hr
    · exact fun path content => FileDownloader.timerExpired_no_write hr
  | ran name created e c rest hf hc =>
    by_cases hsuccess : ∃ k path, .onSuccess k path ∈ (e.downloader.run H c created).2
    · obtain ⟨callback, path, hmem⟩ := hsuccess
      have hreport : .downloadCompleted callback path ∈
          (e.downloader.run H c created).2.flatMap x.effectOutput :=
        List.mem_flatMap.mpr ⟨_, hmem, List.mem_singleton.mpr rfl⟩
      obtain ⟨content, hcompletes⟩ := completed_step hrun hstep hreport
      exact .inr ⟨_, _, content, hcompletes⟩
    · push Not at hsuccess
      refine .inl (writesNothing_of_effects ?_ hsuccess ?_)
      · rw [FileDownloadService.performAll_eq]
        rfl
      · intro path content hmem
        have hlife : (∃ callbacks, e.downloader.Live callbacks) ∨ e.downloader.Idle := by
          rcases downloader_live_or_idle (run_entry hrun hf) with ⟨callbacks, hl, -⟩ | hidle
          · exact .inl ⟨callbacks, hl⟩
          · exact .inr hidle.1
        obtain ⟨callback, p, hreports⟩ := FileDownloader.run_reports hlife hmem
        exact hsuccess callback p hreports

theorem written_of_unwritten {disk : Disk} {os : List Output}
    (h : ∀ path content, .createBinaryFileWithContent path content true ∉ os) :
    Device.written H disk os = disk := by
  induction os with
  | nil => rfl
  | cons o os ih =>
    have ih := ih fun path content ho => h path content (List.mem_cons_of_mem _ ho)
    cases o with
    | createBinaryFileWithContent path content created =>
      cases created with
      | true => exact absurd List.mem_cons_self (h path content)
      | false => exact ih
    | _ => exact ih

/-- What a step of the downloaders or the collector does to the device: it queues at most updates
of the file list, or it writes the file of a download and queues its record. -/
inductive InternalMoves (W : DeviceConfig H) (os : List DeviceOutput) (D D' : Device H) : Prop where
  | kept (n : ℕ) (hpushed : D'.service.commandBuffer = List.replicate n .sendFileListUpdate)
      (hdisk : D'.disk = D.disk) : InternalMoves W os D D'
  | completed (call : ℕ) (info : FileInfo) (content : ByteArray) (size : UInt64)
      (hcall : .service (.download call info.name size info.hash) ∈ os)
      (hpushed : D'.service.commandBuffer = [.storeFile info call, .sendFileListUpdate])
      (hdisk : D'.disk = Function.update D.disk info.path (some content))
      (hdigest : H.base64Decode info.hash = H.hashSHA256 content)
      (hpath : info.path = recordPath H W.fileDownloadDirectory info.name) : InternalMoves W os D D'

section

variable {W : DeviceConfig H} {h : List (Moment (QueuedDevice H) DeviceEvent DeviceOutput)}
  {k : ServiceHistory H} {s : QueuedDevice H} {x : FileDownloadService H}

/-- A record that waits on the device waits in the packet machine. -/
theorem Shadows.mem_storeFile (hx : Shadows s x) {info : FileInfo} {call : ℕ}
    (hq : .service (.storeFile info call) ∈ s.commandBuffer) :
    .storeFile info call ∈ x.commandBuffer := by
  have hwaiting : ServiceCommand.storeFile info call ∈
      x.commandBuffer.filterMap ServiceCommand.waiting := by
    rw [hx.waiting]
    exact List.mem_filterMap.mpr ⟨_, hq, rfl⟩
  obtain ⟨c, hc, hwaits⟩ := List.mem_filterMap.mp hwaiting
  obtain rfl : c = .storeFile info call := by
    cases c <;> simp_all [ServiceCommand.waiting]
  exact hc

/-- A visible output of the packet downloads is one of the device. -/
theorem mem_outputs_of_visible
    (hvisible : (outputs k).filterMap Output.visible = (outputs h).filterMap DeviceOutput.visible)
    {o : Output} (ho : o ∈ outputs k) (hv : o.visible = some o) : .service o ∈ outputs h := by
  have hseen : o ∈ (outputs h).filterMap DeviceOutput.visible := by
    rw [← hvisible]
    exact List.mem_filterMap.mpr ⟨o, ho, hv⟩
  obtain ⟨p, hp, hpv⟩ := List.mem_filterMap.mp hseen
  cases p with
  | service p =>
    have hsame : p = o := by
      cases p <;> simp_all [DeviceOutput.visible, Output.visible]
    exact hsame ▸ hp
  | _ => cases hpv

theorem internal_moves (hx : Shadows s x) (hrun : W.packetMachine.Run Free k x)
    (hvisible : (outputs k).filterMap Output.visible = (outputs h).filterMap DeviceOutput.visible)
    {e : ServiceEvent H} (he : e.internal = true) {r : Device H × List DeviceOutput}
    (hr : s.device.stepService e = some r) : InternalMoves W (outputs h) s.device r.1 := by
  obtain ⟨x', os, hstep, hout, hdisk, hpushed, -⟩ := shadow_internal hx he hr
  rcases internal_step_cases hrun he hstep with hnothing | ⟨call, info, content, hstep, hcall⟩
  · obtain ⟨n, hn⟩ := hnothing.pushed
    refine .kept n (List.append_cancel_left (hpushed.symm.trans hn)) ?_
    rw [hdisk, written_of_unwritten hnothing.unwritten]
  · obtain ⟨size, hmem⟩ := hcall.call_mem
    have hqueued := List.append_cancel_left (hpushed.symm.trans hstep.queued)
    refine .completed call info content size ?_ hqueued ?_ hstep.digest.symm hstep.path_eq
    · apply mem_outputs_of_visible hvisible ?_ rfl
      rcases List.mem_append.mp hmem with hmem | hmem
      · exact hmem
      · rw [hstep.outputs_eq] at hmem
        simp at hmem
    · rw [hdisk, hstep.outputs_eq, hstep.path_eq]
      rfl

theorem effectOutput_no_download {y : FileDownloadService H} {os : List (Effect Capture)} {call : ℕ}
    {name hash : String} {size : UInt64} :
    .download call name size hash ∉ os.flatMap y.effectOutput := by
  intro h
  obtain ⟨o, -, ho⟩ := List.mem_flatMap.mp h
  cases o with
  | packetProvider k request =>
    simp only [FileDownloadService.effectOutput, FileDownloadService.requestPacket] at ho
    split at ho
    · simp at ho
    · cases ho
  | onFail k errorCode =>
    rcases List.mem_cons.mp ho with ho | ho
    · cases ho
    · cases FileDownloadService.sendStatus_mem ho
  | _ => simp [FileDownloadService.effectOutput] at ho

/-- It leaves the records alone, sends no file list and starts no download. -/
theorem stepService_frame {D D' : Device H} {e : ServiceEvent H} {out : List DeviceOutput}
    (he : e.internal = true) (h : D.stepService e = some (D', out)) :
    D'.repository = D.repository ∧ out.filterMap DeviceOutput.fileList = [] ∧
      ∀ call name size hash, .service (.download call name size hash) ∉ out := by
  obtain ⟨⟨t, os⟩, hstep, hr⟩ := Option.map_eq_some_iff.mp h
  obtain ⟨rfl, rfl⟩ := Prod.mk.inj hr
  refine ⟨rfl, ?_, fun call name size hash ho => ?_⟩
  · rw [List.filterMap_map, List.filterMap_eq_nil_iff]
    intro o ho
    rfl
  · obtain ⟨o, ho, heq⟩ := List.mem_map.mp ho
    obtain rfl := DeviceOutput.service.inj heq
    cases FileDownloadService.step_moves hstep with
    | ran name created e c rest hf hc => exact effectOutput_no_download ho
    | expired name e r hf hr => exact effectOutput_no_download ho
    | swept => cases ho
    | _ => cases he

end
end WolkConnect
