import WolkConnect.File.ServiceSteps
import WolkConnect.Transition.Erasure

/-! Aborting one file while another is being downloaded: a run of the service is compared with
the same run without the aborts. -/
namespace WolkConnect
open Transition Transition.Machine

/-- The output is about a file: a status, a request or a callback of its download. -/
def Output.isAbout (name : String) : Output → Bool
  | .publishStatus _ (.status fileName _) => fileName = name
  | .publishStatus _ (.error fileName _) => fileName = name
  | .publishRequest _ request => request.fileName = name
  | .download _ fileName _ _ => fileName = name
  | .downloadCompleted callback _ => callback.fileName = name
  | .downloadFailed callback _ => callback.fileName = name
  | .store info => info.name = name
  | .createBinaryFileWithContent _ _ _ => false
  | .sendFileListUpdate => false
  | .badFunctionCall => false

namespace FileDownloadService

variable {H : Host}

abbrev ServiceMoment (H : Host) := Moment (FileDownloadService H) (ServiceEvent H) Output

/-- The command handles an abort of the file. -/
def isAbortOf (f : String) : ServiceCommand H → Bool
  | .handle (.fileUploadAbort name) => name = f
  | _ => false

/-- The service without the queued aborts of a file. -/
def withoutAborts (f : String) (s : FileDownloadService H) : FileDownloadService H :=
  { s with commandBuffer := s.commandBuffer.filter fun c => !isAbortOf f c }

/-- The step neither receives nor handles an abort of the file. -/
def spares (f : String) (m : ServiceMoment H) : Bool :=
  match m.event, m.state.commandBuffer with
  | .messageReceived message, _ => !isAbortOf f (.handle message)
  | .serviceCommand _, c :: _ => !isAbortOf f c
  | _, _ => true

/-- The packet that the step delivers to the downloader of a file. -/
def delivered (name : String) (m : ServiceMoment H) : Option H.BinaryData :=
  match m.event, m.state.commandBuffer with
  | .serviceCommand _, .handle (.binaryData b) :: _ =>
    if m.state.activeDownload = name ∧ (m.state.activeDownloads name).isSome then some b else none
  | _, _ => none

/-- The packets delivered to the downloader of a file, oldest first. -/
def deliveries (name : String) (k : List (ServiceMoment H)) : List H.BinaryData :=
  k.filterMap (delivered name)

/-- Whenever an abort of the file is handled, the file has no entry. -/
def AbortsUnknown (f : String) : Condition (FileDownloadService H) (ServiceEvent H) Output :=
  fun _ s ev =>
    match ev, s.commandBuffer with
    | .serviceCommand _, c :: _ => isAbortOf f c = true → s.activeDownloads f = none
    | _, _ => True

variable {s s' : FileDownloadService H} {f g : String} {ev : ServiceEvent H} {out : List Output}

/-- A command of the service reads and writes everything but the queue it was taken from. -/
theorem runCommand_buffer (s : FileDownloadService H) (l : List (ServiceCommand H))
    (c : ServiceCommand H) (fileInfo : Option FileInfo) :
    { s with commandBuffer := l }.runCommand c fileInfo =
      ({ (s.runCommand c fileInfo).1 with commandBuffer := l }, (s.runCommand c fileInfo).2) := by
  cases c with
  | storeFile info call => rfl
  | sendFileListUpdate => rfl
  | handle message =>
    cases message with
    | binaryData b =>
      unfold runCommand handleBinaryData
      dsimp only
      split <;> rfl
    | fileUploadAbort name =>
      unfold runCommand handleFileUploadAbort abortDownload
      dsimp only
      split
      · rfl
      split
      · rfl
      · simp only [flagCompletedDownload_eq]
        rfl
    | fileUploadInitiate name size hash =>
      unfold runCommand handleFileUploadInitiate download
      dsimp only
      split
      · rfl
      split
      · rfl
      split
      · rfl
      split
      · rfl
      cases fileInfo with
      | some info =>
        dsimp only
        split <;> rfl
      | none =>
        dsimp only
        cases s.activeDownloads name with
        | none => rfl
        | some e =>
          dsimp only
          split <;> rfl

@[simp] theorem withoutAborts_activeDownload (f : String) (s : FileDownloadService H) :
    (s.withoutAborts f).activeDownload = s.activeDownload := rfl

@[simp] theorem withoutAborts_activeDownloads (f : String) (s : FileDownloadService H) :
    (s.withoutAborts f).activeDownloads = s.activeDownloads := rfl

theorem withoutAborts_cons_of_abort {c : ServiceCommand H} {rest : List (ServiceCommand H)}
    (hc : isAbortOf f c = true) :
    ({ s with commandBuffer := c :: rest } : FileDownloadService H).withoutAborts f =
      ({ s with commandBuffer := rest } : FileDownloadService H).withoutAborts f := by
  simp [withoutAborts, hc]

theorem withoutAborts_addToCommandBuffer (c : ServiceCommand H) :
    (s.addToCommandBuffer c).withoutAborts f =
      if isAbortOf f c then s.withoutAborts f else (s.withoutAborts f).addToCommandBuffer c := by
  cases hc : isAbortOf f c with
  | true => simp [withoutAborts, addToCommandBuffer, hc]
  | false => simp [withoutAborts, addToCommandBuffer, hc]

/-- No callback queues an abort. -/
theorem pushed_not_abort (o : Effect Capture) {c : ServiceCommand H} (hc : c ∈ o.pushed H) :
    isAbortOf f c = false := by
  cases o <;> simp [Effect.pushed] at hc
  · obtain rfl | rfl := hc <;> rfl
  · subst hc
    rfl

theorem withoutAborts_performAll (os : List (Effect Capture)) :
    (s.withoutAborts f).performAll os =
      ((s.performAll os).1.withoutAborts f, (s.performAll os).2) := by
  have hpushed : (os.flatMap (Effect.pushed H)).filter (fun c => !isAbortOf f c) =
      os.flatMap (Effect.pushed H) := by
    rw [List.filter_eq_self]
    intro c hc
    obtain ⟨o, -, ho⟩ := List.mem_flatMap.mp hc
    simp [pushed_not_abort o ho]
  have ho : ((s.withoutAborts f).effectOutput : Effect Capture → List Output) =
      s.effectOutput := by
    funext o
    cases o <;> rfl
  rw [performAll_eq, performAll_eq, ho]
  simp only [withoutAborts, List.filter_append, hpushed]
  rfl

/-- A command taken from the queue is run in the same way when other commands are left out of
what remains. -/
theorem runCommand_withoutAborts (c : ServiceCommand H) (rest : List (ServiceCommand H))
    (fileInfo : Option FileInfo) :
    (({ s with commandBuffer := rest } : FileDownloadService H).withoutAborts f).runCommand c
        fileInfo =
      ((({ s with commandBuffer := rest } : FileDownloadService H).runCommand c
        fileInfo).1.withoutAborts f,
        (({ s with commandBuffer := rest } : FileDownloadService H).runCommand c fileInfo).2) := by
  rw [runCommand_buffer s rest]
  exact runCommand_buffer s (rest.filter fun c => !isAbortOf f c) c fileInfo

/-- Receiving an abort, or handling one of a file without entry, changes nothing else. -/
theorem step_dropped {h : List (ServiceMoment H)} (hc : AbortsUnknown f h s ev)
    (hs : s.step ev = some (s', out)) (hm : spares f ⟨s, ev, out⟩ = false) :
    s'.withoutAborts f = s.withoutAborts f ∧ (f ≠ g → ∀ o ∈ out, o.isAbout g = false) := by
  cases ev with
  | messageReceived message =>
    have habort : isAbortOf f (.handle message) = true := by simpa [spares] using hm
    obtain ⟨rfl, rfl⟩ := Prod.mk.inj (Option.some.inj hs)
    exact ⟨by rw [withoutAborts_addToCommandBuffer, if_pos habort], by simp⟩
  | serviceCommand fileInfo =>
    cases hq : s.commandBuffer with
    | nil => simp [spares, hq] at hm
    | cons c rest =>
      have habort : isAbortOf f c = true := by simpa [spares, hq] using hm
      have hnone : s.activeDownloads f = none := by
        have himp : isAbortOf f c = true → s.activeDownloads f = none := by
          simpa [AbortsUnknown, hq] using hc
        exact himp habort
      obtain rfl : c = .handle (.fileUploadAbort f) := by
        unfold isAbortOf at habort
        split at habort
        · simp_all
        · cases habort
      have hsame : ({ s with commandBuffer := rest } : FileDownloadService H).withoutAborts f =
          s.withoutAborts f := by
        rw [← withoutAborts_cons_of_abort habort, ← hq]
      simp only [step, hq, runCommand, handleFileUploadAbort, abortDownload, hnone] at hs
      split at hs
      · obtain ⟨rfl, rfl⟩ := Prod.mk.inj (Option.some.inj hs)
        refine ⟨hsame, ?_⟩
        intro hne o ho
        unfold sendStatus at ho
        split at ho
        · obtain rfl := List.mem_singleton.mp ho
          simp [Output.isAbout, hne]
        · cases ho
      · obtain ⟨rfl, rfl⟩ := Prod.mk.inj (Option.some.inj hs)
        exact ⟨hsame, by simp⟩
  | downloaderCommand name created => cases hm
  | timerExpired name => cases hm
  | clearDownloads => cases hm

/-- Any other step is one of the service without the aborts. -/
theorem step_kept (hs : s.step ev = some (s', out)) (hm : spares f ⟨s, ev, out⟩ = true) :
    (s.withoutAborts f).step ev = some (s'.withoutAborts f, out) := by
  cases ev with
  | messageReceived message =>
    have habort : ¬ isAbortOf f (.handle message) = true := by simpa [spares] using hm
    obtain ⟨rfl, rfl⟩ := Prod.mk.inj (Option.some.inj hs)
    rw [withoutAborts_addToCommandBuffer, if_neg habort]
    rfl
  | serviceCommand fileInfo =>
    cases hq : s.commandBuffer with
    | nil => simp [step, hq] at hs
    | cons c rest =>
      have habort : isAbortOf f c = false := by simpa [spares, hq] using hm
      have hqueue : (s.withoutAborts f).commandBuffer =
          c :: rest.filter fun c => !isAbortOf f c := by
        simp [withoutAborts, hq, habort]
      simp only [step, hq] at hs
      have hrun := runCommand_withoutAborts (s := s) (f := f) c rest fileInfo
      rw [Option.some.inj hs] at hrun
      simp only [step, hqueue]
      exact congrArg some hrun
  | downloaderCommand name created =>
    simp only [step] at hs ⊢
    rw [withoutAborts_activeDownloads]
    cases he : s.activeDownloads name with
    | none => simp [he] at hs
    | some e =>
      cases hc : e.commandBuffer with
      | nil => simp [he, hc] at hs
      | cons c rest =>
        simp only [he, hc] at hs ⊢
        have hperform := withoutAborts_performAll (f := f) (s := s.setEntry name { e with
          downloader := (e.downloader.run H c created).1, commandBuffer := rest })
          (e.downloader.run H c created).2
        rw [Option.some.inj hs] at hperform
        exact congrArg some hperform
  | timerExpired name =>
    simp only [step] at hs ⊢
    rw [withoutAborts_activeDownloads]
    cases he : s.activeDownloads name with
    | none => simp [he] at hs
    | some e =>
      cases hr : e.downloader.timerExpired with
      | none => simp [he, hr] at hs
      | some r =>
        simp only [he, hr] at hs ⊢
        have hperform := withoutAborts_performAll (f := f) (s := s.setEntry name { e with
          downloader := r.1 }) r.2
        rw [Option.some.inj hs] at hperform
        exact congrArg some hperform
  | clearDownloads =>
    obtain ⟨rfl, rfl⟩ := Prod.mk.inj (Option.some.inj hs)
    rfl

/-- A step that is left out delivers no packet. -/
theorem delivered_of_dropped {m : ServiceMoment H} (hm : spares f m = false) :
    delivered g m = none := by
  unfold spares at hm
  unfold delivered
  split
  next hev hq =>
    simp [hev, hq, isAbortOf] at hm
  · rfl

/-- A step that stays delivers the same packet. -/
theorem delivered_of_kept {m : ServiceMoment H} (hm : spares f m = true) :
    delivered g ⟨m.state.withoutAborts f, m.event, m.output⟩ = delivered g m := by
  unfold spares at hm
  unfold delivered
  cases hev : m.event with
  | serviceCommand fileInfo =>
    cases hq : m.state.commandBuffer with
    | nil => simp [withoutAborts, hq]
    | cons c rest =>
      have habort : isAbortOf f c = false := by simpa [hev, hq] using hm
      have hqueue : (m.state.withoutAborts f).commandBuffer =
          c :: rest.filter fun c => !isAbortOf f c := by
        simp [withoutAborts, hq, habort]
      simp only [hqueue]
      cases c with
      | handle message => cases message <;> rfl
      | _ => rfl
  | _ => rfl

end FileDownloadService

variable {H : Host} {deviceKey directory : String} {maxPacketSize : UInt64} {f g : String}

/-- The run with history `k` from `s` is not disturbed by its aborts of `f`: the same events
without them make a run in which the downloader of `g` gets the same packets and in which the
requests, statuses and callbacks of `g` are the same. -/
def Undisturbed (f g : String) (M : Machine (FileDownloadService H) (ServiceEvent H) Output)
    (s : FileDownloadService H) (k : List (FileDownloadService.ServiceMoment H)) : Prop :=
  ∃ k' t', (M.startAt (s.withoutAborts f)).Run Free k' t' ∧
    k'.map Moment.event = (k.filter (FileDownloadService.spares f)).map Moment.event ∧
    FileDownloadService.deliveries g k' = FileDownloadService.deliveries g k ∧
    (outputs k').filter (Output.isAbout g) = (outputs k).filter (Output.isAbout g)

/-- Aborts of a file without entry do not disturb the download of another file. -/
theorem unknown_aborts_undisturbed {s t : FileDownloadService H}
    {k : List (FileDownloadService.ServiceMoment H)} (hne : f ≠ g)
    (hrun : ((fileDownloadMachine H deviceKey directory maxPacketSize).startAt s).Run
      (FileDownloadService.AbortsUnknown f) k t) :
    Undisturbed f g (fileDownloadMachine H deviceKey directory maxPacketSize) s k := by
  have herased := hrun.erased (FileDownloadService.withoutAborts f) (FileDownloadService.spares f)
    (N := (fileDownloadMachine H deviceKey directory maxPacketSize).startAt (s.withoutAborts f))
    rfl (fun hc hs hm => (FileDownloadService.step_dropped (g := g) hc hs hm).1)
    (fun _ hs hm => FileDownloadService.step_kept hs hm)
  refine ⟨_, _, herased, ?_, ?_, ?_⟩
  · simp [erase]
  · apply filterMap_erase
    · intro m _ hm
      exact FileDownloadService.delivered_of_kept hm
    · intro m _ hm
      exact FileDownloadService.delivered_of_dropped hm
  · apply outputs_erase
    intro m hmem hm
    obtain ⟨l, r, rfl⟩ := List.append_of_mem hmem
    obtain ⟨_, hc, s', hs⟩ := hrun.moment
    exact (FileDownloadService.step_dropped hc hs hm).2 hne

/-- A file is announced, then an unknown one is aborted, and the packet still arrives. -/
theorem unknown_aborts_undisturbed_sample : ∃ k t,
    (sampleService.startAt sampleService.start).Run (FileDownloadService.AbortsUnknown "f") k t ∧
    FileDownloadService.deliveries "g" k = [sampleHost.packet firstPreviousHash [97]] ∧
    Undisturbed "f" "g" sampleService sampleService.start k := by
  have hr : (sampleService.startAt sampleService.start).Run
      (FileDownloadService.AbortsUnknown "f") _ _ :=
    ((((((Run.start.step (e := .messageReceived (.fileUploadInitiate "g" 1 sampleHash)) trivial
      rfl).step (e := .serviceCommand none) (by intro h; cases h) rfl).step
      (e := .messageReceived (.fileUploadAbort "f")) trivial rfl).step (e := .serviceCommand none)
      (by intro _; rfl) rfl).step (e := .messageReceived (.binaryData
        (sampleHost.packet firstPreviousHash [97]))) trivial rfl).step (e := .serviceCommand none)
      (by intro h; cases h) rfl)
  exact ⟨_, _, hr, rfl, unknown_aborts_undisturbed (by decide) hr⟩

namespace FileDownloadService

variable {s : FileDownloadService H} {b : H.BinaryData} {rest : List (ServiceCommand H)}

theorem step_abort {e : Entry H} {fileInfo : Option FileInfo} (hf : f ≠ "")
    (he : s.activeDownloads f = some e)
    (hq : s.commandBuffer = .handle (.fileUploadAbort f) :: rest) :
    s.step (.serviceCommand fileInfo) =
      some ({ s.setEntry f { e.push .abort with flag := true } with
          commandBuffer := rest, activeDownload := "" },
        s.sendStatus (some e.call) (.status f .aborted)) := by
  simp [step, hq, runCommand, handleFileUploadAbort, hf, abortDownload, he,
    flagCompletedDownload, setEntry, sendStatus]

theorem step_binaryData {fileInfo : Option FileInfo}
    (hq : s.commandBuffer = .handle (.binaryData b) :: rest) :
    s.step (.serviceCommand fileInfo) =
      some ({ s with commandBuffer := rest }.handleBinaryData b, []) := by
  simp [step, hq, runCommand]

end FileDownloadService

/-- An abort of a file that has an entry takes the next packet away from the file that is
receiving. -/
theorem abort_takes_packet (M : Machine (FileDownloadService H) (ServiceEvent H) Output)
    (hM : M.step = FileDownloadService.step) {s : FileDownloadService H} {d e : Entry H}
    {b : H.BinaryData} {rest : List (ServiceCommand H)} (hf : f ≠ "")
    (hd : s.activeDownloads f = some d) (hg : s.activeDownload = g)
    (he : s.activeDownloads g = some e) (hunnamed : g ≠ "")
    (hq : s.commandBuffer = .handle (.fileUploadAbort f) :: .handle (.binaryData b) :: rest) :
    ∃ k t, (M.startAt s).Run Free k t ∧ ¬ Undisturbed f g M s k := by
  have habort := (congrFun₂ hM s (.serviceCommand none)).trans
    (FileDownloadService.step_abort hf hd hq)
  generalize hs' : ({ s.setEntry f { d.push .abort with flag := true } with
    commandBuffer := .handle (.binaryData b) :: rest, activeDownload := "" } :
    FileDownloadService H) = s' at habort
  have hqueue : s'.commandBuffer = .handle (.binaryData b) :: rest := by simp [← hs']
  have hcleared : s'.activeDownload = "" := by simp [← hs']
  have hlost := (congrFun₂ hM s' (.serviceCommand none)).trans
    (FileDownloadService.step_binaryData hqueue)
  refine ⟨_, _, (startAt_run_step habort).step trivial hlost, ?_⟩
  rintro ⟨k', t', hrun, hevents, hdeliveries, _⟩
  -- without the abort the packet is the first command
  have hqueue' : (s.withoutAborts f).commandBuffer = .handle (.binaryData b) ::
      rest.filter fun c => !FileDownloadService.isAbortOf f c := by
    simp [FileDownloadService.withoutAborts, hq, FileDownloadService.isAbortOf]
  have hkept := (congrFun₂ hM (s.withoutAborts f) (.serviceCommand none)).trans
    (FileDownloadService.step_binaryData hqueue')
  obtain ⟨rfl, _⟩ := hrun.eq_of_events (startAt_run_step hkept) (by
    rw [hevents]
    simp [FileDownloadService.spares, hq, hqueue, FileDownloadService.isAbortOf])
  simp [FileDownloadService.deliveries, FileDownloadService.delivered, hq, hqueue, hqueue', hg,
    he, hcleared, hunnamed.symm] at hdeliveries

/-- A finished file is announced, aborted before the collector ran, and the packet of the file
that is receiving is lost. -/
theorem finished_abort_disturbs : ∃ h s, sampleService.Run Free h s ∧
    s.activeDownload = "g" ∧ (s.activeDownloads "g").any (fun e => !e.flag) = true ∧
    (s.activeDownloads "f").any Entry.flag = true ∧
    ∃ k t, (sampleService.startAt s).Run Free k t ∧
      ¬ Undisturbed "f" "g" sampleService s k := by
  obtain ⟨h, s, hrun, htest⟩ := exists_run_of_replay sampleService Free (sampleTransfer ++
    [.downloaderCommand "f" true, .serviceCommand none, .serviceCommand none,
      .messageReceived (.fileUploadInitiate "g" 1 otherHash), .serviceCommand none])
    (fun _ s => s.activeDownload = "g" && (s.activeDownloads "g").any (fun e => !e.flag) &&
      (s.activeDownloads "f").any Entry.flag && s.commandBuffer.isEmpty) (by decide +kernel)
  simp only [Bool.and_eq_true, decide_eq_true_eq, List.isEmpty_iff] at htest
  obtain ⟨⟨⟨hactive, hg⟩, hf⟩, hq⟩ := htest
  obtain ⟨d, hd, _⟩ := (Option.any_eq_true _ _).mp hf
  obtain ⟨e, he, _⟩ := (Option.any_eq_true _ _).mp hg
  have hreceived : sampleService.Run Free _ _ :=
    (hrun.step (e := .messageReceived (.fileUploadAbort "f")) trivial rfl).step
      (e := .messageReceived (.binaryData (sampleHost.packet firstPreviousHash [97]))) trivial rfl
  refine ⟨_, _, hreceived, hactive, hg, hf, ?_⟩
  have hqueue : ((s.addToCommandBuffer (.handle (.fileUploadAbort "f"))).addToCommandBuffer
      (.handle (.binaryData (sampleHost.packet firstPreviousHash [97])))).commandBuffer =
      [.handle (.fileUploadAbort "f"),
        .handle (.binaryData (sampleHost.packet firstPreviousHash [97]))] := by
    simp [FileDownloadService.addToCommandBuffer, hq]
  exact abort_takes_packet sampleService rfl (by decide) hd hactive he (by decide) hqueue

end WolkConnect
