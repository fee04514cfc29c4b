import WolkConnect.File.ServiceSteps

/-! Routing of inbound packets by `m_activeDownload`, and what a `FILE_TRANSFER` answer
says about the entry it is about. -/
namespace WolkConnect
open Transition Transition.Machine
namespace FileDownloadService

variable {H : Host} {s s' : FileDownloadService H}

/-- Every entry that is not flagged as finished is the one packets are routed to. -/
def Routed (s : FileDownloadService H) : Prop :=
  ∀ name e, s.activeDownloads name = some e → e.flag = false → name = s.activeDownload

/-- Every entry but that of `name` is flagged as finished. -/
def OthersFinished (s : FileDownloadService H) (name : String) : Prop :=
  ∀ n e, s.activeDownloads n = some e → n ≠ name → e.flag = true

/-- A download starts only when all others are finished, and a file that has an entry
is aborted only when all others are finished. -/
def OneAtATime : Condition (FileDownloadService H) (ServiceEvent H) Output :=
  fun _ s ev => match ev, s.commandBuffer with
    | .serviceCommand fileInfo, .handle (.fileUploadInitiate name size hash) :: _ =>
      s.ReachesDownload name size hash fileInfo → s.activeDownloads name = none →
        s.OthersFinished name
    | .serviceCommand _, .handle (.fileUploadAbort name) :: _ =>
      name ≠ "" → s.activeDownloads name ≠ none → s.OthersFinished name
    | _, _ => True

theorem Routed.of_entries (h : s.Routed) (hd : s'.activeDownload = s.activeDownload)
    (he : ∀ {name e'}, s'.activeDownloads name = some e' → e'.flag = false →
      ∃ e, s.activeDownloads name = some e ∧ e.flag = false) : s'.Routed := by
  intro name e' hs' hf'
  obtain ⟨e, hs, hf⟩ := he hs' hf'
  rw [hd]
  exact h name e hs hf

theorem Routed.of_update (h : s.Routed) (hd : s'.activeDownload = s.activeDownload)
    {name : String} {e e' : Entry H} (hs : s.activeDownloads name = some e)
    (ha : s'.activeDownloads = Function.update s.activeDownloads name (some e'))
    (hf : e'.flag = false → e.flag = false) : s'.Routed := by
  refine h.of_entries hd ?_
  intro n f hn hff
  rw [ha] at hn
  rcases update_some hn with ⟨rfl, rfl⟩ | ⟨_, hn⟩
  · exact ⟨e, hs, hf hff⟩
  · exact ⟨f, hn, hff⟩

theorem Moves.keepsRouted (hwf : s.Wf) (h : s.Routed) {ev : ServiceEvent H} {out : List Output}
    {hist : List (Moment (FileDownloadService H) (ServiceEvent H) Output)}
    (hone : OneAtATime hist s ev) (hm : Moves s ev s' out) : s'.Routed := by
  have hsame : ∀ {t : FileDownloadService H}, t.activeDownload = s.activeDownload →
      t.activeDownloads = s.activeDownloads → t.Routed := by
    intro t hd ha
    exact h.of_entries hd fun he hf => ⟨_, ha ▸ he, hf⟩
  cases hm with
  | received message => exact hsame rfl rfl
  | replied message fileInfo rest hq hout => exact hsame rfl rfl
  | stored info call fileInfo rest hq => exact hsame rfl rfl
  | listed fileInfo rest hq => exact hsame rfl rfl
  | routed b fileInfo rest e hq he => exact h.of_update rfl he rfl id
  | started name size hash rest hq hreach he =>
    have hothers : s.OthersFinished name := by
      simp only [OneAtATime, hq] at hone
      exact hone hreach he
    intro n f hn hf
    by_contra hne
    have hs : s.activeDownloads n = some f := by
      simpa [setEntry, Function.update_of_ne hne] using hn
    rw [hothers n f hs hne] at hf
    cases hf
  | aborted name fileInfo rest e hq hname he =>
    have hothers : s.OthersFinished name := by
      simp only [OneAtATime, hq] at hone
      exact hone hname (by simp [he])
    intro n f hn hf
    by_cases hne : n = name
    · subst hne
      obtain rfl : ({ e.push .abort with flag := true } : Entry H) = f := by
        simpa [setEntry] using hn
      cases hf
    · have hs : s.activeDownloads n = some f := by
        simpa [setEntry, Function.update_of_ne hne] using hn
      rw [hothers n f hs hne] at hf
      cases hf
  | ran name created e c rest he hc =>
    refine h.of_update (by rw [performAll_eq]; rfl) he (ran_activeDownloads hwf he hc created) ?_
    intro hf
    exact (Bool.or_eq_false_iff.mp hf).1
  | expired name e r he hr =>
    refine h.of_update (by rw [performAll_eq]; rfl) he (expired_activeDownloads hwf he hr) ?_
    intro hf
    exact (Bool.or_eq_false_iff.mp hf).1
  | swept => exact h.of_entries rfl fun he hf => ⟨_, (clearDownloads_some.mp he).1, hf⟩

theorem not_othersFinished {name : String} :
    ¬ s.OthersFinished name ↔
      ∃ n e, s.activeDownloads n = some e ∧ n ≠ name ∧ e.flag = false := by
  simp [OthersFinished]

/-- The condition leaves out nothing: a step that breaks it breaks the routing. -/
theorem not_routed_of_step (hwf : s.Wf) {ev : ServiceEvent H} {out : List Output}
    {hist : List (Moment (FileDownloadService H) (ServiceEvent H) Output)}
    (hone : ¬ OneAtATime hist s ev) (hstep : s.step ev = some (s', out)) : ¬ s'.Routed := by
  cases ev with
  | serviceCommand fileInfo =>
    cases hq : s.commandBuffer with
    | nil => simp [OneAtATime, hq] at hone
    | cons c rest =>
      simp only [step, hq] at hstep
      obtain ⟨rfl, -⟩ := Prod.ext_iff.mp (Option.some.inj hstep)
      cases c with
      | handle message =>
        cases message with
        | binaryData b => simp [OneAtATime, hq] at hone
        | fileUploadInitiate name size hash =>
          simp only [OneAtATime, hq, Classical.not_imp] at hone
          obtain ⟨⟨hmax, hname, hsize, hhash, rfl⟩, he, hothers⟩ := hone
          obtain ⟨n, e, hn, hne, hf⟩ := not_othersFinished.mp hothers
          intro hr
          have hactive := hr n e
          simp only [runCommand, handleFileUploadInitiate, hmax, hname, hsize, hhash, ↓reduceIte,
            download, he, setEntry, Function.update_of_ne hne] at hactive
          exact hne (hactive hn hf)
        | fileUploadAbort name =>
          simp only [OneAtATime, hq, Classical.not_imp] at hone
          obtain ⟨hname, he, hothers⟩ := hone
          obtain ⟨n, e, hn, hne, hf⟩ := not_othersFinished.mp hothers
          obtain ⟨f, he⟩ := Option.ne_none_iff_exists'.mp he
          intro hr
          have hactive := hr n e
          simp only [runCommand, handleFileUploadAbort, hname, ↓reduceIte, abortDownload, he,
            setEntry, flagCompletedDownload, Function.update_self, Function.update_of_ne hne]
            at hactive
          rw [hactive hn hf, hwf.unnamed] at hn
          cases hn
      | storeFile info call => simp [OneAtATime, hq] at hone
      | sendFileListUpdate => simp [OneAtATime, hq] at hone
  | _ => simp [OneAtATime] at hone

/-- If the request is answered with `FILE_TRANSFER`, the map then holds an entry for its
name with its hash that is not finished. -/
def TruthfulReply (s : FileDownloadService H) (name : String) (size : UInt64) (hash : String)
    (fileInfo : Option FileInfo) : Prop :=
  (∃ call, .publishStatus call (.status name .fileTransfer) ∈
      (s.handleFileUploadInitiate name size hash fileInfo).2) →
    ∃ e, (s.handleFileUploadInitiate name size hash fileInfo).1.activeDownloads name = some e ∧
      e.hash = hash ∧ e.flag = false

/-- The map still holds the finished download of this name and hash. -/
def FinishedEntry (s : FileDownloadService H) (name hash : String) : Prop :=
  ∃ e, s.activeDownloads name = some e ∧ e.hash = hash ∧ e.flag = true

theorem handleFileUploadInitiate_of_reaches {name : String} {size : UInt64} {hash : String}
    {fileInfo : Option FileInfo} (h : s.ReachesDownload name size hash fileInfo) :
    s.handleFileUploadInitiate name size hash fileInfo = s.download name size hash := by
  obtain ⟨hmax, hname, hsize, hhash, rfl⟩ := h
  simp [handleFileUploadInitiate, hmax, hname, hsize, hhash]

/-- A request that is stopped by a check is not answered with `FILE_TRANSFER`. -/
theorem handleFileUploadInitiate_of_not_reaches {name : String} {size : UInt64} {hash : String}
    {fileInfo : Option FileInfo} (h : ¬ s.ReachesDownload name size hash fileInfo)
    (call : Option ℕ) : .publishStatus call (.status name .fileTransfer) ∉
      (s.handleFileUploadInitiate name size hash fileInfo).2 := by
  have hreply {response : FileUploadStatus} (hne : response ≠ .status name .fileTransfer) :
      .publishStatus call (.status name .fileTransfer) ∉ s.sendStatus none response := by
    unfold sendStatus
    split <;> simp [hne.symm]
  unfold handleFileUploadInitiate
  split
  · exact hreply (by simp)
  split
  · exact hreply (by simp)
  split
  · exact hreply (by simp)
  split
  · exact hreply (by simp)
  next hmax hname hsize hhash =>
    cases fileInfo with
    | none => exact absurd ⟨hmax, hname, hsize, hhash, rfl⟩ h
    | some info =>
      simp only
      split
      · exact hreply (by simp)
      · exact hreply (by simp)

/-- The answer is truthful unless the request reaches `download` while the finished
download of the same name and hash waits for the collector. -/
theorem truthfulReply_iff (s : FileDownloadService H) (name : String) (size : UInt64)
    (hash : String) (fileInfo : Option FileInfo) :
    s.TruthfulReply name size hash fileInfo ↔
      ¬ (s.ReachesDownload name size hash fileInfo ∧
        H.makesStatus s.deviceKey (.status name .fileTransfer) = true ∧
        s.FinishedEntry name hash) := by
  by_cases hreach : s.ReachesDownload name size hash fileInfo
  · simp only [TruthfulReply, handleFileUploadInitiate_of_reaches hreach, hreach, true_and]
    unfold download
    cases he : s.activeDownloads name with
    | none =>
      simp only [FinishedEntry, he, reduceCtorEq, false_and, exists_false, and_false,
        not_false_eq_true, iff_true]
      intro _
      exact ⟨s.newEntry name size hash, by simp [setEntry], rfl, rfl⟩
    | some e =>
      simp only [FinishedEntry, he, Option.some.injEq, exists_eq_left']
      split
      next hhash =>
        constructor
        · rintro _ ⟨_, heq, _⟩
          exact hhash heq
        · rintro _ ⟨call, hmem⟩
          unfold sendStatus at hmem
          split at hmem <;> simp at hmem
      next hhash =>
        rw [not_not] at hhash
        simp only [he, Option.some.injEq, exists_eq_left', hhash, true_and, sendStatus]
        by_cases hmakes : H.makesStatus s.deviceKey (.status name .fileTransfer) = true
        · simp [hmakes]
        · simp [hmakes]
  · simp only [hreach, false_and, not_false_eq_true, iff_true]
    rintro ⟨call, hmem⟩
    exact absurd hmem (handleFileUploadInitiate_of_not_reaches hreach call)

end FileDownloadService

variable {H : Host} {deviceKey directory : String} {maxPacketSize : UInt64}
  {h : List (Moment (FileDownloadService H) (ServiceEvent H) Output)} {s : FileDownloadService H}

/-- While downloads start and are aborted one at a time, the entry in progress is unique,
it is the one named by `m_activeDownload`, and every packet is delivered to it. -/
theorem routed_of_run
    (hrun : (fileDownloadMachine H deviceKey directory maxPacketSize).Run
      FileDownloadService.OneAtATime h s) :
    s.Routed ∧
    (∀ m n e f, s.activeDownloads m = some e → s.activeDownloads n = some f →
      e.flag = false → f.flag = false → m = n) ∧
    ∀ name e b, s.activeDownloads name = some e → e.flag = false →
      (s.handleBinaryData b).activeDownloads name = some (e.push (.handleData b)) := by
  have hr : s.Routed := hrun.state_invariant _ (fun _ _ he => by cases he)
    fun hr hs hc hstep => (FileDownloadService.step_moves hstep).keepsRouted (run_wf hr) hs hc
  refine ⟨hr, ?_, ?_⟩
  · intro m n e f hm hn he hf
    rw [hr m e hm he, hr n f hn hf]
  · intro name e b he hf
    obtain rfl := hr name e he hf
    simp [FileDownloadService.handleBinaryData, he, FileDownloadService.setEntry]

theorem routed_of_run_sample : ∃ h s, sampleService.Run FileDownloadService.OneAtATime h s ∧
    s.Routed ∧ ∃ e, s.activeDownloads "f" = some e ∧ e.flag = false := by
  have hr : sampleService.Run FileDownloadService.OneAtATime _ _ :=
    (Run.start.step (e := .messageReceived (.fileUploadInitiate "f" 1 sampleHash)) trivial
      rfl).step (e := .serviceCommand none) (by intro _ _ n e he; cases he) rfl
  exact ⟨_, _, hr, (routed_of_run hr).1, _, rfl, rfl⟩

/-- Two files are announced one after the other: the first is in progress, but packets
go to the second. -/
theorem simultaneous_downloads_not_routed : ∃ h s, sampleService.Run Free h s ∧
    ¬ s.Routed ∧ ∃ e, s.activeDownloads "f" = some e ∧ e.flag = false ∧
      ∀ b, (s.handleBinaryData b).activeDownloads "f" = some e := by
  have hr : sampleService.Run Free _ _ :=
    (((Run.start.step (e := .messageReceived (.fileUploadInitiate "f" 1 sampleHash)) trivial
      rfl).step (e := .messageReceived (.fileUploadInitiate "g" 1 otherHash)) trivial
      rfl).step (e := .serviceCommand none) trivial rfl).step (e := .serviceCommand none)
      trivial rfl
  refine ⟨_, _, hr, ?_, _, rfl, rfl, fun b => rfl⟩
  intro h
  exact absurd (h "f" _ rfl rfl) (by decide)

/-- A file is announced, aborted and announced again before the collector ran: the answer
is `FILE_TRANSFER`, but the entry is the aborted one. -/
theorem reinitiate_not_truthful : ∃ h s, sampleService.Run Free h s ∧
    ¬ s.TruthfulReply "f" 1 sampleHash none := by
  have hr : sampleService.Run Free _ _ :=
    (((Run.start.step (e := .messageReceived (.fileUploadInitiate "f" 1 sampleHash)) trivial
      rfl).step (e := .messageReceived (.fileUploadAbort "f")) trivial
      rfl).step (e := .serviceCommand none) trivial rfl).step (e := .serviceCommand none)
      trivial rfl
  refine ⟨_, _, hr, ?_⟩
  intro h
  obtain ⟨e, he, _, hf⟩ := h ⟨none, by decide⟩
  obtain rfl := Option.some.inj he
  cases hf

end WolkConnect
