import WolkConnect.File.FileDownloadService

/-! What a step of the file download service can do: the closed form of the callbacks,
the inversion of the step function and the rule for invariants of the entries. -/
namespace WolkConnect
open Transition Transition.Machine

/-- The outcome callback of a download of `fileName`. -/
def Effect.isOutcomeOf (fileName : String) : Effect Capture → Bool
  | .onSuccess callback _ => decide (callback.fileName = fileName)
  | .onFail callback _ => decide (callback.fileName = fileName)
  | _ => false

/-- What a callback puts into the service's command buffer. -/
def Effect.pushed (H : Host) : Effect Capture → List (ServiceCommand H)
  | .onSuccess callback filePath =>
    [.storeFile ⟨callback.fileName, callback.fileHash, filePath⟩ callback.call,
      .sendFileListUpdate]
  | .onFail _ _ => [.sendFileListUpdate]
  | _ => []

namespace FileDownloadService

variable {H : Host}

/-- What a callback puts out. -/
def effectOutput (s : FileDownloadService H) : Effect Capture → List Output
  | .packetProvider callback request => s.requestPacket callback request
  | .createBinaryFileWithContent path content created =>
    [.createBinaryFileWithContent path content created]
  | .onSuccess callback filePath => [.downloadCompleted callback filePath]
  | .onFail callback errorCode => .downloadFailed callback errorCode ::
      s.sendStatus (some callback.call) (.error callback.fileName errorCode)
  | .badFunctionCall => [.badFunctionCall]

/-- The entries after callbacks: those of a finished download are flagged. -/
def flagged (s : FileDownloadService H) (os : List (Effect Capture)) (name : String) :
    Option (Entry H) :=
  (s.activeDownloads name).map fun e =>
    { e with flag := e.flag || os.any (Effect.isOutcomeOf name) }

theorem flagCompletedDownload_eq (s : FileDownloadService H) (key : String) :
    s.flagCompletedDownload key = { s with
      activeDownloads := fun name =>
        (s.activeDownloads name).map fun e =>
          { e with flag := e.flag || decide (key = name) } } := by
  unfold flagCompletedDownload
  cases hk : s.activeDownloads key with
  | none =>
    have hf : (fun name => (s.activeDownloads name).map fun e =>
        ({ e with flag := e.flag || decide (key = name) } : Entry H)) = s.activeDownloads := by
      funext name
      by_cases hn : key = name
      · simp [← hn, hk]
      · simp [hn]
    rw [hf]
  | some e =>
    simp only [setEntry]
    congr 1
    funext name
    by_cases hn : name = key
    · subst hn
      simp [hk]
    · simp [Function.update_of_ne hn, Ne.symm hn]

theorem perform_eq (s : FileDownloadService H) (o : Effect Capture) :
    s.perform o = ({ s with
      activeDownloads := s.flagged [o]
      commandBuffer := s.commandBuffer ++ o.pushed H }, s.effectOutput o) := by
  have hsame (os : List (Effect Capture)) (ho : ∀ name, os.any (Effect.isOutcomeOf name) = false) :
      s.flagged os = s.activeDownloads := by
    funext name
    simp [flagged, ho]
  cases o with
  | onSuccess callback filePath =>
    simp only [perform, downloadCompleted, flagCompletedDownload_eq, addToCommandBuffer,
      sendFileList, Effect.pushed, effectOutput, List.append_assoc, List.singleton_append]
    simp [flagged, Effect.isOutcomeOf, funext_iff]
  | onFail callback errorCode =>
    simp only [perform, downloadFailed, flagCompletedDownload_eq, addToCommandBuffer,
      sendFileList, Effect.pushed, effectOutput]
    simp [flagged, Effect.isOutcomeOf, funext_iff, sendStatus]
  | _ => simp [perform, Effect.pushed, effectOutput, hsame, Effect.isOutcomeOf]

theorem flagged_flagged (s : FileDownloadService H) (os ps : List (Effect Capture))
    (name : String) :
    ({ s with activeDownloads := s.flagged os } : FileDownloadService H).flagged ps name =
      s.flagged (os ++ ps) name := by
  simp only [flagged, Option.map_map, List.any_append]
  congr 1
  funext e
  simp [Bool.or_assoc]

/-- All callbacks of a command: they flag, push and put out, and touch nothing else. -/
theorem performAll_eq (s : FileDownloadService H) (os : List (Effect Capture)) :
    s.performAll os = ({ s with
      activeDownloads := s.flagged os
      commandBuffer := s.commandBuffer ++ os.flatMap (Effect.pushed H) },
      os.flatMap s.effectOutput) := by
  induction os generalizing s with
  | nil =>
    have hf : s.flagged [] = s.activeDownloads := by
      funext name
      simp [flagged]
    simp [performAll, hf]
  | cons o os ih =>
    simp only [performAll, ih, perform_eq]
    have hf := funext (flagged_flagged s [o] os)
    have ho : (s.effectOutput : Effect Capture → List Output) = effectOutput { s with
        activeDownloads := s.flagged [o]
        commandBuffer := s.commandBuffer ++ o.pushed H } := by
      funext p
      cases p <;> rfl
    rw [List.flatMap_cons, List.flatMap_cons, ho, List.append_assoc]
    refine Prod.ext ?_ rfl
    simp only
    congr 1

/-- A downloader's command or expiry: its entry gets the new fields and every flag of a
finished download is set. -/
theorem setEntry_performAll (s : FileDownloadService H) (fileName : String) (e : Entry H)
    (os : List (Effect Capture)) (hos : ∀ o ∈ os, ∀ k ∈ o.callback, k.fileName = fileName) :
    ((s.setEntry fileName e).performAll os).1.activeDownloads = Function.update
      s.activeDownloads fileName (some { e with flag := e.flag || os.any Effect.isOutcome }) := by
  rw [performAll_eq]
  funext name
  simp only [flagged, setEntry]
  by_cases hn : name = fileName
  · subst hn
    have hany : os.any (Effect.isOutcomeOf name) = os.any Effect.isOutcome := by
      rw [Bool.eq_iff_iff, List.any_eq_true, List.any_eq_true]
      refine exists_congr fun o => and_congr_right fun ho => ?_
      have hk := hos o ho
      cases o <;> simp_all [Effect.isOutcomeOf, Effect.isOutcome, Effect.callback]
    simp [hany]
  · have hany : os.any (Effect.isOutcomeOf name) = false := by
      refine List.any_eq_false.mpr fun o ho => ?_
      have hk := hos o ho
      cases o <;> simp_all [Effect.isOutcomeOf, Effect.callback, eq_comm]
    simp [Function.update_of_ne hn, hany]

/-- The checks of `handle(FileUploadInitiate)` are passed. -/
def ReachesDownload (s : FileDownloadService H) (name : String) (size : UInt64) (hash : String)
    (fileInfo : Option FileInfo) : Prop :=
  s.maxPacketSize ≠ 0 ∧ name ≠ "" ∧ size ≠ 0 ∧ hash ≠ "" ∧ fileInfo = none

/-- The inversion of `step`, one case for each thing a step can do. -/
inductive Moves : FileDownloadService H → ServiceEvent H → FileDownloadService H →
    List Output → Prop where
  | received (s) (message) :
      Moves s (.messageReceived message) (s.addToCommandBuffer (.handle message)) []
  | routed (s) (b fileInfo rest e) (hq : s.commandBuffer = .handle (.binaryData b) :: rest)
      (he : s.activeDownloads s.activeDownload = some e) :
      Moves s (.serviceCommand fileInfo)
        ({ s with commandBuffer := rest }.setEntry s.activeDownload (e.push (.handleData b))) []
  | replied (s) (message fileInfo rest out) (hq : s.commandBuffer = .handle message :: rest)
      (hout : out = [] ∨ ∃ response, out = s.sendStatus none response) :
      Moves s (.serviceCommand fileInfo) { s with commandBuffer := rest } out
  | started (s) (name size hash rest)
      (hq : s.commandBuffer = .handle (.fileUploadInitiate name size hash) :: rest)
      (hreach : s.ReachesDownload name size hash none) (he : s.activeDownloads name = none) :
      Moves s (.serviceCommand none)
        { s.setEntry name (s.newEntry name size hash) with
          commandBuffer := rest, activeDownload := name, calls := s.calls + 1 }
        (s.sendStatus (some s.calls) (.status name .fileTransfer) ++
          [.download s.calls name size hash])
  | aborted (s) (name fileInfo rest e)
      (hq : s.commandBuffer = .handle (.fileUploadAbort name) :: rest) (hname : name ≠ "")
      (he : s.activeDownloads name = some e) :
      Moves s (.serviceCommand fileInfo)
        { s.setEntry name { e.push .abort with flag := true } with
          commandBuffer := rest, activeDownload := "" }
        (s.sendStatus (some e.call) (.status name .aborted))
  | stored (s) (info call fileInfo rest) (hq : s.commandBuffer = .storeFile info call :: rest) :
      Moves s (.serviceCommand fileInfo) { s with commandBuffer := rest }
        (.store info :: s.sendStatus (some call) (.status info.name .fileReady))
  | listed (s) (fileInfo rest) (hq : s.commandBuffer = .sendFileListUpdate :: rest) :
      Moves s (.serviceCommand fileInfo) { s with commandBuffer := rest } [.sendFileListUpdate]
  | ran (s) (name created e c rest) (he : s.activeDownloads name = some e)
      (hc : e.commandBuffer = c :: rest) :
      Moves s (.downloaderCommand name created)
        ((s.setEntry name { e with
            downloader := (e.downloader.run H c created).1, commandBuffer := rest }).performAll
          (e.downloader.run H c created).2).1
        ((e.downloader.run H c created).2.flatMap s.effectOutput)
  | expired (s) (name e r) (he : s.activeDownloads name = some e)
      (hr : e.downloader.timerExpired = some r) :
      Moves s (.timerExpired name)
        ((s.setEntry name { e with downloader := r.1 }).performAll r.2).1
        (r.2.flatMap s.effectOutput)
  | swept (s) : Moves s .clearDownloads s.clearDownloads []

/-- The outputs of callbacks do not depend on the entries. -/
theorem performAll_output (s : FileDownloadService H) (name : String) (e : Entry H)
    (os : List (Effect Capture)) :
    ((s.setEntry name e).performAll os).2 = os.flatMap s.effectOutput := by
  rw [performAll_eq]
  have ho : ((s.setEntry name e).effectOutput : Effect Capture → List Output) = s.effectOutput := by
    funext o
    cases o <;> rfl
  rw [ho]

theorem initiate_moves (s : FileDownloadService H) (name : String) (size : UInt64)
    (hash : String) (fileInfo : Option FileInfo) (rest : List (ServiceCommand H))
    (hq : s.commandBuffer = .handle (.fileUploadInitiate name size hash) :: rest) :
    Moves s (.serviceCommand fileInfo)
      ({ s with commandBuffer := rest }.handleFileUploadInitiate name size hash fileInfo).1
      ({ s with commandBuffer := rest }.handleFileUploadInitiate name size hash fileInfo).2 := by
  have hreply (response : FileUploadStatus) : Moves s (.serviceCommand fileInfo)
      { s with commandBuffer := rest } (s.sendStatus none response) :=
    .replied s _ fileInfo rest _ hq (.inr ⟨response, rfl⟩)
  unfold handleFileUploadInitiate
  split
  · exact hreply _
  split
  · exact hreply _
  split
  · exact hreply _
  split
  · exact hreply _
  next hmax hname hsize hhash =>
    cases fileInfo with
    | some info =>
      simp only
      split <;> exact hreply _
    | none =>
      simp only [download]
      cases he : s.activeDownloads name with
      | none => exact .started s name size hash rest hq ⟨hmax, hname, hsize, hhash, rfl⟩ he
      | some e =>
        simp only
        split <;> exact hreply _

theorem abort_moves (s : FileDownloadService H) (name : String) (fileInfo : Option FileInfo)
    (rest : List (ServiceCommand H))
    (hq : s.commandBuffer = .handle (.fileUploadAbort name) :: rest) :
    Moves s (.serviceCommand fileInfo)
      ({ s with commandBuffer := rest }.handleFileUploadAbort name).1
      ({ s with commandBuffer := rest }.handleFileUploadAbort name).2 := by
  unfold handleFileUploadAbort
  split
  · exact .replied s _ fileInfo rest _ hq (.inr ⟨_, rfl⟩)
  next hname =>
    simp only [abortDownload]
    cases he : s.activeDownloads name with
    | none => exact .replied s _ fileInfo rest _ hq (.inl rfl)
    | some e =>
      have hm := Moves.aborted s name fileInfo rest e hq hname he
      simpa [flagCompletedDownload, setEntry, sendStatus] using hm

theorem step_moves {s s' : FileDownloadService H} {ev : ServiceEvent H} {out : List Output}
    (h : s.step ev = some (s', out)) : Moves s ev s' out := by
  cases ev with
  | messageReceived message =>
    obtain ⟨rfl, rfl⟩ := Prod.ext_iff.mp (Option.some.inj h)
    exact .received s message
  | serviceCommand fileInfo =>
    simp only [step] at h
    cases hq : s.commandBuffer with
    | nil => simp [hq] at h
    | cons c rest =>
      simp only [hq] at h
      obtain ⟨rfl, rfl⟩ := Prod.ext_iff.mp (Option.some.inj h)
      match c with
      | .handle (.binaryData b) =>
        simp only [runCommand, handleBinaryData]
        cases he : s.activeDownloads s.activeDownload with
        | none => exact .replied s _ fileInfo rest _ hq (.inl rfl)
        | some e => exact .routed s b fileInfo rest e hq he
      | .handle (.fileUploadInitiate name size hash) =>
        exact initiate_moves s name size hash fileInfo rest hq
      | .handle (.fileUploadAbort name) => exact abort_moves s name fileInfo rest hq
      | .storeFile info call => exact .stored s info call fileInfo rest hq
      | .sendFileListUpdate => exact .listed s fileInfo rest hq
  | downloaderCommand name created =>
    simp only [step] at h
    cases he : s.activeDownloads name with
    | none => simp [he] at h
    | some e =>
      cases hc : e.commandBuffer with
      | nil => simp [he, hc] at h
      | cons c rest =>
        simp only [he, hc, Option.some.injEq] at h
        obtain ⟨rfl, rfl⟩ := Prod.ext_iff.mp h
        rw [performAll_output]
        exact .ran s name created e c rest he hc
  | timerExpired name =>
    simp only [step] at h
    cases he : s.activeDownloads name with
    | none => simp [he] at h
    | some e =>
      cases hr : e.downloader.timerExpired with
      | none => simp [he, hr] at h
      | some r =>
        simp only [he, hr, Option.some.injEq] at h
        obtain ⟨rfl, rfl⟩ := Prod.ext_iff.mp h
        rw [performAll_output]
        exact .expired s name e r he hr
  | clearDownloads =>
    obtain ⟨rfl, rfl⟩ := Prod.ext_iff.mp (Option.some.inj h)
    exact .swept s

end FileDownloadService

/-- The values captured by the lambdas of the call that made the entry. -/
def Entry.capture {H : Host} (e : Entry H) (fileName : String) : Capture :=
  ⟨fileName, e.hash, e.call⟩

/-- The name, hash and directory handed to `FileDownloader::download` with these lambdas. -/
def AnnouncedAs (H : Host) (directory : String) (fileName : String) (fileHash : ByteArray)
    (downloadDirectory : String) (k : Capture) : Prop :=
  fileName = k.fileName ∧ fileHash = H.base64Decode k.fileHash ∧ downloadDirectory = directory

/-- An entry belongs to one `download` call: every callback its downloader holds or will
be given is of that call, and goes with the name, hash and directory of that call. -/
structure Entry.Ok {H : Host} (e : Entry H) (directory name : String) : Prop where
  callbacks : e.downloader.CallbacksIn (· = e.capture name)
  queued : ∀ c ∈ e.commandBuffer, ∀ k ∈ c.callbacks, k = e.capture name
  announced : e.downloader.Announced (AnnouncedAs H directory)
  queued_announced : ∀ c ∈ e.commandBuffer,
    ∀ fileName fileSize fileHash downloadDirectory k,
      c = .download fileName fileSize fileHash downloadDirectory k →
        AnnouncedAs H directory fileName fileHash downloadDirectory k

namespace FileDownloadService

variable {H : Host} {s s' : FileDownloadService H}

theorem newEntry_ok (s : FileDownloadService H) (name : String) (size : UInt64) (hash : String) :
    (s.newEntry name size hash).Ok s.fileDownloadDirectory name where
  callbacks := FileDownloader.callbacksIn_construct _
  queued := by simp [newEntry, Command.callbacks, Entry.capture]
  announced := by simp [newEntry, FileDownloader.Announced, FileDownloader.construct]
  queued_announced := by
    intro c hc fileName fileSize fileHash downloadDirectory k he
    obtain rfl : c = _ := List.mem_singleton.mp hc
    cases he
    exact ⟨rfl, rfl, rfl⟩

end FileDownloadService

namespace Entry.Ok

variable {H : Host} {e : Entry H} {directory name : String}

theorem set_flag (h : e.Ok directory name) (flag : Bool) :
    ({ e with flag := flag } : Entry H).Ok directory name :=
  ⟨h.callbacks, h.queued, h.announced, h.queued_announced⟩

/-- Packets and aborts bring no callbacks. -/
theorem push (h : e.Ok directory name) {c : Command H Capture} (hc : c.callbacks = none) :
    (e.push c).Ok directory name where
  callbacks := h.callbacks
  queued := by
    intro c' hc' k hk
    rcases List.mem_append.mp hc' with hc' | hc'
    · exact h.queued c' hc' k hk
    · obtain rfl := List.mem_singleton.mp hc'
      rw [hc] at hk
      cases hk
  announced := h.announced
  queued_announced := by
    intro c' hc' fileName fileSize fileHash downloadDirectory k he
    rcases List.mem_append.mp hc' with hc' | hc'
    · exact h.queued_announced c' hc' _ _ _ _ _ he
    · obtain rfl := List.mem_singleton.mp hc'
      subst he
      cases hc

theorem ran (h : e.Ok directory name) {c : Command H Capture} {rest : List (Command H Capture)}
    (hc : e.commandBuffer = c :: rest) (created : Bool) :
    ({ e with downloader := (e.downloader.run H c created).1, commandBuffer := rest } :
      Entry H).Ok directory name ∧
    ∀ o ∈ (e.downloader.run H c created).2, ∀ k ∈ o.callback, k = e.capture name := by
  have hmem : c ∈ e.commandBuffer := by simp [hc]
  have hrest : ∀ c' ∈ rest, c' ∈ e.commandBuffer := fun c' hc' => by simp [hc, hc']
  have hu := FileDownloader.run_usesIn h.callbacks (h.queued c hmem) created
  exact ⟨⟨hu.1, fun c' hc' => h.queued c' (hrest c' hc'),
    FileDownloader.run_announced h.announced (h.queued_announced c hmem) created,
    fun c' hc' => h.queued_announced c' (hrest c' hc')⟩, hu.2⟩

theorem expired (h : e.Ok directory name)
    {r : FileDownloader Capture × List (Effect Capture)}
    (hr : e.downloader.timerExpired = some r) :
    ({ e with downloader := r.1 } : Entry H).Ok directory name ∧
    ∀ o ∈ r.2, ∀ k ∈ o.callback, k = e.capture name := by
  have hu := FileDownloader.timerExpired_usesIn h.callbacks hr
  exact ⟨⟨hu.1, h.queued, FileDownloader.timerExpired_announced h.announced hr,
    h.queued_announced⟩, hu.2⟩

end Entry.Ok

namespace FileDownloadService

variable {H : Host} {s s' : FileDownloadService H}

/-- Every entry has a name and belongs to one call, and no two to the same. -/
structure Wf (s : FileDownloadService H) : Prop where
  unnamed : s.activeDownloads "" = none
  entry : ∀ {name e}, s.activeDownloads name = some e → e.Ok s.fileDownloadDirectory name
  call_lt : ∀ {name e}, s.activeDownloads name = some e → e.call < s.calls
  call_inj : ∀ {m n e f}, s.activeDownloads m = some e → s.activeDownloads n = some f →
    e.call = f.call → m = n

theorem wf_construct (deviceKey fileDownloadDirectory : String) (maxPacketSize : UInt64) :
    (construct H deviceKey fileDownloadDirectory maxPacketSize).Wf := by
  refine ⟨rfl, ?_, ?_, ?_⟩ <;> intros <;> contradiction

/-- Entries may disappear and change as long as they stay of their call. -/
theorem Wf.of_entries (h : s.Wf) (hd : s'.fileDownloadDirectory = s.fileDownloadDirectory)
    (hc : s'.calls = s.calls)
    (he : ∀ {name e'}, s'.activeDownloads name = some e' → e'.Ok s.fileDownloadDirectory name ∧
      ∃ e, s.activeDownloads name = some e ∧ e.call = e'.call) : s'.Wf := by
  refine ⟨?_, fun hs => hd ▸ (he hs).1, fun hs => ?_, fun hm hn hcall => ?_⟩
  · by_contra hs
    obtain ⟨e', hs⟩ := Option.ne_none_iff_exists'.mp hs
    obtain ⟨e, hs, _⟩ := (he hs).2
    rw [h.unnamed] at hs
    cases hs
  · obtain ⟨e, hs, hcall⟩ := (he hs).2
    have hlt := h.call_lt hs
    omega
  · obtain ⟨e, hm, hec⟩ := (he hm).2
    obtain ⟨f, hn, hfc⟩ := (he hn).2
    exact h.call_inj hm hn (by omega)

theorem of_update_none {β : Type*} {f : String → Option β} {name n : String} {b : β}
    (h : Function.update f name none n = some b) : f n = some b := by
  by_cases hn : n = name
  · subst hn
    simp at h
  · rwa [Function.update_of_ne hn] at h

theorem update_some {entries : String → Option (Entry H)} {name n : String} {e f : Entry H}
    (hf : Function.update entries name (some e) n = some f) :
    (n = name ∧ f = e) ∨ (n ≠ name ∧ entries n = some f) := by
  by_cases hn : n = name
  · subst hn
    exact .inl ⟨rfl, by simpa using hf.symm⟩
  · exact .inr ⟨hn, by rwa [Function.update_of_ne hn] at hf⟩

theorem Wf.of_update (h : s.Wf) (hd : s'.fileDownloadDirectory = s.fileDownloadDirectory)
    (hc : s'.calls = s.calls) {name : String} {e e' : Entry H}
    (hs : s.activeDownloads name = some e)
    (ha : s'.activeDownloads = Function.update s.activeDownloads name (some e'))
    (hcall : e.call = e'.call) (hok : e'.Ok s.fileDownloadDirectory name) : s'.Wf := by
  refine h.of_entries hd hc ?_
  intro n f hf
  rw [ha] at hf
  rcases update_some hf with ⟨rfl, rfl⟩ | ⟨_, hf⟩
  · exact ⟨hok, e, hs, hcall⟩
  · exact ⟨h.entry hf, f, hf, rfl⟩

theorem ran_activeDownloads (h : s.Wf) {name : String} {e : Entry H}
    (he : s.activeDownloads name = some e) {c : Command H Capture}
    {rest : List (Command H Capture)} (hc : e.commandBuffer = c :: rest) (created : Bool) :
    ((s.setEntry name { e with
        downloader := (e.downloader.run H c created).1, commandBuffer := rest }).performAll
      (e.downloader.run H c created).2).1.activeDownloads =
    Function.update s.activeDownloads name (some { e with
      downloader := (e.downloader.run H c created).1
      commandBuffer := rest
      flag := e.flag || (e.downloader.run H c created).2.any Effect.isOutcome }) :=
  setEntry_performAll s name _ _ fun o ho k hk => by
    rw [((h.entry he).ran hc created).2 o ho k hk]
    rfl

theorem expired_activeDownloads (h : s.Wf) {name : String} {e : Entry H}
    (he : s.activeDownloads name = some e)
    {r : FileDownloader Capture × List (Effect Capture)}
    (hr : e.downloader.timerExpired = some r) :
    ((s.setEntry name { e with downloader := r.1 }).performAll r.2).1.activeDownloads =
    Function.update s.activeDownloads name (some { e with
      downloader := r.1
      flag := e.flag || r.2.any Effect.isOutcome }) :=
  setEntry_performAll s name _ _ fun o ho k hk => by
    rw [((h.entry he).expired hr).2 o ho k hk]
    rfl

theorem performAll_fileDownloadDirectory (s : FileDownloadService H) (os : List (Effect Capture)) :
    (s.performAll os).1.fileDownloadDirectory = s.fileDownloadDirectory := by
  rw [performAll_eq]

theorem performAll_calls (s : FileDownloadService H) (os : List (Effect Capture)) :
    (s.performAll os).1.calls = s.calls := by
  rw [performAll_eq]

theorem clearDownloads_some {name : String} {e : Entry H} :
    s.clearDownloads.activeDownloads name = some e ↔
      s.activeDownloads name = some e ∧ e.flag = false := by
  simp [clearDownloads, Option.filter_eq_some_iff]

theorem Moves.wf {ev : ServiceEvent H} {out : List Output} (h : s.Wf) (hm : Moves s ev s' out) :
    s'.Wf := by
  have hsame : ∀ {t : FileDownloadService H}, t.fileDownloadDirectory = s.fileDownloadDirectory →
      t.calls = s.calls → t.activeDownloads = s.activeDownloads → t.Wf := by
    intro t hd hc ha
    exact h.of_entries hd hc fun he => ⟨h.entry (ha ▸ he), _, ha ▸ he, rfl⟩
  cases hm with
  | received message => exact hsame rfl rfl rfl
  | replied message fileInfo rest hq hout => exact hsame rfl rfl rfl
  | stored info call fileInfo rest hq => exact hsame rfl rfl rfl
  | listed fileInfo rest hq => exact hsame rfl rfl rfl
  | routed b fileInfo rest e hq he =>
    exact h.of_update rfl rfl he rfl rfl ((h.entry he).push rfl)
  | aborted name fileInfo rest e hq hname he =>
    exact h.of_update rfl rfl he rfl rfl (((h.entry he).push rfl).set_flag true)
  | started name size hash rest hq hreach he =>
    refine ⟨?_, fun hf => ?_, fun hf => ?_, fun hf hg hcall => ?_⟩
    · simp [setEntry, Function.update_of_ne hreach.2.1.symm, h.unnamed]
    · rcases update_some hf with ⟨rfl, rfl⟩ | ⟨_, hf⟩
      · exact newEntry_ok s _ size hash
      · exact h.entry hf
    · rcases update_some hf with ⟨rfl, rfl⟩ | ⟨_, hf⟩
      · exact Nat.lt_succ_self _
      · exact Nat.lt_succ_of_lt (h.call_lt hf)
    · rcases update_some hf with ⟨hm, rfl⟩ | ⟨_, hf'⟩ <;>
        rcases update_some hg with ⟨hn, rfl⟩ | ⟨_, hg'⟩
      · rw [hm, hn]
      · exact absurd hcall (Nat.ne_of_gt (h.call_lt hg'))
      · exact absurd hcall (Nat.ne_of_lt (h.call_lt hf'))
      · exact h.call_inj hf' hg' hcall
  | ran name created e c rest he hc =>
    refine h.of_update ?_ ?_ he (ran_activeDownloads h he hc created) rfl ?_
    · exact performAll_fileDownloadDirectory _ _
    · exact performAll_calls _ _
    · exact ((h.entry he).ran hc created).1.set_flag _
  | expired name e r he hr =>
    refine h.of_update ?_ ?_ he (expired_activeDownloads h he hr) rfl ?_
    · exact performAll_fileDownloadDirectory _ _
    · exact performAll_calls _ _
    · exact ((h.entry he).expired hr).1.set_flag _
  | swept =>
    exact h.of_entries rfl rfl fun he =>
      have hs := (clearDownloads_some.mp he).1
      ⟨h.entry hs, _, hs, rfl⟩

/-- Where the entry of a name after a step comes from: what the step did to it. -/
inductive EntryMoves (s : FileDownloadService H) (ev : ServiceEvent H) (out : List Output)
    (name : String) : Entry H → Prop where
  | kept (e) (he : s.activeDownloads name = some e)
      (hev : ∀ created, ev ≠ .downloaderCommand name created) (hexp : ev ≠ .timerExpired name) :
      EntryMoves s ev out name e
  | pushed (b e) (he : s.activeDownloads name = some e)
      (hq : .handle (.binaryData b) ∈ s.commandBuffer)
      (hev : ∀ created, ev ≠ .downloaderCommand name created) (hexp : ev ≠ .timerExpired name) :
      EntryMoves s ev out name (e.push (.handleData b))
  | aborted (e) (he : s.activeDownloads name = some e)
      (hq : ∃ rest, s.commandBuffer = .handle (.fileUploadAbort name) :: rest)
      (hev : ∀ created, ev ≠ .downloaderCommand name created) (hexp : ev ≠ .timerExpired name) :
      EntryMoves s ev out name { e.push .abort with flag := true }
  | started (size hash) (he : s.activeDownloads name = none)
      (hout : .download s.calls name size hash ∈ out) :
      EntryMoves s ev out name (s.newEntry name size hash)
  | ran (created e c rest) (he : s.activeDownloads name = some e)
      (hc : e.commandBuffer = c :: rest) (hev : ev = .downloaderCommand name created)
      (hout : out = (e.downloader.run H c created).2.flatMap s.effectOutput) :
      EntryMoves s ev out name { e with
        downloader := (e.downloader.run H c created).1
        commandBuffer := rest
        flag := e.flag || (e.downloader.run H c created).2.any Effect.isOutcome }
  | expired (e r) (he : s.activeDownloads name = some e)
      (hr : e.downloader.timerExpired = some r) (hev : ev = .timerExpired name) :
      EntryMoves s ev out name { e with
        downloader := r.1
        flag := e.flag || r.2.any Effect.isOutcome }

theorem Moves.entryMoves (hwf : s.Wf) {ev : ServiceEvent H} {out : List Output}
    (hm : Moves s ev s' out) {name : String} {e' : Entry H}
    (he' : s'.activeDownloads name = some e') : EntryMoves s ev out name e' := by
  cases hm with
  | received message => exact .kept e' he' nofun nofun
  | replied message fileInfo rest hq hout => exact .kept e' he' nofun nofun
  | stored info call fileInfo rest hq => exact .kept e' he' nofun nofun
  | listed fileInfo rest hq => exact .kept e' he' nofun nofun
  | routed b fileInfo rest e hq he =>
    rcases update_some he' with ⟨rfl, rfl⟩ | ⟨_, hs⟩
    · exact .pushed b e he (by simp [hq]) nofun nofun
    · exact .kept e' hs nofun nofun
  | aborted n fileInfo rest e hq hname he =>
    rcases update_some he' with ⟨rfl, rfl⟩ | ⟨_, hs⟩
    · exact .aborted e he ⟨rest, hq⟩ nofun nofun
    · exact .kept e' hs nofun nofun
  | started n size hash rest hq hreach he =>
    rcases update_some he' with ⟨rfl, rfl⟩ | ⟨_, hs⟩
    · exact .started size hash he (by simp)
    · exact .kept e' hs nofun nofun
  | ran n created e c rest he hc =>
    rw [ran_activeDownloads hwf he hc created] at he'
    rcases update_some he' with ⟨rfl, rfl⟩ | ⟨hne, hs⟩
    · exact .ran created e c rest he hc rfl rfl
    · exact .kept e' hs (fun created' h => hne (by cases h; rfl)) nofun
  | expired n e r he hr =>
    rw [expired_activeDownloads hwf he hr] at he'
    rcases update_some he' with ⟨rfl, rfl⟩ | ⟨hne, hs⟩
    · exact .expired e r he hr rfl
    · exact .kept e' hs nofun fun h => hne (by cases h; rfl)
  | swept => exact .kept e' (clearDownloads_some.mp he').1 nofun nofun

/-- An entry after a step was there before, for the same call, or the step made it. -/
theorem Moves.entry_origin (hwf : s.Wf) {ev : ServiceEvent H} {out : List Output}
    (hm : Moves s ev s' out) {name : String} {e' : Entry H}
    (he' : s'.activeDownloads name = some e') :
    (∃ e, s.activeDownloads name = some e ∧ e.call = e'.call ∧ e.hash = e'.hash ∧
      (e.flag = true → e'.flag = true)) ∨
      ∃ size, e' = s.newEntry name size e'.hash ∧
        .download s.calls name size e'.hash ∈ out := by
  cases hm.entryMoves hwf he' with
  | kept _ he hev => exact .inl ⟨e', he, rfl, rfl, id⟩
  | pushed b e he hq hev => exact .inl ⟨e, he, rfl, rfl, id⟩
  | aborted e he hq hev => exact .inl ⟨e, he, rfl, rfl, fun _ => rfl⟩
  | started size hash he hout => exact .inr ⟨size, rfl, hout⟩
  | ran created e c rest he hc hev hout => exact .inl ⟨e, he, rfl, rfl, fun hf => by simp [hf]⟩
  | expired e r he hr hev => exact .inl ⟨e, he, rfl, rfl, fun hf => by simp [hf]⟩

/-- Only the collector removes entries, and no step clears a flag. -/
theorem Moves.entry_kept {fileInfo : Option FileInfo} {out : List Output}
    (hm : Moves s (.serviceCommand fileInfo) s' out) {name : String} {e : Entry H}
    (he : s.activeDownloads name = some e) :
    ∃ e', s'.activeDownloads name = some e' ∧ (e.flag = true → e'.flag = true) := by
  have hupdate {n : String} {f f' : Entry H} (hf : s.activeDownloads n = some f)
      (hflag : f.flag = true → f'.flag = true) :
      ∃ e', Function.update s.activeDownloads n (some f') name = some e' ∧
        (e.flag = true → e'.flag = true) := by
    by_cases hn : name = n
    · subst hn
      obtain rfl := Option.some.inj (hf.symm.trans he)
      exact ⟨f', by simp, hflag⟩
    · exact ⟨e, by rwa [Function.update_of_ne hn], id⟩
  cases hm with
  | replied message _ rest hq hout => exact ⟨e, he, id⟩
  | stored info call _ rest hq => exact ⟨e, he, id⟩
  | listed _ rest hq => exact ⟨e, he, id⟩
  | routed b _ rest f hq hf => exact hupdate hf id
  | aborted n _ rest f hq hname hf => exact hupdate hf fun _ => rfl
  | started n size hash rest hq hreach hf =>
    refine ⟨e, ?_, id⟩
    have hn : name ≠ n := by
      rintro rfl
      rw [hf] at he
      cases he
    exact (Function.update_of_ne hn _ _).trans he

theorem Moves.calls_le {ev : ServiceEvent H} {out : List Output} (hm : Moves s ev s' out) :
    s.calls ≤ s'.calls := by
  cases hm with
  | started n z g rest hq hreach he => exact Nat.le_succ _
  | ran name created e c rest he hc => rw [performAll_calls]; rfl
  | expired name e r he hr => rw [performAll_calls]; rfl
  | _ => exact le_rfl

theorem Moves.maxPacketSize_eq {ev : ServiceEvent H} {out : List Output}
    (hm : Moves s ev s' out) : s'.maxPacketSize = s.maxPacketSize := by
  cases hm with
  | ran name created e c rest he hc => rw [performAll_eq]; rfl
  | expired name e r he hr => rw [performAll_eq]; rfl
  | _ => rfl

theorem Moves.directory_eq {ev : ServiceEvent H} {out : List Output} (hm : Moves s ev s' out) :
    s'.fileDownloadDirectory = s.fileDownloadDirectory := by
  cases hm with
  | ran name created e c rest he hc => exact performAll_fileDownloadDirectory _ _
  | expired name e r he hr => exact performAll_fileDownloadDirectory _ _
  | _ => rfl

/-- A command in the service's queue was there before, or is a message just received, or
was pushed by a callback. -/
theorem Moves.command_origin {ev : ServiceEvent H} {out : List Output} (hm : Moves s ev s' out)
    {c : ServiceCommand H} (hc : c ∈ s'.commandBuffer) :
    c ∈ s.commandBuffer ∨ (∃ message, ev = .messageReceived message ∧ c = .handle message) ∨
      ∃ os : List (Effect Capture), out = os.flatMap s.effectOutput ∧ ∃ o ∈ os, c ∈ o.pushed H := by
  have hrest {d : ServiceCommand H} {rest : List (ServiceCommand H)}
      (hq : s.commandBuffer = d :: rest) (hc : c ∈ rest) : c ∈ s.commandBuffer := by
    rw [hq]
    exact List.mem_cons_of_mem d hc
  have hpushed {t : FileDownloadService H} {os : List (Effect Capture)}
      (hc : c ∈ (t.performAll os).1.commandBuffer) (hb : t.commandBuffer = s.commandBuffer) :
      c ∈ s.commandBuffer ∨ ∃ o ∈ os, c ∈ o.pushed H := by
    rw [performAll_eq, hb] at hc
    exact (List.mem_append.mp hc).imp id List.mem_flatMap.mp
  cases hm with
  | received message =>
    refine (List.mem_append.mp hc).imp id fun hc => .inl ⟨message, rfl, ?_⟩
    exact List.mem_singleton.mp hc
  | replied message fileInfo rest _ hq hout => exact .inl (hrest hq hc)
  | stored info call fileInfo rest hq => exact .inl (hrest hq hc)
  | listed fileInfo rest hq => exact .inl (hrest hq hc)
  | routed b fileInfo rest e hq he => exact .inl (hrest hq hc)
  | aborted n fileInfo rest e hq hname he => exact .inl (hrest hq hc)
  | started n size hash rest hq hreach he => exact .inl (hrest hq hc)
  | ran n created e d rest he hq => exact (hpushed hc rfl).imp id fun ho => .inr ⟨_, rfl, ho⟩
  | expired n e r he hr => exact (hpushed hc rfl).imp id fun ho => .inr ⟨_, rfl, ho⟩
  | swept => exact .inl hc

/-- A store waiting in the queue was there before, or its download just completed. -/
theorem Moves.storeFile_origin {ev : ServiceEvent H} {out : List Output}
    (hm : Moves s ev s' out) {info : FileInfo} {call : ℕ}
    (hi : .storeFile info call ∈ s'.commandBuffer) :
    .storeFile info call ∈ s.commandBuffer ∨
      .downloadCompleted ⟨info.name, info.hash, call⟩ info.path ∈ out := by
  rcases hm.command_origin hi with hi | ⟨message, _, hi⟩ | ⟨os, rfl, o, ho, hi⟩
  · exact .inl hi
  · cases hi
  · right
    refine List.mem_flatMap.mpr ⟨o, ho, ?_⟩
    cases o <;> simp_all [Effect.pushed, effectOutput]

/-- A message in the queue was there before or has just been received. -/
theorem Moves.handle_origin {ev : ServiceEvent H} {out : List Output} (hm : Moves s ev s' out)
    {message : Inbound H} (hi : .handle message ∈ s'.commandBuffer) :
    .handle message ∈ s.commandBuffer ∨ ev = .messageReceived message := by
  rcases hm.command_origin hi with hi | ⟨m, rfl, hi⟩ | ⟨os, _, o, _, hi⟩
  · exact .inl hi
  · cases hi
    exact .inr rfl
  · cases o <;> simp [Effect.pushed] at hi

end FileDownloadService

variable {H : Host} {deviceKey directory : String} {maxPacketSize : UInt64}
  {C : Condition (FileDownloadService H) (ServiceEvent H) Output}
  {h : List (Moment (FileDownloadService H) (ServiceEvent H) Output)} {s : FileDownloadService H}

theorem run_wf (hrun : (fileDownloadMachine H deviceKey directory maxPacketSize).Run C h s) :
    s.Wf :=
  hrun.state_invariant FileDownloadService.Wf (FileDownloadService.wf_construct _ _ _)
    fun _ hs _ hstep => (FileDownloadService.step_moves hstep).wf hs

theorem run_directory
    (hrun : (fileDownloadMachine H deviceKey directory maxPacketSize).Run C h s) :
    s.fileDownloadDirectory = directory :=
  hrun.state_invariant (fun s => s.fileDownloadDirectory = directory) rfl
    fun _ hs _ hstep => (FileDownloadService.step_moves hstep).directory_eq.trans hs

theorem run_maxPacketSize
    (hrun : (fileDownloadMachine H deviceKey directory maxPacketSize).Run C h s) :
    s.maxPacketSize = maxPacketSize :=
  hrun.state_invariant (fun s => s.maxPacketSize = maxPacketSize) rfl
    fun _ hs _ hstep => (FileDownloadService.step_moves hstep).maxPacketSize_eq.trans hs

end WolkConnect
