import WolkConnect.File.ThreadRuns

/-! The outcomes of one download, whose worker, aborts and sweeps are threads of their own: how
many terminal statuses are published for it, and when an abort adds one. -/
namespace WolkConnect
open Transition Transition.Machine

/-- A terminal status of the given call. -/
def Output.isTerminalOf (call : ℕ) : Output → Bool
  | .publishStatus c (.status _ .fileReady) => c == some call
  | .publishStatus c (.status _ .aborted) => c == some call
  | .publishStatus c (.error _ _) => c == some call
  | _ => false

def terminalStatuses (call : ℕ) (os : List Output) : ℕ := os.countP (Output.isTerminalOf call)

/-- The queued command that will answer `FILE_READY` for the call. -/
def ServiceCommand.isStoreOf {H : Host} (call : ℕ) : ServiceCommand H → Bool
  | .storeFile _ c => c == call
  | _ => false

def pendingReady {H : Host} (call : ℕ) (cs : List (ServiceCommand H)) : ℕ :=
  cs.countP (ServiceCommand.isStoreOf call)

@[simp] theorem terminalStatuses_nil (call : ℕ) : terminalStatuses call [] = 0 := rfl

@[simp] theorem terminalStatuses_append (call : ℕ) (os ps : List Output) :
    terminalStatuses call (os ++ ps) = terminalStatuses call os + terminalStatuses call ps :=
  List.countP_append

theorem terminalStatuses_cons (call : ℕ) (o : Output) (os : List Output) :
    terminalStatuses call (o :: os) =
      terminalStatuses call os + if o.isTerminalOf call then 1 else 0 :=
  List.countP_cons

@[simp] theorem pendingReady_append {H : Host} (call : ℕ) (cs ds : List (ServiceCommand H)) :
    pendingReady call (cs ++ ds) = pendingReady call cs + pendingReady call ds :=
  List.countP_append

@[simp] theorem pendingReady_nil {H : Host} (call : ℕ) :
    pendingReady call ([] : List (ServiceCommand H)) = 0 := rfl

theorem pendingReady_cons {H : Host} (call : ℕ) (c : ServiceCommand H)
    (cs : List (ServiceCommand H)) :
    pendingReady call (c :: cs) = pendingReady call cs + if c.isStoreOf call then 1 else 0 :=
  List.countP_cons

namespace FileDownloadService

variable {H : Host} {s s' : FileDownloadService H}

theorem sendStatus_terminal (s : FileDownloadService H) (call : ℕ) (c : Option ℕ)
    (response : FileUploadStatus) :
    terminalStatuses call (s.sendStatus c response) ≤
      if (Output.publishStatus c response).isTerminalOf call then 1 else 0 := by
  unfold sendStatus
  split
  · simp [terminalStatuses, List.countP_cons]
  · simp

/-- Only an outcome callback of the call itself says or queues anything terminal for it. -/
theorem effect_outcomes (s : FileDownloadService H) (call : ℕ) {o : Effect Capture} {k : Capture}
    (hk : ∀ k' ∈ o.callback, k' = k) :
    terminalStatuses call (s.effectOutput o) + pendingReady call (o.pushed H) ≤
      if k.call = call ∧ o.isOutcome = true then 1 else 0 := by
  cases o with
  | packetProvider callback request =>
    simp only [effectOutput, requestPacket]
    split <;> simp [terminalStatuses, Output.isTerminalOf, Effect.pushed]
  | createBinaryFileWithContent path content created =>
    simp [effectOutput, terminalStatuses, Output.isTerminalOf, Effect.pushed]
  | onSuccess callback path =>
    obtain rfl : callback = k := hk callback rfl
    simp [effectOutput, terminalStatuses, Output.isTerminalOf, Effect.pushed, pendingReady,
      ServiceCommand.isStoreOf, Effect.isOutcome, List.countP_cons]
  | onFail callback code =>
    obtain rfl : callback = k := hk callback rfl
    have hs := s.sendStatus_terminal call (some callback.call) (.error callback.fileName code)
    simp only [Output.isTerminalOf] at hs
    simpa [effectOutput, terminalStatuses, Output.isTerminalOf, Effect.pushed, pendingReady,
      ServiceCommand.isStoreOf, Effect.isOutcome, List.countP_cons] using hs
  | badFunctionCall =>
    simp [effectOutput, terminalStatuses, Output.isTerminalOf, Effect.pushed]

/-- A command of the service queue adds no outcome to the call, or it aborts the download of the
call, adds one and leaves its entry flagged. -/
theorem Moves.serviceOutcome {fileInfo : Option FileInfo} {out : List Output}
    (hm : Moves s (.serviceCommand fileInfo) s' out) (call : ℕ) :
    terminalStatuses call out + pendingReady call s'.commandBuffer ≤
        pendingReady call s.commandBuffer ∨
      ∃ name rest e, s.commandBuffer = .handle (.fileUploadAbort name) :: rest ∧
        s.activeDownloads name = some e ∧ e.call = call ∧
        terminalStatuses call out + pendingReady call s'.commandBuffer ≤
          pendingReady call s.commandBuffer + 1 ∧
        ∀ e', s'.activeDownloads name = some e' → e'.flag = true := by
  have hpopped {c : ServiceCommand H} {rest : List (ServiceCommand H)}
      (hq : s.commandBuffer = c :: rest) :
      pendingReady call rest ≤ pendingReady call s.commandBuffer := by
    rw [hq, pendingReady_cons]
    omega
  cases hm with
  | routed b _ rest e hq he =>
    left
    simpa [setEntry] using hpopped hq
  | replied message _ rest _ hq hout =>
    left
    have hz : terminalStatuses call out = 0 := by
      rcases hout with rfl | ⟨response, rfl⟩
      · rfl
      · have hs := s.sendStatus_terminal call none response
        cases response with
        | status n st => cases st <;> simpa [Output.isTerminalOf] using hs
        | error n code => simpa [Output.isTerminalOf] using hs
    rw [hz, Nat.zero_add]
    exact hpopped hq
  | started name size hash rest hq hreach he =>
    left
    have hs := s.sendStatus_terminal call (some s.calls) (.status name .fileTransfer)
    have hp := hpopped hq
    simp only [Output.isTerminalOf, Bool.false_eq_true, ↓reduceIte, Nat.le_zero] at hs
    simp [hs, terminalStatuses_cons, Output.isTerminalOf, hp]
  | aborted name _ rest e hq hname he =>
    have hs := s.sendStatus_terminal call (some e.call) (.status name .aborted)
    have hp := hpopped hq
    simp only [Output.isTerminalOf, beq_iff_eq, Option.some.injEq] at hs
    by_cases hcall : e.call = call
    · right
      refine ⟨name, rest, e, hq, he, hcall, ?_, ?_⟩
      · rw [if_pos hcall] at hs
        simp only
        omega
      · intro e' he'
        rcases update_some he' with ⟨_, rfl⟩ | ⟨hne, _⟩
        · rfl
        · exact absurd rfl hne
    · left
      rw [if_neg hcall] at hs
      simp only
      omega
  | stored info c _ rest hq =>
    left
    have hs := s.sendStatus_terminal call (some c) (.status info.name .fileReady)
    simp only [Output.isTerminalOf, beq_iff_eq, Option.some.injEq] at hs
    rw [terminalStatuses_cons, hq, pendingReady_cons]
    simp only [Output.isTerminalOf, ServiceCommand.isStoreOf, beq_iff_eq, Bool.false_eq_true,
      ↓reduceIte]
    omega
  | listed _ rest hq =>
    left
    simpa [terminalStatuses_cons, Output.isTerminalOf] using hpopped hq

/-- A command of the service queue leaves an entry to its call. -/
theorem Moves.entry_stays (hwf : s.Wf) {fileInfo : Option FileInfo} {out : List Output}
    (hm : Moves s (.serviceCommand fileInfo) s' out) {name : String} {e : Entry H}
    (he : s.activeDownloads name = some e) :
    ∃ e', s'.activeDownloads name = some e' ∧ e'.capture name = e.capture name := by
  obtain ⟨e', he', -⟩ := hm.entry_kept he
  refine ⟨e', he', ?_⟩
  cases hm.entryMoves hwf he' with
  | kept _ hf hev =>
    obtain rfl := Option.some.inj (he.symm.trans hf)
    rfl
  | pushed b f hf hq hev =>
    obtain rfl := Option.some.inj (he.symm.trans hf)
    rfl
  | aborted f hf hq hev =>
    obtain rfl := Option.some.inj (he.symm.trans hf)
    rfl
  | started size hash hf hout =>
    rw [hf] at he
    cases he
  | ran created f c rest hf hq hev hout => cases hev
  | expired f r hf hr hev => cases hev

end FileDownloadService

abbrev ThreadHistory (H : Host) := List (Moment (Threads H) (ThreadEvent H) Output)

namespace Threads

variable {H : Host} {x x' : Threads H} {ev : ThreadEvent H} {out : List Output}
  {h : ThreadHistory H}

/-- Every download is ended once: an abort finds it neither finished nor with an outcome that its
worker has still to tell, and nothing that ends it starts in the downloader of a flagged entry. -/
def ConcludesOnce : Condition (Threads H) (ThreadEvent H) Output :=
  fun h x ev => FlagsOnce h x ev ∧ match ev with
    | .serviceCommand _ => ∀ name rest e,
      x.service.commandBuffer = .handle (.fileUploadAbort name) :: rest →
        x.service.activeDownloads name = some e → e.flag = false
    | _ => True

/-- A step from `x` to `x'` adds no outcome to the call, or it ends the unfinished download of the
call, adds one and leaves its entry flagged. -/
def AddsOutcome (x x' : Threads H) (out : List Output) (call : ℕ) : Prop :=
  terminalStatuses call out + pendingReady call x'.service.commandBuffer ≤
      pendingReady call x.service.commandBuffer ∨
    ∃ name e, x.service.activeDownloads name = some e ∧ e.call = call ∧ e.flag = false ∧
      terminalStatuses call out + pendingReady call x'.service.commandBuffer ≤
        pendingReady call x.service.commandBuffer + 1 ∧
      ∀ e', x'.service.activeDownloads name = some e' → e'.flag = true

/-- What a worker has still to call belongs to the entry that it works for. -/
def Owned (x : Threads H) : Prop :=
  ∀ name os, x.worker name = some os → ∃ e, x.service.activeDownloads name = some e ∧
    ∀ o ∈ os, ∀ k ∈ o.callback, k = e.capture name

theorem perform_activeDownloads (s : FileDownloadService H) (o : Effect Capture) (name : String) :
    (s.perform o).1.activeDownloads name = (s.activeDownloads name).map fun e =>
      { e with flag := e.flag || o.isOutcomeOf name } := by
  rw [FileDownloadService.perform_eq]
  simp [FileDownloadService.flagged]

theorem AddsOutcome.callback (hok : x.Ok) (howned : x.Owned) {name : String} {o : Effect Capture}
    {os : List (Effect Capture)} (hw : x.worker name = some (o :: os)) (call : ℕ) :
    AddsOutcome x { x with
      service := (x.service.perform o).1, worker := Function.update x.worker name (some os) }
      (x.service.perform o).2 call := by
  obtain ⟨e, he, hk⟩ := howned name _ hw
  have hk := hk o List.mem_cons_self
  have heff := x.service.effect_outcomes call hk
  have hbuffer : (x.service.perform o).1.commandBuffer =
      x.service.commandBuffer ++ o.pushed H := by
    rw [FileDownloadService.perform_eq]
  have hout : (x.service.perform o).2 = x.service.effectOutput o := by
    rw [FileDownloadService.perform_eq]
  unfold AddsOutcome
  dsimp only
  rw [hbuffer, hout, pendingReady_append]
  by_cases hends : (e.capture name).call = call ∧ o.isOutcome = true
  · right
    rw [if_pos hends] at heff
    obtain ⟨hcall, ho⟩ := hends
    refine ⟨name, e, he, hcall, ?_, by omega, ?_⟩
    · by_contra hf
      refine hok.flagged name e he (by simpa using hf) ⟨_, hw, ?_⟩
      simp [FileDownloader.outcomeCalls, ho]
    · intro e' he'
      rw [perform_activeDownloads, he] at he'
      obtain rfl := Option.some.inj he'
      have hown : o.isOutcomeOf name = true := by
        cases o with
        | onSuccess k path => simp [Effect.isOutcomeOf, hk k rfl, Entry.capture]
        | onFail k code => simp [Effect.isOutcomeOf, hk k rfl, Entry.capture]
        | _ => cases ho
      simp [hown]
  · left
    rw [if_neg hends] at heff
    omega

theorem Moves.addsOutcome (hok : x.Ok) (howned : x.Owned) (hc : ConcludesOnce h x ev)
    (hm : Moves x ev x' out) (call : ℕ) : AddsOutcome x x' out call := by
  cases hm with
  | received message =>
    left
    simp [FileDownloadService.addToCommandBuffer, pendingReady, ServiceCommand.isStoreOf]
  | served fileInfo s' out hs =>
    rcases (FileDownloadService.step_moves hs).serviceOutcome call with
      hle | ⟨name, rest, e, hq, he, hcall, hle, hflag⟩
    · exact .inl hle
    · exact .inr ⟨name, e, he, hcall, hc.2 name rest e hq he, hle, hflag⟩
  | began name created e c rest he hw hq =>
    exact .inl (by simp [enter, FileDownloadService.setEntry])
  | expired name e r he hw hr => exact .inl (by simp [enter, FileDownloadService.setEntry])
  | called name o os hw hfree => exact .callback hok howned hw call
  | _ => exact .inl (by simp)

/-- Where the entry of a name after a step comes from. -/
theorem Moves.entry_origin (hok : x.Ok) (hm : Moves x ev x' out) {name : String} {e' : Entry H}
    (he' : x'.service.activeDownloads name = some e') :
    (∃ e, x.service.activeDownloads name = some e ∧ e.call = e'.call ∧
      (e.flag = true → e'.flag = true)) ∨ e'.call = x.service.calls := by
  cases hm with
  | served fileInfo s' out hs =>
    rcases (FileDownloadService.step_moves hs).entry_origin hok.wf he' with
      ⟨e, he, hcall, -, hflag⟩ | ⟨size, hnew, -⟩
    · exact .inl ⟨e, he, hcall, hflag⟩
    · right
      rw [hnew]
      rfl
  | began n created e c rest he hw hq =>
    rcases FileDownloadService.update_some he' with ⟨rfl, rfl⟩ | ⟨-, hs⟩
    · exact .inl ⟨e, he, rfl, id⟩
    · exact .inl ⟨e', hs, rfl, id⟩
  | expired n e r he hw hr =>
    rcases FileDownloadService.update_some he' with ⟨rfl, rfl⟩ | ⟨-, hs⟩
    · exact .inl ⟨e, he, rfl, id⟩
    · exact .inl ⟨e', hs, rfl, id⟩
  | called n o os hw hfree =>
    dsimp only at he'
    rw [perform_activeDownloads] at he'
    obtain ⟨e, he, rfl⟩ := Option.map_eq_some_iff.mp he'
    exact .inl ⟨e, he, rfl, fun hf => by simp [hf]⟩
  | destroyed n hdes hw =>
    exact .inl ⟨e', FileDownloadService.of_update_none he', rfl, id⟩
  | _ => exact .inl ⟨e', he', rfl, id⟩

theorem Moves.calls_le (hm : Moves x ev x' out) : x.service.calls ≤ x'.service.calls := by
  cases hm with
  | served fileInfo s' out hs => exact (FileDownloadService.step_moves hs).calls_le
  | called name o os hw hfree =>
    dsimp only
    rw [FileDownloadService.perform_eq]
  | _ => exact Nat.le_refl _

theorem Owned.enter (howned : x.Owned) {name : String} {e e' : Entry H}
    {os : List (Effect Capture)} (hsame : e'.capture name = e.capture name)
    (hk : ∀ o ∈ os, ∀ k ∈ o.callback, k = e.capture name) : (x.enter name e' os).Owned := by
  intro n ps hps
  by_cases hn : n = name
  · subst hn
    obtain rfl : os = ps := by simpa [Threads.enter] using hps
    refine ⟨e', by simp [Threads.enter, FileDownloadService.setEntry], ?_⟩
    rw [hsame]
    exact hk
  · obtain ⟨f, hf, hown⟩ := howned n ps (by simpa [Threads.enter, hn] using hps)
    exact ⟨f, by simpa [Threads.enter, FileDownloadService.setEntry, hn] using hf, hown⟩

theorem Moves.owned (hok : x.Ok) (howned : x.Owned) (hm : Moves x ev x' out) : x'.Owned := by
  cases hm with
  | served fileInfo s' out hs =>
    intro name os hw
    obtain ⟨e, he, hk⟩ := howned name os hw
    obtain ⟨e', he', hsame⟩ := (FileDownloadService.step_moves hs).entry_stays hok.wf he
    refine ⟨e', he', ?_⟩
    rw [hsame]
    exact hk
  | began name created e c rest he hw hq =>
    exact howned.enter rfl ((hok.wf.entry he).ran hq created).2
  | expired name e r he hw hr => exact howned.enter rfl ((hok.wf.entry he).expired hr).2
  | called name o os hw hfree =>
    have hentry {n : String} {e : Entry H} (he : x.service.activeDownloads n = some e) :
        ∃ e', (x.service.perform o).1.activeDownloads n = some e' ∧
          e'.capture n = e.capture n := by
      rw [perform_activeDownloads, he]
      exact ⟨_, rfl, rfl⟩
    intro n ps hps
    have hbefore : ∃ qs, x.worker n = some qs ∧ ps ⊆ qs := by
      by_cases hn : n = name
      · subst hn
        obtain rfl : os = ps := by simpa using hps
        exact ⟨_, hw, List.subset_cons_self o os⟩
      · exact ⟨ps, by simpa [hn] using hps, List.Subset.refl ps⟩
    obtain ⟨qs, hqs, hsub⟩ := hbefore
    obtain ⟨e, he, hk⟩ := howned n qs hqs
    obtain ⟨e', he', hsame⟩ := hentry he
    refine ⟨e', he', ?_⟩
    rw [hsame]
    exact fun p hp => hk p (hsub hp)
  | ended name hw => exact fun n ps hps => howned n ps (FileDownloadService.of_update_none hps)
  | destroyed name hdes hw =>
    intro n ps hps
    have hn : n ≠ name := by
      rintro rfl
      rw [hw] at hps
      cases hps
    obtain ⟨e, he, hk⟩ := howned n ps hps
    exact ⟨e, by simpa [hn] using he, hk⟩
  | _ => exact howned

/-- The terminal statuses of a call and those that are queued for it. -/
def outcomes (h : ThreadHistory H) (x : Threads H) (call : ℕ) : ℕ :=
  terminalStatuses call (outputs h) + pendingReady call x.service.commandBuffer

/-- A call has at most one outcome, and none while its download is not finished. -/
structure OutcomesOk (h : ThreadHistory H) (x : Threads H) : Prop where
  ok : x.Ok
  owned : x.Owned
  le_one : ∀ call, outcomes h x call ≤ 1
  fresh : ∀ call, x.service.calls ≤ call → outcomes h x call = 0
  unfinished : ∀ name e, x.service.activeDownloads name = some e → e.flag = false →
    outcomes h x e.call = 0

theorem OutcomesOk.step (hok : OutcomesOk h x) (hc : ConcludesOnce h x ev)
    (hm : Moves x ev x' out) : OutcomesOk (h ++ [⟨x, ev, out⟩]) x' := by
  have hstep (call : ℕ) : outcomes (h ++ [⟨x, ev, out⟩]) x' call ≤ outcomes h x call ∨
      ∃ name e, x.service.activeDownloads name = some e ∧ e.call = call ∧ e.flag = false ∧
        outcomes (h ++ [⟨x, ev, out⟩]) x' call ≤ outcomes h x call + 1 ∧
        ∀ e', x'.service.activeDownloads name = some e' → e'.flag = true := by
    have hadd := hm.addsOutcome hok.ok hok.owned hc call
    simp only [outcomes, outputs_append, outputs_singleton, terminalStatuses_append]
    rcases hadd with hle | ⟨name, e, he, hcall, hf, hle, hflag⟩
    · left
      omega
    · right
      exact ⟨name, e, he, hcall, hf, by omega, hflag⟩
  refine ⟨hok.ok.step hc.1 hm, hm.owned hok.ok hok.owned, ?_, ?_, ?_⟩
  · intro call
    rcases hstep call with hle | ⟨name, e, he, hcall, hf, hle, -⟩
    · exact hle.trans (hok.le_one call)
    · have hz := hok.unfinished name e he hf
      rw [hcall] at hz
      omega
  · intro call hcalls
    have hz := hok.fresh call (hm.calls_le.trans hcalls)
    rcases hstep call with hle | ⟨name, e, he, hcall, -⟩
    · omega
    · have hlt := hok.ok.wf.call_lt he
      have hle := hm.calls_le
      omega
  · intro name e' he' hf'
    rcases hm.entry_origin hok.ok he' with ⟨e, he, hcall, hkeep⟩ | hnew
    · have hf : e.flag = false := by
        cases hflag : e.flag
        · rfl
        · rw [hkeep hflag] at hf'
          cases hf'
      have hz := hok.unfinished name e he hf
      rw [hcall] at hz
      rcases hstep e'.call with hle | ⟨n, f, hn, hcall', -, -, hflag⟩
      · omega
      · obtain rfl := hok.ok.wf.call_inj hn he (hcall'.trans hcall.symm)
        rw [hflag e' he'] at hf'
        cases hf'
    · have hz := hok.fresh e'.call hnew.ge
      rcases hstep e'.call with hle | ⟨n, f, hn, hcall', -⟩
      · omega
      · have hlt := hok.ok.wf.call_lt hn
        omega

end Threads

variable {H : Host} {deviceKey directory : String} {maxPacketSize : UInt64}
  {h : ThreadHistory H} {x : Threads H}

/-- As long as nothing ends a download that is finished or about to be, every call gets at most
one terminal status, whatever comes between the steps of its worker. -/
theorem at_most_one_outcome
    (hrun : (threadMachine H deviceKey directory maxPacketSize).Run Threads.ConcludesOnce h x)
    (call : ℕ) : terminalStatuses call (outputs h) ≤ 1 := by
  have hok : Threads.OutcomesOk h x := by
    apply hrun.invariant Threads.OutcomesOk
    · exact ⟨⟨FileDownloadService.wf_construct _ _ _, nofun, nofun, nofun, nofun⟩, nofun,
        fun _ => Nat.zero_le 1, fun _ _ => rfl, nofun⟩
    · intro h x x' ev out _ hok hc hstep
      exact hok.step hc (Threads.step_moves hstep)
  have hle := hok.le_one call
  unfold Threads.outcomes at hle
  omega

/-- A download is started and aborted before anything of it arrives. -/
theorem at_most_one_outcome_sample : ∃ h x, sampleThreads.Run Threads.ConcludesOnce h x ∧
    .publishStatus (some 0) (.status "f" .aborted) ∈ outputs h ∧
    terminalStatuses 0 (outputs h) ≤ 1 := by
  have hr : sampleThreads.Run Threads.ConcludesOnce _ _ :=
    (((Run.start.step (e := .messageReceived (.fileUploadInitiate "f" 1 sampleHash))
      ⟨trivial, trivial⟩ rfl).step (e := .messageReceived (.fileUploadAbort "f"))
      ⟨trivial, trivial⟩ rfl).step (e := .serviceCommand none)
      (by
        constructor
        · exact fun _ _ _ => Threads.not_willFlag_of_none rfl
        · intro name rest e hq
          cases hq) rfl).step (e := .serviceCommand none)
      (by
        constructor
        · exact fun _ _ _ => Threads.not_willFlag_of_none rfl
        · intro name rest e _ he
          rcases FileDownloadService.update_some he with ⟨_, rfl⟩ | ⟨_, he⟩
          · rfl
          · cases he) rfl
  exact ⟨_, _, hr, by decide, at_most_one_outcome hr 0⟩

/-- The abort is handled while the worker has written the file and not yet said so. -/
def sampleLateAbort : List (ThreadEvent sampleHost) :=
  [.messageReceived (.fileUploadInitiate "f" 1 sampleHash), .serviceCommand none,
    .beginCommand "f" true, .callback "f", .endCommand "f",
    .messageReceived (.binaryData (sampleHost.packet firstPreviousHash [97])),
    .serviceCommand none, .beginCommand "f" true, .callback "f",
    .messageReceived (.fileUploadAbort "f"), .serviceCommand none, .callback "f",
    .endCommand "f", .serviceCommand none]

/-- The last packet is in and the file is written; the abort that comes before the
collector's sweep is handled too: `FILE_READY` and `ABORTED` for one download. They come in the
other order where the abort is handled before the worker has flagged the entry. -/
theorem two_outcomes :
    (∃ h x, sampleThreads.Run Free h x ∧
      .publishStatus (some 0) (.status "f" .fileReady) ∈ outputs h ∧
      .publishStatus (some 0) (.status "f" .aborted) ∈ outputs h ∧
      ¬ terminalStatuses 0 (outputs h) ≤ 1) ∧
    ∃ h x, sampleThreads.Run Free h x ∧
      (outputs h).filter (Output.isTerminalOf 0) =
        [.publishStatus (some 0) (.status "f" .aborted),
          .publishStatus (some 0) (.status "f" .fileReady)] := by
  constructor
  · obtain ⟨h, s, hr, hp⟩ := sampleService.exists_run_of_replay Free
      (sampleTransfer ++ [.downloaderCommand "f" true, .messageReceived (.fileUploadAbort "f"),
        .serviceCommand none, .serviceCommand none, .serviceCommand none])
      (fun h _ => decide (.publishStatus (some 0) (.status "f" .fileReady) ∈ outputs h) &&
        decide (.publishStatus (some 0) (.status "f" .aborted) ∈ outputs h) &&
        decide (¬ terminalStatuses 0 (outputs h) ≤ 1)) (by decide +kernel)
    simp only [Bool.and_eq_true, decide_eq_true_eq] at hp
    obtain ⟨k, hk, hout⟩ := thread_run_of_run hr
    rw [← hout] at hp
    exact ⟨k, _, hk, hp.1.1, hp.1.2, hp.2⟩
  · obtain ⟨h, x, hr, hp⟩ := sampleThreads.exists_run_of_replay Free sampleLateAbort
      (fun h _ => decide ((outputs h).filter (Output.isTerminalOf 0) =
        [.publishStatus (some 0) (.status "f" .aborted),
          .publishStatus (some 0) (.status "f" .fileReady)])) (by decide +kernel)
    exact ⟨h, x, hr, of_decide_eq_true hp⟩

end WolkConnect
