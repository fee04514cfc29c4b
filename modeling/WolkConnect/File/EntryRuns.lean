import WolkConnect.File.DownloaderLife
import WolkConnect.File.ServiceSteps

/-! The downloaders in the map run on their own: what the service does with one of them is
a run of a single `FileDownloader` from its construction on. -/
namespace WolkConnect
open Transition Transition.Machine

variable {H : Host}

/-- What the step is for the downloader of this call: a command, an expiry or nothing. -/
def entryMoment (call : ℕ) (m : Moment (FileDownloadService H) (ServiceEvent H) Output) :
    Option (Moment (FileDownloader Capture) (DownloaderEvent H Capture) (Effect Capture)) :=
  match m.event with
  | .downloaderCommand name created =>
    match m.state.activeDownloads name with
    | none => none
    | some e =>
      if e.call = call then e.commandBuffer.head?.map fun c =>
        ⟨e.downloader, .command c created, (e.downloader.run H c created).2⟩
      else none
  | .timerExpired name =>
    match m.state.activeDownloads name with
    | none => none
    | some e =>
      if e.call = call then e.downloader.timerExpired.map fun r =>
        ⟨e.downloader, .timerExpired, r.2⟩
      else none
  | _ => none

/-- The history of the downloader of this call. -/
def entryHistory (call : ℕ)
    (h : List (Moment (FileDownloadService H) (ServiceEvent H) Output)) :
    List (Moment (FileDownloader Capture) (DownloaderEvent H Capture) (Effect Capture)) :=
  h.filterMap (entryMoment call)

theorem entryHistory_append (call : ℕ)
    (h : List (Moment (FileDownloadService H) (ServiceEvent H) Output))
    (m : Moment (FileDownloadService H) (ServiceEvent H) Output) :
    entryHistory call (h ++ [m]) = entryHistory call h ++ (entryMoment call m).toList := by
  cases hm : entryMoment call m <;> simp [entryHistory, hm]

namespace FileDownloadService

variable {s s' : FileDownloadService H} {ev : ServiceEvent H} {out : List Output}

theorem entryMoment_command {name : String} {e : Entry H} {c : Command H Capture}
    {rest : List (Command H Capture)} (he : s.activeDownloads name = some e)
    (hc : e.commandBuffer = c :: rest) (created : Bool) :
    entryMoment e.call ⟨s, .downloaderCommand name created, out⟩ =
      some ⟨e.downloader, .command c created, (e.downloader.run H c created).2⟩ := by
  simp [entryMoment, he, hc]

theorem entryMoment_expiry {name : String} {e : Entry H}
    {r : FileDownloader Capture × List (Effect Capture)} (he : s.activeDownloads name = some e)
    (hr : e.downloader.timerExpired = some r) :
    entryMoment e.call ⟨s, .timerExpired name, out⟩ =
      some ⟨e.downloader, .timerExpired, r.2⟩ := by
  simp [entryMoment, he, hr]

/-- The step runs a command or an expiry of an entry of this call. -/
inductive Concerns (s : FileDownloadService H) (call : ℕ) : ServiceEvent H →
    Moment (FileDownloader Capture) (DownloaderEvent H Capture) (Effect Capture) → Prop where
  | command (name created e c rest) (he : s.activeDownloads name = some e) (hcall : e.call = call)
      (hc : e.commandBuffer = c :: rest) : Concerns s call (.downloaderCommand name created)
        ⟨e.downloader, .command c created, (e.downloader.run H c created).2⟩
  | expiry (name e r) (he : s.activeDownloads name = some e) (hcall : e.call = call)
      (hr : e.downloader.timerExpired = some r) : Concerns s call (.timerExpired name)
        ⟨e.downloader, .timerExpired, r.2⟩

theorem concerns_of_entryMoment {call : ℕ}
    {m : Moment (FileDownloader Capture) (DownloaderEvent H Capture) (Effect Capture)}
    (hm : entryMoment call ⟨s, ev, out⟩ = some m) : Concerns s call ev m := by
  cases ev with
  | downloaderCommand name created =>
    cases he : s.activeDownloads name with
    | none => simp [entryMoment, he] at hm
    | some e =>
      simp only [entryMoment, he] at hm
      split at hm
      next hcall =>
        cases hc : e.commandBuffer with
        | nil => simp [hc] at hm
        | cons c rest =>
          simp only [hc, List.head?_cons, Option.map_some, Option.some.injEq] at hm
          subst hm
          exact .command name created e c rest he hcall hc
      next => cases hm
  | timerExpired name =>
    cases he : s.activeDownloads name with
    | none => simp [entryMoment, he] at hm
    | some e =>
      simp only [entryMoment, he] at hm
      split at hm
      next hcall =>
        obtain ⟨r, hr, rfl⟩ := Option.map_eq_some_iff.mp hm
        exact .expiry name e r he hcall hr
      next => cases hm
  | _ => cases hm

/-- The service puts out what the downloader's callbacks do. -/
theorem Concerns.output_eq {call : ℕ}
    {m : Moment (FileDownloader Capture) (DownloaderEvent H Capture) (Effect Capture)}
    (h : Concerns s call ev m) (hm : Moves s ev s' out) :
    out = m.output.flatMap s.effectOutput := by
  cases h with
  | command name created e c rest he hcall hc =>
    cases hm with
    | ran _ _ f d _ hf hd =>
      obtain rfl := Option.some.inj (hf.symm.trans he)
      obtain ⟨rfl, _⟩ := List.cons_eq_cons.mp (hd.symm.trans hc)
      rfl
  | expiry name e r he hcall hr =>
    cases hm with
    | expired _ f q hf hq =>
      obtain rfl := Option.some.inj (hf.symm.trans he)
      obtain rfl := Option.some.inj (hq.symm.trans hr)
      rfl

/-- Only commands and expiries of its own downloader concern an entry. -/
theorem entryMoment_idle (hwf : s.Wf) {name : String} {e : Entry H}
    (he : s.activeDownloads name = some e)
    (hev : ∀ created, ev ≠ .downloaderCommand name created) (hexp : ev ≠ .timerExpired name) :
    entryMoment e.call ⟨s, ev, out⟩ = none := by
  by_contra hne
  obtain ⟨m, hm⟩ := Option.ne_none_iff_exists'.mp hne
  cases concerns_of_entryMoment hm with
  | command n created f c rest hf hcall hc =>
    obtain rfl := hwf.call_inj hf he hcall
    exact hev created rfl
  | expiry n f r hf hcall hr =>
    obtain rfl := hwf.call_inj hf he hcall
    exact hexp rfl

theorem entryMoment_fresh (hwf : s.Wf) {call : ℕ} (hcalls : s.calls ≤ call) :
    entryMoment call ⟨s, ev, out⟩ = none := by
  by_contra hne
  obtain ⟨m, hm⟩ := Option.ne_none_iff_exists'.mp hne
  cases concerns_of_entryMoment hm with
  | command n created f c rest hf hcall hc =>
    have hlt := hwf.call_lt hf
    omega
  | expiry n f r hf hcall hr =>
    have hlt := hwf.call_lt hf
    omega

/-- Every entry's downloader is at the end of the run of its own history. -/
structure EntriesRun (h : List (Moment (FileDownloadService H) (ServiceEvent H) Output))
    (s : FileDownloadService H) : Prop where
  entry : ∀ name e, s.activeDownloads name = some e →
    (downloaderMachine H Capture s.maxPacketSize).Run Free (entryHistory e.call h) e.downloader
  fresh : ∀ call, s.calls ≤ call → entryHistory call h = []

variable {h : List (Moment (FileDownloadService H) (ServiceEvent H) Output)}

theorem EntriesRun.entry_step (hr : EntriesRun h s) (hwf : s.Wf) (hm : Moves s ev s' out)
    {name : String} {e' : Entry H} (he' : s'.activeDownloads name = some e') :
    (downloaderMachine H Capture s.maxPacketSize).Run Free
      (entryHistory e'.call (h ++ [⟨s, ev, out⟩])) e'.downloader := by
  rw [entryHistory_append]
  -- an entry that the step does not concern keeps its run
  have hidle {e : Entry H} (he : s.activeDownloads name = some e)
      (hev : ∀ created, ev ≠ .downloaderCommand name created) (hexp : ev ≠ .timerExpired name) :
      (downloaderMachine H Capture s.maxPacketSize).Run Free
        (entryHistory e.call h ++ (entryMoment e.call ⟨s, ev, out⟩).toList) e.downloader := by
    rw [entryMoment_idle hwf he hev hexp, Option.toList_none, List.append_nil]
    exact hr.entry name e he
  cases hm.entryMoves hwf he' with
  | kept _ he hev hexp => exact hidle he hev hexp
  | pushed b e he hq hev hexp => exact hidle (e := e) he hev hexp
  | aborted e he hq hev hexp => exact hidle (e := e) he hev hexp
  | started size hash he hout =>
    change (downloaderMachine H Capture s.maxPacketSize).Run Free
      (entryHistory s.calls h ++ (entryMoment s.calls ⟨s, ev, out⟩).toList) _
    rw [entryMoment_fresh hwf le_rfl, hr.fresh s.calls le_rfl]
    exact .start
  | ran created e c rest he hc hev hout =>
    subst hev
    change (downloaderMachine H Capture s.maxPacketSize).Run Free
      (entryHistory e.call h ++ (entryMoment e.call ⟨s, _, out⟩).toList) _
    rw [entryMoment_command he hc]
    exact (hr.entry name e he).step trivial rfl
  | expired e r he hexp hev =>
    subst hev
    obtain ⟨d, os⟩ := r
    change (downloaderMachine H Capture s.maxPacketSize).Run Free
      (entryHistory e.call h ++ (entryMoment e.call ⟨s, _, out⟩).toList) _
    rw [entryMoment_expiry he hexp]
    exact (hr.entry name e he).step (e := DownloaderEvent.timerExpired) trivial hexp

theorem EntriesRun.step (hr : EntriesRun h s) (hwf : s.Wf) (hm : Moves s ev s' out) :
    EntriesRun (h ++ [⟨s, ev, out⟩]) s' := by
  constructor
  · intro name e' he'
    rw [hm.maxPacketSize_eq]
    exact hr.entry_step hwf hm he'
  · intro call hcall
    have hle := hm.calls_le.trans hcall
    rw [entryHistory_append, entryMoment_fresh hwf hle, hr.fresh call hle]
    rfl

end FileDownloadService

variable {deviceKey directory : String} {maxPacketSize : UInt64}
  {C : Condition (FileDownloadService H) (ServiceEvent H) Output}
  {h : List (Moment (FileDownloadService H) (ServiceEvent H) Output)} {s : FileDownloadService H}

/-- In every run of the service the downloader of an entry is at the end of a run of its own,
which made the same steps. -/
theorem run_entry (hrun : (fileDownloadMachine H deviceKey directory maxPacketSize).Run C h s)
    {name : String} {e : Entry H} (he : s.activeDownloads name = some e) :
    (downloaderMachine H Capture maxPacketSize).Run Free (entryHistory e.call h) e.downloader := by
  have hr : FileDownloadService.EntriesRun h s := by
    apply hrun.invariant FileDownloadService.EntriesRun
    · constructor
      · intro name e he
        cases he
      · intro call hcall
        rfl
    · intro h s s' ev out hr hI _ hstep
      exact hI.step (run_wf hr) (FileDownloadService.step_moves hstep)
  have hentry := hr.entry name e he
  rwa [run_maxPacketSize hrun] at hentry

/-- What a downloader's history throws, the service throws. -/
theorem throws_of_entryHistory
    (hrun : (fileDownloadMachine H deviceKey directory maxPacketSize).Run C h s) {call : ℕ}
    (ht : .badFunctionCall ∈ outputs (entryHistory call h)) : .badFunctionCall ∈ outputs h := by
  obtain ⟨m, hm, ho⟩ := List.mem_flatMap.mp ht
  obtain ⟨n, hn, hnm⟩ := List.mem_filterMap.mp hm
  obtain ⟨k, l, rfl⟩ := List.append_of_mem hn
  obtain ⟨_, _, s', hstep⟩ := hrun.moment
  have hout := (FileDownloadService.concerns_of_entryMoment hnm).output_eq
    (FileDownloadService.step_moves hstep)
  apply List.mem_flatMap.mpr
  refine ⟨n, hn, ?_⟩
  rw [hout]
  exact List.mem_flatMap.mpr ⟨_, ho, List.mem_singleton.mpr rfl⟩

/-- A packet that was delivered to a downloader in the map after its download was over makes
the downloader's worker call the null packet provider. -/
theorem late_delivery_throws
    (hrun : (fileDownloadMachine H deviceKey directory maxPacketSize).Run C h s)
    (hthrow : .badFunctionCall ∉ outputs h) {name : String} {e : Entry H}
    (he : s.activeDownloads name = some e) (hover : isOver (entryHistory e.call h) = true)
    {b : H.BinaryData} {rest : List (Command H Capture)}
    (hc : e.commandBuffer = .handleData b :: rest) (created : Bool) :
    ∃ s', s.step (.downloaderCommand name created) = some (s', [.badFunctionCall]) := by
  have hno : .badFunctionCall ∉ outputs (entryHistory e.call h) :=
    fun ht => hthrow (throws_of_entryHistory hrun ht)
  have ht : (e.downloader.run H (.handleData b) created).2 = [.badFunctionCall] := by
    obtain ⟨hi, hcleared⟩ := idle_of_over (run_entry hrun he) hover
    exact (hi.handleData_of_not_clears ((hcleared hno).not_clears b) created).1
  simp only [FileDownloadService.step, he, hc]
  refine ⟨_, congrArg some (Prod.ext rfl ?_)⟩
  rw [FileDownloadService.performAll_output, ht]
  rfl

end WolkConnect
