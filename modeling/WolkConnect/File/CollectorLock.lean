import WolkConnect.File.ServiceSteps

/-! The threads around `m_mutex`: the service queue, the worker of every downloader, whose
callbacks flag its entry, and the collector, which destroys downloaders under the mutex and
waits there for the command or expiry that is running in them. -/
namespace WolkConnect
open Transition Transition.Machine

/-- The loop of `clearDownloads`. It holds `m_mutex` unless it is idle. -/
inductive Collector where
  | idle
  | sweeping
  | destroying (fileName : String)
  deriving DecidableEq

/-- The shared data and the threads. `worker` gives the callbacks that the command or
expiry running in a downloader has still to call, or `none` if nothing runs in it. -/
structure Threads (H : Host) where
  service : FileDownloadService H
  worker : String → Option (List (Effect Capture))
  collector : Collector

inductive ThreadEvent (H : Host) where
  | messageReceived (message : Inbound H)
  | serviceCommand (fileInfo : Option FileInfo)
  | beginCommand (fileName : String) (created : Bool)
  | beginExpiry (fileName : String)
  | callback (fileName : String)
  | endCommand (fileName : String)
  | beginSweep
  | beginDestroy (fileName : String)
  | endDestroy
  | endSweep

namespace FileDownloadService

variable {H : Host}

instance (s : FileDownloadService H) (name : String) (size : UInt64) (hash : String)
    (fileInfo : Option FileInfo) : Decidable (s.ReachesDownload name size hash fileInfo) :=
  inferInstanceAs (Decidable (_ ∧ _))

/-- Whether the command locks `m_mutex`. -/
def locks (s : FileDownloadService H) (fileInfo : Option FileInfo) : ServiceCommand H → Bool
  | .handle (.binaryData _) => true
  | .handle (.fileUploadInitiate name size hash) =>
    decide (s.ReachesDownload name size hash fileInfo)
  | .handle (.fileUploadAbort name) => decide (name ≠ "")
  | _ => false

end FileDownloadService

namespace Threads

variable {H : Host}

def start (H : Host) (deviceKey fileDownloadDirectory : String) (maxPacketSize : UInt64) :
    Threads H where
  service := .construct H deviceKey fileDownloadDirectory maxPacketSize
  worker _ := none
  collector := .idle

/-- The collector holds `m_mutex`. All other threads lock it within one of their steps. -/
def held (x : Threads H) : Bool := decide (x.collector ≠ .idle)

/-- Start of a command or expiry of the downloader in an entry. -/
def enter (x : Threads H) (fileName : String) (e : Entry H) (os : List (Effect Capture)) :
    Threads H :=
  { x with
    service := x.service.setEntry fileName e
    worker := Function.update x.worker fileName (some os) }

/-- Nothing starts in a downloader that is being destroyed or is busy. The end of a sweep
is not tied to the flags, so it may also leave flagged entries behind. -/
def step (x : Threads H) : ThreadEvent H → Option (Threads H × List Output)
  | .messageReceived message =>
    some ({ x with service := x.service.addToCommandBuffer (.handle message) }, [])
  | .serviceCommand fileInfo =>
    match x.service.commandBuffer with
    | [] => none
    | c :: _ =>
      if x.held ∧ x.service.locks fileInfo c then none
      else (x.service.step (.serviceCommand fileInfo)).map fun r => ({ x with service := r.1 }, r.2)
  | .beginCommand fileName created =>
    match x.service.activeDownloads fileName, x.worker fileName with
    | some e, none =>
      match e.commandBuffer with
      | [] => none
      | c :: rest =>
        if x.collector = .destroying fileName then none
        else
          let r := e.downloader.run H c created
          some (x.enter fileName { e with downloader := r.1, commandBuffer := rest } r.2, [])
    | _, _ => none
  | .beginExpiry fileName =>
    match x.service.activeDownloads fileName, x.worker fileName with
    | some e, none =>
      match e.downloader.timerExpired with
      | none => none
      | some r =>
        if x.collector = .destroying fileName then none
        else some (x.enter fileName { e with downloader := r.1 } r.2, [])
    | _, _ => none
  | .callback fileName =>
    match x.worker fileName with
    | some (o :: os) =>
      if x.held ∧ o.isOutcome then none
      else
        let r := x.service.perform o
        some ({ x with
          service := r.1
          worker := Function.update x.worker fileName (some os) }, r.2)
    | _ => none
  | .endCommand fileName =>
    if x.worker fileName = some [] then
      some ({ x with worker := Function.update x.worker fileName none }, [])
    else none
  | .beginSweep =>
    if x.collector = .idle then some ({ x with collector := .sweeping }, []) else none
  | .beginDestroy fileName =>
    match x.service.activeDownloads fileName with
    | none => none
    | some e =>
      if x.collector = .sweeping ∧ e.flag then
        some ({ x with collector := .destroying fileName }, [])
      else none
  | .endDestroy =>
    match x.collector with
    | .destroying fileName =>
      if x.worker fileName = none then
        some ({ x with
          service := { x.service with
            activeDownloads := Function.update x.service.activeDownloads fileName none }
          collector := .sweeping }, [])
      else none
    | _ => none
  | .endSweep =>
    if x.collector = .sweeping then some ({ x with collector := .idle }, []) else none

/-- The collector waits for a downloader whose worker waits for `m_mutex`. -/
def Deadlocked (x : Threads H) : Prop :=
  ∃ fileName o os, x.collector = .destroying fileName ∧ x.worker fileName = some (o :: os) ∧
    o.isOutcome = true

/-- A downloader's worker has still to flag its entry. -/
def WillFlag (x : Threads H) (fileName : String) : Prop :=
  ∃ os, x.worker fileName = some os ∧ FileDownloader.outcomeCalls os ≠ 0

/-- An abort flags no entry whose worker has still to flag it, and nothing that ends the
download starts in the downloader of a flagged entry. -/
def FlagsOnce : Condition (Threads H) (ThreadEvent H) Output :=
  fun _ x ev => match ev with
    | .serviceCommand _ => ∀ name rest,
      x.service.commandBuffer = .handle (.fileUploadAbort name) :: rest → ¬ x.WillFlag name
    | .beginCommand name _ => ∀ e b rest, x.service.activeDownloads name = some e →
      e.flag = true → e.commandBuffer = .handleData b :: rest → ¬ e.downloader.EndsOn H b
    | .beginExpiry name => ∀ e, x.service.activeDownloads name = some e →
      e.flag = true → ¬ e.downloader.EndsOnFailure
    | _ => True

/-- The inversion of `step`. -/
inductive Moves : Threads H → ThreadEvent H → Threads H → List Output → Prop where
  | received (x message) : Moves x (.messageReceived message)
      { x with service := x.service.addToCommandBuffer (.handle message) } []
  | served (x fileInfo s' out) (hs : x.service.step (.serviceCommand fileInfo) = some (s', out)) :
      Moves x (.serviceCommand fileInfo) { x with service := s' } out
  | began (x name created e c rest) (he : x.service.activeDownloads name = some e)
      (hw : x.worker name = none) (hc : e.commandBuffer = c :: rest) :
      Moves x (.beginCommand name created) (x.enter name { e with
        downloader := (e.downloader.run H c created).1, commandBuffer := rest }
        (e.downloader.run H c created).2) []
  | expired (x name e r) (he : x.service.activeDownloads name = some e)
      (hw : x.worker name = none) (hr : e.downloader.timerExpired = some r) :
      Moves x (.beginExpiry name) (x.enter name { e with downloader := r.1 } r.2) []
  | called (x name o os) (hw : x.worker name = some (o :: os))
      (hfree : o.isOutcome = true → x.collector = .idle) :
      Moves x (.callback name) { x with
        service := (x.service.perform o).1, worker := Function.update x.worker name (some os) }
        (x.service.perform o).2
  | ended (x name) (hw : x.worker name = some []) :
      Moves x (.endCommand name) { x with worker := Function.update x.worker name none } []
  | swept (x) (hc : x.collector = .idle) : Moves x .beginSweep { x with collector := .sweeping } []
  | destroys (x name e) (he : x.service.activeDownloads name = some e) (hf : e.flag = true)
      (hc : x.collector = .sweeping) :
      Moves x (.beginDestroy name) { x with collector := .destroying name } []
  | destroyed (x name) (hc : x.collector = .destroying name) (hw : x.worker name = none) :
      Moves x .endDestroy { x with
        service := { x.service with
          activeDownloads := Function.update x.service.activeDownloads name none }
        collector := .sweeping } []
  | rested (x) (hc : x.collector = .sweeping) : Moves x .endSweep { x with collector := .idle } []

theorem step_moves {x x' : Threads H} {ev : ThreadEvent H} {out : List Output}
    (h : x.step ev = some (x', out)) : Moves x ev x' out := by
  cases ev with
  | messageReceived message =>
    obtain ⟨rfl, rfl⟩ := Prod.ext_iff.mp (Option.some.inj h)
    exact .received x message
  | serviceCommand fileInfo =>
    simp only [step] at h
    split at h
    next => cases h
    next =>
      split at h
      next => cases h
      next =>
        obtain ⟨⟨s', o⟩, hs, hr⟩ := Option.map_eq_some_iff.mp h
        obtain ⟨rfl, rfl⟩ := Prod.ext_iff.mp hr
        exact .served x fileInfo s' o hs
  | beginCommand name created =>
    simp only [step] at h
    split at h
    next e he hw =>
      split at h
      next => cases h
      next c rest hc =>
        split at h
        next => cases h
        next =>
          obtain ⟨rfl, rfl⟩ := Prod.ext_iff.mp (Option.some.inj h)
          exact .began x name created e c rest he hw hc
    next => cases h
  | beginExpiry name =>
    simp only [step] at h
    split at h
    next e he hw =>
      split at h
      next => cases h
      next r hr =>
        split at h
        next => cases h
        next =>
          obtain ⟨rfl, rfl⟩ := Prod.ext_iff.mp (Option.some.inj h)
          exact .expired x name e r he hw hr
    next => cases h
  | callback name =>
    simp only [step] at h
    split at h
    next o os hw =>
      split at h
      next => cases h
      next hfree =>
        obtain ⟨rfl, rfl⟩ := Prod.ext_iff.mp (Option.some.inj h)
        refine .called x name o os hw fun ho => ?_
        simpa [held, ho] using hfree
    next => cases h
  | endCommand name =>
    simp only [step] at h
    split at h
    next hw =>
      obtain ⟨rfl, rfl⟩ := Prod.ext_iff.mp (Option.some.inj h)
      exact .ended x name hw
    next => cases h
  | beginSweep =>
    simp only [step] at h
    split at h
    next hc =>
      obtain ⟨rfl, rfl⟩ := Prod.ext_iff.mp (Option.some.inj h)
      exact .swept x hc
    next => cases h
  | beginDestroy name =>
    simp only [step] at h
    split at h
    next => cases h
    next e he =>
      split at h
      next hc =>
        obtain ⟨rfl, rfl⟩ := Prod.ext_iff.mp (Option.some.inj h)
        exact .destroys x name e he hc.2 hc.1
      next => cases h
  | endDestroy =>
    simp only [step] at h
    split at h
    next name hc =>
      split at h
      next hw =>
        obtain ⟨rfl, rfl⟩ := Prod.ext_iff.mp (Option.some.inj h)
        exact .destroyed x name hc hw
      next => cases h
    next => cases h
  | endSweep =>
    simp only [step] at h
    split at h
    next hc =>
      obtain ⟨rfl, rfl⟩ := Prod.ext_iff.mp (Option.some.inj h)
      exact .rested x hc
    next => cases h

/-- A deadlock is for ever. -/
theorem Deadlocked.step {x x' : Threads H} (h : x.Deadlocked) {ev : ThreadEvent H}
    {out : List Output} (hstep : x.step ev = some (x', out)) : x'.Deadlocked := by
  obtain ⟨name, o, os, hc, hw, ho⟩ := h
  have hother {n : String} {w : Option (List (Effect Capture))} (hn : x.worker n ≠ some (o :: os)) :
      Function.update x.worker n w name = some (o :: os) := by
    rw [Function.update_of_ne (by rintro rfl; exact hn hw), hw]
  cases step_moves hstep with
  | received message => exact ⟨name, o, os, hc, hw, ho⟩
  | served fileInfo s' out hs => exact ⟨name, o, os, hc, hw, ho⟩
  | began n created e c rest he hn hq => exact ⟨name, o, os, hc, hother (by simp [hn]), ho⟩
  | expired n e r he hn hr => exact ⟨name, o, os, hc, hother (by simp [hn]), ho⟩
  | called n p ps hn hfree =>
    refine ⟨name, o, os, hc, hother ?_, ho⟩
    rw [hn]
    rintro ⟨⟩
    rw [hfree ho] at hc
    cases hc
  | ended n hn => exact ⟨name, o, os, hc, hother (by simp [hn]), ho⟩
  | swept hidle =>
    rw [hidle] at hc
    cases hc
  | destroys n e he hf hsweep =>
    rw [hsweep] at hc
    cases hc
  | destroyed n hn hnone =>
    rw [hn] at hc
    cases hc
    rw [hnone] at hw
    cases hw
  | rested hsweep =>
    rw [hsweep] at hc
    cases hc

/-- The callbacks still to run in a downloader are those of its own entry, at most one of
them flags, and none flags an entry that is flagged; what is destroyed is flagged. -/
structure Ok (x : Threads H) : Prop where
  wf : x.service.Wf
  named : ∀ name os, x.worker name = some os → ∀ o ∈ os, ∀ k ∈ o.callback, k.fileName = name
  once : ∀ name os, x.worker name = some os → FileDownloader.outcomeCalls os ≤ 1
  flagged : ∀ name e, x.service.activeDownloads name = some e → e.flag = true → ¬ x.WillFlag name
  destroys : ∀ name, x.collector = .destroying name →
    ∃ e, x.service.activeDownloads name = some e ∧ e.flag = true

theorem not_willFlag_of_none {x : Threads H} {name : String} (hw : x.worker name = none) :
    ¬ x.WillFlag name := by
  rintro ⟨os, hos, _⟩
  rw [hw] at hos
  cases hos

theorem Ok.not_deadlocked {x : Threads H} (h : x.Ok) : ¬ x.Deadlocked := by
  rintro ⟨name, o, os, hc, hw, ho⟩
  obtain ⟨e, he, hf⟩ := h.destroys name hc
  refine h.flagged name e he hf ⟨o :: os, hw, ?_⟩
  simp [FileDownloader.outcomeCalls, ho]

/-- A command or expiry starts in a downloader; in a flagged entry it ends nothing. -/
theorem Ok.enter {x : Threads H} (h : x.Ok) {name : String} {e e' : Entry H}
    {os : List (Effect Capture)} (he : x.service.activeDownloads name = some e)
    (hflag : e'.flag = e.flag) (hcall : e'.call = e.call)
    (hok : e'.Ok x.service.fileDownloadDirectory name)
    (hk : ∀ o ∈ os, ∀ k ∈ o.callback, k = e.capture name)
    (honce : FileDownloader.outcomeCalls os ≤ 1)
    (hends : e.flag = true → FileDownloader.outcomeCalls os = 0) : (x.enter name e' os).Ok where
  wf := h.wf.of_update rfl rfl he rfl hcall.symm hok
  named := by
    intro n ps hw o ho k hko
    by_cases hn : n = name
    · subst hn
      obtain rfl : os = ps := by simpa [Threads.enter] using hw
      rw [hk o ho k hko]
      rfl
    · exact h.named n ps (by simpa [Threads.enter, Function.update_of_ne hn] using hw) o ho k hko
  once := by
    intro n ps hw
    by_cases hn : n = name
    · subst hn
      obtain rfl : os = ps := by simpa [Threads.enter] using hw
      exact honce
    · exact h.once n ps (by simpa [Threads.enter, Function.update_of_ne hn] using hw)
  flagged := by
    rintro n f hf hfl ⟨ps, hw, hne⟩
    rcases FileDownloadService.update_some hf with ⟨rfl, rfl⟩ | ⟨hn, hs⟩
    · obtain rfl : os = ps := by simpa [Threads.enter] using hw
      exact hne (hends (hflag ▸ hfl))
    · refine h.flagged n f hs hfl ⟨ps, ?_, hne⟩
      simpa [Threads.enter, Function.update_of_ne hn] using hw
  destroys := by
    intro n hc
    obtain ⟨f, hf, hfl⟩ := h.destroys n hc
    by_cases hn : n = name
    · subst hn
      obtain rfl := Option.some.inj (he.symm.trans hf)
      exact ⟨e', by simp [Threads.enter, FileDownloadService.setEntry], hflag.trans hfl⟩
    · exact ⟨f, by simpa [Threads.enter, FileDownloadService.setEntry, Function.update_of_ne hn]
        using hf, hfl⟩

/-- A callback runs: it may flag its own entry, and then was the last one to do so. -/
theorem Ok.callback {x : Threads H} (h : x.Ok) {name : String} {o : Effect Capture}
    {os : List (Effect Capture)} (hw : x.worker name = some (o :: os)) :
    ({ x with
      service := (x.service.perform o).1
      worker := Function.update x.worker name (some os) } : Threads H).Ok := by
  have hentry {n : String} {e' : Entry H}
      (he' : (x.service.perform o).1.activeDownloads n = some e') :
      ∃ e, x.service.activeDownloads n = some e ∧
        e' = { e with flag := e.flag || o.isOutcomeOf n } := by
    rw [FileDownloadService.perform_eq] at he'
    obtain ⟨e, he, hee⟩ := Option.map_eq_some_iff.mp he'
    exact ⟨e, he, by simpa using hee.symm⟩
  have hcount : FileDownloader.outcomeCalls (o :: os) =
      FileDownloader.outcomeCalls os + if o.isOutcome then 1 else 0 := List.countP_cons
  have honce := h.once name _ hw
  constructor
  · refine h.wf.of_entries (by rw [FileDownloadService.perform_eq])
      (by rw [FileDownloadService.perform_eq]) fun he' => ?_
    obtain ⟨e, he, rfl⟩ := hentry he'
    exact ⟨(h.wf.entry he).set_flag _, e, he, rfl⟩
  · intro n ps hps p hp
    by_cases hn : n = name
    · subst hn
      obtain rfl : os = ps := by simpa using hps
      exact h.named n _ hw p (List.mem_cons_of_mem o hp)
    · exact h.named n ps (by simpa [Function.update_of_ne hn] using hps) p hp
  · intro n ps hps
    by_cases hn : n = name
    · subst hn
      obtain rfl : os = ps := by simpa using hps
      omega
    · exact h.once n ps (by simpa [Function.update_of_ne hn] using hps)
  · rintro n e' he' hf ⟨ps, hps, hne⟩
    obtain ⟨e, he, rfl⟩ := hentry he'
    by_cases hn : n = name
    · subst hn
      obtain rfl : os = ps := by simpa using hps
      cases hflag : e.flag
      · -- the flag was set by this callback
        have ho : o.isOutcome = true := by
          cases o <;> simp_all [Effect.isOutcomeOf, Effect.isOutcome]
        rw [ho, if_pos rfl] at hcount
        omega
      · exact h.flagged n e he hflag ⟨_, hw, by omega⟩
    · have hno : o.isOutcomeOf n = false := by
        have hne {k : Capture} (hk : k ∈ o.callback) : ¬ k.fileName = n := by
          rw [h.named name _ hw o List.mem_cons_self k hk]
          exact Ne.symm hn
        cases o with
        | onSuccess k path => exact decide_eq_false (hne rfl)
        | onFail k errorCode => exact decide_eq_false (hne rfl)
        | _ => rfl
      refine h.flagged n e he ?_ ⟨ps, by simpa [Function.update_of_ne hn] using hps, hne⟩
      simpa [hno] using hf
  · intro n hc
    obtain ⟨e, he, hf⟩ := h.destroys n hc
    refine ⟨{ e with flag := e.flag || o.isOutcomeOf n }, ?_, by simp [hf]⟩
    rw [FileDownloadService.perform_eq]
    simp [FileDownloadService.flagged, he]

theorem Ok.step {h : List (Moment (Threads H) (ThreadEvent H) Output)} {x x' : Threads H}
    (hok : x.Ok) {ev : ThreadEvent H} {out : List Output} (hc : FlagsOnce h x ev)
    (hm : Moves x ev x' out) : x'.Ok := by
  cases hm with
  | received message =>
    exact ⟨(FileDownloadService.Moves.received x.service message).wf hok.wf, hok.named, hok.once,
      hok.flagged, hok.destroys⟩
  | served fileInfo s' out hs =>
    have hm := FileDownloadService.step_moves hs
    refine ⟨hm.wf hok.wf, hok.named, hok.once, ?_, ?_⟩
    · intro name e' he' hf
      cases hm.entryMoves hok.wf he' with
      | kept _ he hev => exact hok.flagged name e' he hf
      | pushed b e he hq hev => exact hok.flagged name e he hf
      | aborted e he hq hev =>
        obtain ⟨rest, hq⟩ := hq
        exact hc name rest hq
      | started size hash he hout => cases hf
      | ran created e c rest he hq hev hout => cases hev
      | expired e r he hr hev => cases hev
    · intro name hdes
      obtain ⟨e, he, hf⟩ := hok.destroys name hdes
      obtain ⟨e', he', hkeep⟩ := hm.entry_kept he
      exact ⟨e', he', hkeep hf⟩
  | began name created e c rest he hw hq =>
    have hcalls := e.downloader.run_outcomeCalls c created
    refine hok.enter he rfl rfl ((hok.wf.entry he).ran hq created).1
      ((hok.wf.entry he).ran hq created).2 hcalls.1 fun hf => ?_
    by_contra hne
    obtain ⟨b, rfl, hd⟩ := hcalls.2 hne
    exact hc e b rest he hf hq hd
  | expired name e r he hw hr =>
    have hcalls := FileDownloader.timerExpired_outcomeCalls hr
    refine hok.enter he rfl rfl ((hok.wf.entry he).expired hr).1
      ((hok.wf.entry he).expired hr).2 hcalls.1 fun hf => ?_
    by_contra hne
    exact hc e he hf (hcalls.2 hne)
  | called name o os hw hfree => exact hok.callback hw
  | ended name hw =>
    have hworker {n : String} {ps : List (Effect Capture)}
        (hps : Function.update x.worker name none n = some ps) : x.worker n = some ps :=
      FileDownloadService.of_update_none hps
    exact ⟨hok.wf, fun n ps hps => hok.named n ps (hworker hps),
      fun n ps hps => hok.once n ps (hworker hps),
      fun n e he hf ⟨ps, hps, hne⟩ => hok.flagged n e he hf ⟨ps, hworker hps, hne⟩, hok.destroys⟩
  | swept hidle => exact ⟨hok.wf, hok.named, hok.once, hok.flagged, nofun⟩
  | destroys name e he hf hsweep =>
    refine ⟨hok.wf, hok.named, hok.once, hok.flagged, ?_⟩
    rintro n ⟨⟩
    exact ⟨e, he, hf⟩
  | destroyed name hdes hw =>
    have hentry {n : String} {e : Entry H}
        (he : Function.update x.service.activeDownloads name none n = some e) :
        x.service.activeDownloads n = some e := FileDownloadService.of_update_none he
    refine ⟨?_, hok.named, hok.once, fun n e he hf => hok.flagged n e (hentry he) hf, nofun⟩
    exact hok.wf.of_entries rfl rfl fun he => ⟨hok.wf.entry (hentry he), _, hentry he, rfl⟩
  | rested hsweep => exact ⟨hok.wf, hok.named, hok.once, hok.flagged, nofun⟩

end Threads

/-- The threads of one file download service. -/
def threadMachine (H : Host) (deviceKey fileDownloadDirectory : String) (maxPacketSize : UInt64) :
    Machine (Threads H) (ThreadEvent H) Output where
  start := .start H deviceKey fileDownloadDirectory maxPacketSize
  step := Threads.step

variable {H : Host} {deviceKey directory : String} {maxPacketSize : UInt64}
  {h : List (Moment (Threads H) (ThreadEvent H) Output)} {x : Threads H}

/-- As long as every download is flagged once, the collector never waits for a worker that
waits for the mutex the collector holds. -/
theorem collector_never_deadlocks
    (hrun : (threadMachine H deviceKey directory maxPacketSize).Run Threads.FlagsOnce h x) :
    ¬ x.Deadlocked := by
  have hok : x.Ok := by
    apply hrun.state_invariant Threads.Ok
    · exact ⟨FileDownloadService.wf_construct _ _ _, nofun, nofun, nofun, nofun⟩
    · intro h x x' ev out _ hok hc hstep
      exact hok.step hc (Threads.step_moves hstep)
  exact hok.not_deadlocked

def sampleThreads : Machine (Threads sampleHost) (ThreadEvent sampleHost) Output :=
  threadMachine sampleHost "device" "/files" 66

/-- A download is started and aborted before its first command, and the collector wakes up. -/
theorem collector_never_deadlocks_sample : ∃ h x, sampleThreads.Run Threads.FlagsOnce h x ∧
    x.collector = .destroying "f" ∧ ¬ x.Deadlocked := by
  have hr : sampleThreads.Run Threads.FlagsOnce _ _ :=
    (((((Run.start.step (e := .messageReceived (.fileUploadInitiate "f" 1 sampleHash)) trivial
      rfl).step (e := .messageReceived (.fileUploadAbort "f")) trivial
      rfl).step (e := .serviceCommand none) (fun _ _ _ => Threads.not_willFlag_of_none rfl)
      rfl).step (e := .serviceCommand none) (fun _ _ _ => Threads.not_willFlag_of_none rfl)
      rfl).step (e := .beginSweep) (by trivial) rfl).step (e := .beginDestroy "f") (by trivial) rfl
  exact ⟨_, _, hr, rfl, collector_never_deadlocks hr⟩

/-- The last packet is being processed when the abort is handled; the collector then
destroys the downloader whose worker is about to flag its entry. -/
def sampleRace : List (ThreadEvent sampleHost) :=
  [.messageReceived (.fileUploadInitiate "f" 1 sampleHash), .serviceCommand none,
    .beginCommand "f" true, .callback "f", .endCommand "f",
    .messageReceived (.binaryData (sampleHost.packet firstPreviousHash [97])),
    .serviceCommand none, .beginCommand "f" true, .callback "f",
    .messageReceived (.fileUploadAbort "f"), .serviceCommand none,
    .beginSweep, .beginDestroy "f"]

theorem collector_deadlocks : ∃ h x, sampleThreads.Run Free h x ∧ x.Deadlocked ∧
    ∀ ev x' out, x.step ev = some (x', out) → x'.Deadlocked := by
  obtain ⟨h, x, hr, hp⟩ := sampleThreads.exists_run_of_replay Free sampleRace
    (fun _ x => decide (x.collector = .destroying "f") &&
      decide (x.worker "f" = some [.onSuccess ⟨"f", sampleHash, 0⟩ "/files/f"]))
    (by decide +kernel)
  simp only [Bool.and_eq_true, decide_eq_true_eq] at hp
  have hd : x.Deadlocked := ⟨"f", _, [], hp.1, hp.2, rfl⟩
  exact ⟨h, x, hr, hd, fun ev x' out hstep => hd.step hstep⟩

end WolkConnect
