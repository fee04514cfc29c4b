import WolkConnect.File.CollectorLock
import WolkConnect.File.Integrity
import WolkConnect.Transition.Simulation

/-! The runs of the service, in which a downloader's command and a sweep are one step, are
among the runs of its threads. -/
namespace WolkConnect
open Transition Transition.Machine

variable {H : Host} {deviceKey directory : String} {maxPacketSize : UInt64}

abbrev ThreadPath (H : Host) (deviceKey directory : String) (maxPacketSize : UInt64) :=
  (threadMachine H deviceKey directory maxPacketSize).Path

namespace Threads

/-- No command or expiry is running, and the collector waits for its next sweep. -/
def quiet (s : FileDownloadService H) : Threads H := ⟨s, fun _ => none, .idle⟩

/-- Only this downloader is running, with these callbacks still to call. -/
def calling (s : FileDownloadService H) (name : String) (os : List (Effect Capture)) : Threads H :=
  ⟨s, Function.update (fun _ => none) name (some os), .idle⟩

/-- The collector is sweeping and nothing is running. -/
def duringSweep (s : FileDownloadService H) : Threads H := ⟨s, fun _ => none, .sweeping⟩

variable {s : FileDownloadService H} {name : String} {e : Entry H}

theorem step_path {x x' : Threads H} {ev : ThreadEvent H} {out : List Output}
    (h : x.step ev = some (x', out)) : ThreadPath H deviceKey directory maxPacketSize x out x' :=
  Path.single (e := ev) h

/-- The callbacks of a command one by one are `performAll`. -/
theorem callbacks_path (s : FileDownloadService H) (name : String) (os : List (Effect Capture)) :
    ThreadPath H deviceKey directory maxPacketSize (calling s name os) (s.performAll os).2
      (calling (s.performAll os).1 name []) := by
  induction os generalizing s with
  | nil => exact .nil _
  | cons o os ih =>
    have hstep : (calling s name (o :: os)).step (.callback name) =
        some (calling (s.perform o).1 name os, (s.perform o).2) := by
      simp [step, calling, held]
    exact (step_path hstep).trans (ih (s.perform o).1)

/-- From the start of a command or expiry to its end. -/
theorem entered_path (s : FileDownloadService H) (name : String) (e : Entry H)
    (os : List (Effect Capture)) :
    ThreadPath H deviceKey directory maxPacketSize ((quiet s).enter name e os)
      ((s.setEntry name e).performAll os).2 (quiet ((s.setEntry name e).performAll os).1) := by
  have hend (t : FileDownloadService H) :
      (calling t name []).step (.endCommand name) = some (quiet t, []) := by
    simp [step, calling, quiet]
  have hp : ThreadPath H deviceKey directory maxPacketSize _ _ _ :=
    callbacks_path (s.setEntry name e) name os
  have hq := hp.trans (step_path (hend _))
  rwa [List.append_nil] at hq

theorem command_path (he : s.activeDownloads name = some e) {c : Command H Capture}
    {rest : List (Command H Capture)} (hc : e.commandBuffer = c :: rest) (created : Bool) :
    ThreadPath H deviceKey directory maxPacketSize (quiet s)
      ((s.setEntry name { e with
        downloader := (e.downloader.run H c created).1, commandBuffer := rest }).performAll
        (e.downloader.run H c created).2).2
      (quiet ((s.setEntry name { e with
        downloader := (e.downloader.run H c created).1, commandBuffer := rest }).performAll
        (e.downloader.run H c created).2).1) := by
  have hbegin : (quiet s).step (.beginCommand name created) =
      some ((quiet s).enter name { e with
        downloader := (e.downloader.run H c created).1, commandBuffer := rest }
        (e.downloader.run H c created).2, []) := by
    simp [step, quiet, he, hc]
  exact (step_path hbegin).trans (entered_path s name _ _)

theorem expiry_path (he : s.activeDownloads name = some e)
    {r : FileDownloader Capture × List (Effect Capture)}
    (hr : e.downloader.timerExpired = some r) :
    ThreadPath H deviceKey directory maxPacketSize (quiet s)
      ((s.setEntry name { e with downloader := r.1 }).performAll r.2).2
      (quiet ((s.setEntry name { e with downloader := r.1 }).performAll r.2).1) := by
  have hbegin : (quiet s).step (.beginExpiry name) =
      some ((quiet s).enter name { e with downloader := r.1 } r.2, []) := by
    simp [step, quiet, he, hr]
  exact (step_path hbegin).trans (entered_path s name _ _)

/-- The state after a sweep that has looked at these names. -/
def swept (s : FileDownloadService H) (names : List String) : FileDownloadService H :=
  { s with activeDownloads := fun name =>
      if name ∈ names then (s.activeDownloads name).filter fun e => !e.flag
      else s.activeDownloads name }

theorem swept_swept (s : FileDownloadService H) (name : String) (names : List String) :
    swept (swept s [name]) names = swept s (name :: names) := by
  unfold swept
  congr 1
  funext n
  by_cases hn : n = name <;> by_cases hm : n ∈ names <;> simp [hn, hm]

/-- The collector looks at one name: it destroys the downloader of a flagged entry. -/
theorem destroy_path (s : FileDownloadService H) (name : String) :
    ThreadPath H deviceKey directory maxPacketSize (duringSweep s) []
      (duringSweep (swept s [name])) := by
  have hkeep (h : (s.activeDownloads name).filter (fun e => !e.flag) = s.activeDownloads name) :
      swept s [name] = s := by
    unfold swept
    congr 1
    funext n
    by_cases hn : n = name
    · subst hn
      simpa using h
    · simp [hn]
  cases he : s.activeDownloads name with
  | none =>
    rw [hkeep (by simp [he])]
    exact .nil _
  | some e =>
    cases hf : e.flag with
    | false =>
      rw [hkeep (by simp [he, hf])]
      exact .nil _
    | true =>
      have hbegin : (duringSweep s).step (.beginDestroy name) =
          some ({ duringSweep s with collector := .destroying name }, []) := by
        simp [step, duringSweep, he, hf]
      have hend : ({ duringSweep s with collector := .destroying name } : Threads H).step
          .endDestroy = some (duringSweep (swept s [name]), []) := by
        have hupdate : Function.update s.activeDownloads name none =
            (swept s [name]).activeDownloads := by
          funext n
          by_cases hn : n = name
          · subst hn
            simp [swept, he, hf, Option.filter]
          · simp [swept, hn]
        simp [step, duringSweep, hupdate, swept]
      exact (step_path hbegin).trans (step_path hend)

theorem destroys_path (s : FileDownloadService H) (names : List String) :
    ThreadPath H deviceKey directory maxPacketSize (duringSweep s) []
      (duringSweep (swept s names)) := by
  induction names generalizing s with
  | nil => simpa [swept] using Path.nil _
  | cons name names ih =>
    rw [← swept_swept]
    exact (destroy_path s name).trans (ih (swept s [name]))

/-- A whole sweep. -/
theorem sweep_path (names : List String)
    (hnames : ∀ name e, s.activeDownloads name = some e → name ∈ names) :
    ThreadPath H deviceKey directory maxPacketSize (quiet s) [] (quiet s.clearDownloads) := by
  have hall : swept s names = s.clearDownloads := by
    unfold swept FileDownloadService.clearDownloads
    congr 1
    funext n
    cases he : s.activeDownloads n with
    | none => simp
    | some e => simp [hnames n e he]
  have hbegin : (quiet s).step .beginSweep = some (duringSweep s, []) := rfl
  have hend : (duringSweep s.clearDownloads).step .endSweep =
      some (quiet s.clearDownloads, []) := rfl
  have hp : ThreadPath H deviceKey directory maxPacketSize _ _ _ := destroys_path s names
  rw [hall] at hp
  exact ((step_path hbegin).trans hp).trans (step_path hend)

end Threads

/-- The file name of a `download` call. -/
def Output.downloaded : Output → Option String
  | .download _ fileName _ _ => some fileName
  | _ => none

/-- Every step of the service is matched by steps of its threads. -/
theorem step_simulated {C : Condition (FileDownloadService H) (ServiceEvent H) Output}
    {h : ServiceHistory H} {s s' : FileDownloadService H} {ev : ServiceEvent H}
    {out : List Output} (hrun : (fileDownloadMachine H deviceKey directory maxPacketSize).Run C h s)
    (hstep : s.step ev = some (s', out)) :
    ThreadPath H deviceKey directory maxPacketSize (.quiet s) out (.quiet s') := by
  cases ev with
  | messageReceived message =>
    obtain ⟨rfl, rfl⟩ := Prod.ext_iff.mp (Option.some.inj hstep)
    have hreceive : (Threads.quiet s).step (.messageReceived message) =
        some (.quiet (s.addToCommandBuffer (.handle message)), []) := rfl
    exact Threads.step_path hreceive
  | serviceCommand fileInfo =>
    have hserve : (Threads.quiet s).step (.serviceCommand fileInfo) =
        some (.quiet s', out) := by
      cases hq : s.commandBuffer with
      | nil => simp [FileDownloadService.step, hq] at hstep
      | cons c rest => simp [Threads.step, Threads.quiet, Threads.held, hq, hstep]
    exact Threads.step_path hserve
  | downloaderCommand name created =>
    simp only [FileDownloadService.step] at hstep
    cases he : s.activeDownloads name with
    | none => simp [he] at hstep
    | some e =>
      cases hc : e.commandBuffer with
      | nil => simp [he, hc] at hstep
      | cons c rest =>
        simp only [he, hc, Option.some.injEq] at hstep
        obtain ⟨rfl, rfl⟩ := Prod.ext_iff.mp hstep
        exact Threads.command_path he hc created
  | timerExpired name =>
    simp only [FileDownloadService.step] at hstep
    cases he : s.activeDownloads name with
    | none => simp [he] at hstep
    | some e =>
      cases hr : e.downloader.timerExpired with
      | none => simp [he, hr] at hstep
      | some r =>
        simp only [he, hr, Option.some.injEq] at hstep
        obtain ⟨rfl, rfl⟩ := Prod.ext_iff.mp hstep
        exact Threads.expiry_path he hr
  | clearDownloads =>
    obtain ⟨rfl, rfl⟩ := Prod.ext_iff.mp (Option.some.inj hstep)
    -- an entry was made by a `download` call, so the names in the map are finitely many
    refine Threads.sweep_path ((outputs h).filterMap Output.downloaded) ?_
    intro name e he
    obtain ⟨size, hcall⟩ := run_entry_call hrun he
    exact List.mem_filterMap.mpr ⟨_, hcall, rfl⟩

/-- Every run of the service is matched by a run of its threads with the same outputs, which
ends with nothing running. -/
theorem thread_run_of_run {C : Condition (FileDownloadService H) (ServiceEvent H) Output}
    {h : ServiceHistory H} {s : FileDownloadService H}
    (hrun : (fileDownloadMachine H deviceKey directory maxPacketSize).Run C h s) :
    ∃ k, (threadMachine H deviceKey directory maxPacketSize).Run Free k (.quiet s) ∧
      outputs k = outputs h := by
  have hsim := hrun.simulated (N := threadMachine H deviceKey directory maxPacketSize)
    (fun s x => x = .quiet s) rfl ?_
  · obtain ⟨k, x, hk, ho, rfl⟩ := hsim
    exact ⟨k, hk, ho⟩
  · rintro h s s' ev out x hr rfl _ hstep
    exact ⟨_, step_simulated hr hstep, rfl⟩

end WolkConnect
