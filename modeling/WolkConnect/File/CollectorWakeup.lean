import WolkConnect.File.CollectorLock
import WolkConnect.Transition.Simulation
import Mathlib.Logic.Relation

/-! The collector's wait: the loop of `clearDownloads` with its four steps, the threads that
flag an entry and then notify, and the destructor. A notification wakes the collector only
if it already waits, and nothing else wakes it. -/
namespace WolkConnect
open Transition Transition.Machine

/-- What the collector does next, or that it waits or has returned. It holds `m_mutex` while
it is about to unlock it. -/
inductive CollectorStep where
  | testRun
  | sweep
  | unlock
  | wait
  | waiting
  | returned
  deriving DecidableEq

/-- How far the destructor has come: it has set `m_run`, or it has notified and joins. -/
inductive Destructor where
  | none
  | stopping
  | joining
  deriving DecidableEq

/-- The threads that run the service: the one of its command queue, and those of a downloader. -/
inductive ServiceThread where
  | service
  | downloader (fileName : String)
  deriving DecidableEq

/-- `notifier` is the thread between the flag and the `notify_one` of `flagCompletedDownload`,
which holds `m_mutex`. -/
structure Wakeup (H : Host) where
  service : FileDownloadService H
  run : Bool
  collector : CollectorStep
  notifier : Option ServiceThread
  destructor : Destructor

inductive WakeupEvent (H : Host) where
  /-- A step of the other threads, up to their `notify_one` if they flag an entry. -/
  | service (ev : ServiceEvent H)
  | notify
  | collector
  | stop
  | notifyStop

namespace FileDownloadService

variable {H : Host}

/-- The step calls `flagCompletedDownload`. -/
def flags (s : FileDownloadService H) : ServiceEvent H → Bool
  | .serviceCommand _ =>
    match s.commandBuffer with
    | .handle (.fileUploadAbort name) :: _ => name ≠ "" && (s.activeDownloads name).isSome
    | _ => false
  | .downloaderCommand fileName created =>
    match s.activeDownloads fileName with
    | some e =>
      match e.commandBuffer with
      | c :: _ => (e.downloader.run H c created).2.any Effect.isOutcome
      | [] => false
    | none => false
  | .timerExpired fileName =>
    match s.activeDownloads fileName with
    | some e => e.downloader.timerExpired.any fun r => r.2.any Effect.isOutcome
    | none => false
  | _ => false

/-- The step locks `m_mutex`. -/
def locksMutex (s : FileDownloadService H) (ev : ServiceEvent H) : Bool :=
  s.flags ev ||
    match ev, s.commandBuffer with
    | .serviceCommand fileInfo, c :: _ => s.locks fileInfo c
    | _, _ => false

/-- No entry is flagged. -/
def Collected (s : FileDownloadService H) : Prop :=
  ∀ name e, s.activeDownloads name = some e → e.flag = false

end FileDownloadService

/-- The thread that takes the step, other than the one that calls `messageReceived`. -/
def ServiceEvent.thread {H : Host} : ServiceEvent H → Option ServiceThread
  | .serviceCommand _ => some .service
  | .downloaderCommand fileName _ => some (.downloader fileName)
  | .timerExpired fileName => some (.downloader fileName)
  | _ => none

namespace Wakeup

variable {H : Host}

def start (H : Host) (deviceKey fileDownloadDirectory : String) (maxPacketSize : UInt64) :
    Wakeup H where
  service := .construct H deviceKey fileDownloadDirectory maxPacketSize
  run := true
  collector := .testRun
  notifier := none
  destructor := .none

/-- `m_mutex` is held by the collector or by a thread that is about to notify. -/
def held (x : Wakeup H) : Bool := x.collector = .unlock || x.notifier.isSome

/-- `m_condition.notify_one()`. -/
def notifyCleanup (x : Wakeup H) : Wakeup H :=
  if x.collector = .waiting then { x with collector := .testRun } else x

/-- The next step of the collector. -/
def clearDownloads (x : Wakeup H) : Option (Wakeup H) :=
  match x.collector with
  | .testRun => some { x with collector := if x.run then .sweep else .returned }
  | .sweep =>
    if x.held then none
    else some { x with service := x.service.clearDownloads, collector := .unlock }
  | .unlock => some { x with collector := .wait }
  | .wait => some { x with collector := .waiting }
  | .waiting => none
  | .returned => none

/-- A step of the other threads. A thread that is about to notify does nothing else. -/
def serve (x : Wakeup H) (ev : ServiceEvent H) : Option (Wakeup H × List Output) :=
  if x.held ∧ x.service.locksMutex ev then none
  else if x.notifier.isSome ∧ x.notifier = ev.thread then none
  else (x.service.step ev).map fun r =>
    ({ x with
      service := r.1
      notifier := if x.service.flags ev then ev.thread else x.notifier }, r.2)

def step (x : Wakeup H) : WakeupEvent H → Option (Wakeup H × List Output)
  | .service .clearDownloads => none
  | .service ev => x.serve ev
  | .notify =>
    if x.notifier.isSome then some ({ x.notifyCleanup with notifier := none }, []) else none
  | .collector => x.clearDownloads.map fun y => (y, [])
  | .stop =>
    if x.destructor = .none then some ({ x with run := false, destructor := .stopping }, [])
    else none
  | .notifyStop =>
    if x.destructor = .stopping then some ({ x.notifyCleanup with destructor := .joining }, [])
    else none

/-- The collector waits, and no notification is still to come from a step already begun. -/
def Blocked (x : Wakeup H) : Prop :=
  x.collector = .waiting ∧ x.notifier = none ∧ x.destructor ≠ .stopping

/-- The collector goes on by itself. -/
def Advances : Wakeup H → Wakeup H → Prop :=
  Relation.ReflTransGen fun x y => x.clearDownloads = some y

/-- No wakeup is lost: the collector is blocked only while nothing is flagged and `m_run` is
set. So it gets to the flagged entries by itself, and to its end once the destructor joins. -/
structure NoLostWakeup (x : Wakeup H) : Prop where
  collected : x.Blocked → x.service.Collected
  running : x.Blocked → x.run = true
  collects : x.run = true → x.notifier = none → ∀ name e,
    x.service.activeDownloads name = some e → e.flag = true →
      ∃ y, x.Advances y ∧ y.service.activeDownloads name = none
  joins : x.destructor = .joining → x.notifier = none →
    ∃ y, x.Advances y ∧ y.collector = .returned

/-- No `notify_one` falls between the sweep and the wait while an entry is flagged, and the
destructor's does not fall between the test of `m_run` and the wait. -/
def InTime : Condition (Wakeup H) (WakeupEvent H) Output := fun _ x ev =>
  match ev with
  | .notify => x.collector = .wait → x.service.Collected
  | .notifyStop => x.collector ≠ .sweep ∧ x.collector ≠ .unlock ∧ x.collector ≠ .wait
  | _ => True

end Wakeup

/-- The collector with the threads that it works for. -/
def wakeupMachine (H : Host) (deviceKey fileDownloadDirectory : String) (maxPacketSize : UInt64) :
    Machine (Wakeup H) (WakeupEvent H) Output where
  start := .start H deviceKey fileDownloadDirectory maxPacketSize
  step := Wakeup.step

namespace FileDownloadService

variable {H : Host} {s s' : FileDownloadService H}

theorem Collected.update (hs : s.Collected) {name : String} {e : Entry H} (he : e.flag = false)
    (ha : s'.activeDownloads = Function.update s.activeDownloads name (some e)) :
    s'.Collected := by
  intro n f hf
  rw [ha] at hf
  obtain ⟨rfl, rfl⟩ | ⟨_, hf⟩ := update_some hf
  · exact he
  · exact hs n f hf

/-- A step that flags nothing leaves no flag where there was none. -/
theorem Moves.collected (hwf : s.Wf) {ev : ServiceEvent H} {out : List Output}
    (hm : Moves s ev s' out) (hflags : s.flags ev = false) (hs : s.Collected) : s'.Collected := by
  cases hm with
  | received message => exact hs
  | replied message fileInfo rest hq hout => exact hs
  | stored info call fileInfo rest hq => exact hs
  | listed fileInfo rest hq => exact hs
  | routed b fileInfo rest e hq he =>
    apply hs.update _ rfl
    exact hs _ e he
  | aborted name fileInfo rest e hq hname he =>
    simp [flags, hq, hname, he] at hflags
  | started name size hash rest hq hreach he =>
    apply hs.update _ rfl
    rfl
  | ran name created e c rest he hc =>
    have hrun : (e.downloader.run H c created).2.any Effect.isOutcome = false := by
      simpa only [flags, he, hc] using hflags
    apply hs.update _ (ran_activeDownloads hwf he hc created)
    rw [hrun, Bool.or_false]
    exact hs name e he
  | expired name e r he hr =>
    have hrun : r.2.any Effect.isOutcome = false := by
      simpa only [flags, he, hr, Option.any_some] using hflags
    apply hs.update _ (expired_activeDownloads hwf he hr)
    rw [hrun, Bool.or_false]
    exact hs name e he
  | swept => exact fun _ _ he => (clearDownloads_some.mp he).2

theorem collected_clearDownloads (s : FileDownloadService H) : s.clearDownloads.Collected :=
  fun _ _ he => (clearDownloads_some.mp he).2

/-- What flags an entry locks the mutex first, and is a step of one of the threads. -/
theorem flags_locksMutex {ev : ServiceEvent H} (hev : s.flags ev = true) :
    s.locksMutex ev = true := by
  simp [locksMutex, hev]

theorem flags_thread {ev : ServiceEvent H} (hev : s.flags ev = true) : ev.thread.isSome := by
  cases ev with
  | messageReceived message => cases hev
  | clearDownloads => cases hev
  | _ => rfl

end FileDownloadService

namespace Wakeup

variable {H : Host} {x y : Wakeup H} {deviceKey directory : String} {maxPacketSize : UInt64}
  {h : List (Moment (Wakeup H) (WakeupEvent H) Output)}

theorem serve_eq {ev : ServiceEvent H} {out : List Output} (hy : x.serve ev = some (y, out)) :
    (x.service.locksMutex ev = true → x.held = false) ∧
      ∃ s, x.service.step ev = some (s, out) ∧
        y = { x with
          service := s
          notifier := if x.service.flags ev then ev.thread else x.notifier } := by
  unfold serve at hy
  split at hy
  next => cases hy
  next hheld =>
    split at hy
    next => cases hy
    next =>
      obtain ⟨⟨s, o⟩, hs, hr⟩ := Option.map_eq_some_iff.mp hy
      obtain ⟨rfl, rfl⟩ := Prod.mk.inj hr
      refine ⟨?_, s, hs, rfl⟩
      intro hlocks
      simpa [hlocks] using hheld

@[simp] theorem notifyCleanup_service (x : Wakeup H) : x.notifyCleanup.service = x.service := by
  unfold notifyCleanup
  split <;> rfl

/-- The collector sweeps, or leaves the service alone. -/
theorem clearDownloads_service (hy : x.clearDownloads = some y) :
    y.service = x.service ∨ y.service = x.service.clearDownloads := by
  unfold clearDownloads at hy
  split at hy
  next =>
    obtain rfl := Option.some.inj hy
    exact .inl rfl
  next =>
    split at hy
    next => cases hy
    next =>
      obtain rfl := Option.some.inj hy
      exact .inr rfl
  next =>
    obtain rfl := Option.some.inj hy
    exact .inl rfl
  next =>
    obtain rfl := Option.some.inj hy
    exact .inl rfl
  next => cases hy
  next => cases hy

/-- What a step does to the service is a step of the service, or nothing. -/
theorem step_service {ev : WakeupEvent H} {out : List Output} (hy : x.step ev = some (y, out)) :
    (y.service = x.service ∧ out = []) ∨ ∃ ev, x.service.step ev = some (y.service, out) := by
  cases ev with
  | service ev =>
    have hserve : x.serve ev = some (y, out) := by
      cases ev with
      | clearDownloads => cases hy
      | _ => exact hy
    obtain ⟨-, s, hs, rfl⟩ := serve_eq hserve
    exact .inr ⟨ev, hs⟩
  | notify =>
    simp only [step] at hy
    split at hy
    next =>
      obtain ⟨rfl, rfl⟩ := Prod.mk.inj (Option.some.inj hy)
      exact .inl ⟨x.notifyCleanup_service, rfl⟩
    next => cases hy
  | collector =>
    obtain ⟨z, hz, hr⟩ := Option.map_eq_some_iff.mp hy
    obtain ⟨rfl, rfl⟩ := Prod.mk.inj hr
    obtain hs | hs := clearDownloads_service hz
    · exact .inl ⟨hs, rfl⟩
    · exact .inr ⟨.clearDownloads, by rw [hs]; rfl⟩
  | stop =>
    simp only [step] at hy
    split at hy
    next =>
      obtain ⟨rfl, rfl⟩ := Prod.mk.inj (Option.some.inj hy)
      exact .inl ⟨rfl, rfl⟩
    next => cases hy
  | notifyStop =>
    simp only [step] at hy
    split at hy
    next =>
      obtain ⟨rfl, rfl⟩ := Prod.mk.inj (Option.some.inj hy)
      exact .inl ⟨x.notifyCleanup_service, rfl⟩
    next => cases hy

/-- Whatever the collector waits for, the service only does what it does in some run of its
own machine, and puts out the same. -/
theorem service_run {C : Condition (Wakeup H) (WakeupEvent H) Output}
    (hrun : (wakeupMachine H deviceKey directory maxPacketSize).Run C h x) :
    ∃ k, (fileDownloadMachine H deviceKey directory maxPacketSize).Run Free k x.service ∧
      outputs k = outputs h := by
  have hsim := hrun.simulated (N := fileDownloadMachine H deviceKey directory maxPacketSize)
    (fun x s => s = x.service) rfl ?_
  · obtain ⟨k, s, hk, ho, rfl⟩ := hsim
    exact ⟨k, hk, ho⟩
  · rintro h x y ev out s hr rfl _ hstep
    obtain ⟨hs, rfl⟩ | ⟨ev, hs⟩ := step_service hstep
    · exact ⟨_, hs ▸ .nil _, rfl⟩
    · exact ⟨_, .single hs, rfl⟩

/-- Nothing is flagged from the sweep on, unless a notification is still to come. -/
structure Awake (x : Wakeup H) : Prop where
  mutex : x.notifier ≠ none → x.collector ≠ .unlock
  swept : x.notifier = none → x.collector = .unlock ∨ x.collector = .wait ∨ x.collector = .waiting →
    x.service.Collected
  run : x.run = true ↔ x.destructor = .none
  returned : x.collector = .returned → x.run = false
  joining : x.destructor = .joining → x.collector = .testRun ∨ x.collector = .returned

theorem Awake.serve (hx : x.Awake) (hwf : x.service.Wf) {ev : ServiceEvent H} {out : List Output}
    (hy : x.serve ev = some (y, out)) : y.Awake := by
  obtain ⟨hheld, s, hs, rfl⟩ := serve_eq hy
  have hm := FileDownloadService.step_moves hs
  by_cases hflags : x.service.flags ev
  · obtain ⟨t, ht⟩ := Option.isSome_iff_exists.mp (FileDownloadService.flags_thread hflags)
    have hheld := hheld (FileDownloadService.flags_locksMutex hflags)
    simp only [held, Bool.or_eq_false_iff, decide_eq_false_iff_not] at hheld
    rw [if_pos hflags, ht]
    exact ⟨fun _ => hheld.1, nofun, hx.run, hx.returned, hx.joining⟩
  · rw [if_neg hflags]
    refine ⟨hx.mutex, ?_, hx.run, hx.returned, hx.joining⟩
    intro hn hc
    exact hm.collected hwf (Bool.not_eq_true _ ▸ hflags) (hx.swept hn hc)

theorem Awake.notify (hx : x.Awake) (hc : x.collector = .wait → x.service.Collected) :
    { x.notifyCleanup with notifier := none }.Awake := by
  unfold notifyCleanup
  split
  next hw =>
    refine ⟨nofun, ?_, hx.run, nofun, fun _ => .inl rfl⟩
    rintro - (hn | hn | hn) <;> cases hn
  next hw =>
    refine ⟨nofun, ?_, hx.run, hx.returned, hx.joining⟩
    rintro - (hn | hn | hn)
    · -- the notifier holds the mutex, so the collector does not
      by_cases hnotifier : x.notifier = none
      · exact hx.swept hnotifier (.inl hn)
      · exact absurd hn (hx.mutex hnotifier)
    · exact hc hn
    · exact absurd hn hw

theorem Awake.notifyStop (hx : x.Awake) (hs : x.destructor = .stopping)
    (hc : x.collector ≠ .sweep ∧ x.collector ≠ .unlock ∧ x.collector ≠ .wait) :
    { x.notifyCleanup with destructor := .joining }.Awake := by
  have hrun : x.run = false := by
    rw [← Bool.not_eq_true, hx.run, hs]
    nofun
  unfold notifyCleanup
  split
  next hw =>
    refine ⟨nofun, ?_, by simp [hrun], nofun, fun _ => .inl rfl⟩
    rintro - (hn | hn | hn) <;> cases hn
  next hw =>
    refine ⟨hx.mutex, hx.swept, by simp [hrun], hx.returned, ?_⟩
    intro _
    cases hcollector : x.collector with
    | testRun => exact .inl rfl
    | returned => exact .inr rfl
    | waiting => exact absurd hcollector hw
    | sweep => exact absurd hcollector hc.1
    | unlock => exact absurd hcollector hc.2.1
    | wait => exact absurd hcollector hc.2.2

theorem Awake.not_joining (hx : x.Awake) {c : CollectorStep} (hcollector : x.collector = c)
    (hc : c ≠ .testRun ∧ c ≠ .returned) : x.destructor ≠ .joining := by
  intro hjoining
  rw [← hcollector] at hc
  exact not_or.mpr hc (hx.joining hjoining)

/-- The collector goes on from the unlock to the wait. -/
theorem Awake.advance (hx : x.Awake) {c d : CollectorStep} (hcollector : x.collector = c)
    (hc : c ≠ .testRun ∧ c ≠ .returned) (hd : d ≠ .returned ∧ d ≠ .unlock)
    (hs : x.notifier = none → x.service.Collected) : { x with collector := d }.Awake := by
  refine ⟨fun _ => hd.2, fun hn _ => hs hn, hx.run, fun h => absurd h hd.1, ?_⟩
  exact fun hjoining => absurd hjoining (hx.not_joining hcollector hc)

theorem Awake.collector (hx : x.Awake) (hy : x.clearDownloads = some y) : y.Awake := by
  unfold clearDownloads at hy
  split at hy
  next hcollector =>
    obtain rfl := Option.some.inj hy
    by_cases hrun : x.run = true
    · rw [if_pos hrun]
      refine ⟨nofun, ?_, hx.run, nofun, ?_⟩
      · rintro - (hn | hn | hn) <;> cases hn
      · intro hjoining
        rw [hx.run.mp hrun] at hjoining
        cases hjoining
    · rw [if_neg hrun]
      refine ⟨nofun, ?_, hx.run, ?_, fun _ => .inr rfl⟩
      · rintro - (hn | hn | hn) <;> cases hn
      · exact fun _ => Bool.not_eq_true _ ▸ hrun
  next hcollector =>
    split at hy
    next => cases hy
    next hheld =>
      obtain rfl := Option.some.inj hy
      simp only [held, Bool.or_eq_true, not_or, Bool.not_eq_true, Option.isSome_eq_false_iff,
        Option.isNone_iff_eq_none] at hheld
      refine ⟨fun hn => absurd hheld.2 hn, ?_, hx.run, nofun, ?_⟩
      · exact fun _ _ => x.service.collected_clearDownloads
      · exact fun hjoining => absurd hjoining (hx.not_joining hcollector (by decide))
  next hcollector =>
    obtain rfl := Option.some.inj hy
    apply hx.advance hcollector
    · decide
    · decide
    · exact fun hn => hx.swept hn (.inl hcollector)
  next hcollector =>
    obtain rfl := Option.some.inj hy
    apply hx.advance hcollector
    · decide
    · decide
    · exact fun hn => hx.swept hn (.inr (.inl hcollector))
  next => cases hy
  next => cases hy

theorem Awake.step (hx : x.Awake) (hwf : x.service.Wf) {ev : WakeupEvent H} {out : List Output}
    (hc : InTime h x ev) (hy : x.step ev = some (y, out)) : y.Awake := by
  cases ev with
  | service ev =>
    cases ev with
    | clearDownloads => cases hy
    | _ => exact hx.serve hwf hy
  | notify =>
    simp only [Wakeup.step] at hy
    split at hy
    next =>
      obtain rfl := congrArg Prod.fst (Option.some.inj hy)
      exact hx.notify hc
    next => cases hy
  | collector =>
    obtain ⟨z, hz, hr⟩ := Option.map_eq_some_iff.mp hy
    obtain rfl := congrArg Prod.fst hr
    exact hx.collector hz
  | stop =>
    simp only [Wakeup.step] at hy
    split at hy
    next =>
      cases hy
      exact ⟨hx.mutex, hx.swept, by simp, fun _ => rfl, nofun⟩
    next => cases hy
  | notifyStop =>
    simp only [Wakeup.step] at hy
    split at hy
    next hs =>
      obtain rfl := congrArg Prod.fst (Option.some.inj hy)
      exact hx.notifyStop hs hc
    next => cases hy

theorem run_awake (hrun : (wakeupMachine H deviceKey directory maxPacketSize).Run InTime h x) :
    x.Awake := by
  apply hrun.state_invariant Awake
  · refine ⟨nofun, ?_, by simp [wakeupMachine, start], nofun, nofun⟩
    exact fun _ _ _ _ he => by cases he
  · intro h x y ev out hr hx hc hy
    obtain ⟨k, hk, -⟩ := service_run hr
    exact hx.step (run_wf hk) hc hy

/-- A flagged entry is collected by the steps up to the end of the next sweep. -/
theorem Awake.collects (hx : x.Awake) (hrun : x.run = true) (hn : x.notifier = none) {name : String}
    {e : Entry H} (he : x.service.activeDownloads name = some e) (hflag : e.flag = true) :
    ∃ y, x.Advances y ∧ y.service.activeDownloads name = none := by
  have hgone : x.service.clearDownloads.activeDownloads name = none := by
    simp [FileDownloadService.clearDownloads, he, hflag]
  have hsweep : ∀ z : Wakeup H, z.service = x.service → z.collector = .sweep → z.notifier = none →
      ∃ y, z.clearDownloads = some y ∧ y.service.activeDownloads name = none := by
    intro z hs hc hnotifier
    refine ⟨{ z with service := z.service.clearDownloads, collector := .unlock }, ?_, ?_⟩
    · simp [Wakeup.clearDownloads, hc, held, hnotifier]
    · rw [← hs] at hgone
      exact hgone
  have hswept : ¬ (x.collector = .unlock ∨ x.collector = .wait ∨ x.collector = .waiting) := by
    intro hc
    have hunflagged := hx.swept hn hc name e he
    rw [hflag] at hunflagged
    cases hunflagged
  cases hcollector : x.collector with
  | testRun =>
    obtain ⟨y, hy, hnone⟩ := hsweep { x with collector := .sweep } rfl rfl hn
    have htest : x.clearDownloads = some { x with collector := .sweep } := by
      simp [Wakeup.clearDownloads, hcollector, hrun]
    exact ⟨y, .head htest (.single hy), hnone⟩
  | sweep =>
    obtain ⟨y, hy, hnone⟩ := hsweep x rfl hcollector hn
    exact ⟨y, .single hy, hnone⟩
  | unlock => exact absurd (.inl hcollector) hswept
  | wait => exact absurd (.inr (.inl hcollector)) hswept
  | waiting => exact absurd (.inr (.inr hcollector)) hswept
  | returned =>
    have hstopped := hx.returned hcollector
    rw [hrun] at hstopped
    cases hstopped

theorem Awake.joins (hx : x.Awake) (hjoining : x.destructor = .joining) :
    ∃ y, x.Advances y ∧ y.collector = .returned := by
  have hrun : x.run = false := by
    rw [← Bool.not_eq_true, hx.run, hjoining]
    nofun
  obtain hcollector | hcollector := hx.joining hjoining
  · refine ⟨{ x with collector := .returned }, .single ?_, rfl⟩
    simp [Wakeup.clearDownloads, hcollector, hrun]
  · exact ⟨x, .refl, hcollector⟩

theorem Awake.blocked (hx : x.Awake) (hb : x.Blocked) : x.service.Collected ∧ x.run = true := by
  obtain ⟨hwaiting, hn, hstopping⟩ := hb
  refine ⟨hx.swept hn (.inr (.inr hwaiting)), hx.run.mpr ?_⟩
  cases hdestructor : x.destructor with
  | none => rfl
  | stopping => exact absurd hdestructor hstopping
  | joining => exact absurd hdestructor (hx.not_joining hwaiting (by decide))

end Wakeup

open Wakeup

variable {H : Host} {deviceKey directory : String} {maxPacketSize : UInt64} {x : Wakeup H}
  {h : List (Moment (Wakeup H) (WakeupEvent H) Output)}

/-- Where every notification comes in time, no wakeup of the collector is lost. -/
theorem no_lost_wakeup (hrun : (wakeupMachine H deviceKey directory maxPacketSize).Run InTime h x) :
    x.NoLostWakeup := by
  have hx := run_awake hrun
  constructor
  · exact fun hb => (hx.blocked hb).1
  · exact fun hb => (hx.blocked hb).2
  · exact fun hr hn name e he hflag => hx.collects hr hn he hflag
  · exact fun hjoining _ => hx.joins hjoining

def sampleWakeup : Machine (Wakeup sampleHost) (WakeupEvent sampleHost) Output :=
  wakeupMachine sampleHost "device" "/files" 66

/-- The transfer of a file, up to the flag of its entry. -/
def sampleFlag : List (WakeupEvent sampleHost) :=
  (sampleTransfer ++ [ServiceEvent.downloaderCommand "f" true]).map .service

def WakeupEvent.notifies : WakeupEvent H → Bool
  | .notify => true
  | .notifyStop => true
  | _ => false

/-- Every notification finds the collector waiting. -/
def InWait : Condition (Wakeup H) (WakeupEvent H) Output :=
  fun _ x ev => ev.notifies = true → x.collector = .waiting

instance (h : List (Moment (Wakeup H) (WakeupEvent H) Output)) (x : Wakeup H)
    (ev : WakeupEvent H) : Decidable (InWait h x ev) :=
  inferInstanceAs (Decidable (_ → _))

theorem InWait.inTime {ev : WakeupEvent H} (hw : InWait h x ev) : InTime h x ev := by
  cases ev with
  | notify =>
    intro hc
    rw [hw rfl] at hc
    cases hc
  | notifyStop =>
    change x.collector ≠ .sweep ∧ x.collector ≠ .unlock ∧ x.collector ≠ .wait
    rw [hw rfl]
    decide
  | _ => trivial

/-- A file is downloaded and its entry collected, and the service is destroyed. -/
theorem no_lost_wakeup_sample : ∃ h x, sampleWakeup.Run InTime h x ∧
    x.collector = .returned ∧ x.service.activeDownloads "f" = none ∧ x.NoLostWakeup := by
  obtain ⟨h, x, hr, hp⟩ := sampleWakeup.exists_run_of_replay InWait
    (List.replicate 4 .collector ++ sampleFlag ++ .notify :: List.replicate 4 .collector ++
      [.stop, .notifyStop, .collector])
    (fun _ x => decide (x.collector = .returned) && (x.service.activeDownloads "f").isNone)
    (by decide +kernel)
  obtain ⟨hreturned, hnone⟩ := Bool.and_eq_true_iff.mp hp
  have hr := hr.mono fun _ hw => hw.inTime
  exact ⟨h, x, hr, of_decide_eq_true hreturned, Option.isNone_iff_eq_none.mp hnone,
    no_lost_wakeup hr⟩

/-- The entry is flagged, and the collector notified, between its sweep and its wait. -/
theorem wakeup_lost : ¬ ∀ h x, sampleWakeup.Run Free h x → x.NoLostWakeup := by
  intro hall
  obtain ⟨h, x, hr, hp⟩ := sampleWakeup.exists_run_of_replay Free
    (List.replicate 3 .collector ++ sampleFlag ++ [.notify, .collector])
    (fun _ x => decide (x.collector = .waiting ∧ x.notifier = none ∧ x.destructor = .none) &&
      (x.service.activeDownloads "f").any fun e => e.flag) (by decide +kernel)
  obtain ⟨hblocked, hflagged⟩ := Bool.and_eq_true_iff.mp hp
  obtain ⟨hwaiting, hn, hdestructor⟩ := of_decide_eq_true hblocked
  obtain ⟨e, he, hflag⟩ := (Option.any_eq_true _ _).mp hflagged
  have hb : x.Blocked := ⟨hwaiting, hn, by simp [hdestructor]⟩
  rw [(hall h x hr).collected hb "f" e he] at hflag
  cases hflag

end WolkConnect
