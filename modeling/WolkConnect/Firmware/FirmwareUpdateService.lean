import WolkConnect.File.Host
import WolkConnect.Transition.Machine

/-! `FirmwareUpdateService`: its command queue, the installer with its callbacks, the report
that each connection starts, and the marker file, which survives a restart of the process.
A step ends wherever another thread or the end of the process can come in between. -/
namespace WolkConnect
open Transition

inductive FirmwareError where
  | unspecifiedError
  | fileNotPresent
  | fileSystemError
  | installationFailed
  deriving DecidableEq

inductive FirmwareStatus where
  | installation
  | completed
  | aborted
  | error (error : FirmwareError)
  deriving DecidableEq

/-- The lambdas in the command queue. -/
inductive FirmwareCommand where
  | install (deviceKeys : List String) (fileName : String)
  | abort (deviceKeys : List String)
  | publishFirmwareVersion
  deriving DecidableEq

/-- The file `.dfu-version`: its content, and the number of the installation that wrote it,
which nothing reads. -/
structure Marker where
  version : String
  installation : ℕ
  deriving DecidableEq

/-- How far `install` has come: the marker is written, or the installation announced. -/
inductive InstallWorker where
  | idle
  | marked (firmwareFile : String) (installation : ℕ)
  | announced (path : String) (installation : ℕ)
  deriving DecidableEq

/-- How far `reportFirmwareUpdateResult` has come: the status is decided, or sent. -/
inductive ReportWorker where
  | idle
  | decided (status : FirmwareStatus) (installation : ℕ)
  | sent
  deriving DecidableEq

/-- A status carries the number of the installation it is about, if any. -/
inductive FirmwareOutput where
  | publishStatus (installation : Option ℕ) (status : FirmwareStatus) (published : Bool)
  | publishVersion (version : String) (published : Bool)
  | install (path : String) (installation : ℕ)
  | nullPointer
  deriving DecidableEq

/-- What the service was constructed with, and the string utility that it calls. -/
structure FirmwareConfig where
  deviceKey : String
  firmwareInstaller : Bool
  firmwareVersionProvider : Bool
  removeTrailingWhitespace : String → String

/-- The answers to one step: whether the firmware file is present, the provider's version,
whether the marker is created, read and deleted, whether the installer aborts, whether a
message can be made, and the answer of `publish`. -/
structure FirmwareAnswers where
  filePresent : Bool
  version : String
  created : Bool
  readable : Bool
  deleted : Bool
  aborted : Bool
  makesMessage : Bool
  published : Bool
  deriving DecidableEq

/-- `installs` numbers the installations, `running` are those that the installer works on,
the newest first, `ended` those it has finished or the service has reported, and `last` is
the last one announced. The service reads none of these. -/
structure FirmwareUpdateService where
  commandBuffer : List FirmwareCommand
  worker : InstallWorker
  reporter : ReportWorker
  marker : Option Marker
  installs : ℕ
  running : List ℕ
  ended : List ℕ
  last : Option ℕ

inductive FirmwareEvent where
  | messageReceived (c : FirmwareCommand)
  /-- The worker takes the next command. -/
  | execute (a : FirmwareAnswers)
  /-- `install` goes on with the answer of `FileRepository::getFileInfo`. -/
  | announce (fileInfo : Option FileInfo) (a : FirmwareAnswers)
  | start
  | installSucceeded (installation : ℕ) (a : FirmwareAnswers)
  | installFailed (installation : ℕ) (a : FirmwareAnswers)
  /-- `Wolk::notifyConnected` calls `reportFirmwareUpdateResult`, which reads the marker. -/
  | notifyConnected (a : FirmwareAnswers)
  /-- The report sends its status. -/
  | report (a : FirmwareAnswers)
  /-- The report deletes the marker. -/
  | deleteMarker (a : FirmwareAnswers)
  /-- The process ends and starts again. -/
  | restart

namespace FirmwareUpdateService

variable (W : FirmwareConfig)

def construct : FirmwareUpdateService where
  commandBuffer := []
  worker := .idle
  reporter := .idle
  marker := none
  installs := 0
  running := []
  ended := []
  last := none

def addToCommandBuffer (s : FirmwareUpdateService) (c : FirmwareCommand) : FirmwareUpdateService :=
  { s with commandBuffer := s.commandBuffer ++ [c] }

/-- The answer of `publish` is only logged. -/
def sendStatus (installation : Option ℕ) (response : FirmwareStatus) (a : FirmwareAnswers) :
    List FirmwareOutput :=
  if a.makesMessage then [.publishStatus installation response a.published] else []

def publishFirmwareVersion (a : FirmwareAnswers) : List FirmwareOutput :=
  if !W.firmwareVersionProvider then [.nullPointer]
  else if a.version = "" then []
  else if a.makesMessage then [.publishVersion a.version a.published]
  else []

/-- `install` up to the creation of the marker. -/
def install (s : FirmwareUpdateService) (firmwareFile : String) (a : FirmwareAnswers) :
    FirmwareUpdateService × List FirmwareOutput :=
  if !W.firmwareInstaller then (s, sendStatus none (.error .unspecifiedError) a)
  else if !W.firmwareVersionProvider then (s, sendStatus none (.error .unspecifiedError) a)
  else if a.version = "" then (s, [])
  else if !a.created then (s, sendStatus none (.error .fileNotPresent) a)
  else
    ({ s with
        marker := some ⟨a.version, s.installs⟩
        worker := .marked firmwareFile s.installs
        installs := s.installs + 1 }, [])

/-- `install` between the creation of the marker and the call of the installer. -/
def announce (s : FirmwareUpdateService) (installation : ℕ) (fileInfo : Option FileInfo)
    (a : FirmwareAnswers) : FirmwareUpdateService × List FirmwareOutput :=
  match fileInfo with
  | none => ({ s with worker := .idle }, sendStatus none (.error .fileSystemError) a)
  | some info =>
    ({ s with worker := .announced info.path installation, last := some installation },
      sendStatus (some installation) .installation a)

/-- The only device key of a command, if it is this device's. -/
def isForDevice (deviceKeys : List String) : Bool :=
  match deviceKeys with
  | [deviceKey] => deviceKey ≠ "" && deviceKey = W.deviceKey
  | _ => false

def handleInstall (s : FirmwareUpdateService) (deviceKeys : List String) (firmwareFile : String)
    (a : FirmwareAnswers) : FirmwareUpdateService × List FirmwareOutput :=
  if !isForDevice W deviceKeys then (s, [])
  else if firmwareFile = "" then (s, sendStatus none (.error .fileSystemError) a)
  else if !a.filePresent then (s, sendStatus none (.error .fileSystemError) a)
  else install W s firmwareFile a

/-- The installation that an abort is about. -/
def abortable (s : FirmwareUpdateService) : Option ℕ := s.running.head?.or s.last

/-- An installer that has aborted calls no callback any more. -/
def abort (s : FirmwareUpdateService) (a : FirmwareAnswers) :
    FirmwareUpdateService × List FirmwareOutput :=
  if !W.firmwareInstaller then (s, [.nullPointer])
  else if a.aborted then
    ({ s with running := [], ended := s.running ++ s.ended }, sendStatus s.abortable .aborted a)
  else (s, [])

def handleAbort (s : FirmwareUpdateService) (deviceKeys : List String) (a : FirmwareAnswers) :
    FirmwareUpdateService × List FirmwareOutput :=
  if !isForDevice W deviceKeys then (s, []) else abort W s a

def runCommand (s : FirmwareUpdateService) (c : FirmwareCommand) (a : FirmwareAnswers) :
    FirmwareUpdateService × List FirmwareOutput :=
  match c with
  | .install deviceKeys fileName => handleInstall W s deviceKeys fileName a
  | .abort deviceKeys => handleAbort W s deviceKeys a
  | .publishFirmwareVersion => (s, publishFirmwareVersion W a)

/-- The installer has called one of its callbacks for an installation. -/
def finish (s : FirmwareUpdateService) (installation : ℕ) : FirmwareUpdateService :=
  { s with running := s.running.erase installation, ended := installation :: s.ended }

/-- The end of `publishFirmwareStatus`, however the report ends. -/
def reported (s : FirmwareUpdateService) : FirmwareUpdateService :=
  { s with reporter := .idle }.addToCommandBuffer .publishFirmwareVersion

/-- `reportFirmwareUpdateResult` up to its status. -/
def reportFirmwareUpdateResult (s : FirmwareUpdateService) (a : FirmwareAnswers) :
    FirmwareUpdateService × List FirmwareOutput :=
  match s.marker with
  | none => (s.reported, [])
  | some marker =>
    if !W.firmwareVersionProvider then (s, [.nullPointer])
    else
      let stored := W.removeTrailingWhitespace (if a.readable then marker.version else "")
      if a.version = "" then (s.reported, [])
      else if a.version ≠ stored then
        ({ s with reporter := .decided .completed marker.installation }, [])
      else
        ({ s with reporter := .decided (.error .installationFailed) marker.installation }, [])

def step (s : FirmwareUpdateService) :
    FirmwareEvent → Option (FirmwareUpdateService × List FirmwareOutput)
  | .messageReceived c => some (s.addToCommandBuffer c, [])
  | .execute a =>
    match s.worker, s.commandBuffer with
    | .idle, c :: rest => some (runCommand W { s with commandBuffer := rest } c a)
    | _, _ => none
  | .announce fileInfo a =>
    match s.worker with
    | .marked _ installation => some (announce s installation fileInfo a)
    | _ => none
  | .start =>
    match s.worker with
    | .announced path installation =>
      some ({ s with worker := .idle, running := installation :: s.running },
        [.install path installation])
    | _ => none
  | .installSucceeded installation a =>
    if installation ∈ s.running then
      some ((s.finish installation).addToCommandBuffer .publishFirmwareVersion,
        sendStatus (some installation) .completed a)
    else none
  | .installFailed installation a =>
    if installation ∈ s.running then
      some (s.finish installation, sendStatus (some installation) (.error .installationFailed) a)
    else none
  | .notifyConnected a =>
    match s.reporter with
    | .idle => some (reportFirmwareUpdateResult W s a)
    | _ => none
  | .report a =>
    match s.reporter with
    | .decided status installation =>
      some ({ s with reporter := .sent, ended := installation :: s.ended },
        sendStatus (some installation) status a)
    | _ => none
  | .deleteMarker a =>
    match s.reporter with
    | .sent => some ({ s with marker := if a.deleted then none else s.marker }.reported, [])
    | _ => none
  | .restart =>
    some ({ s with commandBuffer := [], worker := .idle, reporter := .idle, running := [] }, [])

/-- The installation that the worker is about to start. -/
def starting (s : FirmwareUpdateService) : Option ℕ :=
  match s.worker with
  | .idle => none
  | .marked _ installation => some installation
  | .announced _ installation => some installation

/-- What a command does: it writes the marker of a new installation, it aborts, or it changes
nothing and sends at most an error or the version. -/
inductive Runs (s : FirmwareUpdateService) :
    FirmwareCommand → FirmwareAnswers → FirmwareUpdateService → List FirmwareOutput → Prop where
  | marked (deviceKeys firmwareFile a) : Runs s (.install deviceKeys firmwareFile) a
      { s with
        marker := some ⟨a.version, s.installs⟩
        worker := .marked firmwareFile s.installs
        installs := s.installs + 1 } []
  | aborted (deviceKeys a) (ha : a.aborted = true) : Runs s (.abort deviceKeys) a
      { s with running := [], ended := s.running ++ s.ended } (sendStatus s.abortable .aborted a)
  | kept (c a out) (hout : out = [] ∨ out = [.nullPointer] ∨
      (∃ error, out = sendStatus none (.error error) a) ∨
      ∃ version published, out = [.publishVersion version published]) : Runs s c a s out

variable {W}

theorem runCommand_runs (s : FirmwareUpdateService) (c : FirmwareCommand) (a : FirmwareAnswers) :
    Runs s c a (runCommand W s c a).1 (runCommand W s c a).2 := by
  cases c with
  | install deviceKeys firmwareFile =>
    simp only [runCommand, handleInstall, install]
    split
    · exact .kept _ _ _ (.inl rfl)
    split
    · exact .kept _ _ _ (.inr (.inr (.inl ⟨_, rfl⟩)))
    split
    · exact .kept _ _ _ (.inr (.inr (.inl ⟨_, rfl⟩)))
    split
    · exact .kept _ _ _ (.inr (.inr (.inl ⟨_, rfl⟩)))
    split
    · exact .kept _ _ _ (.inr (.inr (.inl ⟨_, rfl⟩)))
    split
    · exact .kept _ _ _ (.inl rfl)
    split
    · exact .kept _ _ _ (.inr (.inr (.inl ⟨_, rfl⟩)))
    · exact .marked deviceKeys firmwareFile a
  | abort deviceKeys =>
    simp only [runCommand, handleAbort, abort]
    split
    · exact .kept _ _ _ (.inl rfl)
    split
    · exact .kept _ _ _ (.inr (.inl rfl))
    split
    next ha => exact .aborted deviceKeys a ha
    next => exact .kept _ _ _ (.inl rfl)
  | publishFirmwareVersion =>
    simp only [runCommand, publishFirmwareVersion]
    split
    · exact .kept _ _ _ (.inr (.inl rfl))
    split
    · exact .kept _ _ _ (.inl rfl)
    split
    · exact .kept _ _ _ (.inr (.inr (.inr ⟨_, _, rfl⟩)))
    · exact .kept _ _ _ (.inl rfl)

/-- Everything a step can do, one case for each kind of event. -/
inductive Moves (W : FirmwareConfig) (s : FirmwareUpdateService) :
    FirmwareEvent → FirmwareUpdateService → List FirmwareOutput → Prop where
  | received (c) : Moves W s (.messageReceived c) (s.addToCommandBuffer c) []
  | ran (c rest a s' out) (hw : s.worker = .idle) (hq : s.commandBuffer = c :: rest)
      (hrun : Runs { s with commandBuffer := rest } c a s' out) : Moves W s (.execute a) s' out
  | announced (file installation fileInfo a) (hw : s.worker = .marked file installation) :
      Moves W s (.announce fileInfo a) (announce s installation fileInfo a).1
        (announce s installation fileInfo a).2
  | started (path installation) (hw : s.worker = .announced path installation) :
      Moves W s .start { s with worker := .idle, running := installation :: s.running }
        [.install path installation]
  | succeeded (installation a) (hn : installation ∈ s.running) :
      Moves W s (.installSucceeded installation a)
        ((s.finish installation).addToCommandBuffer .publishFirmwareVersion)
        (sendStatus (some installation) .completed a)
  | failed (installation a) (hn : installation ∈ s.running) :
      Moves W s (.installFailed installation a) (s.finish installation)
        (sendStatus (some installation) (.error .installationFailed) a)
  | notified (a) (hr : s.reporter = .idle) :
      Moves W s (.notifyConnected a) (reportFirmwareUpdateResult W s a).1
        (reportFirmwareUpdateResult W s a).2
  | sent (status installation a) (hr : s.reporter = .decided status installation) :
      Moves W s (.report a) { s with reporter := .sent, ended := installation :: s.ended }
        (sendStatus (some installation) status a)
  | deleted (a) (hr : s.reporter = .sent) : Moves W s (.deleteMarker a)
      ({ s with marker := if a.deleted then none else s.marker }.reported) []
  | restarted : Moves W s .restart
      { s with commandBuffer := [], worker := .idle, reporter := .idle, running := [] } []

theorem step_moves {s s' : FirmwareUpdateService} {ev : FirmwareEvent} {out : List FirmwareOutput}
    (h : step W s ev = some (s', out)) : Moves W s ev s' out := by
  cases ev with
  | messageReceived c =>
    cases h
    exact .received c
  | execute a =>
    simp only [step] at h
    split at h
    next c rest hw hq =>
      have hrun := runCommand_runs (W := W) { s with commandBuffer := rest } c a
      rw [Option.some.inj h] at hrun
      exact .ran c rest a s' out hw hq hrun
    next => cases h
  | announce fileInfo a =>
    simp only [step] at h
    split at h
    next file installation hw =>
      have hm := Moves.announced (W := W) file installation fileInfo a hw
      rwa [Option.some.inj h] at hm
    next => cases h
  | start =>
    simp only [step] at h
    split at h
    next path installation hw =>
      cases h
      exact .started path installation hw
    next => cases h
  | installSucceeded installation a =>
    simp only [step] at h
    split at h
    next hn =>
      cases h
      exact .succeeded installation a hn
    next => cases h
  | installFailed installation a =>
    simp only [step] at h
    split at h
    next hn =>
      cases h
      exact .failed installation a hn
    next => cases h
  | notifyConnected a =>
    simp only [step] at h
    split at h
    next hr =>
      have hm := Moves.notified (W := W) a hr
      rwa [Option.some.inj h] at hm
    next => cases h
  | report a =>
    simp only [step] at h
    split at h
    next status installation hr =>
      cases h
      exact .sent status installation a hr
    next => cases h
  | deleteMarker a =>
    simp only [step] at h
    split at h
    next hr =>
      cases h
      exact .deleted a hr
    next => cases h
  | restart =>
    cases h
    exact .restarted

end FirmwareUpdateService

/-- The service over any number of processes, from the first one on. -/
def firmwareMachine (W : FirmwareConfig) :
    Machine FirmwareUpdateService FirmwareEvent FirmwareOutput where
  start := .construct
  step := FirmwareUpdateService.step W

end WolkConnect
