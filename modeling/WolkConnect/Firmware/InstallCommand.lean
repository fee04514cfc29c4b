import WolkConnect.Firmware.OneOutcome
import WolkConnect.File.FileList
import WolkConnect.Transition.Simulation

/-! One install command, from the worker that takes it to the call of the installer: which
commands reach the installer, which leave the marker file as it was, which are answered. -/
namespace WolkConnect
open Transition Transition.Machine

/-- The file system of a process: relative paths are looked up in the working directory. -/
structure FileSystem where
  workingDirectory : String
  absolute : String → String → String
  isFile : String → Bool

/-- `FileSystemUtils::isFilePresent`. -/
def FileSystem.isFilePresent (F : FileSystem) (path : String) : Bool :=
  F.isFile (F.absolute F.workingDirectory path)

namespace FirmwareUpdateService

section

variable (W : FirmwareConfig)

/-- The call of the installer, after an announcement. -/
def startAnnounced (s : FirmwareUpdateService) : FirmwareUpdateService × List FirmwareOutput :=
  match s.worker with
  | .announced path installation =>
    ({ s with worker := .idle, running := installation :: s.running },
      [.install path installation])
  | _ => (s, [])

/-- The rest of `install` after the creation of the marker, if it comes that far. -/
def resumeInstall (s : FirmwareUpdateService) (fileInfo : Option FileInfo) (a : FirmwareAnswers) :
    FirmwareUpdateService × List FirmwareOutput :=
  match s.worker with
  | .marked _ installation =>
    let (s, announced) := announce s installation fileInfo a
    let (s, started) := startAnnounced s
    (s, announced ++ started)
  | _ => (s, [])

/-- The whole of `handleFirmwareUpdateCommand` for an idle worker, with no other thread in
between; `fileInfo` is the answer of `FileRepository::getFileInfo`. -/
def handleInstallCommand (s : FirmwareUpdateService) (deviceKeys : List String)
    (firmwareFile : String) (fileInfo : Option FileInfo) (a : FirmwareAnswers) :
    FirmwareUpdateService × List FirmwareOutput :=
  let (s, handled) := handleInstall W s deviceKeys firmwareFile a
  let (s, resumed) := resumeInstall s fileInfo a
  (s, handled ++ resumed)

/-- The checks that `install` makes before it asks for the version. -/
def asksVersion (firmwareFile : String) (a : FirmwareAnswers) : Bool :=
  firmwareFile ≠ "" && a.filePresent && W.firmwareInstaller && W.firmwareVersionProvider

/-- Every check up to the creation of the marker is passed. -/
def marks (firmwareFile : String) (a : FirmwareAnswers) : Bool :=
  asksVersion W firmwareFile a && a.version ≠ "" && a.created

/-- The state with the marker of a new installation. -/
def withMarker (s : FirmwareUpdateService) (version : String) : FirmwareUpdateService :=
  { s with marker := some ⟨version, s.installs⟩, installs := s.installs + 1 }

end

variable {W : FirmwareConfig} {s : FirmwareUpdateService} {deviceKeys : List String}
  {firmwareFile : String} {fileInfo : Option FileInfo} {a : FirmwareAnswers}

theorem isForDevice_self (h : W.deviceKey ≠ "") : isForDevice W [W.deviceKey] = true := by
  simp [isForDevice, h]

/-- What an install command comes to: it is for another device, or it ends without an answer,
or it is refused before the marker is written, or it is refused after that because the file
has no record, or the installer is called. -/
inductive Comes (W : FirmwareConfig) (s : FirmwareUpdateService) (deviceKeys : List String)
    (firmwareFile : String) (fileInfo : Option FileInfo) (a : FirmwareAnswers) :
    FirmwareUpdateService → List FirmwareOutput → Prop where
  | ignored (hkeys : isForDevice W deviceKeys = false) :
      Comes W s deviceKeys firmwareFile fileInfo a s []
  | silent (hkeys : isForDevice W deviceKeys = true) (hasks : asksVersion W firmwareFile a = true)
      (hv : a.version = "") : Comes W s deviceKeys firmwareFile fileInfo a s []
  | refused (error : FirmwareError) (hkeys : isForDevice W deviceKeys = true)
      (hmarks : marks W firmwareFile a = false)
      (hv : asksVersion W firmwareFile a = true → a.version ≠ "") :
      Comes W s deviceKeys firmwareFile fileInfo a s (sendStatus none (.error error) a)
  | unrecorded (hkeys : isForDevice W deviceKeys = true) (hmarks : marks W firmwareFile a = true)
      (hinfo : fileInfo = none) : Comes W s deviceKeys firmwareFile fileInfo a
      { s.withMarker a.version with worker := .idle } (sendStatus none (.error .fileSystemError) a)
  | installed (info : FileInfo) (hkeys : isForDevice W deviceKeys = true)
      (hmarks : marks W firmwareFile a = true) (hinfo : fileInfo = some info) :
      Comes W s deviceKeys firmwareFile fileInfo a
      { s.withMarker a.version with
        worker := .idle, running := s.installs :: s.running, last := some s.installs }
      (sendStatus (some s.installs) .installation a ++ [.install info.path s.installs])

theorem resumeInstall_idle (hw : s.worker = .idle) : resumeInstall s fileInfo a = (s, []) := by
  simp [resumeInstall, hw]

/-- Where the handler leaves the state as it is, the command ends with it. -/
theorem handleInstallCommand_of_kept (hw : s.worker = .idle) {out : List FirmwareOutput}
    (h : handleInstall W s deviceKeys firmwareFile a = (s, out)) :
    handleInstallCommand W s deviceKeys firmwareFile fileInfo a = (s, out) := by
  simp [handleInstallCommand, h, resumeInstall_idle hw]

/-- A command that fails a check before the version is asked for is answered with an error. -/
theorem handleInstall_refused (s : FirmwareUpdateService) (hkeys : isForDevice W deviceKeys = true)
    (hasks : asksVersion W firmwareFile a = false) :
    ∃ error, handleInstall W s deviceKeys firmwareFile a =
      (s, sendStatus none (.error error) a) := by
  unfold handleInstall install
  rw [hkeys]
  by_cases hname : firmwareFile = ""
  · exact ⟨.fileSystemError, by simp [hname]⟩
  by_cases hfile : a.filePresent = true
  · by_cases hinstaller : W.firmwareInstaller = true
    · have hprovider : W.firmwareVersionProvider = false := by
        simpa [asksVersion, hname, hfile, hinstaller] using hasks
      exact ⟨.unspecifiedError, by simp [hname, hfile, hinstaller, hprovider]⟩
    · exact ⟨.unspecifiedError, by simp [hname, hfile, hinstaller]⟩
  · exact ⟨.fileSystemError, by simp [hname, hfile]⟩

/-- Past those checks the rest of `install` decides. -/
theorem handleInstall_asks (s : FirmwareUpdateService) (hkeys : isForDevice W deviceKeys = true)
    (hasks : asksVersion W firmwareFile a = true) :
    handleInstall W s deviceKeys firmwareFile a =
      if a.version = "" then (s, [])
      else if a.created then
        ({ s.withMarker a.version with worker := .marked firmwareFile s.installs }, [])
      else (s, sendStatus none (.error .fileNotPresent) a) := by
  have hchecks : firmwareFile ≠ "" ∧ a.filePresent = true ∧ W.firmwareInstaller = true ∧
      W.firmwareVersionProvider = true := by
    simpa [asksVersion, and_assoc] using hasks
  obtain ⟨hname, hfile, hinstaller, hprovider⟩ := hchecks
  unfold handleInstall install
  cases hc : a.created
  · simp [hkeys, hname, hfile, hinstaller, hprovider]
  · simp [hkeys, hname, hfile, hinstaller, hprovider, withMarker]

theorem handleInstallCommand_comes (hw : s.worker = .idle) :
    Comes W s deviceKeys firmwareFile fileInfo a
      (handleInstallCommand W s deviceKeys firmwareFile fileInfo a).1
      (handleInstallCommand W s deviceKeys firmwareFile fileInfo a).2 := by
  by_cases hkeys : isForDevice W deviceKeys = true
  · by_cases hasks : asksVersion W firmwareFile a = true
    · have hr := handleInstall_asks s hkeys hasks
      by_cases hv : a.version = ""
      · rw [if_pos hv] at hr
        rw [handleInstallCommand_of_kept hw hr]
        exact .silent hkeys hasks hv
      rw [if_neg hv] at hr
      by_cases hc : a.created = true
      · rw [if_pos hc] at hr
        have hmarks : marks W firmwareFile a = true := by simp [marks, hasks, hv, hc]
        cases fileInfo with
        | none =>
          have heq : handleInstallCommand W s deviceKeys firmwareFile none a =
              ({ s.withMarker a.version with worker := .idle },
                sendStatus none (.error .fileSystemError) a) := by
            simp [handleInstallCommand, hr, resumeInstall, announce, startAnnounced]
          rw [heq]
          exact .unrecorded hkeys hmarks rfl
        | some info =>
          unfold handleInstallCommand
          rw [hr]
          exact .installed info hkeys hmarks rfl
      · rw [if_neg hc] at hr
        rw [handleInstallCommand_of_kept hw hr]
        exact .refused _ hkeys (by simp [marks, hc]) fun _ => hv
    · have hasks : asksVersion W firmwareFile a = false := by simpa using hasks
      obtain ⟨error, hr⟩ := handleInstall_refused s hkeys hasks
      rw [handleInstallCommand_of_kept hw hr]
      apply Comes.refused error hkeys
      · simp [marks, hasks]
      · simp [hasks]
  · have hkeys : isForDevice W deviceKeys = false := by simpa using hkeys
    have hr : handleInstall W s deviceKeys firmwareFile a = (s, []) := by
      simp [handleInstall, hkeys]
    rw [handleInstallCommand_of_kept hw hr]
    exact .ignored hkeys

/-! The steps of the worker that handle the command. -/

theorem step_path {e : FirmwareEvent} {r : FirmwareUpdateService × List FirmwareOutput}
    (h : step W s e = some r) : (firmwareMachine W).Path s r.2 r.1 := Path.single (e := e) h

theorem startAnnounced_path (W : FirmwareConfig) (s : FirmwareUpdateService) :
    (firmwareMachine W).Path s (startAnnounced s).2 (startAnnounced s).1 := by
  unfold startAnnounced
  split
  next path installation hw =>
    have hstep : step W s .start =
        some ({ s with worker := .idle, running := installation :: s.running },
          [.install path installation]) := by
      simp [step, hw]
    exact step_path hstep
  next => exact .nil s

theorem resumeInstall_path (W : FirmwareConfig) (s : FirmwareUpdateService) :
    (firmwareMachine W).Path s (resumeInstall s fileInfo a).2 (resumeInstall s fileInfo a).1 := by
  unfold resumeInstall
  split
  next file installation hw =>
    have hstep : step W s (.announce fileInfo a) = some (announce s installation fileInfo a) := by
      simp [step, hw]
    exact (step_path hstep).trans (startAnnounced_path W _)
  next => exact .nil s

/-- The handling of a command in one go is one way for the worker to take it. -/
theorem handleInstallCommand_path {rest : List FirmwareCommand} (hw : s.worker = .idle)
    (hq : s.commandBuffer = .install deviceKeys firmwareFile :: rest) :
    (firmwareMachine W).Path s
      (handleInstallCommand W { s with commandBuffer := rest } deviceKeys firmwareFile fileInfo a).2
      (handleInstallCommand W { s with commandBuffer := rest } deviceKeys firmwareFile fileInfo
        a).1 := by
  have hstep : step W s (.execute a) =
      some (handleInstall W { s with commandBuffer := rest } deviceKeys firmwareFile a) := by
    simp [step, hw, hq, runCommand]
  exact (step_path hstep).trans (resumeInstall_path W _)

/-- The paths that the installer was called with. -/
def installedPaths (out : List FirmwareOutput) : List String :=
  out.filterMap fun o =>
    match o with
    | .install path _ => some path
    | _ => none

@[simp] theorem installedPaths_nil : installedPaths [] = [] := rfl

@[simp] theorem installedPaths_sendStatus (installation : Option ℕ) (response : FirmwareStatus)
    (a : FirmwareAnswers) : installedPaths (sendStatus installation response a) = [] := by
  unfold sendStatus
  split <;> rfl

@[simp] theorem installedPaths_install (installation : Option ℕ) (response : FirmwareStatus)
    (a : FirmwareAnswers) (path : String) (n : ℕ) :
    installedPaths (sendStatus installation response a ++ [.install path n]) = [path] := by
  unfold sendStatus
  split <;> rfl

/-- The installer is called exactly when every check is passed and the file has a record. -/
theorem installedPaths_handleInstallCommand (hw : s.worker = .idle) :
    installedPaths (handleInstallCommand W s deviceKeys firmwareFile fileInfo a).2 =
      if isForDevice W deviceKeys = true ∧ marks W firmwareFile a = true then
        (fileInfo.map FileInfo.path).toList
      else [] := by
  have hcomes : Comes W s deviceKeys firmwareFile fileInfo a _ _ := handleInstallCommand_comes hw
  generalize (handleInstallCommand W s deviceKeys firmwareFile fileInfo a).1 = s' at hcomes
  generalize (handleInstallCommand W s deviceKeys firmwareFile fileInfo a).2 = out at hcomes ⊢
  cases hcomes with
  | ignored hkeys => simp [hkeys]
  | silent hkeys hasks hv => simp [marks, hv]
  | refused error hkeys hmarks hv => simp [hmarks]
  | unrecorded hkeys hmarks hinfo => simp [hinfo]
  | installed info hkeys hmarks hinfo => simp [hkeys, hmarks, hinfo]

/-- One status before the installer is called: that of the installation when it is called, an
error when it is not. -/
inductive Answered : List FirmwareOutput → Prop where
  | installed (path : String) (installation : ℕ) (published : Bool) :
      Answered [.publishStatus (some installation) .installation published,
        .install path installation]
  | refused (error : FirmwareError) (published : Bool) :
      Answered [.publishStatus none (.error error) published]

/-- The content of the marker file. -/
def markerContent (s : FirmwareUpdateService) : Option String := s.marker.map Marker.version

/-- The status that a report of the result decides on. -/
def reportedResult (W : FirmwareConfig) (s : FirmwareUpdateService) (a : FirmwareAnswers) :
    Option FirmwareStatus :=
  match (reportFirmwareUpdateResult W s a).1.reporter with
  | .decided status _ => some status
  | _ => none

/-- The marker file is as it was, and every report tells the same. -/
structure NoTrace (W : FirmwareConfig) (s s' : FirmwareUpdateService) : Prop where
  content : s'.markerContent = s.markerContent
  result : ∀ a, reportedResult W s' a = reportedResult W s a

theorem reportedResult_congr {s' : FirmwareUpdateService}
    (hcontent : s'.markerContent = s.markerContent) (hreporter : s'.reporter = s.reporter)
    (a : FirmwareAnswers) : reportedResult W s' a = reportedResult W s a := by
  unfold reportedResult reportFirmwareUpdateResult
  unfold markerContent at hcontent
  cases hm : s.marker with
  | none =>
    have hm' : s'.marker = none := by simpa [hm] using hcontent
    simp [hm', reported, addToCommandBuffer]
  | some marker =>
    obtain ⟨marker', hm', hversion⟩ : ∃ marker', s'.marker = some marker' ∧
        marker'.version = marker.version := by simpa [hm, Option.map_eq_some_iff] using hcontent
    rw [hm']
    dsimp only
    rw [hversion]
    generalize W.removeTrailingWhitespace _ = stored
    cases W.firmwareVersionProvider
    · simp [hreporter]
    by_cases hv : a.version = ""
    · simp [hv, reported, addToCommandBuffer]
    by_cases hsame : a.version = stored
    · subst hsame
      simp [hv]
    · simp [hv, hsame]

theorem noTrace_self : NoTrace W s s := ⟨rfl, fun _ => rfl⟩

theorem noTrace_withMarker_iff {version : String} :
    NoTrace W s { s.withMarker version with worker := .idle } ↔ s.markerContent = some version := by
  constructor
  · intro h
    exact h.content.symm
  · intro h
    have hcontent : markerContent { s.withMarker version with worker := .idle } =
        s.markerContent := h.symm
    exact ⟨hcontent, reportedResult_congr hcontent rfl⟩

end FirmwareUpdateService

open FirmwareUpdateService

variable {W : FirmwareConfig} {s : FirmwareUpdateService} {deviceKeys : List String}
  {firmwareFile : String} {fileInfo : Option FileInfo} {a : FirmwareAnswers}

/-- A recorded file is installed from the path of its record exactly when its bare name is a
file in the working directory and its record can be read. -/
theorem install_reaches_installer_iff (F : FileSystem) (executes : SQLiteFileRepository.Outcomes)
    (r : SQLiteFileRepository.Session) (firmwareFile : String) (info : FileInfo)
    (hw : s.worker = .idle) (hkey : W.deviceKey ≠ "") (hinstaller : W.firmwareInstaller = true)
    (hprovider : W.firmwareVersionProvider = true) (hversion : a.version ≠ "")
    (hcreated : a.created = true) (hrecord : r.table.get firmwareFile = some info) :
    installedPaths (handleInstallCommand W s [W.deviceKey] firmwareFile
        (SQLiteFileRepository.getFileInfo executes r firmwareFile).1
        { a with filePresent := F.isFilePresent firmwareFile }).2 = [info.path] ↔
      firmwareFile ≠ "" ∧ F.isFilePresent firmwareFile = true ∧ executes r.issued = true := by
  rw [installedPaths_handleInstallCommand hw, isForDevice_self hkey]
  simp only [marks, asksVersion, SQLiteFileRepository.getFileInfo, hrecord, hinstaller, hprovider,
    hcreated]
  cases F.isFilePresent firmwareFile
  · simp
  cases executes r.issued
  · simp
  by_cases hname : firmwareFile = ""
  · simp [hname]
  · simp [hname, hversion]

/-- Relative paths are appended to the working directory; `isFile` lists the files. -/
def sampleFileSystem (workingDirectory : String) (files : List String) : FileSystem where
  workingDirectory := workingDirectory
  absolute directory path :=
    if path.toList.head? = some '/' then path else directory ++ "/" ++ path
  isFile path := decide (path ∈ files)

/-- The record that the download of `fw` to `/files` leaves. -/
def sampleFirmwareRecord : FileInfo := ⟨"fw", "hash", recordPath sampleHost "/files" "fw"⟩

def sampleRepository : SQLiteFileRepository.Session :=
  ⟨⟨[sampleFirmwareRecord], List.nodup_singleton _, List.nodup_singleton _⟩, 0⟩

/-- The process runs in the directory of the downloads. -/
theorem install_reaches_installer_sample :
    installedPaths (handleInstallCommand sampleFirmware .construct ["D"] "fw"
      (SQLiteFileRepository.getFileInfo SQLiteFileRepository.reliable sampleRepository "fw").1
      { firmwareAnswers "1" with
        filePresent := (sampleFileSystem "/files" ["/files/fw"]).isFilePresent "fw" }).2 =
      ["/files/fw"] := by
  have hiff := install_reaches_installer_iff (W := sampleFirmware) (s := .construct)
    (a := firmwareAnswers "1") (sampleFileSystem "/files" ["/files/fw"])
    SQLiteFileRepository.reliable sampleRepository "fw" sampleFirmwareRecord rfl (by decide)
    rfl rfl (by decide) rfl (by decide +kernel)
  exact hiff.mpr (by decide +kernel)

/-- The process runs elsewhere: the file is on disk where its record says, and is refused. -/
theorem recorded_file_refused :
    ¬ ∀ (W : FirmwareConfig) (F : FileSystem) (r : SQLiteFileRepository.Session)
      (s : FirmwareUpdateService) (firmwareFile : String) (info : FileInfo) (a : FirmwareAnswers),
      s.worker = .idle → W.deviceKey ≠ "" → W.firmwareInstaller = true →
      W.firmwareVersionProvider = true → a.version ≠ "" → a.created = true →
      r.table.get firmwareFile = some info → F.isFilePresent info.path = true →
      installedPaths (handleInstallCommand W s [W.deviceKey] firmwareFile
        (SQLiteFileRepository.getFileInfo SQLiteFileRepository.reliable r firmwareFile).1
        { a with filePresent := F.isFilePresent firmwareFile }).2 = [info.path] := by
  intro hall
  have hinstalled := hall sampleFirmware (sampleFileSystem "/" ["/files/fw"]) sampleRepository
    .construct "fw" sampleFirmwareRecord (firmwareAnswers "1") rfl (by decide) rfl rfl (by decide)
    rfl (by decide +kernel) (by decide +kernel)
  revert hinstalled
  decide +kernel

/-- A command that does not reach the installer leaves no trace, except that a missing record
is noticed after the marker has been written. -/
theorem rejected_without_trace_iff (W : FirmwareConfig) (deviceKeys : List String)
    (firmwareFile : String) (fileInfo : Option FileInfo) (a : FirmwareAnswers)
    (hw : s.worker = .idle) :
    (installedPaths (handleInstallCommand W s deviceKeys firmwareFile fileInfo a).2 = [] →
        NoTrace W s (handleInstallCommand W s deviceKeys firmwareFile fileInfo a).1) ↔
      ¬ (isForDevice W deviceKeys = true ∧ marks W firmwareFile a = true ∧ fileInfo = none) ∨
        s.markerContent = some a.version := by
  have hcomes : Comes W s deviceKeys firmwareFile fileInfo a _ _ := handleInstallCommand_comes hw
  generalize (handleInstallCommand W s deviceKeys firmwareFile fileInfo a).1 = s' at hcomes ⊢
  generalize (handleInstallCommand W s deviceKeys firmwareFile fileInfo a).2 = out at hcomes ⊢
  cases hcomes with
  | ignored hkeys => simp [hkeys, noTrace_self]
  | silent hkeys hasks hv => simp [marks, hv, noTrace_self]
  | refused error hkeys hmarks hv => simp [hmarks, noTrace_self]
  | unrecorded hkeys hmarks hinfo => simp [hkeys, hmarks, hinfo, noTrace_withMarker_iff]
  | installed info hkeys hmarks hinfo => simp [hinfo]

/-- A command for another device, one for a file that is missing, one while the version is unknown
and one while no marker can be made. -/
def sampleRejections : List (List String × FirmwareAnswers) :=
  [(["other"], firmwareAnswers "2"), (["D"], { firmwareAnswers "2" with filePresent := false }),
    (["D"], firmwareAnswers ""), (["D"], { firmwareAnswers "2" with created := false })]

/-- The marker of an earlier installation stays, also where the record is missing and the marker
holds the current version. -/
theorem rejected_without_trace_sample :
    let s := { FirmwareUpdateService.construct with marker := some ⟨"1", 0⟩ }
    (∀ c ∈ sampleRejections, NoTrace sampleFirmware s
      (handleInstallCommand sampleFirmware s c.1 "fw" none c.2).1) ∧
    NoTrace sampleFirmware s
      (handleInstallCommand sampleFirmware s ["D"] "fw" none (firmwareAnswers "1")).1 := by
  intro s
  constructor
  · intro c hc
    have hinstalled : ∀ c ∈ sampleRejections,
        installedPaths (handleInstallCommand sampleFirmware s c.1 "fw" none c.2).2 = [] := by
      decide +kernel
    have hrejected : ∀ c ∈ sampleRejections, ¬ (isForDevice sampleFirmware c.1 = true ∧
        marks sampleFirmware "fw" c.2 = true ∧ (none : Option FileInfo) = none) := by
      decide +kernel
    exact (rejected_without_trace_iff sampleFirmware c.1 "fw" none c.2 rfl).mpr
      (.inl (hrejected c hc)) (hinstalled c hc)
  · exact (rejected_without_trace_iff sampleFirmware ["D"] "fw" none (firmwareAnswers "1") rfl).mpr
      (.inr rfl) (by decide +kernel)

/-- A file without a record is refused after the marker is written, and the next connection
reports that its installation has completed. -/
theorem rejected_install_reported :
    (¬ ∀ W s deviceKeys firmwareFile fileInfo a, s.worker = .idle →
      installedPaths (handleInstallCommand W s deviceKeys firmwareFile fileInfo a).2 = [] →
        NoTrace W s (handleInstallCommand W s deviceKeys firmwareFile fileInfo a).1) ∧
    ∃ h s, (firmwareMachine sampleFirmware).Run Free h s ∧ installedPaths (outputs h) = [] ∧
      .publishStatus (some 0) .completed true ∈ outputs h := by
  constructor
  · intro hall
    have htrace := hall sampleFirmware .construct ["D"] "fw" none (firmwareAnswers "1") rfl
      (by decide +kernel)
    have hcontent := htrace.content
    revert hcontent
    decide +kernel
  · obtain ⟨h, s, hr, hp⟩ := (firmwareMachine sampleFirmware).exists_run_of_replay Free
      ([.messageReceived (.install ["D"] "fw"), .execute (firmwareAnswers "1"),
        .announce none (firmwareAnswers "1")] ++ sampleReport "2")
      (fun h _ => decide (installedPaths (outputs h) = [] ∧
        .publishStatus (some 0) .completed true ∈ outputs h)) (by decide +kernel)
    exact ⟨h, s, hr, of_decide_eq_true hp⟩

/-- A command for this device is answered unless the version it asks for is empty. -/
theorem install_answered_iff (firmwareFile : String) (fileInfo : Option FileInfo)
    (hw : s.worker = .idle) (hkey : W.deviceKey ≠ "") (hmessage : a.makesMessage = true) :
    Answered (handleInstallCommand W s [W.deviceKey] firmwareFile fileInfo a).2 ↔
      ¬ (asksVersion W firmwareFile a = true ∧ a.version = "") := by
  have hcomes : Comes W s [W.deviceKey] firmwareFile fileInfo a _ _ :=
    handleInstallCommand_comes hw
  generalize (handleInstallCommand W s [W.deviceKey] firmwareFile fileInfo a).1 = s' at hcomes
  generalize (handleInstallCommand W s [W.deviceKey] firmwareFile fileInfo a).2 = out at hcomes ⊢
  have hsilent : ¬ Answered [] := by
    intro h
    cases h
  cases hcomes with
  | ignored hkeys =>
    rw [isForDevice_self hkey] at hkeys
    cases hkeys
  | silent hkeys hasks hv => simp [hsilent, hasks, hv]
  | refused error hkeys hmarks hv =>
    simp only [sendStatus, hmessage, if_true]
    exact iff_of_true (.refused _ _) fun h => hv h.1 h.2
  | unrecorded hkeys hmarks hinfo =>
    have hv : a.version ≠ "" := by
      simp only [marks] at hmarks
      simp_all
    simp only [sendStatus, hmessage, if_true]
    exact iff_of_true (.refused _ _) fun h => hv h.2
  | installed info hkeys hmarks hinfo =>
    have hv : a.version ≠ "" := by
      simp only [marks] at hmarks
      simp_all
    simp only [sendStatus, hmessage, if_true]
    exact iff_of_true (.installed _ _ _) fun h => hv h.2

theorem install_answered_sample :
    Answered (handleInstallCommand sampleFirmware .construct ["D"] "fw" none
      (firmwareAnswers "1")).2 :=
  (install_answered_iff (W := sampleFirmware) (s := .construct)
    (a := firmwareAnswers "1") "fw" none rfl (by decide) rfl).mpr (by decide +kernel)

/-- No version, no answer. -/
theorem install_not_answered :
    ¬ ∀ W s firmwareFile fileInfo a, s.worker = .idle → W.deviceKey ≠ "" →
      a.makesMessage = true →
        Answered (handleInstallCommand W s [W.deviceKey] firmwareFile fileInfo a).2 := by
  intro hall
  have hanswered := hall sampleFirmware .construct "fw" none (firmwareAnswers "") rfl (by decide)
    rfl
  have hsilent : (handleInstallCommand sampleFirmware .construct ["D"] "fw" none
      (firmwareAnswers "")).2 = [] := by
    decide +kernel
  rw [show sampleFirmware.deviceKey = "D" from rfl, hsilent] at hanswered
  cases hanswered

end WolkConnect
