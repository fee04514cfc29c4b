import WolkConnect.File.FileHandler
import WolkConnect.Transition.Machine
import Mathlib.Data.Rat.Floor
import Mathlib.Algebra.Order.Floor.Semiring

/-! `FileDownloader`: the commands of one download and its retry timer. A command runs
to its end before the next one or an expiry of the timer. -/
namespace WolkConnect

/-- What a command does outside of the downloader's own fields, in order. A call of a
null `std::function` throws and is the last effect of its command. -/
inductive Effect (κ : Type) where
  | packetProvider (callback : κ) (request : FilePacketRequest)
  | createBinaryFileWithContent (path : String) (content : ByteArray) (created : Bool)
  | onSuccess (callback : κ) (filePath : String)
  | onFail (callback : κ) (errorCode : FileTransferError)
  | badFunctionCall
  deriving DecidableEq

/-- The success or the failure callback. -/
def Effect.isOutcome {κ : Type} : Effect κ → Bool
  | .onSuccess _ _ => true
  | .onFail _ _ => true
  | _ => false

/-- The fields of the class. A callback is the values `κ` it captured, null is `none`;
`timer` tells whether the one-shot timer is armed. -/
structure FileDownloader (κ : Type) where
  maxPacketSize : UInt64
  fileHandler : FileHandler
  timer : Bool
  currentFileName : String
  currentFileSize : UInt64
  currentPacketSize : UInt64
  currentPacketCount : UInt32
  currentPacketIndex : UInt32
  currentFileHash : ByteArray
  currentDownloadDirectory : String
  packetProvider : Option κ
  currentOnSuccessCallback : Option κ
  currentOnFailCallback : Option κ
  retryCount : UInt16

/-- The lambdas that `download`, `handleData` and `abort` put into the command buffer. -/
inductive Command (H : Host) (κ : Type) where
  | download (fileName : String) (fileSize : UInt64) (fileHash : ByteArray)
      (downloadDirectory : String) (callbacks : κ)
  | handleData (binaryData : H.BinaryData)
  | abort

namespace FileDownloader

variable {κ : Type}

def maxRetryCount : UInt16 := 3

/-- The constructor leaves the counters and sizes indeterminate; `download`, the first
command of every downloader, clears them before they are read. -/
def construct (maxPacketSize : UInt64) : FileDownloader κ where
  maxPacketSize := maxPacketSize
  fileHandler := .empty
  timer := false
  currentFileName := ""
  currentFileSize := 0
  currentPacketSize := 0
  currentPacketCount := 0
  currentPacketIndex := 0
  currentFileHash := []
  currentDownloadDirectory := ""
  packetProvider := none
  currentOnSuccessCallback := none
  currentOnFailCallback := none
  retryCount := 0

def clear (d : FileDownloader κ) : FileDownloader κ :=
  { d with
    currentFileName := ""
    currentFileSize := 0
    currentPacketSize := 0
    currentPacketCount := 0
    currentPacketIndex := 0
    currentFileHash := []
    currentDownloadDirectory := ""
    packetProvider := none
    currentOnSuccessCallback := none
    currentOnFailCallback := none
    retryCount := 0
    fileHandler := d.fileHandler.clear }

/-- `m_timer.stop()`. -/
def stopTimer (d : FileDownloader κ) : FileDownloader κ := { d with timer := false }

def requestPacket (d : FileDownloader κ) (index : UInt32) (size : UInt64) :
    FileDownloader κ × List (Effect κ) :=
  let d := { d with retryCount := d.retryCount + 1 }
  match d.packetProvider with
  | none => (d, [.badFunctionCall])
  | some callback =>
    ({ d with timer := true }, [.packetProvider callback ⟨d.currentFileName, index, size⟩])

/-- The guarded call of the success callback. -/
def notifySuccess (d : FileDownloader κ) (filePath : String) : List (Effect κ) :=
  match d.currentOnSuccessCallback with
  | none => []
  | some callback => [.onSuccess callback filePath]

/-- The guarded call of the failure callback. -/
def notifyFail (d : FileDownloader κ) (errorCode : FileTransferError) : List (Effect κ) :=
  match d.currentOnFailCallback with
  | none => []
  | some callback => [.onFail callback errorCode]

def packetFailed (d : FileDownloader κ) : FileDownloader κ × List (Effect κ) :=
  if d.retryCount = maxRetryCount then (d.clear, d.notifyFail .retryCountExceeded)
  else d.requestPacket d.currentPacketIndex d.currentPacketSize

variable (H : Host)

/-- The packet count and packet size of a download. The quotient of the double division
is taken to be exact; division by zero gives infinity. -/
def packetPlan (maxPacketSize fileSize : UInt64) : UInt32 × UInt64 :=
  let payload := maxPacketSize - 2 * UInt64.ofNat sha256HashByteLength
  if fileSize ≤ payload then (1, fileSize + 2 * UInt64.ofNat sha256HashByteLength)
  else
    let count := if payload = 0 then none
      else some ⌈(fileSize.toNat : ℚ) / (payload.toNat : ℚ)⌉₊
    (H.castUnsigned count, maxPacketSize)

def download (d : FileDownloader κ) (fileName : String) (fileSize : UInt64)
    (fileHash : ByteArray) (downloadDirectory : String) (callbacks : κ) :
    FileDownloader κ × List (Effect κ) :=
  let d := d.stopTimer.clear
  let plan := packetPlan H d.maxPacketSize fileSize
  let d :=
    { d with
      currentPacketCount := plan.1
      currentPacketSize := plan.2
      currentFileName := fileName
      currentFileSize := fileSize
      currentFileHash := fileHash
      currentDownloadDirectory := downloadDirectory
      packetProvider := some callbacks
      currentOnSuccessCallback := some callbacks
      currentOnFailCallback := some callbacks }
  d.requestPacket d.currentPacketIndex d.currentPacketSize

/-- The end of `handleData` once the last packet is in; `created` is the answer of
`createBinaryFileWithContent`. -/
def downloadComplete (d : FileDownloader κ) (created : Bool) :
    FileDownloader κ × List (Effect κ) :=
  match d.fileHandler.validateFile H d.currentFileHash with
  | .ok =>
    let filePath := H.composePath d.currentFileName d.currentDownloadDirectory
    let (saveResult, path, content) :=
      d.fileHandler.saveFile H d.currentFileName d.currentDownloadDirectory created
    let written := .createBinaryFileWithContent path content created
    match saveResult with
    | .ok => (d.clear, written :: d.notifySuccess (H.absolutePath filePath))
    | .fileHandlingError => (d.clear, written :: d.notifyFail .fileSystemError)
    | _ => (d.clear, written :: d.notifyFail .unspecifiedError)
  | _ => (d.clear, d.notifyFail .unspecifiedError)

def handleData (d : FileDownloader κ) (binaryData : H.BinaryData) (created : Bool) :
    FileDownloader κ × List (Effect κ) :=
  let d := d.stopTimer
  let (result, fileHandler) := d.fileHandler.handleData H binaryData
  let d := { d with fileHandler := fileHandler }
  match result with
  | .ok =>
    let d := { d with currentPacketIndex := d.currentPacketIndex + 1 }
    if d.currentPacketIndex = d.currentPacketCount then d.downloadComplete H created
    else { d with retryCount := 0 }.requestPacket d.currentPacketIndex d.currentPacketSize
  | .packageHashNotValid => d.packetFailed
  | .previousPackageHashNotValid => d.packetFailed
  | _ => (d.clear, d.notifyFail .unspecifiedError)

def abort (d : FileDownloader κ) : FileDownloader κ × List (Effect κ) :=
  (d.stopTimer.clear, [])

/-- The command buffer's worker runs one command. -/
def run (d : FileDownloader κ) (c : Command H κ) (created : Bool) :
    FileDownloader κ × List (Effect κ) :=
  match c with
  | .download fileName fileSize fileHash downloadDirectory callbacks =>
    d.download H fileName fileSize fileHash downloadDirectory callbacks
  | .handleData binaryData => d.handleData H binaryData created
  | .abort => d.abort

/-- The armed timer expires: it is disarmed and `packetFailed` runs. -/
def timerExpired (d : FileDownloader κ) : Option (FileDownloader κ × List (Effect κ)) :=
  if d.timer then some d.stopTimer.packetFailed else none

end FileDownloader

/-- What can happen to a downloader: a command with the answer the file system would
give to it, or an expiry. -/
inductive DownloaderEvent (H : Host) (κ : Type) where
  | command (c : Command H κ) (created : Bool)
  | timerExpired

/-- One `FileDownloader` under any sequence of commands and expiries. -/
def downloaderMachine (H : Host) (κ : Type) (maxPacketSize : UInt64) :
    Transition.Machine (FileDownloader κ) (DownloaderEvent H κ) (Effect κ) where
  start := .construct maxPacketSize
  step d
    | .command c created => some (d.run H c created)
    | .timerExpired => d.timerExpired

namespace FileDownloader

variable {κ : Type} {H : Host} {d : FileDownloader κ}

/-- Nothing of the earlier fields but the packet size bound survives `download`. -/
theorem download_eq_construct (fileName : String) (fileSize : UInt64) (fileHash : ByteArray)
    (downloadDirectory : String) (callbacks : κ) :
    d.download H fileName fileSize fileHash downloadDirectory callbacks =
      (construct d.maxPacketSize).download H fileName fileSize fileHash downloadDirectory
        callbacks := rfl

@[simp] theorem clear_eq_construct (h : d.timer = false) : d.clear = construct d.maxPacketSize := by
  cases d
  subst h
  rfl

@[simp] theorem packetFailed_of_eq (h : d.retryCount = maxRetryCount) :
    d.packetFailed = (d.clear, d.notifyFail .retryCountExceeded) := if_pos h

@[simp] theorem packetFailed_of_ne (h : d.retryCount ≠ maxRetryCount) :
    d.packetFailed = d.requestPacket d.currentPacketIndex d.currentPacketSize := if_neg h

/-- The fields after a request went out: one more attempt and an armed timer. -/
def requested (d : FileDownloader κ) : FileDownloader κ :=
  { d with retryCount := d.retryCount + 1, timer := true }

theorem notifyFail_none (h : d.currentOnFailCallback = none) (errorCode : FileTransferError) :
    d.notifyFail errorCode = [] := by
  simp [notifyFail, h]

/-- The null packet provider throws before the timer is started. -/
theorem requestPacket_none (h : d.packetProvider = none) (index : UInt32) (size : UInt64) :
    d.requestPacket index size =
      ({ d with retryCount := d.retryCount + 1 }, [.badFunctionCall]) := by
  simp [requestPacket, h]

theorem requestPacket_some {callback : κ} (h : d.packetProvider = some callback)
    (index : UInt32) (size : UInt64) :
    d.requestPacket index size =
      (d.requested, [.packetProvider callback ⟨d.currentFileName, index, size⟩]) := by
  simp [requestPacket, h, requested]

/-- The fields after a packet was appended. -/
def appended (H : Host) (d : FileDownloader κ) (b : H.BinaryData) : FileDownloader κ :=
  { d with
    timer := false
    fileHandler := ⟨d.fileHandler.currentPacketData ++ H.getData b, H.getHash b⟩
    currentPacketIndex := d.currentPacketIndex + 1
    retryCount := 0 }

variable {b : H.BinaryData} {created : Bool}

theorem handleData_of_not_accepts (h : ¬ d.fileHandler.Accepts H b) :
    d.handleData H b created = d.stopTimer.packetFailed := by
  rcases FileHandler.handleData_of_not_accepts (f := d.stopTimer.fileHandler) h with he | he <;>
    simp only [handleData, he]

theorem handleData_of_last (h : d.fileHandler.Accepts H b)
    (hlast : d.currentPacketIndex + 1 = d.currentPacketCount) :
    d.handleData H b created = (d.appended H b).downloadComplete H created := by
  simp only [handleData, FileHandler.handleData_of_accepts (f := d.stopTimer.fileHandler) h]
  exact if_pos hlast

theorem handleData_of_not_last (h : d.fileHandler.Accepts H b)
    (hlast : d.currentPacketIndex + 1 ≠ d.currentPacketCount) :
    d.handleData H b created =
      (d.appended H b).requestPacket (d.currentPacketIndex + 1) d.currentPacketSize := by
  simp only [handleData, FileHandler.handleData_of_accepts (f := d.stopTimer.fileHandler) h]
  exact if_neg hlast

/-- The three ends of a download whose last packet is in. -/
theorem downloadComplete_cases (d : FileDownloader κ) (created : Bool) :
    (d.currentFileHash ≠ H.hashSHA256 d.fileHandler.currentPacketData ∧
      d.downloadComplete H created = (d.clear, d.notifyFail .unspecifiedError)) ∨
    (d.currentFileHash = H.hashSHA256 d.fileHandler.currentPacketData ∧ created = false ∧
      d.downloadComplete H created = (d.clear,
        .createBinaryFileWithContent (H.composePath d.currentFileName d.currentDownloadDirectory)
          d.fileHandler.currentPacketData false :: d.notifyFail .fileSystemError)) ∨
    (d.currentFileHash = H.hashSHA256 d.fileHandler.currentPacketData ∧ created = true ∧
      d.downloadComplete H created = (d.clear,
        .createBinaryFileWithContent (H.composePath d.currentFileName d.currentDownloadDirectory)
          d.fileHandler.currentPacketData true ::
        d.notifySuccess (H.absolutePath
          (H.composePath d.currentFileName d.currentDownloadDirectory)))) := by
  by_cases hh : d.currentFileHash = H.hashSHA256 d.fileHandler.currentPacketData
  · have hv : d.fileHandler.validateFile H d.currentFileHash = .ok :=
      FileHandler.validateFile_ok_iff.mpr hh
    right
    cases created with
    | false => exact .inl ⟨hh, rfl, by simp [downloadComplete, hv, FileHandler.saveFile]⟩
    | true => exact .inr ⟨hh, rfl, by simp [downloadComplete, hv, FileHandler.saveFile]⟩
  · left
    exact ⟨hh, by simp [downloadComplete, FileHandler.validateFile, hh]⟩

end FileDownloader
end WolkConnect
