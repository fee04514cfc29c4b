import WolkConnect.File.FileRemoval
import WolkConnect.Inbound.InboundPlatformMessageHandler

/-! The whole `FileDownloadService` with its repository and the files on disk: uploads in packets,
downloads from a URL, deletions, purges and the updates of the file list share one command
buffer. -/
namespace WolkConnect
open Transition Transition.Machine SQLiteFileRepository

/-- The error codes of a download from a URL: those that the service sends itself, and the other
values of the enumeration. -/
inductive UrlDownloadError where
  | sent (error : FileTransferError)
  | other (code : ℕ)
  deriving DecidableEq

/-- `FileUrlDownloadStatus` has one constructor for a status, one for a file and one for an
error. -/
inductive FileUrlDownloadStatus where
  | status (fileUrl : String) (status : FileTransferStatus)
  | downloaded (fileUrl fileName : String)
  | error (fileUrl : String) (error : UrlDownloadError)
  deriving DecidableEq

/-- What the service takes from `JsonDownloadProtocol`: a message is recognised where the result
is not null. -/
structure DownloadProtocol (H : Host) where
  makeBinaryData : Message → Option H.BinaryData
  makeFileUploadInitiate : Message → Option (String × UInt64 × String)
  makeFileUploadAbort : Message → Option String
  makeFileDelete : Message → Option String
  isFilePurge : Message → Bool
  makeFileListConfirm : Message → Option String
  makeFileUrlDownloadInitiate : Message → Option String
  makeFileUrlDownloadAbort : Message → Option String
  /-- Whether a message is made for a status or for a file list. -/
  makesUrlStatus : String → FileUrlDownloadStatus → Bool
  makesFileList : String → List String → Bool

/-- What the service is constructed with, and what an earlier process left behind. -/
structure DeviceConfig (H : Host) where
  deviceKey : String
  fileDownloadDirectory : String
  maxPacketSize : UInt64
  /-- Whether there is a `UrlFileDownloader`. -/
  urlFileDownloader : Bool
  protocol : DownloadProtocol H
  base64Encode : ByteArray → String
  executes : Outcomes
  records : FileTable
  disk : Disk

/-- A message can be made of every file list. -/
def DeviceConfig.MakesFileLists {H : Host} (W : DeviceConfig H) : Prop :=
  ∀ deviceKey fileNames, W.protocol.makesFileList deviceKey fileNames = true

/-- All the lambdas in the command buffer of the service. -/
inductive DeviceCommand (H : Host) where
  | service (command : ServiceCommand H)
  | fileDelete (name : String)
  | purgeFiles
  | fileUrlDownloadInitiate (url : String)
  | fileUrlDownloadAbort (url : String)
  /-- The command of `urlDownloadCompleted`. -/
  | storeUrlFile (fileUrl fileName filePath : String)

/-- The answers to one command: how deep `store` may recurse, which files can be deleted or
opened, and the result of `listFiles`. -/
structure DeviceAnswers where
  fuel : ℕ
  deletes : String → Bool
  opens : String → Bool
  filesOnDisk : List String

inductive DeviceOutput where
  | service (output : Output)
  | publishFileList (fileNames : List String)
  | publishUrlStatus (status : FileUrlDownloadStatus)
  | urlDownload (url directory : String)
  | urlAbort (url : String)
  deriving DecidableEq

inductive DeviceEvent where
  | messageReceived (message : Message)
  /-- The thread of the command buffer runs the oldest command. -/
  | command (answers : DeviceAnswers)
  /-- One step to the queueing of the record, if the command writes the file. -/
  | downloaderCommand (fileName : String) (created : Bool)
  | timerExpired (fileName : String)
  | clearDownloads
  /-- The two callbacks of the `UrlFileDownloader`. -/
  | urlDownloadCompleted (fileUrl fileName filePath : String)
  | urlDownloadFailed (fileUrl : String) (errorCode : UrlDownloadError)
  /-- `Wolk` calls it when it has connected. -/
  | sendFileList
  /-- `FirmwareUpdateService` looks a record up. -/
  | getFileInfo (fileName : String)
  /-- The `UrlFileDownloader` or another process changes a file. -/
  | fileChanged (path : String) (content : Option ByteArray)

variable {H : Host}

namespace FileDownloadService

/-- What `messageReceived` puts into the command buffer; the checks are made in this order. -/
def commandOf (protocol : DownloadProtocol H) (message : Message) : Option (DeviceCommand H) :=
  match protocol.makeBinaryData message with
  | some binaryData => some (.service (.handle (.binaryData binaryData)))
  | none =>
  match protocol.makeFileUploadInitiate message with
  | some (name, size, hash) => some (.service (.handle (.fileUploadInitiate name size hash)))
  | none =>
  match protocol.makeFileUploadAbort message with
  | some name => some (.service (.handle (.fileUploadAbort name)))
  | none =>
  match protocol.makeFileDelete message with
  | some name => some (.fileDelete name)
  | none =>
  if protocol.isFilePurge message then some .purgeFiles
  else
  match protocol.makeFileListConfirm message with
  | some _ => none
  | none =>
  match protocol.makeFileUrlDownloadInitiate message with
  | some url => some (.fileUrlDownloadInitiate url)
  | none => (protocol.makeFileUrlDownloadAbort message).map .fileUrlDownloadAbort

end FileDownloadService

namespace Device

/-- `FileSystemUtils::readBinaryFileContent` -/
def readBinaryFileContent (D : Device H) (opens : String → Bool) (path : String) :
    Option ByteArray :=
  if opens path then D.disk (H.absolutePath path) else none

/-- The disk after the writes among the outputs of a downloader; where a file could not be
created, it stays as it was. -/
def written (H : Host) (disk : Disk) : List Output → Disk
  | [] => disk
  | .createBinaryFileWithContent path content true :: os =>
    written H (Function.update disk (H.absolutePath path) (some content)) os
  | _ :: os => written H disk os

/-- A command of the packet downloads, as the service runs it. -/
def serve (D : Device H) (c : ServiceCommand H) (fileInfo : Option FileInfo) :
    Device H × List DeviceOutput :=
  let r := D.service.runCommand c fileInfo
  ({ D with service := r.1 }, r.2.map .service)

/-- `handle(FileUploadInitiate)` asks the repository once its four checks are passed. -/
def initiateInfo (executes : Outcomes) (D : Device H) (name : String) (size : UInt64)
    (hash : String) : Option FileInfo × Device H :=
  if D.service.maxPacketSize = 0 ∨ name = "" ∨ size = 0 ∨ hash = "" then (none, D)
  else D.getFileInfo executes name

def store (executes : Outcomes) (fuel : ℕ) (D : Device H) (info : FileInfo) :
    Option (Device H) :=
  (SQLiteFileRepository.store executes fuel D.repository info).map fun repository =>
    { D with repository := repository }

/-- A step of a downloader: its callbacks, and the file it writes. -/
def stepService (D : Device H) (e : ServiceEvent H) : Option (Device H × List DeviceOutput) :=
  (D.service.step e).map fun r =>
    ({ D with service := r.1, disk := written H D.disk r.2 }, r.2.map .service)

variable (W : DeviceConfig H)

/-- `sendStatus` of a URL status. -/
def sendUrlStatus (D : Device H) (response : FileUrlDownloadStatus) : List DeviceOutput :=
  if W.protocol.makesUrlStatus D.service.deviceKey response then [.publishUrlStatus response]
  else []

def sendFileListUpdate (a : DeviceAnswers) (D : Device H) :
    Option (Device H × List DeviceOutput) :=
  let (filesInRepo, D) := D.getAllFileNames W.executes
  let update := updateFileList H W.base64Encode D.service.fileDownloadDirectory
    (D.readBinaryFileContent a.opens) a.filesOnDisk filesInRepo
  (performAll W.executes a.fuel D.repository update.2).map fun repository =>
    ({ D with repository := repository },
      if W.protocol.makesFileList D.service.deviceKey update.1 then [.publishFileList update.1]
      else [])

def handleUrlDownloadInitiate (D : Device H) (url : String) : List DeviceOutput :=
  if !W.urlFileDownloader then D.sendUrlStatus W (.error url (.sent .transferProtocolDisabled))
  else if url = "" then D.sendUrlStatus W (.error url (.sent .unspecifiedError))
  else [.urlDownload url D.service.fileDownloadDirectory]

def handleUrlDownloadAbort (D : Device H) (url : String) : List DeviceOutput :=
  if !W.urlFileDownloader then D.sendUrlStatus W (.error url (.sent .transferProtocolDisabled))
  else if url = "" then D.sendUrlStatus W (.error url (.sent .unspecifiedError))
  else .urlAbort url :: D.sendUrlStatus W (.status url .aborted)

/-- What `FileSystemUtils::deleteFile` answers is not read. -/
def storeUrlFile (a : DeviceAnswers) (D : Device H) (fileUrl fileName filePath : String) :
    Option (Device H × List DeviceOutput) :=
  match D.readBinaryFileContent a.opens filePath with
  | none =>
    some (if a.deletes filePath then D.unlink (H.absolutePath filePath) else D,
      D.sendUrlStatus W (.error fileUrl (.sent .fileSystemError)))
  | some content =>
    (D.store W.executes a.fuel ⟨fileName, W.base64Encode (H.hashSHA256 content), filePath⟩).map
      fun D => (D, D.sendUrlStatus W (.downloaded fileUrl fileName))

/-- `none` where the command does not return within the fuel, or dereferences a missing
record. -/
def runCommand (c : DeviceCommand H) (a : DeviceAnswers) (D : Device H) :
    Option (Device H × List DeviceOutput) :=
  match c with
  | .service (.handle (.fileUploadInitiate name size hash)) =>
    let (fileInfo, D) := D.initiateInfo W.executes name size hash
    some (D.serve (.handle (.fileUploadInitiate name size hash)) fileInfo)
  | .service (.handle message) => some (D.serve (.handle message) none)
  | .service (.storeFile info call) =>
    (D.store W.executes a.fuel info).map fun D => D.serve (.storeFile info call) none
  | .service .sendFileListUpdate =>
    let (D, out) := D.serve .sendFileListUpdate none
    (D.sendFileListUpdate W a).map fun r => (r.1, out ++ r.2)
  | .fileDelete name => (D.handleFileDelete W.executes a.deletes name).map fun D => (D, [])
  | .purgeFiles => some ((D.handleFilePurge W.executes a.deletes).1, [])
  | .fileUrlDownloadInitiate url => some (D, D.handleUrlDownloadInitiate W url)
  | .fileUrlDownloadAbort url => some (D, D.handleUrlDownloadAbort W url)
  | .storeUrlFile fileUrl fileName filePath => D.storeUrlFile W a fileUrl fileName filePath

end Device

/-- A device with the whole command buffer of its service. -/
structure QueuedDevice (H : Host) where
  device : Device H
  commandBuffer : List (DeviceCommand H)
  drained : device.service.commandBuffer = []

namespace QueuedDevice

theorem service_drained (s : QueuedDevice H) :
    { s.device.service with commandBuffer := [] } = s.device.service := by
  rw [← s.drained]

/-- What the service pushes goes behind the queue. -/
def absorb (D : Device H) (queue : List (DeviceCommand H)) : QueuedDevice H where
  device := { D with service := { D.service with commandBuffer := [] } }
  commandBuffer := queue ++ D.service.commandBuffer.map .service
  drained := rfl

def push (s : QueuedDevice H) (c : DeviceCommand H) : QueuedDevice H :=
  { s with commandBuffer := s.commandBuffer ++ [c] }

def sendFileList (s : QueuedDevice H) : QueuedDevice H := s.push (.service .sendFileListUpdate)

variable (W : DeviceConfig H)

def construct : QueuedDevice H where
  device :=
    { service := .construct H W.deviceKey W.fileDownloadDirectory W.maxPacketSize
      repository := ⟨W.records, 0⟩
      disk := W.disk }
  commandBuffer := []
  drained := rfl

def getFileInfo (s : QueuedDevice H) (fileName : String) : Option FileInfo × QueuedDevice H :=
  let r := s.device.getFileInfo W.executes fileName
  (r.1, { s with device := r.2 })

def step (s : QueuedDevice H) : DeviceEvent → Option (QueuedDevice H × List DeviceOutput)
  | .messageReceived message =>
    match FileDownloadService.commandOf W.protocol message with
    | some c => some (s.push c, [])
    | none => some (s, [])
  | .command a =>
    match s.commandBuffer with
    | [] => none
    | c :: rest => (s.device.runCommand W c a).map fun r => (absorb r.1 rest, r.2)
  | .downloaderCommand fileName created =>
    (s.device.stepService (.downloaderCommand fileName created)).map fun r =>
      (absorb r.1 s.commandBuffer, r.2)
  | .timerExpired fileName =>
    (s.device.stepService (.timerExpired fileName)).map fun r =>
      (absorb r.1 s.commandBuffer, r.2)
  | .clearDownloads =>
    (s.device.stepService .clearDownloads).map fun r => (absorb r.1 s.commandBuffer, r.2)
  | .urlDownloadCompleted fileUrl fileName filePath =>
    some ((s.push (.storeUrlFile fileUrl fileName filePath)).sendFileList, [])
  | .urlDownloadFailed fileUrl errorCode =>
    some (s.sendFileList, s.device.sendUrlStatus W (.error fileUrl errorCode))
  | .sendFileList => some (s.sendFileList, [])
  | .getFileInfo fileName => some ((s.getFileInfo W fileName).2, [])
  | .fileChanged path content =>
    some ({ s with
      device := { s.device with
        disk := Function.update s.device.disk (H.absolutePath path) content } }, [])

end QueuedDevice

def deviceMachine (W : DeviceConfig H) :
    Machine (QueuedDevice H) DeviceEvent DeviceOutput where
  start := .construct W
  step := QueuedDevice.step W

/-- A base64 that is right on the digests of the sample files and one-to-one on all others. -/
def sampleEncode (bytes : ByteArray) : String :=
  if bytes = sampleDigest [97] then sampleHash
  else if bytes = sampleDigest [98] then otherHash
  else String.ofList (bytes.map fun b => Char.ofNat (b.toNat + 256))

def sampleDecode (text : String) : ByteArray :=
  if text = sampleHash then sampleDigest [97]
  else if text = otherHash then sampleDigest [98]
  else text.toList.map fun c => UInt8.ofNat (c.toNat - 256)

theorem sampleDecode_sampleEncode (bytes : ByteArray) :
    sampleDecode (sampleEncode bytes) = bytes := by
  by_cases hf : bytes = sampleDigest [97]
  · subst hf
    decide +kernel
  by_cases hg : bytes = sampleDigest [98]
  · subst hg
    decide +kernel
  have hchar (b : UInt8) : (Char.ofNat (b.toNat + 256)).toNat = b.toNat + 256 := by
    have hb := b.toNat_lt
    have hvalid : (b.toNat + 256).isValidChar := .inl (by omega)
    rw [Char.ofNat, dif_pos hvalid]
    rfl
  have hmarked {text : String} {c : Char} (hc : c ∈ text.toList) (hlow : c.toNat < 256) :
      String.ofList (bytes.map fun b => Char.ofNat (b.toNat + 256)) ≠ text := by
    intro h
    rw [← h, String.toList_ofList] at hc
    obtain ⟨b, -, rfl⟩ := List.mem_map.mp hc
    rw [hchar] at hlow
    omega
  rw [sampleEncode, if_neg hf, if_neg hg, sampleDecode,
    if_neg (hmarked (by decide : '=' ∈ sampleHash.toList) (by decide)),
    if_neg (hmarked (by decide : '=' ∈ otherHash.toList) (by decide)), String.toList_ofList,
    List.map_map]
  apply List.map_id''
  intro b
  show UInt8.ofNat ((Char.ofNat (b.toNat + 256)).toNat - 256) = b
  rw [hchar, Nat.add_sub_cancel]
  exact UInt8.ofNat_toNat

/-- The sample host with the whole of that base64. -/
def encodingHost : Host := { sampleHost with base64Decode := sampleDecode }

/-- An upload of the file `f` in one packet: the channel says what a message is. -/
def sampleProtocol : DownloadProtocol encodingHost where
  makeBinaryData message :=
    if message.channel = "binary" then some (encodingHost.packet firstPreviousHash [97]) else none
  makeFileUploadInitiate message :=
    if message.channel = "upload" then some ("f", 1, sampleHash) else none
  makeFileUploadAbort _ := none
  makeFileDelete _ := none
  isFilePurge _ := false
  makeFileListConfirm _ := none
  makeFileUrlDownloadInitiate _ := none
  makeFileUrlDownloadAbort _ := none
  makesUrlStatus _ _ := true
  makesFileList _ _ := true

def sampleDeviceConfig : DeviceConfig encodingHost where
  deviceKey := "device"
  fileDownloadDirectory := "/files"
  maxPacketSize := 66
  urlFileDownloader := false
  protocol := sampleProtocol
  base64Encode := sampleEncode
  executes := reliable
  records := ⟨[], by decide, by decide⟩
  disk _ := none

/-- The upload, the sweep behind it and the file list that it sends. -/
def sampleUpload : List DeviceEvent :=
  let a : DeviceAnswers := ⟨2, fun _ => true, fun _ => true, []⟩
  [.messageReceived ⟨"", "upload"⟩, .command a, .downloaderCommand "f" true,
    .messageReceived ⟨"", "binary"⟩, .command a, .downloaderCommand "f" true, .command a,
    .command { a with filesOnDisk := ["f"] }]

end WolkConnect
