import WolkConnect.File.DownloaderEffects
import Mathlib.Logic.Function.Basic

/-! `FileDownloadService` with its command queue, the downloaders it started and the
collector. Commands of the service queue, commands and expiries of each downloader and
sweeps of the collector interleave in any order; each of them is one step. What can come
between a downloader's packet and its callbacks is in `Threads`. -/
namespace WolkConnect
open Transition

/-- What the three lambdas of one `FileDownloader::download` call captured. `call`
numbers these calls; it tells downloads of one name apart and is read by nothing. -/
structure Capture where
  fileName : String
  fileHash : String
  call : ℕ
  deriving DecidableEq

/-- A value of `m_activeDownloads`: hash, downloader and flag, with the command buffer
of the downloader and the number of the call that made it. -/
structure Entry (H : Host) where
  hash : String
  downloader : FileDownloader Capture
  commandBuffer : List (Command H Capture)
  flag : Bool
  call : ℕ

/-- The platform messages that concern packet downloads. -/
inductive Inbound (H : Host) where
  | binaryData (binaryData : H.BinaryData)
  | fileUploadInitiate (name : String) (size : UInt64) (hash : String)
  | fileUploadAbort (name : String)

/-- The lambdas in the service's command buffer. -/
inductive ServiceCommand (H : Host) where
  | handle (message : Inbound H)
  | storeFile (info : FileInfo) (call : ℕ)
  | sendFileListUpdate

/-- What can be seen of the service. A published status carries the call it ends or
starts, if any. -/
inductive Output where
  | publishStatus (call : Option ℕ) (status : FileUploadStatus)
  | publishRequest (call : ℕ) (request : FilePacketRequest)
  | download (call : ℕ) (fileName : String) (fileSize : UInt64) (fileHash : String)
  | createBinaryFileWithContent (path : String) (content : ByteArray) (created : Bool)
  | downloadCompleted (callback : Capture) (filePath : String)
  | downloadFailed (callback : Capture) (errorCode : FileTransferError)
  | store (info : FileInfo)
  | sendFileListUpdate
  | badFunctionCall
  deriving DecidableEq

structure FileDownloadService (H : Host) where
  deviceKey : String
  fileDownloadDirectory : String
  maxPacketSize : UInt64
  activeDownload : String
  activeDownloads : String → Option (Entry H)
  commandBuffer : List (ServiceCommand H)
  calls : ℕ

inductive ServiceEvent (H : Host) where
  | messageReceived (message : Inbound H)
  /-- `fileInfo` is the repository's answer if the command asks it. -/
  | serviceCommand (fileInfo : Option FileInfo)
  | downloaderCommand (fileName : String) (created : Bool)
  | timerExpired (fileName : String)
  | clearDownloads

def Entry.push {H : Host} (e : Entry H) (c : Command H Capture) : Entry H :=
  { e with commandBuffer := e.commandBuffer ++ [c] }

namespace FileDownloadService

variable {H : Host}

def construct (H : Host) (deviceKey fileDownloadDirectory : String) (maxPacketSize : UInt64) :
    FileDownloadService H where
  deviceKey := deviceKey
  fileDownloadDirectory := fileDownloadDirectory
  maxPacketSize := maxPacketSize
  activeDownload := ""
  activeDownloads _ := none
  commandBuffer := []
  calls := 0

def addToCommandBuffer (s : FileDownloadService H) (c : ServiceCommand H) :
    FileDownloadService H :=
  { s with commandBuffer := s.commandBuffer ++ [c] }

/-- `m_activeDownloads[fileName] = entry`. -/
def setEntry (s : FileDownloadService H) (fileName : String) (e : Entry H) :
    FileDownloadService H :=
  { s with activeDownloads := Function.update s.activeDownloads fileName (some e) }

/-- Nothing goes out when no message can be made; the answer of `publish` is not read. -/
def sendStatus (s : FileDownloadService H) (call : Option ℕ) (response : FileUploadStatus) :
    List Output :=
  if H.makesStatus s.deviceKey response then [.publishStatus call response] else []

def requestPacket (s : FileDownloadService H) (callback : Capture)
    (request : FilePacketRequest) : List Output :=
  if H.makesRequest s.deviceKey request then [.publishRequest callback.call request] else []

def sendFileList (s : FileDownloadService H) : FileDownloadService H :=
  s.addToCommandBuffer .sendFileListUpdate

def flagCompletedDownload (s : FileDownloadService H) (key : String) : FileDownloadService H :=
  match s.activeDownloads key with
  | none => s
  | some e => s.setEntry key { e with flag := true }

def downloadCompleted (s : FileDownloadService H) (callback : Capture) (filePath : String) :
    FileDownloadService H × List Output :=
  let s := s.flagCompletedDownload callback.fileName
  let s := s.addToCommandBuffer
    (.storeFile ⟨callback.fileName, callback.fileHash, filePath⟩ callback.call)
  (s.sendFileList, [.downloadCompleted callback filePath])

def downloadFailed (s : FileDownloadService H) (callback : Capture)
    (errorCode : FileTransferError) : FileDownloadService H × List Output :=
  let s := s.flagCompletedDownload callback.fileName
  (s.sendFileList, .downloadFailed callback errorCode ::
    s.sendStatus (some callback.call) (.error callback.fileName errorCode))

/-- The lambdas handed to `FileDownloader::download`, one effect at a time. -/
def perform (s : FileDownloadService H) :
    Effect Capture → FileDownloadService H × List Output
  | .packetProvider callback request => (s, s.requestPacket callback request)
  | .createBinaryFileWithContent path content created =>
    (s, [.createBinaryFileWithContent path content created])
  | .onSuccess callback filePath => s.downloadCompleted callback filePath
  | .onFail callback errorCode => s.downloadFailed callback errorCode
  | .badFunctionCall => (s, [.badFunctionCall])

def performAll (s : FileDownloadService H) :
    List (Effect Capture) → FileDownloadService H × List Output
  | [] => (s, [])
  | o :: os =>
    let r := s.perform o
    let r' := r.1.performAll os
    (r'.1, r.2 ++ r'.2)

def handleBinaryData (s : FileDownloadService H) (binaryData : H.BinaryData) :
    FileDownloadService H :=
  match s.activeDownloads s.activeDownload with
  | none => s
  | some e => s.setEntry s.activeDownload (e.push (.handleData binaryData))

/-- The entry of a new download: its downloader has one queued command. -/
def newEntry (s : FileDownloadService H) (fileName : String) (fileSize : UInt64)
    (fileHash : String) : Entry H where
  hash := fileHash
  downloader := .construct s.maxPacketSize
  commandBuffer := [.download fileName fileSize (H.base64Decode fileHash)
    s.fileDownloadDirectory ⟨fileName, fileHash, s.calls⟩]
  flag := false
  call := s.calls

def download (s : FileDownloadService H) (fileName : String) (fileSize : UInt64)
    (fileHash : String) : FileDownloadService H × List Output :=
  match s.activeDownloads fileName with
  | some e =>
    if e.hash ≠ fileHash then (s, s.sendStatus none (.error fileName .unspecifiedError))
    else (s, s.sendStatus none (.status fileName .fileTransfer))
  | none =>
    ({ s.setEntry fileName (s.newEntry fileName fileSize fileHash) with
        activeDownload := fileName, calls := s.calls + 1 },
      s.sendStatus (some s.calls) (.status fileName .fileTransfer) ++
        [.download s.calls fileName fileSize fileHash])

def handleFileUploadInitiate (s : FileDownloadService H) (name : String) (size : UInt64)
    (hash : String) (fileInfo : Option FileInfo) : FileDownloadService H × List Output :=
  if s.maxPacketSize = 0 then (s, s.sendStatus none (.error name .transferProtocolDisabled))
  else if name = "" then (s, s.sendStatus none (.error name .unspecifiedError))
  else if size = 0 then (s, s.sendStatus none (.error name .unspecifiedError))
  else if hash = "" then (s, s.sendStatus none (.error name .unspecifiedError))
  else
    match fileInfo with
    | none => s.download name size hash
    | some info =>
      if info.hash ≠ hash then (s, s.sendStatus none (.error name .fileHashMismatch))
      else (s, s.sendStatus none (.status name .fileReady))

def abortDownload (s : FileDownloadService H) (fileName : String) :
    FileDownloadService H × List Output :=
  match s.activeDownloads fileName with
  | none => (s, [])
  | some e =>
    let s := s.setEntry fileName (e.push .abort)
    let s := s.flagCompletedDownload fileName
    ({ s with activeDownload := "" }, s.sendStatus (some e.call) (.status fileName .aborted))

def handleFileUploadAbort (s : FileDownloadService H) (name : String) :
    FileDownloadService H × List Output :=
  if name = "" then (s, s.sendStatus none (.error name .unspecifiedError))
  else s.abortDownload name

/-- One command of the service queue. -/
def runCommand (s : FileDownloadService H) (c : ServiceCommand H) (fileInfo : Option FileInfo) :
    FileDownloadService H × List Output :=
  match c with
  | .handle (.binaryData binaryData) => (s.handleBinaryData binaryData, [])
  | .handle (.fileUploadInitiate name size hash) =>
    s.handleFileUploadInitiate name size hash fileInfo
  | .handle (.fileUploadAbort name) => s.handleFileUploadAbort name
  | .storeFile info call =>
    (s, .store info :: s.sendStatus (some call) (.status info.name .fileReady))
  | .sendFileListUpdate => (s, [.sendFileListUpdate])

/-- One pass of the collector's loop. -/
def clearDownloads (s : FileDownloadService H) : FileDownloadService H :=
  { s with activeDownloads := fun name => (s.activeDownloads name).filter fun e => !e.flag }

def step (s : FileDownloadService H) :
    ServiceEvent H → Option (FileDownloadService H × List Output)
  | .messageReceived message => some (s.addToCommandBuffer (.handle message), [])
  | .serviceCommand fileInfo =>
    match s.commandBuffer with
    | [] => none
    | c :: rest => some ({ s with commandBuffer := rest }.runCommand c fileInfo)
  | .downloaderCommand fileName created =>
    match s.activeDownloads fileName with
    | none => none
    | some e =>
      match e.commandBuffer with
      | [] => none
      | c :: rest =>
        let r := e.downloader.run H c created
        some ((s.setEntry fileName { e with downloader := r.1, commandBuffer := rest }).performAll
          r.2)
  | .timerExpired fileName =>
    match s.activeDownloads fileName with
    | none => none
    | some e =>
      match e.downloader.timerExpired with
      | none => none
      | some r => some ((s.setEntry fileName { e with downloader := r.1 }).performAll r.2)
  | .clearDownloads => some (s.clearDownloads, [])

end FileDownloadService

/-- The file download service of a device, from its construction on. -/
def fileDownloadMachine (H : Host) (deviceKey fileDownloadDirectory : String)
    (maxPacketSize : UInt64) :
    Machine (FileDownloadService H) (ServiceEvent H) Output where
  start := .construct H deviceKey fileDownloadDirectory maxPacketSize
  step := FileDownloadService.step

/-- The base64 strings of the SHA-256 digests of the files `a` and `b`. -/
def sampleHash : String := "ypeBEsobvcr6wjGzmiPcTaeG7/gUfE5yuYB3ha/uSLs="

def otherHash : String := "PiPoFgA5WUoziU9lZOGxNIu9egCI1CxKy3PurtWcAJ0="

def sampleService :
    Machine (FileDownloadService sampleHost) (ServiceEvent sampleHost) Output :=
  fileDownloadMachine sampleHost "device" "/files" 66

/-- A one-byte file is announced, requested and delivered to its downloader. -/
def sampleTransfer : List (ServiceEvent sampleHost) :=
  [.messageReceived (.fileUploadInitiate "f" 1 sampleHash), .serviceCommand none,
    .downloaderCommand "f" true,
    .messageReceived (.binaryData (sampleHost.packet firstPreviousHash [97])),
    .serviceCommand none]

end WolkConnect
