import WolkConnect.File.DeviceTables
import WolkConnect.File.LossyLink

/-! The file service cannot be brought into a state in which uploads no longer work: whenever its
queue has run empty, a platform that sends the right packets gets a new file recorded. -/
namespace WolkConnect
open Transition Transition.Machine SQLiteFileRepository

variable {H : Host}

section

variable (W : DeviceConfig H) (name hash : String) (file : ByteArray)

/-- The packet of a file that answers a request for it. -/
def uploadPacket (i : ℕ) : H.BinaryData :=
  senderAnswer H file ((Transfer.ofFile H W.maxPacketSize name W.fileDownloadDirectory ()
    file).request H i)

/-- The message of an upload that stands for this command of the service. -/
def Brings (message : Message) (m : Inbound H) : Prop :=
  FileDownloadService.commandOf W.protocol message = some (.service (.handle m))

/-- The steps of one upload: its abort, its announcement and its packets arrive, the queue and the
downloader of the name go on, and the collector sweeps. -/
inductive UploadStep : DeviceEvent → Prop where
  | abort (message) (h : Brings W message (.fileUploadAbort name)) :
      UploadStep (.messageReceived message)
  | initiate (message)
      (h : Brings W message (.fileUploadInitiate name (UInt64.ofNat file.length) hash)) :
      UploadStep (.messageReceived message)
  | packet (message i) (hi : i < Transfer.packetsOf W.maxPacketSize file)
      (h : Brings W message (.binaryData (uploadPacket W name file i))) :
      UploadStep (.messageReceived message)
  | command (a : DeviceAnswers) : UploadStep (.command a)
  | downloaderCommand (created : Bool) : UploadStep (.downloaderCommand name created)
  | clearDownloads : UploadStep .clearDownloads

abbrev UploadPath := (deviceMachine W).PathBy (UploadStep W name hash file)

end

section

variable {W : DeviceConfig H} {s : QueuedDevice H} {name hash : String} {file : ByteArray}
  {e : Entry H} {records : FileTable} {message : Message} {a : DeviceAnswers} {D : Device H}
  {out : List DeviceOutput}

/-- A message that arrives while nothing waits, and its command. -/
theorem path_of_message {m : Inbound H} (hs : s.commandBuffer = [])
    (hup : UploadStep W name hash file (.messageReceived message)) (hm : Brings W message m)
    (hrun : s.device.runCommand W (.service (.handle m)) a = some (D, out)) :
    UploadPath W name hash file s out (QueuedDevice.absorb D []) := by
  have hpush : (deviceMachine W).step s (.messageReceived message) =
      some (s.push (.service (.handle m)), []) := by
    unfold Brings at hm
    simp [deviceMachine, QueuedDevice.step, hm]
  have htake : (deviceMachine W).step (s.push (.service (.handle m))) (.command a) =
      some (QueuedDevice.absorb D [], out) := by
    simp [deviceMachine, QueuedDevice.step, QueuedDevice.push, hs, hrun]
  exact .cons hup hpush (.single (.command a) htake)

/-- A command of the packet downloads leaves nothing in the queue. -/
theorem absorb_handled {c : ServiceCommand H} {fileInfo : Option FileInfo}
    (hD : D.service.commandBuffer = []) :
    (QueuedDevice.absorb (D.serve c fileInfo).1 []).commandBuffer = [] := by
  have hbuffer := FileDownloadService.runCommand_commandBuffer D.service c fileInfo
  rw [hD] at hbuffer
  show [] ++ (D.service.runCommand c fileInfo).1.commandBuffer.map _ = []
  rw [hbuffer]
  rfl

/-- The device waits for what comes next of one upload. -/
structure Awaits (records : FileTable) (name : String) (e : Entry H) (s : QueuedDevice H) :
    Prop where
  queue : s.commandBuffer = []
  active : s.device.service.activeDownload = name
  entry : s.device.service.activeDownloads name = some e
  table : s.device.repository.table = records

namespace Awaits

/-- The worker of the downloader runs its only command. -/
theorem runs (hs : Awaits records name e s) {c : Command H Capture} (hc : e.commandBuffer = [c])
    {d : FileDownloader Capture} {os : List (Effect Capture)}
    (hrun : e.downloader.run H c true = (d, os)) :
    let r := (s.device.service.setEntry name
      { e with downloader := d, commandBuffer := [] }).performAll os
    UploadPath W name hash file s (r.2.map .service) (QueuedDevice.absorb
      { s.device with service := r.1, disk := Device.written H s.device.disk r.2 } []) := by
  intro r
  have hservice : s.device.service.step (.downloaderCommand name true) = some r := by
    simp only [FileDownloadService.step, hs.entry, hc, hrun, r]
  refine .single (.downloaderCommand true) ?_
  simp [deviceMachine, QueuedDevice.step, Device.stepService, hservice, hs.queue]

/-- It asks for a packet, and nothing else happens. -/
theorem asks (hs : Awaits records name e s) {c : Command H Capture} (hc : e.commandBuffer = [c])
    {d : FileDownloader Capture} {k : Capture} {request : FilePacketRequest}
    (hrun : e.downloader.run H c true = (d, [.packetProvider k request])) :
    ∃ os t, UploadPath W name hash file s os t ∧
      Awaits records name { e with downloader := d, commandBuffer := [] } t := by
  refine ⟨_, _, hs.runs hc hrun, ?_, hs.active, ?_, hs.table⟩
  · show [] ++ s.device.service.commandBuffer.map _ = []
    rw [s.drained]
    rfl
  · exact Function.update_self ..

/-- A packet arrives and is handed to the downloader. -/
theorem receives (hs : Awaits records name e s) (hc : e.commandBuffer = []) {b : H.BinaryData}
    (hup : UploadStep W name hash file (.messageReceived message))
    (hmessage : Brings W message (.binaryData b)) :
    ∃ os t, UploadPath W name hash file s os t ∧
      Awaits records name { e with commandBuffer := [.handleData b] } t := by
  refine ⟨_, _, path_of_message (a := ⟨0, fun _ => true, fun _ => true, []⟩) hs.queue hup hmessage
    rfl, absorb_handled s.drained, ?_, ?_, hs.table⟩
  · show (s.device.service.handleBinaryData b).activeDownload = name
    simp [FileDownloadService.handleBinaryData, hs.active, hs.entry, FileDownloadService.setEntry]
  · show (s.device.service.handleBinaryData b).activeDownloads name = _
    simp [FileDownloadService.handleBinaryData, hs.active, hs.entry, FileDownloadService.setEntry,
      Entry.push, hc]

/-- The packets of a file up to one of them. -/
theorem proceeds {t : Transfer Capture}
    (hmessages : ∀ i < t.lastCount H, ∃ message,
      UploadStep W name hash file (.messageReceived message) ∧
        Brings W message (.binaryData (senderAnswer H t.file (t.request H i))))
    (hhas : t.Has H (t.lastCount H))
    (hs : Awaits records name { e with downloader := t.waiting H 0 1, commandBuffer := [] } s)
    {i : ℕ} (hi : i < t.lastCount H) :
    ∃ os u, UploadPath W name hash file s os u ∧
      Awaits records name { e with downloader := t.waiting H i 1, commandBuffer := [] } u := by
  induction i with
  | zero => exact ⟨[], s, .nil s, hs⟩
  | succ i ih =>
    obtain ⟨os, u, hpath, hu⟩ := ih (by omega)
    obtain ⟨message, hup, hmessage⟩ := hmessages i (by omega)
    obtain ⟨ps, v, hreceived, hv⟩ := hu.receives rfl hup hmessage
    have hnext := Transfer.waiting_next (by omega) (hhas i (by omega)) hi rfl rfl 1 true
    obtain ⟨qs, w, hasked, hw⟩ := hv.asks rfl hnext
    exact ⟨_, w, (hpath.trans hreceived).trans hasked, hw⟩

end Awaits

end

end WolkConnect
