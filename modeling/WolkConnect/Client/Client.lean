import WolkConnect.File.DeviceQueue
import WolkConnect.KeepAlive.KeepAliveService
import WolkConnect.Client.Messages
import WolkConnect.Transition.Component

/-! A `Wolk` with the services that `WolkBuilder::build` gives it: the inbound messages go through
the message handler to one of four listeners, and `Wolk` calls three of them when it has connected
or lost the connection. -/
namespace WolkConnect
open Transition

/-- The listeners of the `InboundPlatformMessageHandler`. -/
inductive Listener where
  | dataService
  | fileDownloadService
  | firmwareUpdateService
  | keepAliveService
  deriving DecidableEq

/-- The device, the services and their protocols. The firmware service and the keep-alive service
are there if `wolk` says so; the former is only made with an installer and a version provider. -/
structure ClientConfig (H : Host) (σ : Type) where
  wolk : WolkConfig σ
  files : DeviceConfig H
  firmware : FirmwareConfig
  dataProtocol : DataProtocol
  firmwareProtocol : FirmwareProtocol
  statusProtocol : StatusProtocol
  /-- That of the listener's protocol. -/
  getInboundChannelsForDevice : Listener → String → List String
  mqttTopicMatch : String → String → Bool
  deviceKeys : files.deviceKey = wolk.deviceKey ∧ firmware.deviceKey = wolk.deviceKey
  fileDownloadService : wolk.fileDownloadService = true
  firmwareParts : wolk.firmwareUpdateService = true →
    firmware.firmwareInstaller = true ∧ firmware.firmwareVersionProvider = true

structure Client (H : Host) (σ : Type) where
  inbound : InboundPlatformMessageHandler Listener
  wolk : Wolk σ
  files : QueuedDevice H
  firmware : FirmwareUpdateService
  keepAlive : KeepAliveService

inductive ClientEvent where
  | call (c : UserCall) (currentRtc : UInt64)
  /-- The connectivity service passes a message on. -/
  | messageReceived (channel payload : String)
  /-- The thread of the message handler hands the oldest message over. -/
  | deliver
  /-- `DataService::messageReceived` makes its next push. -/
  | handle
  | connectionLost
  | reconnect
  /-- The worker of `Wolk` takes the next command; `f` is for the firmware service. An attempt that
  succeeds and the start of what `notifyConnected` starts are one step. -/
  | execute (a : Answers) (f : FirmwareAnswers)
  | work
  /-- The timer of the keep-alive service. -/
  | ping
  /-- A step of the file service on a thread of its own. -/
  | files (e : DeviceEvent)
  | firmware (e : FirmwareEvent)
  /-- The firmware service asks the repository for the file that it is to install. -/
  | announce (a : FirmwareAnswers)

inductive ClientOutput where
  | handed (listener : Listener) (message : Message)
  | wolk (output : WolkOutput)
  | files (output : DeviceOutput)
  | firmware (output : FirmwareOutput)
  | keepAlive (output : KeepAliveOutput)
  deriving DecidableEq

/-- The steps that the file service takes without being called. -/
def DeviceEvent.own : DeviceEvent → Bool
  | .messageReceived _ | .sendFileList | .getFileInfo _ => false
  | _ => true

/-- The steps that the firmware service takes without being called, within one process. -/
def FirmwareEvent.own : FirmwareEvent → Bool
  | .messageReceived _ | .notifyConnected _ | .announce _ _ | .restart => false
  | _ => true

variable {H : Host} {σ : Type}

namespace ClientConfig

variable (W : ClientConfig H σ)

/-- The arguments of `addListener` in `build`; the first one is a data service that is not made
yet. -/
def listeners : List (Option Listener) :=
  [none, some .dataService, some .fileDownloadService] ++
    (if W.wolk.firmwareUpdateService then [some .firmwareUpdateService] else []) ++
      if W.wolk.keepAliveService then [some .keepAliveService] else []

def addListener (handler : InboundPlatformMessageHandler Listener) (listener : Option Listener) :
    InboundPlatformMessageHandler Listener :=
  handler.addListener (fun _ => true) listener fun deviceKey =>
    (listener.map fun l => W.getInboundChannelsForDevice l deviceKey).getD []

/-- What `Wolk` calls on the keep-alive service in a step. -/
def keepAliveCall (out : List WolkOutput) : Option KeepAliveEvent :=
  if !W.wolk.keepAliveService then none
  else if .notifyConnected ∈ out then some .connected
  else if .disconnect ∈ out then some .disconnected
  else none

def firmwareCall (f : FirmwareAnswers) (out : List WolkOutput) : Option FirmwareEvent :=
  if .publishFirmwareStatus ∈ out then some (.notifyConnected f) else none

def filesCall (out : List WolkOutput) : Option DeviceEvent :=
  if .sendFileList ∈ out then some .sendFileList else none

end ClientConfig

namespace Client

variable (W : ClientConfig H σ)

def construct : Client H σ where
  inbound := W.listeners.foldl W.addListener (.create W.wolk.deviceKey)
  wolk := .construct W.wolk
  files := .construct W.files
  firmware := .construct
  keepAlive := .construct

def stepWolk (s : Client H σ) (e : WolkEvent) : Option (Client H σ × List ClientOutput) :=
  (s.wolk.step W.wolk e).map fun r => ({ s with wolk := r.1 }, r.2.map .wolk)

def stepFiles (s : Client H σ) (e : Option DeviceEvent) :
    Option (Client H σ × List ClientOutput) :=
  (stepIf (QueuedDevice.step W.files) s.files e).map fun r =>
    ({ s with files := r.1 }, r.2.map .files)

def stepFirmware (s : Client H σ) (e : Option FirmwareEvent) :
    Option (Client H σ × List ClientOutput) :=
  (stepIf (FirmwareUpdateService.step W.firmware) s.firmware e).map fun r =>
    ({ s with firmware := r.1 }, r.2.map .firmware)

def stepKeepAlive (s : Client H σ) (e : Option KeepAliveEvent) :
    Option (Client H σ × List ClientOutput) :=
  (stepIf (KeepAliveService.step W.statusProtocol W.wolk.deviceKey) s.keepAlive e).map fun r =>
    ({ s with keepAlive := r.1 }, r.2.map .keepAlive)

/-- `MessageListener::messageReceived` -/
def receive (s : Client H σ) (message : Message) :
    Listener → Option (Client H σ × List ClientOutput)
  | .dataService =>
    match DataService.commandOf W.dataProtocol W.wolk.deviceKey message with
    | some c => s.stepWolk W (.messageReceived c)
    | none => some (s, [])
  | .fileDownloadService => s.stepFiles W (some (.messageReceived message))
  | .firmwareUpdateService => s.stepFirmware W
      ((FirmwareUpdateService.commandOf W.firmwareProtocol message).map .messageReceived)
  | .keepAliveService => s.stepKeepAlive W (some (.messageReceived message))

/-- The record of the file that the firmware service has written the marker for. -/
def announce (s : Client H σ) (a : FirmwareAnswers) :
    Option (Client H σ × List ClientOutput) :=
  match s.firmware.worker with
  | .marked firmwareFile _ =>
    let r := s.files.getFileInfo W.files firmwareFile
    stepFirmware W { s with files := r.2 } (some (.announce r.1 a))
  | _ => none

/-- The thread of the message handler is inside `DataService::messageReceived` while there is
something to handle, and the worker of `Wolk` inside `reportFirmwareUpdateResult` until the firmware
service has reported. -/
def step (s : Client H σ) : ClientEvent → Option (Client H σ × List ClientOutput)
  | .call c currentRtc => s.stepWolk W (.call c currentRtc)
  | .messageReceived channel payload =>
    some ({ s with inbound := s.inbound.messageReceived W.mqttTopicMatch channel payload }, [])
  | .deliver =>
    match s.wolk.handling, s.inbound.commandBuffer with
    | [], (listener, message) :: rest =>
      (receive W { s with inbound := { s.inbound with commandBuffer := rest } }
        message listener).map fun r => (r.1, .handed listener message :: r.2)
    | _, _ => none
  | .handle => s.stepWolk W .handle
  | .connectionLost =>
    (s.stepWolk W .connectionLost).bind fun r =>
      (r.1.stepKeepAlive W (if W.wolk.keepAliveService then some .disconnected else none)).map
        fun k => (k.1, r.2 ++ k.2)
  | .reconnect => s.stepWolk W .reconnect
  | .execute a f =>
    (s.wolk.step W.wolk (.execute a)).bind fun r =>
      (stepKeepAlive W { s with wolk := r.1 } (W.keepAliveCall r.2)).bind fun k =>
        (k.1.stepFirmware W (ClientConfig.firmwareCall f r.2)).map fun g =>
          (g.1, r.2.map .wolk ++ k.2 ++ g.2)
  | .work =>
    if s.firmware.reporter = .idle then
      (s.wolk.step W.wolk .work).bind fun r =>
        (stepFiles W { s with wolk := r.1 } (ClientConfig.filesCall r.2)).map fun d =>
          (d.1, r.2.map .wolk ++ d.2)
    else none
  | .ping => s.stepKeepAlive W (some .timerExpired)
  | .files e => if e.own then s.stepFiles W (some e) else none
  | .firmware e => if e.own then s.stepFirmware W (some e) else none
  | .announce a => s.announce W a

end Client

/-- The whole client from its construction on. -/
def clientMachine (W : ClientConfig H σ) : Machine (Client H σ) ClientEvent ClientOutput where
  start := .construct W
  step := Client.step W

/-- Each service has one channel for each kind of message. -/
def sampleClient : ClientConfig encodingHost String where
  wolk := { sampleConfig with fileDownloadService := true, firmwareUpdateService := true }
  files := sampleDeviceConfig
  firmware := ⟨"device", true, true, id⟩
  dataProtocol :=
    { extractDeviceKeyFromChannel := fun _ => "device"
      isActuatorGetMessage := fun _ => false
      isActuatorSetMessage := fun message => message.channel = "set"
      isConfigurationGetMessage := fun _ => false
      isConfigurationSetMessage := fun _ => false
      makeActuatorGetCommand := fun _ => none
      makeActuatorSetCommand := fun message => some ("switch", message.content)
      makeConfigurationSetCommand := fun _ => none }
  firmwareProtocol :=
    { makeFirmwareUpdateInstall := fun message => some (["device"], message.content)
      makeFirmwareUpdateAbort := fun _ => none }
  statusProtocol :=
    { makeFromPingRequest := fun _ => some ⟨"", "ping"⟩
      isPongMessage := fun _ => true
      parseValue := fun content => if content = "1" then some 1 else none }
  getInboundChannelsForDevice
    | .dataService, _ => ["set"]
    | .fileDownloadService, _ => ["upload", "binary"]
    | .firmwareUpdateService, _ => ["install"]
    | .keepAliveService, _ => ["pong"]
  mqttTopicMatch pattern channel := pattern == channel
  deviceKeys := ⟨rfl, rfl⟩
  fileDownloadService := rfl
  firmwareParts _ := ⟨rfl, rfl⟩

end WolkConnect
