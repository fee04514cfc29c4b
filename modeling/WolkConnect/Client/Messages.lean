import WolkConnect.Data.Wolk
import WolkConnect.Firmware.FirmwareUpdateService
import WolkConnect.Inbound.InboundPlatformMessageHandler

/-! What `DataService` and `FirmwareUpdateService` make of an inbound message. -/
namespace WolkConnect

/-- What the data service takes from `DataProtocol`. -/
structure DataProtocol where
  extractDeviceKeyFromChannel : String → String
  isActuatorGetMessage : Message → Bool
  isActuatorSetMessage : Message → Bool
  isConfigurationGetMessage : Message → Bool
  isConfigurationSetMessage : Message → Bool
  makeActuatorGetCommand : Message → Option String
  makeActuatorSetCommand : Message → Option (String × String)
  makeConfigurationSetCommand : Message → Option (List ConfigurationItem)

/-- What the firmware service takes from `JsonDFUProtocol`. -/
structure FirmwareProtocol where
  makeFirmwareUpdateInstall : Message → Option (List String × String)
  makeFirmwareUpdateAbort : Message → Option (List String)

/-- The handler that `messageReceived` calls, with its arguments; the four handlers that
`WolkBuilder::build` passes are not null. -/
def DataService.commandOf (protocol : DataProtocol) (deviceKey : String) (message : Message) :
    Option PlatformCommand :=
  let key := protocol.extractDeviceKeyFromChannel message.channel
  if key = "" then none
  else if key ≠ deviceKey then none
  else if protocol.isActuatorGetMessage message then
    (protocol.makeActuatorGetCommand message).map .actuatorGet
  else if protocol.isActuatorSetMessage message then
    (protocol.makeActuatorSetCommand message).map fun command => .actuatorSet command.1 command.2
  else if protocol.isConfigurationGetMessage message then some .configurationGet
  else if protocol.isConfigurationSetMessage message then
    (protocol.makeConfigurationSetCommand message).map .configurationSet
  else none

/-- What `messageReceived` puts into the command buffer. -/
def FirmwareUpdateService.commandOf (protocol : FirmwareProtocol) (message : Message) :
    Option FirmwareCommand :=
  match protocol.makeFirmwareUpdateInstall message with
  | some (deviceKeys, fileName) => some (.install deviceKeys fileName)
  | none => (protocol.makeFirmwareUpdateAbort message).map .abort

end WolkConnect
