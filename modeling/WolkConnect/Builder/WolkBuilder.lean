import WolkConnect.Inbound.InboundPlatformMessageHandler
import WolkConnect.Transition.Machine

/-! `WolkBuilder`: the setters, and `build`, which moves the data protocol out of the builder on
its way through the checks. `α` is what a pointer or a function object refers to. -/
namespace WolkConnect
open Transition

/-- `model/Device`, with what the builder reads. -/
structure WolkBuilder.Device where
  key : String
  password : String
  actuatorReferences : List String
  deriving DecidableEq

/-- The handlers and providers are a lambda or a weak pointer, `none` where it is null. -/
structure WolkBuilder (α : Type*) where
  host : String
  caCertPath : String
  device : WolkBuilder.Device
  actuationHandlerLambda : Option α
  actuationHandler : Option α
  actuatorStatusProviderLambda : Option α
  actuatorStatusProvider : Option α
  configurationHandlerLambda : Option α
  configurationHandler : Option α
  configurationProviderLambda : Option α
  configurationProvider : Option α
  persistence : α
  dataProtocol : Option α
  fileDownloadDirectory : String
  maxPacketSize : UInt64
  firmwareInstaller : Option α
  firmwareVersionProvider : Option α
  urlFileDownloader : Option α
  fileManagementEnabled : Bool
  keepAliveEnabled : Bool
  deriving DecidableEq

/-- What `build` hands to the `Wolk` and its services. -/
structure WolkParts (α : Type*) where
  device : WolkBuilder.Device
  dataProtocol : α
  persistence : α
  host : String
  caCertPath : String
  actuationHandlerLambda : Option α
  actuationHandler : Option α
  actuatorStatusProviderLambda : Option α
  actuatorStatusProvider : Option α
  configurationHandlerLambda : Option α
  configurationHandler : Option α
  configurationProviderLambda : Option α
  configurationProvider : Option α
  fileDownloadDirectory : String
  maxPacketSize : UInt64
  urlFileDownloader : Option α
  firmwareUpdateService : Option (α × α)
  keepAliveService : Bool
  deriving DecidableEq

/-- The setters; the overloads for a lambda have a name of their own, and `withFileManagement` of
two arguments passes a null downloader. A persistence or a protocol that is set is not null. -/
inductive BuilderSetter (α : Type*) where
  | host (host : String)
  | caCertPath (caCertPath : String)
  | actuationHandlerLambda (actuationHandler : Option α)
  | actuationHandler (actuationHandler : Option α)
  | actuatorStatusProviderLambda (actuatorStatusProvider : Option α)
  | actuatorStatusProvider (actuatorStatusProvider : Option α)
  | configurationHandlerLambda (configurationHandler : Option α)
  | configurationHandler (configurationHandler : Option α)
  | configurationProviderLambda (configurationProvider : Option α)
  | configurationProvider (configurationProvider : Option α)
  | withPersistence (persistence : α)
  | withDataProtocol (protocol : α)
  | withFileManagement (fileDownloadDirectory : String) (maxPacketSize : UInt64)
      (urlDownloader : Option α)
  | withFirmwareUpdate (installer provider : Option α)
  | withoutKeepAlive

/-- How a `build()` ends: it throws `std::logic_error`, it goes on past the checks without a data
protocol and dereferences the null pointer, or it returns a `Wolk`. -/
inductive BuildResult (α : Type*) where
  | logicError (what : String)
  | nullProtocol
  | built (wolk : WolkParts α)
  deriving DecidableEq

namespace WolkBuilder

variable {α : Type*} (b : WolkBuilder α) (live : α → Bool)

/-- The constructor; the two objects are a new `InMemoryPersistence` and a new `JsonProtocol`. -/
def create (device : Device) (inMemoryPersistence jsonProtocol : α) : WolkBuilder α where
  host := "ssl://api-demo.wolkabout.com:8883"
  caCertPath := "ca.crt"
  device := device
  actuationHandlerLambda := none
  actuationHandler := none
  actuatorStatusProviderLambda := none
  actuatorStatusProvider := none
  configurationHandlerLambda := none
  configurationHandler := none
  configurationProviderLambda := none
  configurationProvider := none
  persistence := inMemoryPersistence
  dataProtocol := some jsonProtocol
  fileDownloadDirectory := ""
  maxPacketSize := 0
  firmwareInstaller := none
  firmwareVersionProvider := none
  urlFileDownloader := none
  fileManagementEnabled := false
  keepAliveEnabled := true

def set : BuilderSetter α → WolkBuilder α
  | .host host => { b with host := host }
  | .caCertPath caCertPath => { b with caCertPath := caCertPath }
  | .actuationHandlerLambda f =>
    { b with actuationHandlerLambda := f, actuationHandler := none }
  | .actuationHandler p =>
    { b with actuationHandler := p, actuationHandlerLambda := none }
  | .actuatorStatusProviderLambda f =>
    { b with actuatorStatusProviderLambda := f, actuatorStatusProvider := none }
  | .actuatorStatusProvider p =>
    { b with actuatorStatusProvider := p, actuatorStatusProviderLambda := none }
  | .configurationHandlerLambda f =>
    { b with configurationHandlerLambda := f, configurationHandler := none }
  | .configurationHandler p =>
    { b with configurationHandler := p, configurationHandlerLambda := none }
  | .configurationProviderLambda f =>
    { b with configurationProviderLambda := f, configurationProvider := none }
  | .configurationProvider p =>
    { b with configurationProvider := p, configurationProviderLambda := none }
  | .withPersistence persistence => { b with persistence := persistence }
  | .withDataProtocol protocol => { b with dataProtocol := some protocol }
  | .withFileManagement fileDownloadDirectory maxPacketSize urlDownloader =>
    { b with
      fileDownloadDirectory := fileDownloadDirectory
      maxPacketSize := maxPacketSize
      urlFileDownloader := urlDownloader
      fileManagementEnabled := true }
  | .withFirmwareUpdate installer provider =>
    { b with firmwareInstaller := installer, firmwareVersionProvider := provider }
  | .withoutKeepAlive => { b with keepAliveEnabled := false }

/-- A null pointer counts as expired, too. -/
def expired (p : Option α) : Bool := (lock live p).isNone

/-- The five checks that come before the protocol is moved out. -/
def check : Option String :=
  if b.device.key = "" then some "No device key present."
  else if b.device.actuatorReferences.length ≠ 0 ∧
      expired live b.actuationHandler = true ∧ b.actuationHandlerLambda.isNone = true then
    some "Actuation handler not set."
  else if b.device.actuatorReferences.length ≠ 0 ∧
      expired live b.actuatorStatusProvider = true ∧
      b.actuatorStatusProviderLambda.isNone = true then
    some "Actuator status provider not set."
  else if b.configurationHandlerLambda.isNone ≠ b.configurationProviderLambda.isNone then
    some "Both ConfigurationPRovider and ConfigurationHandler must be set."
  else if expired live b.configurationHandler ≠ expired live b.configurationProvider then
    some "Both ConfigurationPRovider and ConfigurationHandler must be set."
  else none

/-- `if (m_firmwareInstaller && m_firmwareVersionProvider)`. -/
def firmwareUpdate : Option (α × α) :=
  match b.firmwareInstaller, b.firmwareVersionProvider with
  | some installer, some provider => some (installer, provider)
  | _, _ => none

def parts (dataProtocol : α) : WolkParts α where
  device := b.device
  dataProtocol := dataProtocol
  persistence := b.persistence
  host := b.host
  caCertPath := b.caCertPath
  actuationHandlerLambda := b.actuationHandlerLambda
  actuationHandler := b.actuationHandler
  actuatorStatusProviderLambda := b.actuatorStatusProviderLambda
  actuatorStatusProvider := b.actuatorStatusProvider
  configurationHandlerLambda := b.configurationHandlerLambda
  configurationHandler := b.configurationHandler
  configurationProviderLambda := b.configurationProviderLambda
  configurationProvider := b.configurationProvider
  fileDownloadDirectory := b.fileDownloadDirectory
  maxPacketSize := b.maxPacketSize
  urlFileDownloader := b.urlFileDownloader
  firmwareUpdateService := b.firmwareUpdate
  keepAliveService := b.keepAliveEnabled

/-- The result, and the builder after it. The protocol is released before the `DataService` is
made with it, and that before the last check. -/
def build : BuildResult α × WolkBuilder α :=
  match b.check live with
  | some what => (.logicError what, b)
  | none =>
    match b.dataProtocol with
    | none => (.nullProtocol, { b with dataProtocol := none })
    | some dataProtocol =>
      if b.firmwareUpdate.isSome = true ∧ b.fileManagementEnabled = false then
        (.logicError "File management must be enabled in order to use firmware update.",
          { b with dataProtocol := none })
      else (.built (b.parts dataProtocol), { b with dataProtocol := none })

end WolkBuilder

/-- A call on the builder; `live` are the objects that exist while `build` runs. -/
inductive BuilderCall (α : Type*) where
  | set (setter : BuilderSetter α)
  | build (live : α → Bool)

def builderMachine {α : Type*} (device : WolkBuilder.Device)
    (inMemoryPersistence jsonProtocol : α) :
    Machine (WolkBuilder α) (BuilderCall α) (BuildResult α) where
  start := .create device inMemoryPersistence jsonProtocol
  step b
    | .set setter => some (b.set setter, [])
    | .build live => some ((b.build live).2, [(b.build live).1])

end WolkConnect
