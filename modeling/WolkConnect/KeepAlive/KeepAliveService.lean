import WolkConnect.Inbound.InboundPlatformMessageHandler
import WolkConnect.Transition.Machine

/-! `KeepAliveService`: pings while the client is connected, and the timestamp of the last pong. -/
namespace WolkConnect
open Transition

/-- What the service takes from `StatusProtocol`, and the JSON library's `parse(content)["value"]`,
which is `none` where it throws. -/
structure StatusProtocol where
  makeFromPingRequest : String → Option Message
  isPongMessage : Message → Bool
  parseValue : String → Option ℤ

/-- `timer` is whether `m_timer` runs. `m_lastTimestamp` is not initialised: `none` until the first
pong. -/
structure KeepAliveService where
  timer : Bool
  lastTimestamp : Option ℤ
  deriving DecidableEq

inductive KeepAliveEvent where
  | connected
  | disconnected
  /-- The timer calls `ping`. -/
  | timerExpired
  | messageReceived (message : Message)
  deriving DecidableEq

inductive KeepAliveOutput where
  | publish (message : Message)
  deriving DecidableEq

namespace KeepAliveService

variable (P : StatusProtocol) (deviceKey : String)

def construct : KeepAliveService := ⟨false, none⟩

def ping : List KeepAliveOutput := (P.makeFromPingRequest deviceKey).toList.map .publish

/-- `none` where an exception leaves the service. -/
def messageReceived (s : KeepAliveService) (message : Message) : Option KeepAliveService :=
  if P.isPongMessage message then
    (P.parseValue message.content).map fun value => { s with lastTimestamp := some value }
  else some s

def step (s : KeepAliveService) : KeepAliveEvent → Option (KeepAliveService × List KeepAliveOutput)
  | .connected => some ({ s with timer := true }, ping P deviceKey)
  | .disconnected => some ({ s with timer := false }, [])
  | .timerExpired => if s.timer then some (s, ping P deviceKey) else none
  | .messageReceived message => (s.messageReceived P message).map fun s => (s, [])

end KeepAliveService

/-- The service once it is constructed. -/
def keepAliveMachine (P : StatusProtocol) (deviceKey : String) :
    Machine KeepAliveService KeepAliveEvent KeepAliveOutput where
  start := .construct
  step := KeepAliveService.step P deviceKey

end WolkConnect
