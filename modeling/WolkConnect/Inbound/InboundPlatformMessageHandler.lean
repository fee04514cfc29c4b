import Mathlib.Data.String.Basic
import Mathlib.Logic.Function.Basic
import WolkConnect.Table.FirstMatch
import WolkConnect.Transition.Machine

/-! `InboundPlatformMessageHandler`: listeners register for channel patterns, a received message
is put in the command buffer for one of them, and the command hands it over if that listener is
still alive. -/
namespace WolkConnect
open Transition Transition.Machine

structure Message where
  content : String
  channel : String
  deriving DecidableEq

/-- A command in the buffer is the weak pointer and the message that its lambda captured. -/
structure InboundPlatformMessageHandler (ι : Type*) where
  deviceKey : String
  commandBuffer : List (ι × Message)
  subscriptionList : List String
  channelHandlers : Std.TreeMap String ι

variable {ι : Type*}

/-- `std::weak_ptr::lock`; the pointer may be null. -/
def lock (live : ι → Bool) (listener : Option ι) : Option ι := listener.filter live

namespace InboundPlatformMessageHandler

def create (deviceKey : String) : InboundPlatformMessageHandler ι := ⟨deviceKey, [], [], ∅⟩

def addChannel (listener : ι) (s : InboundPlatformMessageHandler ι) (channel : String) :
    InboundPlatformMessageHandler ι :=
  { s with
    channelHandlers := s.channelHandlers.insert channel listener
    subscriptionList := s.subscriptionList ++ [channel] }

/-- `getInboundChannelsForDevice` is that of the listener's protocol. -/
def addListener (s : InboundPlatformMessageHandler ι) (live : ι → Bool) (listener : Option ι)
    (getInboundChannelsForDevice : String → List String) : InboundPlatformMessageHandler ι :=
  match lock live listener with
  | some handler => (getInboundChannelsForDevice s.deviceKey).foldl (addChannel handler) s
  | none => s

def getChannels (s : InboundPlatformMessageHandler ι) : List String := s.subscriptionList

/-- The `find_if` over the handlers. -/
def findHandler (s : InboundPlatformMessageHandler ι) (mqttTopicMatch : String → String → Bool)
    (channel : String) : Option ι :=
  (Table.firstMatch s.channelHandlers fun pattern => mqttTopicMatch pattern channel).map Prod.snd

def messageReceived (s : InboundPlatformMessageHandler ι)
    (mqttTopicMatch : String → String → Bool) (channel payload : String) :
    InboundPlatformMessageHandler ι :=
  match s.findHandler mqttTopicMatch channel with
  | some channelHandler =>
    { s with commandBuffer := s.commandBuffer ++ [(channelHandler, ⟨payload, channel⟩)] }
  | none => s

end InboundPlatformMessageHandler

/-- The handler, and which listeners still exist. -/
structure InboundState (ι : Type*) where
  handler : InboundPlatformMessageHandler ι
  live : ι → Bool

inductive InboundEvent (ι : Type*) where
  | addListener (listener : Option ι) (getInboundChannelsForDevice : String → List String)
  | messageReceived (channel payload : String)
  /-- The command buffer's thread takes the oldest command and runs it. -/
  | runCommand
  /-- The last owner of the listener lets it go. -/
  | expire (listener : ι)

/-- The command's lambda. -/
def handOver (live : ι → Bool) (command : ι × Message) : List (ι × Message) :=
  match lock live (some command.1) with
  | some handler => [(handler, command.2)]
  | none => []

/-- Any calls, with what the commands hand to listeners as the output. -/
def inboundMachine [DecidableEq ι] (mqttTopicMatch : String → String → Bool)
    (deviceKey : String) : Machine (InboundState ι) (InboundEvent ι) (ι × Message) where
  start := ⟨.create deviceKey, fun _ => true⟩
  step s
    | .addListener listener getInboundChannelsForDevice =>
      some (⟨s.handler.addListener s.live listener getInboundChannelsForDevice, s.live⟩, [])
    | .messageReceived channel payload =>
      some (⟨s.handler.messageReceived mqttTopicMatch channel payload, s.live⟩, [])
    | .runCommand =>
      match s.handler.commandBuffer with
      | command :: commandBuffer =>
        some (⟨{ s.handler with commandBuffer := commandBuffer }, s.live⟩,
          handOver s.live command)
      | [] => none
    | .expire listener => some (⟨s.handler, Function.update s.live listener false⟩, [])

end WolkConnect
