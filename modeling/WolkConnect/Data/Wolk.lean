import WolkConnect.Data.DataService
import WolkConnect.Transition.Machine

/-! `Wolk`: the calls of the user, the inbound commands and the lost connections push onto one
command queue, whose worker runs one command at a time. Every push is a step of its own. -/
namespace WolkConnect
open Transition

/-- The lambdas in the command queue. `connects` is the number of `connect()` calls that the
user had made before this `disconnect()`; nothing reads it. -/
inductive WolkCommand where
  | addSensorReading (reference value : String) (rtc : UInt64)
  | addSensorReadings (reference : String) (values : List String) (rtc : UInt64)
  | addAlarm (reference : String) (active : Bool) (rtc : UInt64)
  | handleActuation (reference value : String)
  | publishActuatorStatus (reference : String)
  | handleConfiguration (values : List ConfigurationItem)
  | publishConfiguration
  | tryConnect (firstTime : Bool)
  | disconnect (connects : ℕ)
  | publish
  deriving DecidableEq

/-- The public methods of `Wolk`. -/
inductive UserCall where
  | addSensorReading (reference value : String) (rtc : UInt64)
  | addSensorReadings (reference : String) (values : List String) (rtc : UInt64)
  | addAlarm (reference : String) (active : Bool) (rtc : UInt64)
  | publishActuatorStatus (reference : String)
  | publishConfiguration
  | connect
  | disconnect
  | publish
  deriving DecidableEq

/-- The commands of the platform, as `DataService::messageReceived` hands them over. -/
inductive PlatformCommand where
  | actuatorSet (reference value : String)
  | actuatorGet (reference : String)
  | configurationSet (values : List ConfigurationItem)
  | configurationGet
  deriving DecidableEq

/-- What is left to do of a running command. -/
inductive WorkerTask where
  | push (c : WolkCommand)
  | sendFileList
  deriving DecidableEq

/-- What the user set in the builder. Handlers and providers can be objects, lambdas or
missing; `σ` is what they act on. -/
structure WolkConfig (σ : Type) where
  deviceKey : String
  actuatorReferences : List String
  keepAliveService : Bool
  firmwareUpdateService : Bool
  fileDownloadService : Bool
  device : σ
  actuationHandler : Option (σ → String → String → σ)
  actuationHandlerLambda : Option (σ → String → String → σ)
  actuatorStatusProvider : Option (σ → String → String × ActuatorState)
  actuatorStatusProviderLambda : Option (σ → String → String × ActuatorState)
  configurationHandler : Option (σ → List ConfigurationItem → σ)
  configurationHandlerLambda : Option (σ → List ConfigurationItem → σ)
  configurationProvider : Option (σ → List ConfigurationItem)
  configurationProviderLambda : Option (σ → List ConfigurationItem)
  /-- `ActuatorStatus()` -/
  defaultActuatorStatus : String × ActuatorState

/-- The answers to one command: whether the object it locks is still alive, whether the
connection is established, the keys of the persistence and what the publishes come to. -/
structure Answers where
  alive : Bool
  connected : Bool
  sensorReadingsKeys : List String
  sensorReadingsAttempts : ℕ → ℕ → Attempt
  alarmsKeys : List String
  alarmsAttempts : ℕ → ℕ → Attempt
  actuatorStatusesKeys : List String
  actuatorStatusesAttempts : ℕ → Attempt
  configurationAttempt : Attempt

inductive WolkOutput where
  | sensorReadings (batch : Batch SensorReading)
  | alarms (batch : Batch Alarm)
  | actuatorStatus (batch : Batch ActuatorStatus)
  | configuration (batch : Batch (List ConfigurationItem))
  | connect (connected : Bool)
  | disconnect
  | notifyConnected
  | publishFirmwareStatus
  | sendFileList
  deriving DecidableEq

/-- `running` is what the worker still does of its command, `handling` what the thread of
the inbound messages still pushes, and `lost` the number of connection-lost handlers that
are between their two calls. `executed` and `connects` count the commands taken by the
worker and the user's `connect()` calls; nothing reads them. -/
structure Wolk (σ : Type) where
  commandBuffer : List WolkCommand
  running : List WorkerTask
  handling : List WolkCommand
  lost : ℕ
  timer : Bool
  device : σ
  persistence : Persistence
  executed : ℕ
  connects : ℕ

inductive WolkEvent where
  /-- A call of the user, from any thread. -/
  | call (c : UserCall) (currentRtc : UInt64)
  | messageReceived (c : PlatformCommand)
  /-- The next push of the inbound message that is being handled. -/
  | handle
  /-- The connection-lost handler calls `notifyDisonnected` and then `connect`. -/
  | connectionLost
  | reconnect
  /-- The worker takes the next command. -/
  | execute (answers : Answers)
  /-- The worker goes on with its command. -/
  | work

namespace Wolk

variable {σ : Type} (W : WolkConfig σ)

def construct : Wolk σ where
  commandBuffer := []
  running := []
  handling := []
  lost := 0
  timer := false
  device := W.device
  persistence := ⟨fun _ => [], fun _ => [], fun _ => none, fun _ => none⟩
  executed := 0
  connects := 0

def addToCommandBuffer (s : Wolk σ) (c : WolkCommand) : Wolk σ :=
  { s with commandBuffer := s.commandBuffer ++ [c] }

/-- A zero timestamp stands for the current time. -/
def rtcOr (rtc currentRtc : UInt64) : UInt64 := if rtc = 0 then currentRtc else rtc

def call (s : Wolk σ) (currentRtc : UInt64) : UserCall → Wolk σ
  | .addSensorReading reference value rtc =>
    s.addToCommandBuffer (.addSensorReading reference value (rtcOr rtc currentRtc))
  | .addSensorReadings reference values rtc =>
    if values.isEmpty then s
    else s.addToCommandBuffer (.addSensorReadings reference values (rtcOr rtc currentRtc))
  | .addAlarm reference active rtc =>
    s.addToCommandBuffer (.addAlarm reference active (rtcOr rtc currentRtc))
  | .publishActuatorStatus reference => s.addToCommandBuffer (.publishActuatorStatus reference)
  | .publishConfiguration => s.addToCommandBuffer .publishConfiguration
  | .connect => { s.addToCommandBuffer (.tryConnect true) with connects := s.connects + 1 }
  | .disconnect => s.addToCommandBuffer (.disconnect s.connects)
  | .publish => s.addToCommandBuffer .publish

/-- `handleActuatorSetCommand` and its siblings: what they push, in order. -/
def pushes : PlatformCommand → List WolkCommand
  | .actuatorSet reference value =>
    [.handleActuation reference value, .publishActuatorStatus reference]
  | .actuatorGet reference => [.publishActuatorStatus reference]
  | .configurationSet values => [.handleConfiguration values, .publishConfiguration]
  | .configurationGet => [.publishConfiguration]

/-- An object that is still alive, or else the lambda. -/
def locked {α : Type} (alive : Bool) (object lambda : Option α) : Option α :=
  (if alive then object else none).or lambda

/-- The provider's answer in `publishActuatorStatus`. -/
def getActuatorStatus (alive : Bool) (device : σ) (reference : String) :
    String × ActuatorState :=
  match locked alive W.actuatorStatusProvider W.actuatorStatusProviderLambda with
  | some provider => provider device reference
  | none => W.defaultActuatorStatus

def getConfiguration (alive : Bool) (device : σ) : List ConfigurationItem :=
  match locked alive W.configurationProvider W.configurationProviderLambda with
  | some provider => provider device
  | none => []

def handleActuation (alive : Bool) (device : σ) (reference value : String) : σ :=
  match locked alive W.actuationHandler W.actuationHandlerLambda with
  | some handler => handler device reference value
  | none => device

def handleConfiguration (alive : Bool) (device : σ) (values : List ConfigurationItem) : σ :=
  match locked alive W.configurationHandler W.configurationHandlerLambda with
  | some handler => handler device values
  | none => device

def flushActuatorStatuses (a : Answers) (s : Wolk σ) : Wolk σ × List WolkOutput :=
  let r := DataService.publishActuatorStatuses a.actuatorStatusesKeys a.actuatorStatusesAttempts
    s.persistence
  ({ s with persistence := r.1 }, r.2.map .actuatorStatus)

def flushAlarms (a : Answers) (s : Wolk σ) : Wolk σ × List WolkOutput :=
  let r := DataService.publishAlarms a.alarmsKeys a.alarmsAttempts s.persistence
  ({ s with persistence := r.1 }, r.2.map .alarms)

def flushSensorReadings (a : Answers) (s : Wolk σ) : Wolk σ × List WolkOutput :=
  let r := DataService.publishSensorReadings a.sensorReadingsKeys a.sensorReadingsAttempts
    s.persistence
  ({ s with persistence := r.1 }, r.2.map .sensorReadings)

def flushConfiguration (a : Answers) (s : Wolk σ) : Wolk σ × List WolkOutput :=
  let r := DataService.publishConfiguration W.deviceKey a.configurationAttempt s.persistence
  ({ s with persistence := r.1 }, r.2.map .configuration)

/-- The lambda of `publish`. -/
def flush (a : Answers) (s : Wolk σ) : Wolk σ × List WolkOutput :=
  let r₁ := s.flushActuatorStatuses a
  let r₂ := r₁.1.flushAlarms a
  let r₃ := r₂.1.flushSensorReadings a
  let r₄ := r₃.1.flushConfiguration W a
  (r₄.1, r₁.2 ++ r₂.2 ++ r₃.2 ++ r₄.2)

/-- What `notifyConnected` does after `publishFirmwareStatus`. -/
def connectedTasks : List WorkerTask :=
  W.actuatorReferences.map (fun reference => .push (.publishActuatorStatus reference)) ++
    [.push .publishConfiguration] ++ (if W.fileDownloadService then [.sendFileList] else []) ++
    [.push .publish]

def notifyConnected (s : Wolk σ) : Wolk σ × List WolkOutput :=
  ({ s with timer := if W.keepAliveService then true else s.timer, running := connectedTasks W },
    .notifyConnected :: if W.firmwareUpdateService then [.publishFirmwareStatus] else [])

def notifyDisonnected (s : Wolk σ) : Wolk σ :=
  { s with timer := if W.keepAliveService then false else s.timer }

/-- One command; `s` is the state without it. -/
def run (c : WolkCommand) (a : Answers) (s : Wolk σ) : Wolk σ × List WolkOutput :=
  match c with
  | .addSensorReading reference value rtc =>
    ({ s with persistence := DataService.addSensorReading s.persistence reference value rtc }, [])
  | .addSensorReadings reference values rtc =>
    ({ s with persistence := DataService.addSensorReadings s.persistence reference values rtc }, [])
  | .addAlarm reference active rtc =>
    ({ s with persistence := DataService.addAlarm s.persistence reference active rtc }, [])
  | .handleActuation reference value =>
    ({ s with device := handleActuation W a.alive s.device reference value }, [])
  | .publishActuatorStatus reference =>
    let status := getActuatorStatus W a.alive s.device reference
    flushActuatorStatuses a
      { s with
        persistence :=
          DataService.addActuatorStatus s.persistence reference status.1 status.2 s.executed }
  | .handleConfiguration values =>
    ({ s with device := handleConfiguration W a.alive s.device values }, [])
  | .publishConfiguration =>
    flushConfiguration W a
      { s with
        persistence :=
          DataService.addConfiguration W.deviceKey s.persistence
            (getConfiguration W a.alive s.device) }
  | .tryConnect _ =>
    if a.connected then
      let r := s.notifyConnected W
      (r.1, .connect true :: r.2)
    else ({ s with running := [.push (.tryConnect false)] }, [.connect false])
  | .disconnect _ => (s.notifyDisonnected W, [.disconnect])
  | .publish => s.flush W a

def step (s : Wolk σ) : WolkEvent → Option (Wolk σ × List WolkOutput)
  | .call c currentRtc => some (s.call currentRtc c, [])
  | .messageReceived c =>
    match s.handling with
    | [] => some ({ s with handling := pushes c }, [])
    | _ :: _ => none
  | .handle =>
    match s.handling with
    | [] => none
    | c :: rest => some ({ s with handling := rest }.addToCommandBuffer c, [])
  | .connectionLost => some ({ s.notifyDisonnected W with lost := s.lost + 1 }, [])
  | .reconnect =>
    match s.lost with
    | 0 => none
    | lost + 1 => some ({ s with lost := lost }.addToCommandBuffer (.tryConnect true), [])
  | .execute a =>
    match s.running, s.commandBuffer with
    | [], c :: rest =>
      let r := run W c a { s with commandBuffer := rest }
      some ({ r.1 with executed := s.executed + 1 }, r.2)
    | _, _ => none
  | .work =>
    match s.running with
    | [] => none
    | .push c :: rest => some ({ s with running := rest }.addToCommandBuffer c, [])
    | .sendFileList :: rest => some ({ s with running := rest }, [.sendFileList])

/-- The four queues are flushed independently of each other. -/
theorem flush_eq (a : Answers) (s : Wolk σ) :
    s.flush W a =
      let statuses := DataService.publishEach a.actuatorStatusesKeys a.actuatorStatusesAttempts
        s.persistence.actuatorStatuses
      let alarms := DataService.publishForKeys a.alarmsKeys a.alarmsAttempts s.persistence.alarms
      let readings := DataService.publishForKeys a.sensorReadingsKeys a.sensorReadingsAttempts
        s.persistence.sensorReadings
      let configuration := DataService.publishOne a.configurationAttempt
        s.persistence.configurations W.deviceKey
      ({ s with persistence := ⟨readings.1, alarms.1, statuses.1, configuration.1⟩ },
        statuses.2.map .actuatorStatus ++ alarms.2.map .alarms ++ readings.2.map .sensorReadings ++
          configuration.2.map .configuration) := rfl

/-- The command that a call of the user pushes. -/
def userCommand (connects : ℕ) (currentRtc : UInt64) : UserCall → Option WolkCommand
  | .addSensorReading reference value rtc =>
    some (.addSensorReading reference value (rtcOr rtc currentRtc))
  | .addSensorReadings reference values rtc =>
    if values.isEmpty then none
    else some (.addSensorReadings reference values (rtcOr rtc currentRtc))
  | .addAlarm reference active rtc => some (.addAlarm reference active (rtcOr rtc currentRtc))
  | .publishActuatorStatus reference => some (.publishActuatorStatus reference)
  | .publishConfiguration => some .publishConfiguration
  | .connect => some (.tryConnect true)
  | .disconnect => some (.disconnect connects)
  | .publish => some .publish

theorem call_eq (s : Wolk σ) (currentRtc : UInt64) (c : UserCall) :
    s.call currentRtc c =
      { s with
        commandBuffer := s.commandBuffer ++ (userCommand s.connects currentRtc c).toList
        connects := if c = .connect then s.connects + 1 else s.connects } := by
  cases c with
  | addSensorReadings reference values rtc =>
    by_cases hv : values.isEmpty <;> simp [call, userCommand, addToCommandBuffer, hv]
  | _ => simp [call, userCommand, addToCommandBuffer]

/-- A command touches neither the queue nor the other threads. -/
theorem run_frame (c : WolkCommand) (a : Answers) (s : Wolk σ) :
    (run W c a s).1.commandBuffer = s.commandBuffer ∧ (run W c a s).1.handling = s.handling ∧
      (run W c a s).1.connects = s.connects := by
  cases c with
  | tryConnect firstTime => by_cases hc : a.connected <;> simp [run, hc, notifyConnected]
  | _ => exact ⟨rfl, rfl, rfl⟩

/-- What a worker that had nothing left to do can still have to push after a command. -/
theorem run_push {c : WolkCommand} {a : Answers} {s : Wolk σ} (hr : s.running = [])
    {d : WolkCommand} (hd : .push d ∈ (run W c a s).1.running) :
    (∃ reference, d = .publishActuatorStatus reference) ∨ d = .publishConfiguration ∨
      d = .publish ∨ d = .tryConnect false := by
  cases c with
  | tryConnect firstTime =>
    by_cases hc : a.connected
    · simp only [run, hc, if_true, notifyConnected, connectedTasks, List.mem_append, List.mem_map,
        List.mem_singleton, WorkerTask.push.injEq] at hd
      rcases hd with ((⟨reference, -, rfl⟩ | rfl) | hd) | rfl
      · exact .inl ⟨reference, rfl⟩
      · exact .inr (.inl rfl)
      · split at hd <;> simp at hd
      · exact .inr (.inr (.inl rfl))
    · have hd : d = .tryConnect false := by simpa [run, hc] using hd
      exact .inr (.inr (.inr hd))
  | _ =>
    have hd : .push d ∈ s.running := hd
    simp [hr] at hd

/-- Everything a step can do, one case for each kind of event. -/
inductive Moves (s : Wolk σ) : WolkEvent → Wolk σ → List WolkOutput → Prop where
  | called (c currentRtc) : Moves s (.call c currentRtc) (s.call currentRtc c) []
  | received (c) (hh : s.handling = []) :
      Moves s (.messageReceived c) { s with handling := pushes c } []
  | handled (c rest) (hh : s.handling = c :: rest) :
      Moves s .handle ({ s with handling := rest }.addToCommandBuffer c) []
  | connectionLost : Moves s .connectionLost { s.notifyDisonnected W with lost := s.lost + 1 } []
  | reconnected (lost) (hl : s.lost = lost + 1) :
      Moves s .reconnect ({ s with lost := lost }.addToCommandBuffer (.tryConnect true)) []
  | executed (a c rest) (hr : s.running = []) (hq : s.commandBuffer = c :: rest) :
      Moves s (.execute a)
        { (run W c a { s with commandBuffer := rest }).1 with executed := s.executed + 1 }
        (run W c a { s with commandBuffer := rest }).2
  | pushed (c rest) (hr : s.running = .push c :: rest) :
      Moves s .work ({ s with running := rest }.addToCommandBuffer c) []
  | sentFileList (rest) (hr : s.running = .sendFileList :: rest) :
      Moves s .work { s with running := rest } [.sendFileList]

variable {W}

theorem step_moves {s s' : Wolk σ} {ev : WolkEvent} {out : List WolkOutput}
    (h : s.step W ev = some (s', out)) : Moves W s ev s' out := by
  cases ev with
  | call c currentRtc =>
    cases h
    exact .called c currentRtc
  | messageReceived c =>
    simp only [step] at h
    split at h
    next hh =>
      cases h
      exact .received c hh
    next => cases h
  | handle =>
    simp only [step] at h
    split at h
    next => cases h
    next c rest hh =>
      cases h
      exact .handled c rest hh
  | connectionLost =>
    cases h
    exact .connectionLost
  | reconnect =>
    simp only [step] at h
    split at h
    next => cases h
    next lost hl =>
      cases h
      exact .reconnected lost hl
  | execute a =>
    simp only [step] at h
    split at h
    next c rest hr hq =>
      cases h
      exact .executed a c rest hr hq
    next => cases h
  | work =>
    simp only [step] at h
    split at h
    next => cases h
    next c rest hr =>
      cases h
      exact .pushed c rest hr
    next rest hr =>
      cases h
      exact .sentFileList rest hr

end Wolk

/-- `Wolk` from its construction on. -/
def wolkMachine {σ : Type} (W : WolkConfig σ) : Machine (Wolk σ) WolkEvent WolkOutput where
  start := .construct W
  step := Wolk.step W

/-- A device with one actuator, a switch that is set to the value of the last command. -/
def sampleConfig : WolkConfig String where
  deviceKey := "device"
  actuatorReferences := ["switch"]
  keepAliveService := true
  firmwareUpdateService := false
  fileDownloadService := false
  device := "off"
  actuationHandler := none
  actuationHandlerLambda := some fun _ _ value => value
  actuatorStatusProvider := none
  actuatorStatusProviderLambda := some fun device _ => (device, .ready)
  configurationHandler := none
  configurationHandlerLambda := none
  configurationProvider := none
  configurationProviderLambda := none
  defaultActuatorStatus := ("", .error)

/-- Every connection attempt succeeds and everything but alarms is published. -/
def sampleAnswers : Answers where
  alive := true
  connected := true
  sensorReadingsKeys := ["t"]
  sensorReadingsAttempts _ _ := .published
  alarmsKeys := ["a"]
  alarmsAttempts _ _ := .refused
  actuatorStatusesKeys := ["switch"]
  actuatorStatusesAttempts _ := .published
  configurationAttempt := .published

end WolkConnect
