import Mathlib.Algebra.Order.Group.Nat
import Mathlib.Data.List.Basic
import Mathlib.Logic.Function.Basic

/-! `DataService`: readings, alarms, actuator statuses and the configuration are persisted
first, and published from the persistence in batches. -/
namespace WolkConnect

/-- `SensorReading` has one constructor for a single value and one for several. -/
inductive SensorReading where
  | value (value reference : String) (rtc : UInt64)
  | values (values : List String) (reference : String) (rtc : UInt64)
  deriving DecidableEq

def SensorReading.reference : SensorReading → String
  | .value _ reference _ => reference
  | .values _ reference _ => reference

structure Alarm where
  active : Bool
  reference : String
  rtc : UInt64
  deriving DecidableEq

inductive ActuatorState where
  | ready
  | busy
  | error
  deriving DecidableEq

/-- `evaluated` is the number of the command that asked the provider; nothing reads it. -/
structure ActuatorStatus where
  value : String
  reference : String
  state : ActuatorState
  evaluated : ℕ
  deriving DecidableEq

structure ConfigurationItem where
  values : List String
  reference : String
  deriving DecidableEq

/-- What an attempt to publish comes to: `makeMessage` returns null, `publish` returns
false, or `publish` returns true. -/
inductive Attempt where
  | noMessage
  | refused
  | published
  deriving DecidableEq

/-- Items that are kept in order under each key. -/
abbrev Fifo (ι : Type) := String → List ι

namespace Fifo

variable {ι : Type}

def put (q : Fifo ι) (key : String) (item : ι) : Fifo ι := Function.update q key (q key ++ [item])

/-- The oldest items. -/
def get (q : Fifo ι) (key : String) (count : ℕ) : List ι := (q key).take count

def remove (q : Fifo ι) (key : String) (count : ℕ) : Fifo ι :=
  Function.update q key ((q key).drop count)

end Fifo

/-- An attempt to publish items of a key. -/
structure Batch (ι : Type) where
  key : String
  items : List ι
  attempt : Attempt
  deriving DecidableEq

/-- `Persistence` as the SDK documents it: readings and alarms are queues, of a status or a
configuration only the last one put is kept. -/
structure Persistence where
  sensorReadings : Fifo SensorReading
  alarms : Fifo Alarm
  actuatorStatuses : String → Option ActuatorStatus
  configurations : String → Option (List ConfigurationItem)

namespace DataService

def PUBLISH_BATCH_ITEMS_COUNT : ℕ := 50

variable {ι : Type}

/-- The body shared by `publishSensorReadingsForPersistanceKey` and
`publishAlarmsForPersistanceKey`; `recurse` is the recursive call. -/
def publishBatch
    (recurse : (ℕ → Attempt) → Fifo ι → String → Fifo ι × List (Batch ι))
    (attempts : ℕ → Attempt) (q : Fifo ι) (key : String) : Fifo ι × List (Batch ι) :=
  let items := q.get key PUBLISH_BATCH_ITEMS_COUNT
  if items.isEmpty then (q, [])
  else
    match attempts 0 with
    | .noMessage => (q.remove key PUBLISH_BATCH_ITEMS_COUNT, [⟨key, items, .noMessage⟩])
    | .refused => (q, [⟨key, items, .refused⟩])
    | .published =>
      let r := recurse (fun n => attempts (n + 1)) (q.remove key PUBLISH_BATCH_ITEMS_COUNT) key
      (r.1, ⟨key, items, .published⟩ :: r.2)

/-- The recursion, as deep as the fuel. -/
def publishBatches : ℕ → (ℕ → Attempt) → Fifo ι → String → Fifo ι × List (Batch ι)
  | 0, _, q, _ => (q, [])
  | fuel + 1, attempts, q, key => publishBatch (publishBatches fuel) attempts q key

/-- One call for each item of the key is enough, see `publishForPersistanceKey_eq`. -/
def publishForPersistanceKey (attempts : ℕ → Attempt) (q : Fifo ι) (key : String) :
    Fifo ι × List (Batch ι) :=
  publishBatches (q key).length attempts q key

/-- The loop over the keys; `attempts` gives what the publishes of each key come to. -/
def publishForKeys : List String → (ℕ → ℕ → Attempt) → Fifo ι → Fifo ι × List (Batch ι)
  | [], _, q => (q, [])
  | key :: keys, attempts, q =>
    let r := publishForPersistanceKey (attempts 0) q key
    let rest := publishForKeys keys (fun n => attempts (n + 1)) r.1
    (rest.1, r.2 ++ rest.2)

def addSensorReading (p : Persistence) (reference value : String) (rtc : UInt64) : Persistence :=
  { p with sensorReadings := p.sensorReadings.put reference (.value value reference rtc) }

def addSensorReadings (p : Persistence) (reference : String) (values : List String)
    (rtc : UInt64) : Persistence :=
  { p with sensorReadings := p.sensorReadings.put reference (.values values reference rtc) }

def addAlarm (p : Persistence) (reference : String) (active : Bool) (rtc : UInt64) : Persistence :=
  { p with alarms := p.alarms.put reference ⟨active, reference, rtc⟩ }

def addActuatorStatus (p : Persistence) (reference value : String) (state : ActuatorState)
    (evaluated : ℕ) : Persistence :=
  { p with
    actuatorStatuses :=
      Function.update p.actuatorStatuses reference (some ⟨value, reference, state, evaluated⟩) }

def addConfiguration (deviceKey : String) (p : Persistence)
    (configuration : List ConfigurationItem) : Persistence :=
  { p with configurations := Function.update p.configurations deviceKey (some configuration) }

/-- `keys` is the answer of `getSensorReadingsKeys`. -/
def publishSensorReadings (keys : List String) (attempts : ℕ → ℕ → Attempt) (p : Persistence) :
    Persistence × List (Batch SensorReading) :=
  let r := publishForKeys keys attempts p.sensorReadings
  ({ p with sensorReadings := r.1 }, r.2)

/-- `keys` is the answer of `getAlarmsKeys`. -/
def publishAlarms (keys : List String) (attempts : ℕ → ℕ → Attempt) (p : Persistence) :
    Persistence × List (Batch Alarm) :=
  let r := publishForKeys keys attempts p.alarms
  ({ p with alarms := r.1 }, r.2)

/-- The body shared by the publishing of an actuator status and of the configuration: the
one item of a key is removed unless it stays unpublished. -/
def publishOne (attempt : Attempt) (items : String → Option ι) (key : String) :
    (String → Option ι) × List (Batch ι) :=
  match items key with
  | none => (items, [])
  | some item =>
    match attempt with
    | .noMessage => (Function.update items key none, [⟨key, [item], .noMessage⟩])
    | .refused => (items, [⟨key, [item], .refused⟩])
    | .published => (Function.update items key none, [⟨key, [item], .published⟩])

/-- The loop of `publishActuatorStatuses`. -/
def publishEach : List String → (ℕ → Attempt) → (String → Option ι) →
    (String → Option ι) × List (Batch ι)
  | [], _, items => (items, [])
  | key :: keys, attempts, items =>
    let r := publishOne (attempts 0) items key
    let rest := publishEach keys (fun n => attempts (n + 1)) r.1
    (rest.1, r.2 ++ rest.2)

/-- `keys` is the answer of `getActuatorStatusesKeys`. -/
def publishActuatorStatuses (keys : List String) (attempts : ℕ → Attempt) (p : Persistence) :
    Persistence × List (Batch ActuatorStatus) :=
  let r := publishEach keys attempts p.actuatorStatuses
  ({ p with actuatorStatuses := r.1 }, r.2)

def publishConfiguration (deviceKey : String) (attempt : Attempt) (p : Persistence) :
    Persistence × List (Batch (List ConfigurationItem)) :=
  let r := publishOne attempt p.configurations deviceKey
  ({ p with configurations := r.1 }, r.2)

theorem length_remove (q : Fifo ι) (key : String) :
    ((q.remove key PUBLISH_BATCH_ITEMS_COUNT) key).length = (q key).length - 50 := by
  simp [Fifo.remove, PUBLISH_BATCH_ITEMS_COUNT]

theorem publishBatch_nil {recurse : (ℕ → Attempt) → Fifo ι → String → Fifo ι × List (Batch ι)}
    {attempts : ℕ → Attempt} {q : Fifo ι} {key : String} (h : q key = []) :
    publishBatch recurse attempts q key = (q, []) := by
  simp [publishBatch, Fifo.get, h]

/-- The recursive call is made with fewer items. -/
theorem publishBatch_congr
    {recurse recurse' : (ℕ → Attempt) → Fifo ι → String → Fifo ι × List (Batch ι)}
    {attempts : ℕ → Attempt} {q : Fifo ι} {key : String}
    (h : ∀ attempts q', (q' key).length < (q key).length →
      recurse attempts q' key = recurse' attempts q' key) :
    publishBatch recurse attempts q key = publishBatch recurse' attempts q key := by
  by_cases hnil : q key = []
  · rw [publishBatch_nil hnil, publishBatch_nil hnil]
  · have hpos := List.length_pos_iff.mpr hnil
    have hrest := h (fun n => attempts (n + 1)) (q.remove key PUBLISH_BATCH_ITEMS_COUNT)
      (by rw [length_remove]; omega)
    simp only [publishBatch, hrest]

/-- More fuel than items changes nothing. -/
theorem publishBatches_succ {fuel : ℕ} {attempts : ℕ → Attempt} {q : Fifo ι} {key : String}
    (h : (q key).length ≤ fuel) :
    publishBatches (fuel + 1) attempts q key = publishBatches fuel attempts q key := by
  induction fuel generalizing attempts q with
  | zero => exact publishBatch_nil (List.length_eq_zero_iff.mp (by omega))
  | succ fuel ih =>
    apply publishBatch_congr
    intro attempts q' hlt
    exact ih (by omega)

theorem publishBatches_eq {fuel : ℕ} {attempts : ℕ → Attempt} {q : Fifo ι} {key : String}
    (h : (q key).length ≤ fuel) :
    publishBatches fuel attempts q key = publishForPersistanceKey attempts q key := by
  induction fuel, h using Nat.le_induction with
  | base => rfl
  | succ fuel h ih => rw [publishBatches_succ h, ih]

/-- The recursion of the source, without fuel. -/
theorem publishForPersistanceKey_eq (attempts : ℕ → Attempt) (q : Fifo ι) (key : String) :
    publishForPersistanceKey attempts q key =
      publishBatch publishForPersistanceKey attempts q key := by
  rw [← publishBatches_eq (Nat.le_succ (q key).length), publishBatches]
  apply publishBatch_congr
  intro attempts q' hlt
  exact publishBatches_eq hlt.le

end DataService
end WolkConnect
