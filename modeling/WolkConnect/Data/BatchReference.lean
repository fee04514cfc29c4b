import WolkConnect.Data.DataService
import WolkConnect.Chunk.Blocks
import Mathlib.Data.Finset.Lattice.Fold

/-! The publishing of what is persisted, against its reference: the queue of each key is cut
into chunks, which are sent in order until one is not published. -/
namespace WolkConnect
namespace DataService

variable {ι : Type}

section

/-- The recursion for one key; `none` when the calls nest deeper than the fuel. -/
def publishWithin : ℕ → (ℕ → Attempt) → Fifo ι → String → Option (Fifo ι × List (Batch ι))
  | 0, _, _, _ => none
  | fuel + 1, attempts, q, key =>
    let items := q.get key PUBLISH_BATCH_ITEMS_COUNT
    if items.isEmpty then some (q, [])
    else
      match attempts 0 with
      | .noMessage => some (q.remove key PUBLISH_BATCH_ITEMS_COUNT, [⟨key, items, .noMessage⟩])
      | .refused => some (q, [⟨key, items, .refused⟩])
      | .published =>
        (publishWithin fuel (fun n => attempts (n + 1)) (q.remove key PUBLISH_BATCH_ITEMS_COUNT)
          key).map fun r => (r.1, ⟨key, items, .published⟩ :: r.2)

/-- The loop over the keys, each within the fuel. -/
def publishKeysWithin (fuel : ℕ) :
    List String → (ℕ → ℕ → Attempt) → Fifo ι → Option (Fifo ι × List (Batch ι))
  | [], _, q => some (q, [])
  | key :: keys, attempts, q =>
    (publishWithin fuel (attempts 0) q key).bind fun r =>
      (publishKeysWithin fuel keys (fun n => attempts (n + 1)) r.1).map fun rest =>
        (rest.1, r.2 ++ rest.2)

/-- The reference for the chunks of one key: the chunks that stay, and the attempts. -/
def sendChunks (key : String) : List (List ι) → (ℕ → Attempt) → List (List ι) × List (Batch ι)
  | [], _ => ([], [])
  | chunk :: chunks, attempts =>
    match attempts 0 with
    | .noMessage => (chunks, [⟨key, chunk, .noMessage⟩])
    | .refused => (chunk :: chunks, [⟨key, chunk, .refused⟩])
    | .published =>
      let r := sendChunks key chunks fun n => attempts (n + 1)
      (r.1, ⟨key, chunk, .published⟩ :: r.2)

/-- The chunks of a queue, from the oldest on. -/
def chunks (items : List ι) : List (List ι) := Blocks.blocks PUBLISH_BATCH_ITEMS_COUNT items

end

variable {q : Fifo ι} {key : String} {attempts : ℕ → Attempt}

theorem remove_self (q : Fifo ι) (key : String) :
    (q.remove key PUBLISH_BATCH_ITEMS_COUNT) key = (q key).drop PUBLISH_BATCH_ITEMS_COUNT :=
  Function.update_self ..

theorem chunks_eq_cons {items : List ι} (h : items ≠ []) :
    chunks items = items.take PUBLISH_BATCH_ITEMS_COUNT ::
      chunks (items.drop PUBLISH_BATCH_ITEMS_COUNT) :=
  Blocks.blocks_eq_cons (by decide) h

theorem flatten_chunks (items : List ι) : (chunks items).flatten = items :=
  Blocks.flatten_blocks_eq (by decide) items

/-- As many calls as there are chunks, and one more that finds the queue empty. -/
theorem publishWithin_eq {fuel : ℕ} (h : (chunks (q key)).length < fuel) :
    publishWithin fuel attempts q key = some (publishForPersistanceKey attempts q key) := by
  induction fuel generalizing attempts q with
  | zero => exact absurd h (Nat.not_lt_zero _)
  | succ fuel ih =>
    rw [publishForPersistanceKey_eq, publishBatch, publishWithin]
    by_cases hnil : q key = []
    · simp [Fifo.get, hnil]
    · rw [chunks_eq_cons hnil, ← remove_self, List.length_cons, Nat.add_lt_add_iff_right] at h
      rw [ih h]
      cases attempts 0 with
      | noMessage => split <;> rfl
      | refused => split <;> rfl
      | published => split <;> rfl

/-- The code goes through the chunks of its key as the reference does, and leaves the other
queues alone. -/
theorem publishForPersistanceKey_eq_sendChunks (attempts : ℕ → Attempt) (q : Fifo ι)
    (key : String) : publishForPersistanceKey attempts q key =
      (Function.update q key (sendChunks key (chunks (q key)) attempts).1.flatten,
        (sendChunks key (chunks (q key)) attempts).2) := by
  generalize hn : (q key).length = n
  induction n using Nat.strong_induction_on generalizing attempts q with
  | _ n ih =>
    rw [publishForPersistanceKey_eq]
    by_cases hnil : q key = []
    · have hsame : Function.update q key [] = q := by rw [← hnil, Function.update_eq_self]
      rw [publishBatch_nil hnil, hnil, chunks, Blocks.blocks_nil, sendChunks]
      exact congrArg (·, []) hsame.symm
    · have hitems : (q.get key PUBLISH_BATCH_ITEMS_COUNT).isEmpty = false := by
        simpa [Fifo.get, PUBLISH_BATCH_ITEMS_COUNT] using hnil
      have hlt : ((q.remove key PUBLISH_BATCH_ITEMS_COUNT) key).length < n := by
        have hpos := List.length_pos_iff.mpr hnil
        rw [length_remove]
        omega
      simp only [publishBatch, hitems, Bool.false_eq_true, if_false]
      rw [chunks_eq_cons hnil, sendChunks]
      cases attempts 0 with
      | noMessage =>
        dsimp only
        rw [flatten_chunks]
        rfl
      | refused =>
        dsimp only
        rw [← chunks_eq_cons hnil, flatten_chunks, Function.update_eq_self]
        rfl
      | published =>
        dsimp only
        rw [ih _ hlt _ _ rfl, remove_self, Fifo.remove, Function.update_idem]
        rfl

variable {keys : List String}

/-- What the reference does for one of the keys, given what its publishes come to. -/
def reference (keys : List String) (attempts : ℕ → ℕ → Attempt) (q : Fifo ι) (key : String) :
    List (List ι) × List (Batch ι) :=
  sendChunks key (chunks (q key)) (attempts (keys.idxOf key))

/-- The publishes of another key do not change what is done for this one. -/
theorem reference_cons {first : String} (hne : first ≠ key) (attempts : ℕ → ℕ → Attempt)
    (q : Fifo ι) (rest : List ι) : reference (first :: keys) attempts q key =
      reference keys (fun n => attempts (n + 1)) (Function.update q first rest) key := by
  rw [reference, reference, List.idxOf_cons_ne keys hne, Function.update_of_ne hne.symm]

theorem publishForKeys_eq (hkeys : keys.Nodup) (attempts : ℕ → ℕ → Attempt) (q : Fifo ι) :
    publishForKeys keys attempts q =
      (fun key => if key ∈ keys then (reference keys attempts q key).1.flatten else q key,
        keys.flatMap fun key => (reference keys attempts q key).2) := by
  induction keys generalizing attempts q with
  | nil => simp [publishForKeys]
  | cons first keys ih =>
    obtain ⟨hfirst, hkeys⟩ := List.nodup_cons.mp hkeys
    have hself : reference (first :: keys) attempts q first =
        sendChunks first (chunks (q first)) (attempts 0) := by
      rw [reference, List.idxOf_cons_self]
    rw [publishForKeys, publishForPersistanceKey_eq_sendChunks, ih hkeys, ← hself]
    have hne (key : String) (hkey : key ∈ keys) : first ≠ key := by
      rintro rfl
      exact hfirst hkey
    have hrest (key : String) (hkey : key ∈ keys) : reference (first :: keys) attempts q key = _ :=
      reference_cons (hne key hkey) attempts q
        (reference (first :: keys) attempts q first).1.flatten
    apply Prod.ext
    · funext key
      by_cases he : key = first
      · subst he
        simp [hfirst]
      · by_cases hkey : key ∈ keys
        · simp [hkey, hrest key hkey]
        · simp [hkey, he]
    · rw [List.flatMap_cons]
      dsimp only
      congr 1
      apply List.flatMap_congr
      intro key hkey
      rw [hrest key hkey]

/-- The loop needs no more calls for a key than its queue has chunks, and one. -/
theorem publishKeysWithin_eq {fuel : ℕ} (hkeys : keys.Nodup) (attempts : ℕ → ℕ → Attempt)
    (h : ∀ key ∈ keys, (chunks (q key)).length < fuel) :
    publishKeysWithin fuel keys attempts q = some (publishForKeys keys attempts q) := by
  induction keys generalizing attempts q with
  | nil => rfl
  | cons first keys ih =>
    obtain ⟨hfirst, hkeys⟩ := List.nodup_cons.mp hkeys
    have hrest : ∀ key ∈ keys,
        (chunks ((publishForPersistanceKey (attempts 0) q first).1 key)).length < fuel := by
      intro key hkey
      have hne : key ≠ first := by
        rintro rfl
        exact hfirst hkey
      rw [publishForPersistanceKey_eq_sendChunks]
      dsimp only
      rw [Function.update_of_ne hne]
      exact h key (List.mem_cons_of_mem _ hkey)
    rw [publishKeysWithin, publishWithin_eq (h first List.mem_cons_self), Option.bind_some,
      ih hkeys _ hrest]
    rfl

theorem exists_fuel (keys : List String) (q : Fifo ι) :
    ∃ fuel, ∀ key ∈ keys, (chunks (q key)).length < fuel := by
  refine ⟨(keys.toFinset.sup fun key => (chunks (q key)).length) + 1, ?_⟩
  intro key hkey
  apply Nat.lt_succ_of_le
  exact Finset.le_sup (f := fun key => (chunks (q key)).length) (List.mem_toFinset.mpr hkey)

theorem sendChunks_key (key : String) (chunks : List (List ι)) (attempts : ℕ → Attempt) :
    ∀ b ∈ (sendChunks key chunks attempts).2, b.key = key := by
  induction chunks generalizing attempts with
  | nil => simp [sendChunks]
  | cons chunk chunks ih =>
    rw [sendChunks]
    cases attempts 0 with
    | noMessage => simp
    | refused => simp
    | published => exact List.forall_mem_cons.mpr ⟨rfl, ih _⟩

/-- Where everything is published, every chunk is sent and none stays. -/
theorem sendChunks_published (key : String) (chunks : List (List ι)) {attempts : ℕ → Attempt}
    (h : ∀ n, attempts n = .published) :
    sendChunks key chunks attempts = ([], chunks.map fun chunk => ⟨key, chunk, .published⟩) := by
  induction chunks generalizing attempts with
  | nil => rfl
  | cons chunk chunks ih =>
    rw [sendChunks, h 0]
    dsimp only
    rw [ih fun n => h (n + 1)]
    rfl

/-- What is done for one key, out of what is done for all. -/
theorem filter_flatMap_key {f : String → List (Batch ι)} (hkeys : keys.Nodup)
    (hf : ∀ key, ∀ b ∈ f key, b.key = key) (hkey : key ∈ keys) :
    ((keys.flatMap f).filter fun b => decide (b.key = key)) = f key := by
  have hown (k : String) : ((f k).filter fun b => decide (b.key = key)) =
      if k = key then f k else [] := by
    split
    next he =>
      apply List.filter_eq_self.mpr
      intro b hb
      simp [hf k b hb, he]
    next he =>
      apply List.filter_eq_nil_iff.mpr
      intro b hb
      simp [hf k b hb, he]
  induction keys with
  | nil => cases hkey
  | cons first keys ih =>
    obtain ⟨hfirst, hkeys⟩ := List.nodup_cons.mp hkeys
    rw [List.flatMap_cons, List.filter_append, hown]
    by_cases he : first = key
    · subst he
      have hnone : ((keys.flatMap f).filter fun b => decide (b.key = first)) = [] := by
        apply List.filter_eq_nil_iff.mpr
        intro b hb
        obtain ⟨k, hk, hb⟩ := List.mem_flatMap.mp hb
        have hne : k ≠ first := by
          rintro rfl
          exact hfirst hk
        simp [hf k b hb, hne]
      simp [hnone]
    · rw [if_neg he, List.nil_append]
      exact ih hkeys ((List.mem_cons.mp hkey).resolve_left (Ne.symm he))

/-- The publishing of the keys of a snapshot does for each of them what the reference does for
its queue alone, and where everything is published it empties the queues in chunks of 50. -/
structure MatchesReference (keys : List String) (attempts : ℕ → ℕ → Attempt) (q : Fifo ι)
    (r : Fifo ι × List (Batch ι)) : Prop where
  terminates : ∃ fuel, publishKeysWithin fuel keys attempts q = some r
  queues : ∀ key, r.1 key =
    if key ∈ keys then (reference keys attempts q key).1.flatten else q key
  batches : r.2 = keys.flatMap fun key => (reference keys attempts q key).2
  own : ∀ key ∈ keys,
    (r.2.filter fun b => decide (b.key = key)) = (reference keys attempts q key).2
  drains : ∀ key ∈ keys, (∀ n, attempts (keys.idxOf key) n = .published) →
    r.1 key = [] ∧ (r.2.filter fun b => decide (b.key = key)).length =
      ⌈((q key).length : ℚ) / 50⌉₊

theorem publishForKeys_matches (hkeys : keys.Nodup) (attempts : ℕ → ℕ → Attempt) (q : Fifo ι) :
    MatchesReference keys attempts q (publishForKeys keys attempts q) := by
  have hown : ∀ key ∈ keys,
      ((publishForKeys keys attempts q).2.filter fun b => decide (b.key = key)) =
        (reference keys attempts q key).2 := by
    intro key hkey
    rw [publishForKeys_eq hkeys]
    apply filter_flatMap_key hkeys _ hkey
    intro k
    exact sendChunks_key k _ _
  constructor
  · obtain ⟨fuel, hfuel⟩ := exists_fuel keys q
    exact ⟨fuel, publishKeysWithin_eq hkeys attempts hfuel⟩
  · intro key
    rw [publishForKeys_eq hkeys]
  · rw [publishForKeys_eq hkeys]
  · exact hown
  · intro key hkey hall
    rw [hown key hkey, publishForKeys_eq hkeys]
    simp [reference, sendChunks_published key _ hall, hkey, chunks, Blocks.blockCount,
      PUBLISH_BATCH_ITEMS_COUNT]

end DataService

open DataService

/-- Readings and alarms are published as the reference does it, whatever is persisted and
whatever the publishes come to, and the rest of the persistence is left alone. -/
theorem publish_matches_reference (p : Persistence) {readingKeys alarmKeys : List String}
    (hreadings : readingKeys.Nodup) (halarms : alarmKeys.Nodup)
    (readingAttempts alarmAttempts : ℕ → ℕ → Attempt) :
    (∃ r, MatchesReference readingKeys readingAttempts p.sensorReadings r ∧
      publishSensorReadings readingKeys readingAttempts p =
        ({ p with sensorReadings := r.1 }, r.2)) ∧
    ∃ r, MatchesReference alarmKeys alarmAttempts p.alarms r ∧
      publishAlarms alarmKeys alarmAttempts p = ({ p with alarms := r.1 }, r.2) :=
  ⟨⟨_, publishForKeys_matches hreadings readingAttempts p.sensorReadings, rfl⟩,
    ⟨_, publishForKeys_matches halarms alarmAttempts p.alarms, rfl⟩⟩

/-- Sixty readings of `T`, two of `P` and an alarm of `A`. -/
def samplePersistence : Persistence where
  sensorReadings key :=
    if key = "T" then (List.range 60).map fun i => .value "1" "T" (UInt64.ofNat i)
    else if key = "P" then [.value "2" "P" 0, .value "3" "P" 1]
    else []
  alarms key := if key = "A" then [⟨true, "A", 0⟩] else []
  actuatorStatuses _ := none
  configurations _ := none

/-- The second publish of the first key is refused. -/
def sampleAttempts : ℕ → ℕ → Attempt
  | 0, 1 => .refused
  | _, _ => .published

/-- `T` keeps its last ten readings, `P` is emptied, and the alarm gives no message. -/
theorem publish_matches_reference_sample :
    let readings := publishSensorReadings ["T", "P"] sampleAttempts samplePersistence
    (readings.2.map fun b => (b.key, b.items.length, b.attempt)) =
        [("T", 50, .published), ("T", 10, .refused), ("P", 2, .published)] ∧
      readings.1.sensorReadings "T" = (samplePersistence.sensorReadings "T").drop 50 ∧
      (∃ r, MatchesReference ["T", "P"] sampleAttempts samplePersistence.sensorReadings r ∧
        readings = ({ samplePersistence with sensorReadings := r.1 }, r.2)) ∧
      ∃ r, MatchesReference ["A"] (fun _ _ => .noMessage) samplePersistence.alarms r ∧
        publishAlarms ["A"] (fun _ _ => .noMessage) samplePersistence =
          ({ samplePersistence with alarms := r.1 }, r.2) :=
  ⟨by decide +kernel, by decide +kernel, publish_matches_reference samplePersistence (by decide)
    (by decide) sampleAttempts fun _ _ => .noMessage⟩

end WolkConnect
