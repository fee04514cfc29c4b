import WolkConnect.Data.Wolk

/-! No reading and no alarm is lost, repeated or reordered: what the executed commands added
to a queue is what was removed from it in batches, followed by what is still persisted. -/
namespace WolkConnect
open Transition Transition.Machine

namespace DataService

variable {ι : Type}

/-- The batches that were removed from the queue of a key, oldest first. -/
def removed (key : String) (log : List (Batch ι)) : List (List ι) :=
  (log.filter fun b => b.key = key ∧ b.attempt ≠ .refused).map Batch.items

@[simp] theorem removed_nil (key : String) : removed key ([] : List (Batch ι)) = [] := rfl

@[simp] theorem removed_append (key : String) (l m : List (Batch ι)) :
    removed key (l ++ m) = removed key l ++ removed key m := by
  simp [removed]

theorem removed_singleton (key : String) (b : Batch ι) :
    removed key [b] = if b.key = key ∧ b.attempt ≠ .refused then [b.items] else [] := by
  by_cases h : b.key = key ∧ b.attempt ≠ .refused <;> simp [removed, h]

/-- `q` is `q'` with the removed batches of `log` in front, and every batch was cut from
the front of a queue. -/
structure Drained (q q' : Fifo ι) (log : List (Batch ι)) : Prop where
  split : ∀ key, q key = (removed key log).flatten ++ q' key
  batch : ∀ b ∈ log, b.items ≠ [] ∧ b.items.length ≤ PUBLISH_BATCH_ITEMS_COUNT ∧
    ∀ i ∈ b.items, i ∈ q b.key

theorem Drained.refl (q : Fifo ι) : Drained q q [] := ⟨fun _ => rfl, by simp⟩

theorem Drained.trans {q q' q'' : Fifo ι} {l m : List (Batch ι)} (hl : Drained q q' l)
    (hm : Drained q' q'' m) : Drained q q'' (l ++ m) := by
  constructor
  · intro key
    rw [hl.split, hm.split, removed_append, List.flatten_append, List.append_assoc]
  · intro b hb
    rcases List.mem_append.mp hb with hb | hb
    · exact hl.batch b hb
    · obtain ⟨hne, hlen, hmem⟩ := hm.batch b hb
      refine ⟨hne, hlen, fun i hi => ?_⟩
      rw [hl.split]
      exact List.mem_append_right _ (hmem i hi)

section

variable {q : Fifo ι} {key : String}

theorem batch_items (h : ¬ (q.get key PUBLISH_BATCH_ITEMS_COUNT).isEmpty) (attempt : Attempt) :
    ∀ b ∈ [(⟨key, q.get key PUBLISH_BATCH_ITEMS_COUNT, attempt⟩ : Batch ι)],
      b.items ≠ [] ∧ b.items.length ≤ PUBLISH_BATCH_ITEMS_COUNT ∧ ∀ i ∈ b.items, i ∈ q b.key := by
  intro b hb
  obtain rfl := List.mem_singleton.mp hb
  refine ⟨by simpa using h, List.length_take_le _ _, ?_⟩
  intro i hi
  exact List.mem_of_mem_take hi

theorem drained_refused (h : ¬ (q.get key PUBLISH_BATCH_ITEMS_COUNT).isEmpty) :
    Drained q q [⟨key, q.get key PUBLISH_BATCH_ITEMS_COUNT, .refused⟩] := by
  constructor
  · intro k
    simp [removed_singleton]
  · exact batch_items h _

theorem drained_removed (h : ¬ (q.get key PUBLISH_BATCH_ITEMS_COUNT).isEmpty) {attempt : Attempt}
    (ha : attempt ≠ .refused) :
    Drained q (q.remove key PUBLISH_BATCH_ITEMS_COUNT)
      [⟨key, q.get key PUBLISH_BATCH_ITEMS_COUNT, attempt⟩] := by
  constructor
  · intro k
    by_cases hk : key = k
    · subst hk
      simp [removed_singleton, ha, Fifo.get, Fifo.remove]
    · simp [removed_singleton, hk, Fifo.remove, Function.update_of_ne (Ne.symm hk)]
  · exact batch_items h _

theorem publishBatches_drained (fuel : ℕ) (attempts : ℕ → Attempt) (q : Fifo ι) (key : String) :
    Drained q (publishBatches fuel attempts q key).1 (publishBatches fuel attempts q key).2 := by
  induction fuel generalizing attempts q with
  | zero => exact .refl q
  | succ fuel ih =>
    rw [publishBatches, publishBatch]
    by_cases hitems : (q.get key PUBLISH_BATCH_ITEMS_COUNT).isEmpty
    · simp only [hitems, if_true]
      exact .refl q
    · simp only [hitems]
      cases attempts 0 with
      | noMessage => exact drained_removed hitems (by decide)
      | refused => exact drained_refused hitems
      | published => exact (drained_removed hitems (by decide)).trans (ih _ _)

end

theorem publishForKeys_drained (keys : List String) (attempts : ℕ → ℕ → Attempt) (q : Fifo ι) :
    Drained q (publishForKeys keys attempts q).1 (publishForKeys keys attempts q).2 := by
  induction keys generalizing attempts q with
  | nil => exact .refl q
  | cons key keys ih => exact (publishBatches_drained _ _ q key).trans (ih _ _)

end DataService

abbrev WolkHistory (σ : Type) := List (Moment (Wolk σ) WolkEvent WolkOutput)

namespace Wolk

variable {σ : Type}

/-- The command that the worker took at a moment. -/
def executedCommand (m : Moment (Wolk σ) WolkEvent WolkOutput) : Option WolkCommand :=
  match m.event with
  | .execute _ => m.state.commandBuffer.head?
  | _ => none

/-- The commands that the worker took, oldest first. -/
def executedCommands (h : WolkHistory σ) : List WolkCommand := h.filterMap executedCommand

def addedReading (reference : String) : WolkCommand → Option SensorReading
  | .addSensorReading r value rtc => if r = reference then some (.value value r rtc) else none
  | .addSensorReadings r values rtc => if r = reference then some (.values values r rtc) else none
  | _ => none

def addedAlarm (reference : String) : WolkCommand → Option Alarm
  | .addAlarm r active rtc => if r = reference then some ⟨active, r, rtc⟩ else none
  | _ => none

def readingBatch : WolkOutput → Option (Batch SensorReading)
  | .sensorReadings batch => some batch
  | _ => none

def alarmBatch : WolkOutput → Option (Batch Alarm)
  | .alarms batch => some batch
  | _ => none

/-- A kind of item that commands add to queues of the persistence and that a flush removes
from there in batches. -/
structure Ledger (W : WolkConfig σ) (ι : Type) where
  content : Persistence → Fifo ι
  batch : WolkOutput → Option (Batch ι)
  added : String → WolkCommand → Option ι
  reference : ι → String
  content_construct : ∀ key, content (construct W).persistence key = []
  batch_sendFileList : batch .sendFileList = none
  added_reference : ∀ {key c i}, added key c = some i → reference i = key
  run_drained : ∀ c a s, DataService.Drained
    (fun key => content s.persistence key ++ (added key c).toList)
    (content (run W c a s).1.persistence) ((run W c a s).2.filterMap batch)

variable {W : WolkConfig σ} {h : WolkHistory σ} {s s' : Wolk σ} {ev : WolkEvent}
  {out : List WolkOutput}

/-- Only a command changes the persistence. -/
theorem Moves.executed_or_kept (hm : Moves W s ev s' out) :
    (∃ a c rest, ev = .execute a ∧ s.commandBuffer = c :: rest ∧
      s'.persistence = (run W c a { s with commandBuffer := rest }).1.persistence ∧
      out = (run W c a { s with commandBuffer := rest }).2) ∨
    ((∀ a, ev ≠ .execute a) ∧ s'.persistence = s.persistence ∧
      (out = [] ∨ out = [.sendFileList])) := by
  cases hm with
  | executed a c rest hr hq => exact .inl ⟨a, c, rest, rfl, hq, rfl, rfl⟩
  | called c currentRtc =>
    refine .inr ⟨nofun, ?_, .inl rfl⟩
    rw [call_eq]
  | sentFileList rest hr => exact .inr ⟨nofun, rfl, .inr rfl⟩
  | _ => exact .inr ⟨nofun, rfl, .inl rfl⟩

/-- What was added to a queue is what was removed from it followed by what is in it. -/
structure Ledger.Balanced {ι : Type} (L : Ledger W ι) (h : WolkHistory σ) (s : Wolk σ) : Prop where
  split : ∀ key, (executedCommands h).filterMap (L.added key) =
    (DataService.removed key ((outputs h).filterMap L.batch)).flatten ++
      L.content s.persistence key
  batch : ∀ b ∈ (outputs h).filterMap L.batch, b.items ≠ [] ∧
    b.items.length ≤ DataService.PUBLISH_BATCH_ITEMS_COUNT ∧ ∀ i ∈ b.items, L.reference i = b.key
  reference : ∀ key, ∀ i ∈ L.content s.persistence key, L.reference i = key

theorem Ledger.Balanced.step {ι : Type} {L : Ledger W ι} (hb : L.Balanced h s)
    (hm : Moves W s ev s' out) : L.Balanced (h ++ [⟨s, ev, out⟩]) s' := by
  rcases hm.executed_or_kept with ⟨a, c, rest, rfl, hq, hp, rfl⟩ | ⟨hev, hp, hout⟩
  · have hd := L.run_drained c a { s with commandBuffer := rest }
    have href : ∀ key, ∀ i ∈ L.content s.persistence key ++ (L.added key c).toList,
        L.reference i = key := by
      intro key i hi
      rcases List.mem_append.mp hi with hi | hi
      · exact hb.reference key i hi
      · exact L.added_reference (by simpa using hi)
    constructor
    · intro key
      have hadded : (executedCommands (h ++ [⟨s, .execute a,
          (run W c a { s with commandBuffer := rest }).2⟩])).filterMap (L.added key) =
          (executedCommands h).filterMap (L.added key) ++ (L.added key c).toList := by
        cases hc : L.added key c <;> simp [executedCommands, executedCommand, hq, hc]
      rw [hadded, hb.split, outputs_append, outputs_singleton, List.filterMap_append,
        DataService.removed_append, List.flatten_append, hp, List.append_assoc, List.append_assoc,
        ← hd.split key]
    · intro b hmem
      rw [outputs_append, outputs_singleton, List.filterMap_append] at hmem
      rcases List.mem_append.mp hmem with hmem | hmem
      · exact hb.batch b hmem
      · obtain ⟨hne, hlen, hitems⟩ := hd.batch b hmem
        exact ⟨hne, hlen, fun i hi => href _ i (hitems i hi)⟩
    · intro key i hi
      apply href key i
      rw [hp] at hi
      have hsplit := hd.split key
      simp only at hsplit
      rw [hsplit]
      exact List.mem_append_right _ hi
  · have hbatch : out.filterMap L.batch = [] := by
      rcases hout with rfl | rfl
      · rfl
      · simp [L.batch_sendFileList]
    have hcommand : executedCommand ⟨s, ev, out⟩ = none := by
      cases ev with
      | execute a => exact absurd rfl (hev a)
      | _ => rfl
    constructor
    · intro key
      simp [executedCommands, hcommand, hbatch, hp, ← hb.split key]
    · intro b hmem
      rw [outputs_append, outputs_singleton, List.filterMap_append, hbatch, List.append_nil] at hmem
      exact hb.batch b hmem
    · intro key i hi
      rw [hp] at hi
      exact hb.reference key i hi

theorem Ledger.balanced {ι : Type} (L : Ledger W ι) {C : Condition (Wolk σ) WolkEvent WolkOutput}
    (hrun : (wolkMachine W).Run C h s) : L.Balanced h s := by
  induction hrun with
  | start =>
    constructor
    · intro key
      exact (L.content_construct key).symm
    · intro b hb
      cases hb
    · intro key i hi
      change i ∈ L.content (construct W).persistence key at hi
      rw [L.content_construct] at hi
      cases hi
  | step _ _ hstep ih => exact ih.step (step_moves hstep)

/-- A step whose attempts for a key are all refused leaves what is queued. -/
theorem Ledger.prefix_of_refused {ι : Type} (L : Ledger W ι) (hm : Moves W s ev s' out)
    {key : String} (hrefused : ∀ b ∈ out.filterMap L.batch, b.key = key → b.attempt = .refused) :
    L.content s.persistence key <+: L.content s'.persistence key := by
  rcases hm.executed_or_kept with ⟨a, c, rest, rfl, -, hp, rfl⟩ | ⟨-, hp, -⟩
  · have hsplit := (L.run_drained c a { s with commandBuffer := rest }).split key
    have hnone : DataService.removed key
        ((run W c a { s with commandBuffer := rest }).2.filterMap L.batch) = [] := by
      rw [DataService.removed, List.map_eq_nil_iff, List.filter_eq_nil_iff]
      intro b hb
      simpa using hrefused b hb
    rw [hnone, List.flatten_nil, List.nil_append] at hsplit
    rw [hp, ← hsplit]
    exact List.prefix_append _ _
  · exact hp ▸ List.prefix_rfl

theorem put_eq {ι : Type} (q : Fifo ι) (key : String) (item : ι) :
    q.put key item = fun k => q k ++ if key = k then [item] else [] := by
  funext k
  by_cases hk : key = k
  · subst hk
    simp [Fifo.put]
  · simp [Fifo.put, hk, Function.update_of_ne (Ne.symm hk)]

theorem filterMap_map_none {α β γ : Type} {f : β → Option γ} {g : α → β} (h : ∀ x, f (g x) = none)
    (l : List α) : (l.map g).filterMap f = [] := by
  simp [List.filterMap_map, h]

variable (W) in
/-- The commands that neither add to a queue nor flush one. -/
theorem run_kept (c : WolkCommand) (a : Answers) (s : Wolk σ)
    (hr : ∀ key, addedReading key c = none) (ha : ∀ key, addedAlarm key c = none)
    (hp : c ≠ .publish) :
    (run W c a s).1.persistence.sensorReadings = s.persistence.sensorReadings ∧
      (run W c a s).1.persistence.alarms = s.persistence.alarms ∧
      (run W c a s).2.filterMap readingBatch = [] ∧ (run W c a s).2.filterMap alarmBatch = [] := by
  cases c with
  | addSensorReading reference value rtc => simpa [addedReading] using hr reference
  | addSensorReadings reference values rtc => simpa [addedReading] using hr reference
  | addAlarm reference active rtc => simpa [addedAlarm] using ha reference
  | publish => exact absurd rfl hp
  | publishActuatorStatus reference =>
    exact ⟨rfl, rfl, filterMap_map_none (fun _ => rfl) _, filterMap_map_none (fun _ => rfl) _⟩
  | publishConfiguration =>
    exact ⟨rfl, rfl, filterMap_map_none (fun _ => rfl) _, filterMap_map_none (fun _ => rfl) _⟩
  | tryConnect firstTime =>
    by_cases hc : a.connected
    · by_cases hf : W.firmwareUpdateService <;>
        simp [run, hc, notifyConnected, hf, readingBatch, alarmBatch]
    · simp [run, hc, readingBatch, alarmBatch]
  | handleActuation reference value => exact ⟨rfl, rfl, rfl, rfl⟩
  | handleConfiguration values => exact ⟨rfl, rfl, rfl, rfl⟩
  | disconnect connects => exact ⟨rfl, rfl, rfl, rfl⟩

theorem flush_readings (a : Answers) (s : Wolk σ) :
    DataService.Drained s.persistence.sensorReadings (s.flush W a).1.persistence.sensorReadings
      ((s.flush W a).2.filterMap readingBatch) := by
  have hd := DataService.publishForKeys_drained a.sensorReadingsKeys a.sensorReadingsAttempts
    s.persistence.sensorReadings
  rw [flush_eq]
  simpa [List.filterMap_append, List.filterMap_map, Function.comp_def, readingBatch] using hd

theorem flush_alarms (a : Answers) (s : Wolk σ) :
    DataService.Drained s.persistence.alarms (s.flush W a).1.persistence.alarms
      ((s.flush W a).2.filterMap alarmBatch) := by
  have hd := DataService.publishForKeys_drained a.alarmsKeys a.alarmsAttempts s.persistence.alarms
  rw [flush_eq]
  simpa [List.filterMap_append, List.filterMap_map, Function.comp_def, alarmBatch] using hd

theorem drained_of_eq {ι : Type} {q q' : Fifo ι} {log : List (Batch ι)}
    (hq : ∀ key, q key = q' key) (hlog : log = []) : DataService.Drained q q' log := by
  obtain rfl : q = q' := funext hq
  subst hlog
  exact .refl q

def readingsLedger (W : WolkConfig σ) : Ledger W SensorReading where
  content p := p.sensorReadings
  batch := readingBatch
  added := addedReading
  reference := SensorReading.reference
  content_construct _ := rfl
  batch_sendFileList := rfl
  added_reference {key c i} h := by
    cases c <;> simp only [addedReading, reduceCtorEq, Option.ite_none_right_eq_some,
      Option.some.injEq] at h <;> obtain ⟨rfl, rfl⟩ := h <;> rfl
  run_drained c a s := by
    have hkept := run_kept W c a s
    cases c with
    | addSensorReading reference value rtc =>
      apply drained_of_eq _ rfl
      intro key
      by_cases hk : reference = key <;>
        simp [run, DataService.addSensorReading, put_eq, addedReading, hk]
    | addSensorReadings reference values rtc =>
      apply drained_of_eq _ rfl
      intro key
      by_cases hk : reference = key <;>
        simp [run, DataService.addSensorReadings, put_eq, addedReading, hk]
    | addAlarm reference active rtc => exact drained_of_eq (fun _ => List.append_nil _) rfl
    | publish => simpa [addedReading, run] using flush_readings a s
    | _ =>
      obtain ⟨hq, -, hlog, -⟩ := hkept (fun _ => rfl) (fun _ => rfl) nofun
      rw [hq, hlog]
      exact drained_of_eq (fun _ => List.append_nil _) rfl

def alarmsLedger (W : WolkConfig σ) : Ledger W Alarm where
  content p := p.alarms
  batch := alarmBatch
  added := addedAlarm
  reference := Alarm.reference
  content_construct _ := rfl
  batch_sendFileList := rfl
  added_reference {key c i} h := by
    cases c <;> simp only [addedAlarm, reduceCtorEq, Option.ite_none_right_eq_some,
      Option.some.injEq] at h
    obtain ⟨rfl, rfl⟩ := h
    rfl
  run_drained c a s := by
    have hkept := run_kept W c a s
    cases c with
    | addAlarm reference active rtc =>
      apply drained_of_eq _ rfl
      intro key
      by_cases hk : reference = key <;> simp [run, DataService.addAlarm, put_eq, addedAlarm, hk]
    | addSensorReading reference value rtc => exact drained_of_eq (fun _ => List.append_nil _) rfl
    | addSensorReadings reference values rtc => exact drained_of_eq (fun _ => List.append_nil _) rfl
    | publish => simpa [addedAlarm, run] using flush_alarms a s
    | _ =>
      obtain ⟨-, hq, -, hlog⟩ := hkept (fun _ => rfl) (fun _ => rfl) nofun
      rw [hq, hlog]
      exact drained_of_eq (fun _ => List.append_nil _) rfl

end Wolk

open Wolk

variable {σ : Type} {W : WolkConfig σ} {h : WolkHistory σ} {s : Wolk σ}

/-- Along every run, for every reference: the readings that the executed commands added are
those of the removed batches followed by the persisted ones; every batch is cut from this
queue and has at most 50 items; and a step all of whose attempts for the reference are
refused removes nothing. The same for alarms. -/
theorem readings_and_alarms_conserved (hrun : (wolkMachine W).Run Free h s) (reference : String) :
    ((executedCommands h).filterMap (addedReading reference) =
        (DataService.removed reference ((outputs h).filterMap readingBatch)).flatten ++
          s.persistence.sensorReadings reference ∧
      (∀ b ∈ (outputs h).filterMap readingBatch, b.key = reference →
        b.items ≠ [] ∧ b.items.length ≤ 50 ∧ ∀ r ∈ b.items, r.reference = reference) ∧
      ∀ ev s' out, s.step W ev = some (s', out) →
        (∀ b ∈ out.filterMap readingBatch, b.key = reference → b.attempt = .refused) →
        s.persistence.sensorReadings reference <+: s'.persistence.sensorReadings reference) ∧
    ((executedCommands h).filterMap (addedAlarm reference) =
        (DataService.removed reference ((outputs h).filterMap alarmBatch)).flatten ++
          s.persistence.alarms reference ∧
      (∀ b ∈ (outputs h).filterMap alarmBatch, b.key = reference →
        b.items ≠ [] ∧ b.items.length ≤ 50 ∧ ∀ r ∈ b.items, r.reference = reference) ∧
      ∀ ev s' out, s.step W ev = some (s', out) →
        (∀ b ∈ out.filterMap alarmBatch, b.key = reference → b.attempt = .refused) →
        s.persistence.alarms reference <+: s'.persistence.alarms reference) := by
  constructor
  · have hb := (readingsLedger W).balanced hrun
    refine ⟨hb.split reference, ?_, ?_⟩
    · rintro b hmem rfl
      exact hb.batch b hmem
    · intro ev s' out hstep hrefused
      exact (readingsLedger W).prefix_of_refused (step_moves hstep) hrefused
  · have hb := (alarmsLedger W).balanced hrun
    refine ⟨hb.split reference, ?_, ?_⟩
    · rintro b hmem rfl
      exact hb.batch b hmem
    · intro ev s' out hstep hrefused
      exact (alarmsLedger W).prefix_of_refused (step_moves hstep) hrefused

/-- Two readings and an alarm are added, and of the flush that follows the alarm is refused. -/
def sampleAdds : List WolkEvent :=
  [.call (.addSensorReading "t" "20" 0) 7, .call (.addSensorReadings "t" ["1", "2"] 8) 7,
    .call (.addAlarm "a" true 9) 7, .call .publish 7, .execute sampleAnswers,
    .execute sampleAnswers, .execute sampleAnswers, .execute sampleAnswers]

theorem readings_and_alarms_conserved_sample : ∃ h s, (wolkMachine sampleConfig).Run Free h s ∧
    s.persistence.sensorReadings "t" = [] ∧ s.persistence.alarms "a" = [⟨true, "a", 9⟩] ∧
    ((executedCommands h).filterMap (addedReading "t") =
        [.value "20" "t" 7, .values ["1", "2"] "t" 8] ∧
      (executedCommands h).filterMap (addedReading "t") =
        (DataService.removed "t" ((outputs h).filterMap readingBatch)).flatten ++
          s.persistence.sensorReadings "t") ∧
    (executedCommands h).filterMap (addedAlarm "a") = [⟨true, "a", 9⟩] ∧
      (executedCommands h).filterMap (addedAlarm "a") =
        (DataService.removed "a" ((outputs h).filterMap alarmBatch)).flatten ++
          s.persistence.alarms "a" := by
  obtain ⟨h, s, hr, hp⟩ := (wolkMachine sampleConfig).exists_run_of_replay Free sampleAdds
    (fun h s => decide ((s.persistence.sensorReadings "t" = [] ∧
        s.persistence.alarms "a" = [⟨true, "a", 9⟩]) ∧
      (executedCommands h).filterMap (addedReading "t") =
        [.value "20" "t" 7, .values ["1", "2"] "t" 8] ∧
      (executedCommands h).filterMap (addedAlarm "a") = [⟨true, "a", 9⟩])) (by decide +kernel)
  obtain ⟨⟨hsent, hkept⟩, hreadings, halarms⟩ := of_decide_eq_true hp
  exact ⟨h, s, hr, hsent, hkept, ⟨hreadings, (readings_and_alarms_conserved hr "t").1.1⟩, halarms,
    (readings_and_alarms_conserved hr "a").2.1⟩

end WolkConnect
