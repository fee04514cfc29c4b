import WolkConnect.File.HonestSender
import Mathlib.Tactic.IntervalCases

/-! One download over a lossy link: every request is met by the sender's packet, by an
invalid packet or by the expiry of its timer, and by nothing else. -/
namespace WolkConnect
open Blocks

/-- What meets one request. -/
inductive Response (H : Host) where
  | answered
  | corrupted (b : H.BinaryData) (hb : H.valid b = false)
  | lost

def Response.isAnswered {H : Host} : Response H → Bool
  | .answered => true
  | _ => false

/-- The event of a response to the request; writing the file succeeds. -/
def Response.event {H : Host} {κ : Type} (file : ByteArray) (request : FilePacketRequest) :
    Response H → DownloaderEvent H κ
  | .answered => .command (.handleData (senderAnswer H file request)) true
  | .corrupted b _ => .command (.handleData b) true
  | .lost => .timerExpired

/-- A transfer so far: what the downloader did and which requests its taken packets met. -/
structure Exchange (κ : Type) where
  downloader : FileDownloader κ
  effects : List (Effect κ)
  accepted : List FilePacketRequest

def Effect.asksFor {κ : Type} (index : UInt32) : Effect κ → Bool
  | .packetProvider _ request => request.chunkIndex == index
  | _ => false

/-- Whether `FileHandler::handleData` takes the packet of the event. -/
def DownloaderEvent.taken {H : Host} {κ : Type} (d : FileDownloader κ) :
    DownloaderEvent H κ → Bool
  | .command (.handleData b) _ => decide ((d.fileHandler.handleData H b).1 = .ok)
  | _ => false

namespace Transfer

variable {κ : Type} (H : Host) (t : Transfer κ) (pattern : ℕ → ℕ → Response H)

/-- `download` was called and the first request is out. -/
def opened : Exchange κ :=
  let r := (FileDownloader.construct t.maxPacketSize).run H (t.command H) true
  ⟨r.1, r.2, []⟩

/-- Meet one request after another: `pattern i j` meets request `j` for index `i`. -/
def converse : ℕ → Exchange κ → Exchange κ
  | 0, x => x
  | fuel + 1, x =>
    match x.effects.getLast? with
    | some (.packetProvider _ request) =>
      let asked := x.effects.countP (Effect.asksFor request.chunkIndex)
      let event := (pattern request.chunkIndex.toNat (asked - 1)).event t.file request
      match (downloaderMachine H κ t.maxPacketSize).step x.downloader event with
      | none => x
      | some (d, out) =>
        converse fuel ⟨d, x.effects ++ out,
          x.accepted ++ if event.taken x.downloader then [request] else []⟩
    | _ => x

/-- One of the first three requests for the index is answered. -/
def Delivered (i : ℕ) : Prop := ∃ j < 3, (pattern i j).isAnswered = true

/-- The number of requests for an index. -/
def attempts (i : ℕ) : ℕ :=
  if (pattern i 0).isAnswered then 1 else if (pattern i 1).isAnswered then 2 else 3

/-- The requests for the first `n` indices. -/
def requestLog (n : ℕ) : List (Effect κ) :=
  (List.range n).flatMap fun i =>
    List.replicate (attempts H pattern i) (.packetProvider t.callbacks (t.request H i))

/-- The exchange when request `j + 1` for index `i` is out. -/
def asking (i j : ℕ) : Exchange κ :=
  ⟨t.waiting H i (UInt16.ofNat (j + 1)),
    t.requestLog H pattern i ++
      List.replicate (j + 1) (.packetProvider t.callbacks (t.request H i)),
    (List.range i).map (t.request H)⟩

variable {H t pattern}

theorem requestLog_succ (n : ℕ) : t.requestLog H pattern (n + 1) = t.requestLog H pattern n ++
    List.replicate (attempts H pattern n) (.packetProvider t.callbacks (t.request H n)) := by
  simp [requestLog, List.range_succ]

theorem requestLog_asksFor {i n : ℕ} (hi : i < t.lastCount H) (hn : n ≤ i) :
    (t.requestLog H pattern n).countP (Effect.asksFor (t.request H i).chunkIndex) = 0 := by
  induction n with
  | zero => rfl
  | succ n ih =>
    have hne : (t.request H n).chunkIndex ≠ (t.request H i).chunkIndex := by
      intro h
      have hnat := congrArg UInt32.toNat h
      rw [request_index hi, request_index (by omega)] at hnat
      omega
    rw [requestLog_succ, List.countP_append, ih (by omega), List.countP_replicate]
    simp [Effect.asksFor, hne]

theorem asking_asked {i : ℕ} (hi : i < t.lastCount H) (j : ℕ) :
    (t.asking H pattern i j).effects.countP (Effect.asksFor (t.request H i).chunkIndex) - 1 =
      j := by
  simp only [asking, List.countP_append, requestLog_asksFor hi le_rfl, List.countP_replicate]
  simp [Effect.asksFor]

theorem asking_last (i j : ℕ) : (t.asking H pattern i j).effects.getLast? =
    some (.packetProvider t.callbacks (t.request H i)) := by
  simp [asking, List.replicate_succ']

/-- One response to the request that is out. -/
theorem converse_asking {i : ℕ} (hi : i < t.lastCount H) (j fuel : ℕ)
    {r : FileDownloader κ × List (Effect κ)}
    (hr : (downloaderMachine H κ t.maxPacketSize).step (t.waiting H i (UInt16.ofNat (j + 1)))
      ((pattern i j).event t.file (t.request H i)) = some r) :
    t.converse H pattern (fuel + 1) (t.asking H pattern i j) =
      t.converse H pattern fuel ⟨r.1, (t.asking H pattern i j).effects ++ r.2,
        (List.range i).map (t.request H) ++
          if ((pattern i j).event t.file (t.request H i) : DownloaderEvent H κ).taken
            (t.waiting H i (UInt16.ofNat (j + 1))) then [t.request H i] else []⟩ := by
  rw [converse, asking_last]
  simp only [asking_asked hi, request_index hi]
  change (match (downloaderMachine H κ t.maxPacketSize).step
    (t.waiting H i (UInt16.ofNat (j + 1))) _ with | none => _ | some (d, out) => _) = _
  rw [hr]
  rfl

/-- An exchange that does not end in a request is over. -/
theorem converse_over {x : Exchange κ} {o : Effect κ} (hx : x.effects.getLast? = some o)
    (ho : ∀ k request, o ≠ .packetProvider k request) (fuel : ℕ) :
    t.converse H pattern fuel x = x := by
  cases fuel with
  | zero => rfl
  | succ fuel =>
    rw [converse, hx]
    cases o with
    | packetProvider k request => exact absurd rfl (ho k request)
    | _ => rfl

/-- The sender's packet is taken; it is not the last one. -/
theorem converse_answered {i : ℕ} (hi : i + 1 < t.lastCount H) (hd : t.chunk H i ≠ []) {j : ℕ}
    (hr : (pattern i j).isAnswered = true) (fuel : ℕ) (hj : attempts H pattern i = j + 1) :
    t.converse H pattern (fuel + 1) (t.asking H pattern i j) =
      t.converse H pattern fuel (t.asking H pattern (i + 1) 0) := by
  have hresponse : pattern i j = .answered := by
    cases h : pattern i j <;> simp_all [Response.isAnswered]
  have htaken : (t.waiting H i (UInt16.ofNat (j + 1))).fileHandler.handleData H
      (senderAnswer H t.file (t.request H i)) = (.ok, _) :=
    FileHandler.handleData_of_accepts ((handlerAt_accepts_iff (by omega) hd).mpr rfl)
  rw [converse_asking (by omega) j fuel (r := (t.waiting H (i + 1) 1,
    [.packetProvider t.callbacks (t.request H (i + 1))])) ?_]
  · simp only [hresponse, Response.event, DownloaderEvent.taken, htaken, decide_true, ↓reduceIte]
    congr 1
    simp only [asking, requestLog_succ, hj, List.range_succ, List.map_append, List.map_cons,
      List.map_nil, Nat.zero_add, List.replicate_one, List.append_assoc]
    rfl
  · rw [hresponse]
    exact congrArg some (waiting_next (by omega) hd hi rfl rfl _ _)

/-- An attempt that fails: the same chunk is asked for again. -/
theorem step_failed {i j : ℕ} (hr : (pattern i j).isAnswered = false) (attempt : UInt16) :
    (downloaderMachine H κ t.maxPacketSize).step (t.waiting H i attempt)
        ((pattern i j).event t.file (t.request H i)) =
      some (t.waiting H i attempt).stopTimer.packetFailed ∧
    ((pattern i j).event t.file (t.request H i) : DownloaderEvent H κ).taken
      (t.waiting H i attempt) = false := by
  cases h : pattern i j with
  | answered => simp [h, Response.isAnswered] at hr
  | lost => exact ⟨waiting_expired i attempt, rfl⟩
  | corrupted b hb =>
    have hn : ¬ (t.handlerAt H i).Accepts H b := by
      rintro ⟨hv, _⟩
      rw [hb] at hv
      cases hv
    refine ⟨congrArg some (waiting_refused hn attempt true), ?_⟩
    have hne : ((t.handlerAt H i).handleData H b).1 ≠ .ok :=
      fun ho => hn (FileHandler.handleData_ok_iff.mp ho)
    exact decide_eq_false hne

theorem converse_failed {i : ℕ} (hi : i < t.lastCount H) {j : ℕ} (hj : j < 2)
    (hr : (pattern i j).isAnswered = false) (fuel : ℕ) :
    t.converse H pattern (fuel + 1) (t.asking H pattern i j) =
      t.converse H pattern fuel (t.asking H pattern i (j + 1)) := by
  have hne : UInt16.ofNat (j + 1) ≠ FileDownloader.maxRetryCount := by
    interval_cases j <;> decide
  have hnext : UInt16.ofNat (j + 1) + 1 = UInt16.ofNat (j + 1 + 1) := by
    interval_cases j <;> rfl
  obtain ⟨hstep, htaken⟩ := t.step_failed hr (UInt16.ofNat (j + 1))
  rw [waiting_failed i hne, hnext] at hstep
  rw [converse_asking hi j fuel hstep, htaken]
  congr 1
  simp only [asking, List.append_assoc, Bool.false_eq_true, ↓reduceIte, List.append_nil]
  rw [← List.replicate_succ']

/-- The third failed attempt ends the download. -/
theorem converse_exceeded {i : ℕ} (hi : i < t.lastCount H) (hr : (pattern i 2).isAnswered = false)
    (hn : attempts H pattern i = 3) (fuel : ℕ) :
    t.converse H pattern (fuel + 1) (t.asking H pattern i 2) = ⟨.construct t.maxPacketSize,
      t.requestLog H pattern (i + 1) ++ [.onFail t.callbacks .retryCountExceeded],
      (List.range i).map (t.request H)⟩ := by
  obtain ⟨hstep, htaken⟩ := t.step_failed hr (UInt16.ofNat (2 + 1))
  rw [show UInt16.ofNat (2 + 1) = FileDownloader.maxRetryCount from rfl, waiting_exceeded] at hstep
  rw [converse_asking hi 2 fuel hstep, htaken, converse_over (o := .onFail t.callbacks
    .retryCountExceeded) (by simp) (by simp)]
  simp [asking, requestLog_succ, hn]

/-- The last packet completes the file: it is written and reported. -/
theorem converse_complete {i : ℕ} (hi : i + 1 = t.lastCount H) (hd : t.chunk H i ≠ []) {j : ℕ}
    (hr : (pattern i j).isAnswered = true) (hj : attempts H pattern i = j + 1)
    (hfile : t.file.take (t.lastCount H * payloadLength (t.packetSize H)) = t.file)
    (hhash : t.fileHash = H.hashSHA256 t.file) (fuel : ℕ) :
    t.converse H pattern (fuel + 1) (t.asking H pattern i j) = ⟨.construct t.maxPacketSize,
      t.requestLog H pattern (i + 1) ++
        [.createBinaryFileWithContent (H.composePath t.fileName t.directory) t.file true,
          .onSuccess t.callbacks (H.absolutePath (H.composePath t.fileName t.directory))],
      (List.range (i + 1)).map (t.request H)⟩ := by
  have hresponse : pattern i j = .answered := by
    cases h : pattern i j <;> simp_all [Response.isAnswered]
  have htaken : (t.waiting H i (UInt16.ofNat (j + 1))).fileHandler.handleData H
      (senderAnswer H t.file (t.request H i)) = (.ok, _) :=
    FileHandler.handleData_of_accepts ((handlerAt_accepts_iff (by omega) hd).mpr rfl)
  have hdata : (t.handlerAt H (i + 1)).currentPacketData = t.file := by
    rw [handlerAt_data, hi, hfile]
  have hcomplete : ((t.waiting H (i + 1) 0).stopTimer).downloadComplete H true =
      (.construct t.maxPacketSize,
        [.createBinaryFileWithContent (H.composePath t.fileName t.directory) t.file true,
          .onSuccess t.callbacks (H.absolutePath (H.composePath t.fileName t.directory))]) := by
    rcases ((t.waiting H (i + 1) 0).stopTimer).downloadComplete_cases (H := H) true with
      ⟨hne, _⟩ | ⟨_, hc, _⟩ | ⟨_, _, he⟩
    · refine absurd ?_ hne
      change t.fileHash = H.hashSHA256 (t.handlerAt H (i + 1)).currentPacketData
      rw [hdata, hhash]
    · cases hc
    · rw [he, FileDownloader.clear_eq_construct rfl]
      change (_, Effect.createBinaryFileWithContent _ (t.handlerAt H (i + 1)).currentPacketData _ ::
        _) = _
      rw [hdata]
      rfl
  rw [converse_asking (by omega) j fuel (r := (.construct t.maxPacketSize,
    [.createBinaryFileWithContent (H.composePath t.fileName t.directory) t.file true,
      .onSuccess t.callbacks (H.absolutePath (H.composePath t.fileName t.directory))])) ?_]
  · simp only [hresponse, Response.event, DownloaderEvent.taken, htaken, decide_true, ↓reduceIte]
    rw [converse_over (o := .onSuccess t.callbacks
      (H.absolutePath (H.composePath t.fileName t.directory))) (by simp) (by simp)]
    simp [asking, requestLog_succ, hj, List.range_succ]
  · rw [hresponse]
    refine congrArg some ?_
    change (t.waiting H i _).handleData H _ true = _
    rw [waiting_last (by omega) hd hi rfl, waiting_appended (by omega) hd rfl, hcomplete]

theorem attempts_pos (i : ℕ) : attempts H pattern i - 1 + 1 = attempts H pattern i := by
  unfold attempts
  split
  · rfl
  · split <;> rfl

theorem attempts_le (pattern : ℕ → ℕ → Response H) (i : ℕ) : attempts H pattern i ≤ 3 := by
  unfold attempts
  split
  · omega
  · split <;> omega

/-- The index is delivered exactly if its last request is answered. -/
theorem delivered_iff (i : ℕ) : Delivered H pattern i ↔
    (pattern i (attempts H pattern i - 1)).isAnswered = true := by
  have hj : ∀ j < 3, (pattern i j).isAnswered = true → (pattern i 0).isAnswered = true ∨
      (pattern i 1).isAnswered = true ∨ (pattern i 2).isAnswered = true := by
    intro j hj h
    interval_cases j <;> simp [h]
  unfold Delivered attempts
  constructor
  · rintro ⟨j, hlt, h⟩
    rcases hj j hlt h with h | h | h <;> split <;> simp_all
    split <;> simp_all
  · intro h
    split at h
    · exact ⟨0, by omega, h⟩
    · split at h
      · exact ⟨1, by omega, h⟩
      · exact ⟨2, by omega, h⟩

/-- All requests for an index but its last one fail. -/
theorem converse_attempts {i : ℕ} (hi : i < t.lastCount H) (fuel : ℕ) :
    t.converse H pattern (attempts H pattern i + fuel) (t.asking H pattern i 0) =
      t.converse H pattern (fuel + 1) (t.asking H pattern i (attempts H pattern i - 1)) := by
  unfold attempts
  split
  next => rw [Nat.add_comm]
  next h0 =>
    rw [Bool.not_eq_true] at h0
    split
    next => rw [show 2 + fuel = fuel + 1 + 1 by omega, converse_failed hi (by omega) h0]
    next h1 =>
      rw [Bool.not_eq_true] at h1
      rw [show 3 + fuel = fuel + 1 + 1 + 1 by omega, converse_failed hi (by omega) h0,
        converse_failed hi (by omega) h1]

/-- The requests spent on the first `n` indices. -/
def spent (pattern : ℕ → ℕ → Response H) (n : ℕ) : ℕ :=
  ((List.range n).map (attempts H pattern)).sum

theorem spent_succ (n : ℕ) : spent pattern (n + 1) = spent pattern n + attempts H pattern n := by
  simp [spent, List.range_succ]

theorem spent_le (pattern : ℕ → ℕ → Response H) (n : ℕ) : spent pattern n ≤ 3 * n := by
  induction n with
  | zero => simp [spent]
  | succ n ih =>
    have hle := attempts_le pattern n
    rw [spent_succ]
    omega

/-- As long as every index is delivered, the chunks are taken in order. -/
theorem converse_delivered {i : ℕ} (hi : i < t.lastCount H) (hhas : t.Has H i)
    (hd : ∀ m < i, Delivered H pattern m) (fuel : ℕ) :
    t.converse H pattern (spent pattern i + fuel) (t.opened H) =
      t.converse H pattern fuel (t.asking H pattern i 0) := by
  induction i generalizing fuel with
  | zero =>
    have hopened : t.opened H = t.asking H pattern 0 0 := by
      have hd := download_waiting (H := H) (t := t) (d := .construct t.maxPacketSize) rfl true
      simp only [opened, hd]
      rfl
    simp [spent, hopened]
  | succ i ih =>
    have hlast := (delivered_iff i).mp (hd i (Nat.lt_succ_self i))
    rw [spent_succ, Nat.add_assoc, ih (by omega) (fun m hm => hhas m (by omega))
      fun m hm => hd m (by omega), converse_attempts (by omega),
      converse_answered (by omega) (hhas i (Nat.lt_succ_self i)) hlast _ (attempts_pos i).symm]

/-- The number of packets for a file: its size over the payload, rounded up. -/
def packetsOf (maxPacketSize : UInt64) (file : ByteArray) : ℕ :=
  blockCount (payloadLength maxPacketSize) file.length

section Plan

variable {maxPacketSize : UInt64} {file : ByteArray}

theorem payloadLength_pos (hP : 65 ≤ maxPacketSize) : 0 < payloadLength maxPacketSize := by
  have hle : 65 ≤ maxPacketSize.toNat := UInt64.le_iff_toNat_le.mp hP
  have h64 : (2 * UInt64.ofNat sha256HashByteLength) ≤ maxPacketSize := by
    rw [UInt64.le_iff_toNat_le]
    exact (show 64 ≤ maxPacketSize.toNat by omega)
  rw [payloadLength, UInt64.toNat_sub_of_le _ _ h64]
  exact Nat.sub_pos_of_lt (show 64 < maxPacketSize.toNat by omega)

/-- Count and size of the packets agree with the length of the file, and each packet has data. -/
theorem ofFile_plan (H : Host) (fileName directory : String) (callbacks : κ) (hf : file ≠ [])
    (hP : 65 ≤ maxPacketSize) (hlen : file.length < 2 ^ 53)
    (hcount : packetsOf maxPacketSize file < 2 ^ 32) :
    (ofFile H maxPacketSize fileName directory callbacks file).lastCount H =
        packetsOf maxPacketSize file ∧
      file.take (packetsOf maxPacketSize file *
        payloadLength ((ofFile H maxPacketSize fileName directory callbacks file).packetSize H)) =
      file ∧
      (ofFile H maxPacketSize fileName directory callbacks file).Has H
        (packetsOf maxPacketSize file) := by
  have hpos := payloadLength_pos hP
  have hn : 0 < file.length := List.length_pos_iff.mpr hf
  have hsize : (UInt64.ofNat file.length).toNat = file.length := by
    rw [UInt64.toNat_ofNat']
    omega
  have hle : UInt64.ofNat file.length ≤ maxPacketSize - 2 * UInt64.ofNat sha256HashByteLength ↔
      file.length ≤ payloadLength maxPacketSize := by
    rw [UInt64.le_iff_toNat_le, hsize]
    rfl
  by_cases h : file.length ≤ payloadLength maxPacketSize
  · have hplan : FileDownloader.packetPlan H maxPacketSize (UInt64.ofNat file.length) =
        (1, UInt64.ofNat file.length + 2 * UInt64.ofNat sha256HashByteLength) :=
      if_pos (hle.mpr h)
    have hone : packetsOf maxPacketSize file = 1 := blockCount_eq_one hpos hn h
    have hpayload : payloadLength
        (UInt64.ofNat file.length + 2 * UInt64.ofNat sha256HashByteLength) = file.length := by
      simp only [payloadLength, UInt64.add_sub_cancel, hsize]
    rw [hone]
    refine ⟨?_, ?_, ?_⟩
    · simp [lastCount, packetCount, ofFile, hplan]
    · simp only [packetSize, ofFile, hplan, hpayload, one_mul]
      exact List.take_length
    · intro i hi
      simp only [chunk, packetSize, ofFile, hplan, hpayload]
      exact block_ne_nil hn (by rwa [blockCount_eq_one hn hn le_rfl])
  · have hzero : maxPacketSize - 2 * UInt64.ofNat sha256HashByteLength ≠ 0 := by
      intro hz
      rw [payloadLength, hz] at hpos
      exact absurd hpos (lt_irrefl _)
    have hplan : FileDownloader.packetPlan H maxPacketSize (UInt64.ofNat file.length) =
        (UInt32.ofNat (packetsOf maxPacketSize file), maxPacketSize) := by
      rw [← H.castUnsigned_of_lt _ hcount]
      unfold FileDownloader.packetPlan packetsOf blockCount
      simp only [hle, h, ↓reduceIte, hzero, hsize]
      rfl
    have hcountpos := blockCount_pos hpos hn
    have hnat : (UInt32.ofNat (packetsOf maxPacketSize file)).toNat =
        packetsOf maxPacketSize file := by
      rw [UInt32.toNat_ofNat']
      exact Nat.mod_eq_of_lt hcount
    have hne : UInt32.ofNat (packetsOf maxPacketSize file) ≠ 0 := by
      intro hz
      rw [hz] at hnat
      exact absurd hnat.symm (Nat.pos_iff_ne_zero.mp hcountpos)
    refine ⟨?_, ?_, ?_⟩
    · simp only [lastCount, packetCount, ofFile, hplan, hne, ↓reduceIte, hnat]
    · simp only [packetSize, ofFile, hplan]
      exact take_blockCount_mul hpos file
    · intro i hi
      simp only [chunk, packetSize, ofFile, hplan]
      exact block_ne_nil hpos hi

end Plan

/-- The first index that is not delivered ends the transfer after its third request. -/
theorem converse_undelivered {i fuel : ℕ} (hi : i < t.lastCount H)
    (hhas : t.Has H (t.lastCount H)) (hd : ∀ m < i, Delivered H pattern m)
    (hn : ¬ Delivered H pattern i)
    (hfuel : 3 * t.lastCount H ≤ fuel) :
    t.converse H pattern fuel (t.opened H) = ⟨.construct t.maxPacketSize,
      t.requestLog H pattern i ++
        List.replicate 3 (.packetProvider t.callbacks (t.request H i)) ++
        [.onFail t.callbacks .retryCountExceeded],
      (List.range i).map (t.request H)⟩ := by
  have hlast : (pattern i (attempts H pattern i - 1)).isAnswered = false := by
    simpa using mt (delivered_iff i).mpr hn
  have hthree : attempts H pattern i = 3 := by
    have hj : ∀ j < 3, (pattern i j).isAnswered = false := by
      intro j hj
      cases h : (pattern i j).isAnswered
      · rfl
      · exact absurd ⟨j, hj, h⟩ hn
    simp [attempts, hj]
  have hspent := spent_le pattern i
  obtain ⟨rest, rfl⟩ : ∃ rest, fuel = spent pattern i + (attempts H pattern i + rest) :=
    ⟨fuel - spent pattern i - 3, by omega⟩
  rw [converse_delivered hi (fun m hm => hhas m (by omega)) hd, converse_attempts hi]
  rw [hthree] at hlast ⊢
  rw [converse_exceeded hi hlast hthree, requestLog_succ, hthree]

/-- When every index is delivered the transfer ends with the file written. -/
theorem converse_all_delivered {fuel : ℕ} (hhas : t.Has H (t.lastCount H))
    (hd : ∀ m < t.lastCount H, Delivered H pattern m)
    (hfile : t.file.take (t.lastCount H * payloadLength (t.packetSize H)) = t.file)
    (hhash : t.fileHash = H.hashSHA256 t.file) (hfuel : 3 * t.lastCount H ≤ fuel) :
    t.converse H pattern fuel (t.opened H) = ⟨.construct t.maxPacketSize,
      t.requestLog H pattern (t.lastCount H) ++
        [.createBinaryFileWithContent (H.composePath t.fileName t.directory) t.file true,
          .onSuccess t.callbacks (H.absolutePath (H.composePath t.fileName t.directory))],
      (List.range (t.lastCount H)).map (t.request H)⟩ := by
  obtain ⟨i, hi⟩ : ∃ i, t.lastCount H = i + 1 :=
    Nat.exists_eq_succ_of_ne_zero (Nat.pos_iff_ne_zero.mp t.lastCount_pos)
  have hspent := spent_le pattern i
  have hatt := attempts_le pattern i
  obtain ⟨rest, rfl⟩ : ∃ rest, fuel = spent pattern i + (attempts H pattern i + rest) :=
    ⟨fuel - spent pattern i - attempts H pattern i, by omega⟩
  rw [converse_delivered (by omega) (fun m hm => hhas m (by omega)) fun m hm => hd m (by omega),
    converse_attempts (by omega),
    converse_complete hi.symm (hhas i (by omega)) ((delivered_iff i).mp (hd i (by omega)))
      (attempts_pos i).symm hfile hhash, hi]

end Transfer

variable {κ : Type}

/-- The exchange with an honest sender over a lossy link: it succeeds exactly if for every
index one of the first three requests is answered; then the file is written as it is and
its packets are taken in order. Otherwise it fails after three requests of the first index
that is not delivered. -/
theorem lossy_transfer (H : Host) (pattern : ℕ → ℕ → Response H) (maxPacketSize : UInt64)
    (fileName directory : String) (callbacks : κ) (file : ByteArray) (fuel : ℕ)
    (hf : file ≠ []) (hP : 65 ≤ maxPacketSize) (hlen : file.length < 2 ^ 53)
    (hcount : Transfer.packetsOf maxPacketSize file < 2 ^ 32)
    (hfuel : 3 * Transfer.packetsOf maxPacketSize file ≤ fuel) :
    let t := Transfer.ofFile H maxPacketSize fileName directory callbacks file
    let x := t.converse H pattern fuel (t.opened H)
    let n := Transfer.packetsOf maxPacketSize file
    ((∃ path, .onSuccess callbacks path ∈ x.effects) ↔ ∀ i < n, Transfer.Delivered H pattern i) ∧
    ((∀ i < n, Transfer.Delivered H pattern i) →
      x.effects = t.requestLog H pattern n ++
        [.createBinaryFileWithContent (H.composePath fileName directory) file true,
          .onSuccess callbacks (H.absolutePath (H.composePath fileName directory))] ∧
      x.accepted = (List.range n).map (t.request H)) ∧
    ∀ i < n, (∀ m < i, Transfer.Delivered H pattern m) → ¬ Transfer.Delivered H pattern i →
      x.effects = t.requestLog H pattern i ++
        List.replicate 3 (.packetProvider callbacks (t.request H i)) ++
        [.onFail callbacks .retryCountExceeded] ∧
      x.accepted = (List.range i).map (t.request H) := by
  intro t x n
  obtain ⟨hlast, hfile, hhas⟩ :=
    Transfer.ofFile_plan H fileName directory callbacks hf hP hlen hcount
  rw [← hlast] at hhas
  have hfile' : t.file.take (t.lastCount H * payloadLength (t.packetSize H)) = t.file := by
    rw [hlast]
    exact hfile
  have hfuel' : 3 * t.lastCount H ≤ fuel := by rwa [hlast]
  have hlt {m : ℕ} : m < t.lastCount H ↔ m < n := by rw [hlast]
  have hdone (hd : ∀ i < n, Transfer.Delivered H pattern i) : x = _ :=
    Transfer.converse_all_delivered hhas (fun m hm => hd m (hlt.mp hm)) hfile' rfl hfuel'
  have hfail {i : ℕ} (hi : i < n) (hd : ∀ m < i, Transfer.Delivered H pattern m)
      (hn : ¬ Transfer.Delivered H pattern i) : x = _ :=
    Transfer.converse_undelivered (hlt.mpr hi) hhas hd hn hfuel'
  rw [hlast] at hdone
  refine ⟨⟨?_, ?_⟩, ?_, ?_⟩
  · rintro ⟨path, hpath⟩ i
    induction i using Nat.strong_induction_on with
    | _ i ih =>
      intro hi
      by_contra hn
      rw [hfail hi (fun m hm => ih m hm (hm.trans hi)) hn] at hpath
      simp [Transfer.requestLog] at hpath
  · intro hd
    rw [hdone hd]
    refine ⟨H.absolutePath (H.composePath fileName directory), List.mem_append_right _ ?_⟩
    exact List.mem_cons_of_mem _ (List.mem_singleton.mpr rfl)
  · intro hd
    rw [hdone hd]
    exact ⟨rfl, rfl⟩
  · intro i hi hd hn
    rw [hfail hi hd hn]
    exact ⟨rfl, rfl⟩

/-- A file of two packets: the first request is lost, its repetition is answered, and the
second packet is corrupted once. -/
def samplePattern : ℕ → ℕ → Response sampleHost
  | 0, 0 => .lost
  | 1, 0 => .corrupted [] rfl
  | _, _ => .answered

theorem lossy_transfer_sample :
    let t := Transfer.ofFile sampleHost 65 "f" "/files" () [97, 98]
    (t.converse sampleHost samplePattern 6 (t.opened sampleHost)).accepted =
      [t.request sampleHost 0, t.request sampleHost 1] := by
  have hn : Transfer.packetsOf 65 [97, 98] = 2 := by decide +kernel
  have ht := (lossy_transfer sampleHost samplePattern 65 "f" "/files" () [97, 98] 6 (by decide)
    (by decide) (by decide) (by decide +kernel) (by decide +kernel)).2.1
  rw [hn] at ht
  refine (ht fun i hi => ⟨1, by omega, ?_⟩).2
  interval_cases i <;> rfl

end WolkConnect

