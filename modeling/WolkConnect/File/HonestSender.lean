import WolkConnect.File.FileDownloader
import WolkConnect.Chunk.Blocks

/-! An honest sender and one download from it: what answers a request, and the state of
the downloader after it has taken the first chunks in order. -/
namespace WolkConnect
open Blocks

/-- The data bytes of a packet of the given size. -/
def payloadLength (packetSize : UInt64) : ℕ :=
  (packetSize - 2 * UInt64.ofNat sha256HashByteLength).toNat

/-- The previous hash the sender puts in packet `i`. -/
def senderPreviousHash (H : Host) (file : ByteArray) (packetSize : UInt64) : ℕ → ByteArray
  | 0 => firstPreviousHash
  | i + 1 => H.hashSHA256 (block (payloadLength packetSize) file i)

/-- The data an honest sender of `file` has for a request; none past the end of the file. -/
def requestedData (file : ByteArray) (request : FilePacketRequest) : ByteArray :=
  block (payloadLength request.chunkSize) file request.chunkIndex.toNat

/-- The packet with which an honest sender of `file` answers a request. -/
def senderAnswer (H : Host) (file : ByteArray) (request : FilePacketRequest) : H.BinaryData :=
  H.packet (senderPreviousHash H file request.chunkSize request.chunkIndex.toNat)
    (requestedData file request)

theorem senderPreviousHash_length (H : Host) (file : ByteArray) (packetSize : UInt64) (i : ℕ) :
    (senderPreviousHash H file packetSize i).length = sha256HashByteLength := by
  cases i with
  | zero => rfl
  | succ i => exact H.hashSHA256_length _

/-- An honest packet is refused only for its previous hash. -/
theorem senderAnswer_accepts_iff {H : Host} {file : ByteArray} {request : FilePacketRequest}
    {f : FileHandler} (hd : requestedData file request ≠ []) :
    f.Accepts H (senderAnswer H file request) ↔
      senderPreviousHash H file request.chunkSize request.chunkIndex.toNat =
        f.expectedPreviousHash := by
  have hl := senderPreviousHash_length H file request.chunkSize request.chunkIndex.toNat
  unfold FileHandler.Accepts senderAnswer
  rw [H.packet_valid hl hd, H.packet_previousHash hl hd]
  exact and_iff_right rfl

/-- One call of `FileDownloader::download`, and the file the sender has. -/
structure Transfer (κ : Type) where
  maxPacketSize : UInt64
  fileName : String
  fileSize : UInt64
  fileHash : ByteArray
  directory : String
  callbacks : κ
  file : ByteArray

namespace Transfer

variable {κ : Type} (H : Host) (t : Transfer κ)

def packetCount : UInt32 := (FileDownloader.packetPlan H t.maxPacketSize t.fileSize).1

def packetSize : UInt64 := (FileDownloader.packetPlan H t.maxPacketSize t.fileSize).2

def command : Command H κ :=
  .download t.fileName t.fileSize t.fileHash t.directory t.callbacks

/-- `download` is called for the file the sender has: its size and its digest. -/
def ofFile (maxPacketSize : UInt64) (fileName directory : String) (callbacks : κ)
    (file : ByteArray) : Transfer κ :=
  ⟨maxPacketSize, fileName, UInt64.ofNat file.length, H.hashSHA256 file, directory, callbacks, file⟩

/-- The request for chunk `i`. -/
def request (i : ℕ) : FilePacketRequest := ⟨t.fileName, UInt32.ofNat i, t.packetSize H⟩

/-- Chunk `i` of the file, cut as requested. -/
def chunk (i : ℕ) : ByteArray := block (payloadLength (t.packetSize H)) t.file i

/-- The chunks before `k` are in the file. -/
def Has (k : ℕ) : Prop := ∀ i < k, t.chunk H i ≠ []

/-- The previous hash of chunk `i`. -/
def previousHash (i : ℕ) : ByteArray := senderPreviousHash H t.file (t.packetSize H) i

/-- The packets that end the download: the count, or all indices if the count is zero. -/
def lastCount : ℕ := if t.packetCount H = 0 then 2 ^ 32 else (t.packetCount H).toNat

/-- The file handler after the first `k` chunks. -/
def handlerAt : ℕ → FileHandler
  | 0 => .empty
  | k + 1 => ⟨t.file.take ((k + 1) * payloadLength (t.packetSize H)), H.hashSHA256 (t.chunk H k)⟩

/-- The downloader that has taken the first `k` chunks and waits for the next one, which
it has asked for `attempt` times. -/
def waiting (k : ℕ) (attempt : UInt16) : FileDownloader κ where
  maxPacketSize := t.maxPacketSize
  fileHandler := t.handlerAt H k
  timer := true
  currentFileName := t.fileName
  currentFileSize := t.fileSize
  currentPacketSize := t.packetSize H
  currentPacketCount := t.packetCount H
  currentPacketIndex := UInt32.ofNat k
  currentFileHash := t.fileHash
  currentDownloadDirectory := t.directory
  packetProvider := some t.callbacks
  currentOnSuccessCallback := some t.callbacks
  currentOnFailCallback := some t.callbacks
  retryCount := attempt

variable {H t}

theorem lastCount_le : t.lastCount H ≤ 2 ^ 32 := by
  unfold lastCount
  split
  · exact le_rfl
  · exact (t.packetCount H).toNat_lt.le

theorem lastCount_pos : 0 < t.lastCount H := by
  unfold lastCount
  split
  next => decide
  next h =>
    refine Nat.pos_of_ne_zero fun hz => h ?_
    exact UInt32.toNat_inj.mp hz

/-- The comparison of the index with the count, as numbers. -/
theorem index_eq_count_iff {k : ℕ} (hk : k < t.lastCount H) :
    UInt32.ofNat k + 1 = t.packetCount H ↔ k + 1 = t.lastCount H := by
  have hle := t.lastCount_le (H := H)
  have hlt := (t.packetCount H).toNat_lt
  have hnat : (UInt32.ofNat k + 1).toNat = (k + 1) % 2 ^ 32 := by
    simp [UInt32.toNat_add, UInt32.toNat_ofNat']
  rw [← UInt32.toNat_inj, hnat]
  unfold lastCount at *
  split at hk
  next h => simp only [h, ↓reduceIte, UInt32.toNat_zero] at *; omega
  next h =>
    have hne : (t.packetCount H).toNat ≠ 0 := fun hz => h (UInt32.toNat_inj.mp hz)
    simp only [h, ↓reduceIte] at *
    omega

theorem request_index {k : ℕ} (hk : k < t.lastCount H) :
    (t.request H k).chunkIndex.toNat = k := by
  have hle := t.lastCount_le (H := H)
  simp only [request, UInt32.toNat_ofNat']
  exact Nat.mod_eq_of_lt (by omega)

theorem handlerAt_data (k : ℕ) : (t.handlerAt H k).currentPacketData =
    t.file.take (k * payloadLength (t.packetSize H)) := by
  cases k <;> simp [handlerAt, FileHandler.empty]

theorem handlerAt_expected (k : ℕ) :
    (t.handlerAt H k).expectedPreviousHash = t.previousHash H k := by
  cases k with
  | zero => rfl
  | succ k => simp [handlerAt, FileHandler.expectedPreviousHash, H.hashSHA256_ne_nil, previousHash,
      senderPreviousHash, chunk]

theorem requestedData_request {i : ℕ} (hi : i < t.lastCount H) :
    requestedData t.file (t.request H i) = t.chunk H i := by
  rw [requestedData, request_index hi]
  rfl

/-- The sender's packet `i` is taken after `k` chunks if it looks like packet `k`. -/
theorem handlerAt_accepts_iff {i k : ℕ} (hi : i < t.lastCount H) (hd : t.chunk H i ≠ []) :
    (t.handlerAt H k).Accepts H (senderAnswer H t.file (t.request H i)) ↔
      t.previousHash H i = t.previousHash H k := by
  rw [senderAnswer_accepts_iff (requestedData_request hi ▸ hd), handlerAt_expected,
    request_index hi]
  rfl

theorem senderAnswer_data {i : ℕ} (hi : i < t.lastCount H) (hd : t.chunk H i ≠ []) :
    H.getData (senderAnswer H t.file (t.request H i)) = t.chunk H i := by
  rw [← requestedData_request hi] at hd ⊢
  exact H.packet_getData (senderPreviousHash_length H _ _ _) hd

theorem senderAnswer_hash {i : ℕ} (hi : i < t.lastCount H) (hd : t.chunk H i ≠ []) :
    H.getHash (senderAnswer H t.file (t.request H i)) = H.hashSHA256 (t.chunk H i) := by
  rw [← requestedData_request hi] at hd ⊢
  exact H.packet_getHash (senderPreviousHash_length H _ _ _) hd

/-- A packet with the data of chunk `k` moves the handler on. -/
theorem handlerAt_succ {i k : ℕ} (hi : i < t.lastCount H) (hd : t.chunk H i ≠ [])
    (hc : t.chunk H i = t.chunk H k) :
    (⟨(t.handlerAt H k).currentPacketData ++
        H.getData (senderAnswer H t.file (t.request H i)),
      H.getHash (senderAnswer H t.file (t.request H i))⟩ : FileHandler) =
      t.handlerAt H (k + 1) := by
  rw [handlerAt_data, senderAnswer_data hi hd, senderAnswer_hash hi hd, hc, handlerAt,
    take_succ_mul]
  rfl

theorem download_waiting {d : FileDownloader κ} (hd : d.maxPacketSize = t.maxPacketSize)
    (created : Bool) : d.run H (t.command H) created =
      (t.waiting H 0 1, [.packetProvider t.callbacks (t.request H 0)]) := by
  unfold command
  change d.download H _ _ _ _ _ = _
  rw [FileDownloader.download_eq_construct, hd]
  rfl

theorem waiting_appended {i k : ℕ} (hi : i < t.lastCount H) (hd : t.chunk H i ≠ [])
    (hc : t.chunk H i = t.chunk H k) (attempt : UInt16) :
    (t.waiting H k attempt).appended H (senderAnswer H t.file (t.request H i)) =
      (t.waiting H (k + 1) 0).stopTimer := by
  have hx : UInt32.ofNat k + 1 = UInt32.ofNat (k + 1) := by simp
  simp only [FileDownloader.appended, FileDownloader.stopTimer, waiting]
  rw [handlerAt_succ hi hd hc, hx]

/-- An accepted packet with the right data that is not the last one. -/
theorem waiting_next {i k : ℕ} (hi : i < t.lastCount H) (hd : t.chunk H i ≠ [])
    (hk : k + 1 < t.lastCount H) (ha : t.previousHash H i = t.previousHash H k)
    (hc : t.chunk H i = t.chunk H k) (attempt : UInt16) (created : Bool) :
    (t.waiting H k attempt).handleData H (senderAnswer H t.file (t.request H i)) created =
      (t.waiting H (k + 1) 1, [.packetProvider t.callbacks (t.request H (k + 1))]) := by
  have hx : UInt32.ofNat k + 1 = UInt32.ofNat (k + 1) := by simp
  have hl : UInt32.ofNat k + 1 ≠ t.packetCount H := by
    rw [Ne, index_eq_count_iff (by omega)]
    omega
  rw [FileDownloader.handleData_of_not_last ((handlerAt_accepts_iff hi hd).mpr ha) hl,
    waiting_appended hi hd hc, FileDownloader.requestPacket_some rfl]
  change (t.waiting H (k + 1) 1, [Effect.packetProvider t.callbacks
    ⟨t.fileName, UInt32.ofNat k + 1, t.packetSize H⟩]) = _
  rw [hx]
  rfl

/-- The last packet ends the download with the file handler it leaves. -/
theorem waiting_last {i k : ℕ} (hi : i < t.lastCount H) (hd : t.chunk H i ≠ [])
    (hk : k + 1 = t.lastCount H) (ha : t.previousHash H i = t.previousHash H k) (attempt : UInt16)
    (created : Bool) :
    (t.waiting H k attempt).handleData H (senderAnswer H t.file (t.request H i)) created =
      ((t.waiting H k attempt).appended H
        (senderAnswer H t.file (t.request H i))).downloadComplete H created :=
  FileDownloader.handleData_of_last ((handlerAt_accepts_iff hi hd).mpr ha)
    ((index_eq_count_iff (by omega)).mpr hk)

/-- A failed attempt that is not the third one: the chunk is asked for again. -/
theorem waiting_failed (k : ℕ) {attempt : UInt16} (h : attempt ≠ FileDownloader.maxRetryCount) :
    (t.waiting H k attempt).stopTimer.packetFailed =
      (t.waiting H k (attempt + 1), [.packetProvider t.callbacks (t.request H k)]) := by
  rw [FileDownloader.packetFailed_of_ne (d := (t.waiting H k attempt).stopTimer) h,
    FileDownloader.requestPacket_some rfl]
  rfl

theorem waiting_exceeded (k : ℕ) :
    (t.waiting H k FileDownloader.maxRetryCount).stopTimer.packetFailed =
    (.construct t.maxPacketSize, [.onFail t.callbacks .retryCountExceeded]) := by
  rw [FileDownloader.packetFailed_of_eq rfl, FileDownloader.clear_eq_construct rfl]
  rfl

/-- A refused packet fails the attempt. -/
theorem waiting_refused {k : ℕ} {b : H.BinaryData} (h : ¬ (t.handlerAt H k).Accepts H b)
    (attempt : UInt16) (created : Bool) : (t.waiting H k attempt).handleData H b created =
      (t.waiting H k attempt).stopTimer.packetFailed :=
  FileDownloader.handleData_of_not_accepts (d := t.waiting H k attempt) h

theorem waiting_expired (k : ℕ) (attempt : UInt16) : (t.waiting H k attempt).timerExpired =
    some (t.waiting H k attempt).stopTimer.packetFailed := rfl

end Transfer
end WolkConnect
