import Mathlib.Data.List.Basic

/-! What the file transfer takes from outside of the repository: the message types and
utilities of the SDK, and the one conversion whose result the language leaves open. -/
namespace WolkConnect

abbrev ByteArray := List UInt8

/-- `ByteUtils::SHA_256_HASH_BYTE_LENGTH`. -/
def sha256HashByteLength : ℕ := 32

/-- The previous hash of a first packet: 32 zero bytes. -/
def firstPreviousHash : ByteArray := List.replicate sha256HashByteLength 0

structure FilePacketRequest where
  fileName : String
  chunkIndex : UInt32
  chunkSize : UInt64
  deriving DecidableEq

/-- The error codes the file transfer sends. -/
inductive FileTransferError where
  | unspecifiedError
  | transferProtocolDisabled
  | fileHashMismatch
  | fileSystemError
  | retryCountExceeded
  deriving DecidableEq

inductive FileTransferStatus where
  | fileTransfer
  | aborted
  | fileReady
  deriving DecidableEq

/-- `FileUploadStatus` has one constructor for a status and one for an error. -/
inductive FileUploadStatus where
  | status (fileName : String) (status : FileTransferStatus)
  | error (fileName : String) (error : FileTransferError)
  deriving DecidableEq

structure FileInfo where
  name : String
  hash : String
  path : String
  deriving DecidableEq

/-- The utilities the sources call but do not define, with what they rely on.
`previousHash` is the field of a packet that `validatePrevious` compares. -/
structure Host where
  BinaryData : Type
  ofBytes : ByteArray → BinaryData
  getData : BinaryData → ByteArray
  getHash : BinaryData → ByteArray
  previousHash : BinaryData → ByteArray
  valid : BinaryData → Bool
  validatePrevious : BinaryData → Bool
  validatePreviousHash : BinaryData → ByteArray → Bool
  hashSHA256 : ByteArray → ByteArray
  /-- `ByteUtils::toByteArray(StringUtils::base64Decode(..))` -/
  base64Decode : String → ByteArray
  composePath : String → String → String
  absolutePath : String → String
  /-- Whether the protocol makes a message for a status or for a packet request. -/
  makesStatus : String → FileUploadStatus → Bool
  makesRequest : String → FilePacketRequest → Bool
  /-- `static_cast<unsigned>` of a rounded-up double; `none` stands for infinity. -/
  castUnsigned : Option ℕ → UInt32
  hashSHA256_length : ∀ bytes, (hashSHA256 bytes).length = sha256HashByteLength
  valid_iff : ∀ b, valid b = true ↔ getHash b = hashSHA256 (getData b)
  validatePrevious_iff : ∀ b, validatePrevious b = true ↔ previousHash b = firstPreviousHash
  validatePreviousHash_iff : ∀ b hash, validatePreviousHash b hash = true ↔ previousHash b = hash
  /-- The layout of a packet: previous hash, data, hash. Bytes without data are no packet. -/
  ofBytes_layout : ∀ previous data hash, previous.length = sha256HashByteLength →
    hash.length = sha256HashByteLength → data ≠ [] →
    previousHash (ofBytes (previous ++ data ++ hash)) = previous ∧
      getData (ofBytes (previous ++ data ++ hash)) = data ∧
      getHash (ofBytes (previous ++ data ++ hash)) = hash
  castUnsigned_of_lt : ∀ n, n < UInt32.size → castUnsigned (some n) = UInt32.ofNat n

namespace Host

variable (H : Host)

theorem hashSHA256_ne_nil (bytes : ByteArray) : H.hashSHA256 bytes ≠ [] := by
  intro h
  have hl := H.hashSHA256_length bytes
  simp [h, sha256HashByteLength] at hl

/-- The packet a sender makes of a chunk of data and the previous hash. -/
def packet (previous data : ByteArray) : H.BinaryData :=
  H.ofBytes (previous ++ data ++ H.hashSHA256 data)

variable {previous data : ByteArray} (h : previous.length = sha256HashByteLength) (hd : data ≠ [])
include h hd

theorem packet_previousHash : H.previousHash (H.packet previous data) = previous :=
  (H.ofBytes_layout previous data _ h (H.hashSHA256_length data) hd).1

theorem packet_getData : H.getData (H.packet previous data) = data :=
  (H.ofBytes_layout previous data _ h (H.hashSHA256_length data) hd).2.1

theorem packet_getHash : H.getHash (H.packet previous data) = H.hashSHA256 data :=
  (H.ofBytes_layout previous data _ h (H.hashSHA256_length data) hd).2.2

theorem packet_valid : H.valid (H.packet previous data) = true := by
  rw [H.valid_iff, H.packet_getData h hd, H.packet_getHash h hd]

end Host

/-- Pad or cut to the length of a SHA-256 digest. -/
def toDigest (bytes : ByteArray) : ByteArray :=
  bytes.take sha256HashByteLength ++
    List.replicate (sha256HashByteLength - (bytes.take sha256HashByteLength).length) 0

theorem toDigest_length (bytes : ByteArray) : (toDigest bytes).length = sha256HashByteLength := by
  simp only [toDigest, List.length_append, List.length_take, List.length_replicate]
  omega

/-- The SHA-256 digests of the one-letter files `a` and `b` and of the file `ab`. -/
def sampleDigest : ByteArray → ByteArray
  | [97] => [202, 151, 129, 18, 202, 27, 189, 202, 250, 194, 49, 179, 154, 35, 220, 77,
      167, 134, 239, 248, 20, 124, 78, 114, 185, 128, 119, 133, 175, 238, 72, 187]
  | [98] => [62, 35, 232, 22, 0, 57, 89, 74, 51, 137, 79, 101, 100, 225, 177, 52,
      139, 189, 122, 0, 136, 212, 44, 74, 203, 115, 238, 174, 213, 156, 0, 157]
  | [97, 98] => [251, 142, 32, 252, 46, 76, 63, 36, 140, 96, 195, 155, 214, 82, 243, 193,
      52, 114, 152, 187, 151, 123, 139, 77, 89, 3, 184, 80, 85, 98, 6, 3]
  | bytes => bytes

/-- A host whose packets are raw bytes. Its digests are those of SHA-256 on the sample
files, and its base64 strings those of the sample digests. -/
def sampleHost : Host where
  BinaryData := ByteArray
  ofBytes bytes := bytes
  getData b := (b.drop sha256HashByteLength).take (b.length - 2 * sha256HashByteLength)
  getHash b := b.drop (b.length - sha256HashByteLength)
  previousHash b := b.take sha256HashByteLength
  valid b := decide (b.drop (b.length - sha256HashByteLength) = toDigest (sampleDigest
    ((b.drop sha256HashByteLength).take (b.length - 2 * sha256HashByteLength))))
  validatePrevious b := decide (b.take sha256HashByteLength = firstPreviousHash)
  validatePreviousHash b hash := decide (b.take sha256HashByteLength = hash)
  hashSHA256 bytes := toDigest (sampleDigest bytes)
  base64Decode
    | "ypeBEsobvcr6wjGzmiPcTaeG7/gUfE5yuYB3ha/uSLs=" => sampleDigest [97]
    | "PiPoFgA5WUoziU9lZOGxNIu9egCI1CxKy3PurtWcAJ0=" => sampleDigest [98]
    | _ => []
  composePath fileName directory := directory ++ "/" ++ fileName
  absolutePath path := path
  makesStatus _ _ := true
  makesRequest _ _ := true
  castUnsigned count := UInt32.ofNat (count.getD 0)
  hashSHA256_length _ := toDigest_length _
  valid_iff _ := decide_eq_true_iff
  validatePrevious_iff _ := decide_eq_true_iff
  validatePreviousHash_iff _ _ := decide_eq_true_iff
  ofBytes_layout previous data hash hp hh _ := by
    refine ⟨?_, ?_, ?_⟩
    · rw [List.append_assoc, List.take_left' hp]
    · rw [List.append_assoc, List.drop_left' hp, List.take_left']
      simp only [List.length_append, hp, hh]
      omega
    · apply List.drop_left'
      simp only [List.length_append, hh]
      omega
  castUnsigned_of_lt _ _ := rfl

instance : DecidableEq sampleHost.BinaryData := inferInstanceAs (DecidableEq ByteArray)

end WolkConnect
