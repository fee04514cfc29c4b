import WolkConnect.File.Host

/-! `FileHandler`: the packet chain of one download, its check against the announced
hash and the write to disk. -/
namespace WolkConnect

inductive StatusCode where
  | ok
  | packageHashNotValid
  | previousPackageHashNotValid
  | fileHashNotValid
  | fileHandlingError
  deriving DecidableEq

structure FileHandler where
  currentPacketData : ByteArray
  previousPacketHash : ByteArray
  deriving DecidableEq

namespace FileHandler

/-- The constructor and `clear` leave both fields empty. -/
def empty : FileHandler := ⟨[], []⟩

def clear (_ : FileHandler) : FileHandler := empty

variable (H : Host)

def handleData (f : FileHandler) (binaryData : H.BinaryData) : StatusCode × FileHandler :=
  if ¬ H.valid binaryData then (.packageHashNotValid, f)
  else if f.previousPacketHash = [] ∧ ¬ H.validatePrevious binaryData then
    (.previousPackageHashNotValid, f)
  else if f.previousPacketHash ≠ [] ∧ ¬ H.validatePreviousHash binaryData f.previousPacketHash then
    (.previousPackageHashNotValid, f)
  else (.ok, ⟨f.currentPacketData ++ H.getData binaryData, H.getHash binaryData⟩)

def validateFile (f : FileHandler) (fileHash : ByteArray) : StatusCode :=
  if fileHash = H.hashSHA256 f.currentPacketData then .ok else .fileHashNotValid

/-- The path and content handed to `createBinaryFileWithContent`, and the status for
its answer `created`. -/
def saveFile (f : FileHandler) (fileName directory : String) (created : Bool) :
    StatusCode × String × ByteArray :=
  (if created then .ok else .fileHandlingError,
    H.composePath fileName directory, f.currentPacketData)

/-- The previous hash the next packet must carry. -/
def expectedPreviousHash (f : FileHandler) : ByteArray :=
  if f.previousPacketHash = [] then firstPreviousHash else f.previousPacketHash

/-- What `handleData` asks of a packet. -/
def Accepts (f : FileHandler) (binaryData : H.BinaryData) : Prop :=
  H.valid binaryData = true ∧ H.previousHash binaryData = f.expectedPreviousHash

instance (f : FileHandler) (binaryData : H.BinaryData) : Decidable (f.Accepts H binaryData) :=
  inferInstanceAs (Decidable (_ ∧ _))

variable {H} {f : FileHandler} {b : H.BinaryData}

theorem handleData_of_accepts (h : f.Accepts H b) :
    f.handleData H b = (.ok, ⟨f.currentPacketData ++ H.getData b, H.getHash b⟩) := by
  obtain ⟨hv, hp⟩ := h
  unfold expectedPreviousHash at hp
  by_cases he : f.previousPacketHash = []
  · have hz : H.validatePrevious b = true := (H.validatePrevious_iff b).mpr (by simpa [he] using hp)
    simp [handleData, hv, he, hz]
  · have hz : H.validatePreviousHash b f.previousPacketHash = true :=
      (H.validatePreviousHash_iff b _).mpr (by simpa [he] using hp)
    simp [handleData, hv, he, hz]

/-- A refused packet leaves both fields as they were. -/
theorem handleData_of_not_accepts (h : ¬ f.Accepts H b) :
    (f.handleData H b = (.packageHashNotValid, f)) ∨
      (f.handleData H b = (.previousPackageHashNotValid, f)) := by
  by_cases hv : H.valid b = true
  · right
    have hp : H.previousHash b ≠ f.expectedPreviousHash := fun hp => h ⟨hv, hp⟩
    unfold expectedPreviousHash at hp
    by_cases he : f.previousPacketHash = []
    · have hz : ¬ H.validatePrevious b = true := by
        rw [H.validatePrevious_iff]
        simpa [he] using hp
      simp [handleData, hv, he, hz]
    · have hz : ¬ H.validatePreviousHash b f.previousPacketHash = true := by
        rw [H.validatePreviousHash_iff]
        simpa [he] using hp
      simp [handleData, hv, he, hz]
  · left
    simp [handleData, hv]

theorem handleData_ok_iff : (f.handleData H b).1 = .ok ↔ f.Accepts H b := by
  constructor
  · intro h
    by_contra hn
    rcases handleData_of_not_accepts hn with he | he <;> simp [he] at h
  · intro h
    rw [handleData_of_accepts h]

theorem validateFile_ok_iff {fileHash : ByteArray} :
    f.validateFile H fileHash = .ok ↔ fileHash = H.hashSHA256 f.currentPacketData := by
  unfold validateFile
  split <;> simp_all

end FileHandler
end WolkConnect
