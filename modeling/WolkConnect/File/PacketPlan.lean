import WolkConnect.File.FileDownloader

/-! The arithmetic of the packet plan of `FileDownloader::download`. -/
namespace WolkConnect
namespace FileDownloader

/-- `m_maxPacketSize - 2 * SHA_256_HASH_BYTE_LENGTH`, modulo `2 ^ 64`. -/
def payload (maxPacketSize : UInt64) : UInt64 :=
  maxPacketSize - 2 * UInt64.ofNat sha256HashByteLength

/-- What a plan should satisfy: nothing wraps, is divided by zero or does not fit, the
request is no larger than allowed, and its packets hold the file and are all needed. -/
@[mk_iff] structure PlanSafe (H : Host) (maxPacketSize fileSize : UInt64) : Prop where
  difference : 2 * sha256HashByteLength ≤ maxPacketSize.toNat
  sum : fileSize ≤ payload maxPacketSize →
    fileSize.toNat + 2 * sha256HashByteLength < UInt64.size
  divisor : ¬ fileSize ≤ payload maxPacketSize → payload maxPacketSize ≠ 0
  quotient : ¬ fileSize ≤ payload maxPacketSize →
    ⌈(fileSize.toNat : ℚ) / ((payload maxPacketSize).toNat : ℚ)⌉₊ < UInt32.size
  requested : (packetPlan H maxPacketSize fileSize).2 ≤ maxPacketSize
  covers : let count : ℤ := (packetPlan H maxPacketSize fileSize).1.toNat
    let data : ℤ := (packetPlan H maxPacketSize fileSize).2.toNat - 2 * sha256HashByteLength
    (count - 1) * data < fileSize.toNat ∧ (fileSize.toNat : ℤ) ≤ count * data

instance (H : Host) (maxPacketSize fileSize : UInt64) :
    Decidable (PlanSafe H maxPacketSize fileSize) :=
  decidable_of_iff' _ (planSafe_iff H maxPacketSize fileSize)

variable {H : Host} {maxPacketSize fileSize : UInt64}

theorem payload_toNat (h : 2 * sha256HashByteLength ≤ maxPacketSize.toNat) :
    (payload maxPacketSize).toNat = maxPacketSize.toNat - 2 * sha256HashByteLength :=
  UInt64.toNat_sub_of_le _ _ (UInt64.le_iff_toNat_le.mpr h)

theorem packetPlan_of_le (h : fileSize ≤ payload maxPacketSize) :
    packetPlan H maxPacketSize fileSize =
      (1, fileSize + 2 * UInt64.ofNat sha256HashByteLength) := if_pos h

theorem packetPlan_of_not_le (h : ¬ fileSize ≤ payload maxPacketSize)
    (hpos : payload maxPacketSize ≠ 0)
    (hcount : ⌈(fileSize.toNat : ℚ) / ((payload maxPacketSize).toNat : ℚ)⌉₊ < UInt32.size) :
    packetPlan H maxPacketSize fileSize =
      (UInt32.ofNat ⌈(fileSize.toNat : ℚ) / ((payload maxPacketSize).toNat : ℚ)⌉₊,
        maxPacketSize) := by
  have hplan : packetPlan H maxPacketSize fileSize =
      (H.castUnsigned (if payload maxPacketSize = 0 then none else
        some ⌈(fileSize.toNat : ℚ) / ((payload maxPacketSize).toNat : ℚ)⌉₊), maxPacketSize) :=
    if_neg h
  rw [hplan, if_neg hpos, H.castUnsigned_of_lt _ hcount]

theorem ceil_div_le_iff {a b : ℕ} (hb : 0 < b) (n : ℕ) :
    ⌈(a : ℚ) / (b : ℚ)⌉₊ ≤ n ↔ a ≤ n * b := by
  rw [Nat.ceil_le, div_le_iff₀ (by exact_mod_cast hb)]
  exact_mod_cast Iff.rfl

/-- Full packets: one less would not hold the file. -/
theorem ceil_div_covers {a b : ℕ} (ha : 0 < a) (hb : 0 < b) :
    ((⌈(a : ℚ) / (b : ℚ)⌉₊ : ℤ) - 1) * b < a ∧ (a : ℤ) ≤ ⌈(a : ℚ) / (b : ℚ)⌉₊ * b := by
  set n := ⌈(a : ℚ) / (b : ℚ)⌉₊ with hn
  have hle : a ≤ n * b := (ceil_div_le_iff hb n).mp le_rfl
  have hpos : 0 < n := by
    rcases Nat.eq_zero_or_pos n with h | h
    · rw [h] at hle
      omega
    · exact h
  have hlt : ¬ a ≤ (n - 1) * b := fun h => by
    have := (ceil_div_le_iff hb (n - 1)).mpr h
    omega
  constructor
  · rw [not_le] at hlt
    zify [hpos] at hlt
    exact hlt
  · exact_mod_cast hle

theorem packetPlan_safe (hsize : 0 < fileSize)
    (hpacket : 2 * sha256HashByteLength < maxPacketSize.toNat)
    (hfile : fileSize.toNat ≤
      (UInt32.size - 1) * (maxPacketSize.toNat - 2 * sha256HashByteLength)) :
    PlanSafe H maxPacketSize fileSize := by
  have hpayload := payload_toNat hpacket.le
  have hpos : 0 < (payload maxPacketSize).toNat := by omega
  have hne : payload maxPacketSize ≠ 0 := by
    rintro h
    simp [h] at hpos
  have hcount : ⌈(fileSize.toNat : ℚ) / ((payload maxPacketSize).toNat : ℚ)⌉₊ < UInt32.size :=
    Nat.lt_of_le_pred (by decide) ((ceil_div_le_iff hpos _).mpr (hpayload ▸ hfile))
  have hbound : maxPacketSize.toNat < 2 ^ 64 := maxPacketSize.toNat_lt
  have hsize : 0 < fileSize.toNat := hsize
  by_cases hle : fileSize ≤ payload maxPacketSize
  · have hfits : fileSize.toNat ≤ (payload maxPacketSize).toNat := hle
    have hsum : (fileSize + 2 * UInt64.ofNat sha256HashByteLength).toNat =
        fileSize.toNat + 2 * sha256HashByteLength := by
      rw [UInt64.toNat_add]
      apply Nat.mod_eq_of_lt
      have hsmall : (2 * UInt64.ofNat sha256HashByteLength).toNat = 2 * sha256HashByteLength := rfl
      rw [hsmall]
      omega
    constructor
    · exact hpacket.le
    · intro
      change _ < 2 ^ 64
      omega
    · exact fun h => absurd hle h
    · exact fun h => absurd hle h
    · rw [packetPlan_of_le hle, UInt64.le_iff_toNat_le, hsum]
      omega
    · rw [packetPlan_of_le hle, hsum]
      constructor
      · simpa using hsize
      · simp
  · have hplan := packetPlan_of_not_le (H := H) hle hne hcount
    set n := ⌈(fileSize.toNat : ℚ) / ((payload maxPacketSize).toNat : ℚ)⌉₊ with hn
    have hcast : (UInt32.ofNat n).toNat = n := UInt32.toNat_ofNat_of_lt hcount
    constructor
    · exact hpacket.le
    · exact fun h => absurd h hle
    · exact fun _ => hne
    · exact fun _ => hcount
    · rw [hplan]
      exact UInt64.le_refl _
    · rw [hplan, hcast]
      have hdata : (maxPacketSize.toNat : ℤ) - 2 * sha256HashByteLength =
          (payload maxPacketSize).toNat := by omega
      rw [hdata]
      exact ceil_div_covers hsize hpos

/-- The plan is safe exactly when a packet can hold more than its two hashes and the file
does not need `2 ^ 32` packets or more. -/
theorem packetPlan_safe_iff (hsize : 0 < fileSize) :
    PlanSafe H maxPacketSize fileSize ↔ 2 * sha256HashByteLength < maxPacketSize.toNat ∧
      fileSize.toNat ≤ (UInt32.size - 1) * (maxPacketSize.toNat - 2 * sha256HashByteLength) := by
  constructor
  · intro h
    have hpayload := payload_toNat h.difference
    have hne : payload maxPacketSize ≠ 0 := by
      intro hzero
      have hnot : ¬ fileSize ≤ payload maxPacketSize := by
        rw [hzero]
        exact UInt64.not_le.mpr hsize
      exact h.divisor hnot hzero
    have hpos : 0 < (payload maxPacketSize).toNat := by
      apply Nat.pos_of_ne_zero
      intro hzero
      exact hne (UInt64.toNat_inj.mp hzero)
    refine ⟨by omega, ?_⟩
    rw [← hpayload]
    by_cases hle : fileSize ≤ payload maxPacketSize
    · have hfits : fileSize.toNat ≤ (payload maxPacketSize).toNat := hle
      have hone : 1 ≤ UInt32.size - 1 := by decide
      nlinarith
    · exact (ceil_div_le_iff hpos _).mp (Nat.le_pred_of_lt (h.quotient hle))
  · rintro ⟨hpacket, hfile⟩
    exact packetPlan_safe hsize hpacket hfile

theorem packetPlan_safe_iff_sample : PlanSafe sampleHost 66 5 :=
  (packetPlan_safe_iff (by decide)).mpr (by decide)

/-- With packets of 64 bytes the plan of a one-byte file divides by zero. -/
theorem packetPlan_not_safe : ¬ ∀ maxPacketSize fileSize, 0 < maxPacketSize → 0 < fileSize →
    PlanSafe sampleHost maxPacketSize fileSize := by
  intro h
  exact (h 64 1 (by decide) (by decide)).divisor (by decide) (by decide)

end FileDownloader
end WolkConnect
