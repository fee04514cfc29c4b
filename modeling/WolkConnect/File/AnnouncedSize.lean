import WolkConnect.File.DownloaderLife
import WolkConnect.File.DownloaderEffects
import WolkConnect.File.PacketPlan

/-! How many bytes a download buffers and saves, against the size that was announced for it. -/
namespace WolkConnect
open Transition Transition.Machine

variable {κ : Type} {H : Host} {maxPacketSize : UInt64}

/-- The announced size of the download in progress, if there is one. -/
def announcedSize (h : DownloaderHistory H κ) : Option UInt64 :=
  h.foldl (fun size m => match m.event with
    | .command (.download _ fileSize _ _ _) _ => some fileSize
    | .command .abort _ => none
    | _ => if m.output.any Effect.isOutcome then none else size) none

theorem announcedSize_append (h : DownloaderHistory H κ)
    (m : Moment (FileDownloader κ) (DownloaderEvent H κ) (Effect κ)) :
    announcedSize (h ++ [m]) = match m.event with
      | .command (.download _ fileSize _ _ _) _ => some fileSize
      | .command .abort _ => none
      | _ => if m.output.any Effect.isOutcome then none else announcedSize h := by
  simp [announcedSize, List.foldl_append]

theorem announcedSize_continues {h : DownloaderHistory H κ} {s : FileDownloader κ}
    {ev : DownloaderEvent H κ} {out : List (Effect κ)} (hev : FileDownloader.continues ev = true) :
    announcedSize (h ++ [⟨s, ev, out⟩]) =
      if out.any Effect.isOutcome then none else announcedSize h := by
  rw [announcedSize_append]
  unfold FileDownloader.continues at hev
  split at hev
  · rfl
  · rfl
  · cases hev

open FileDownloader

variable {C : Condition (FileDownloader κ) (DownloaderEvent H κ) (Effect κ)}
  {h : DownloaderHistory H κ} {s : FileDownloader κ}

/-- No download is in progress, or one is and `P` holds of its size and the downloader. -/
def InProgress (P : UInt64 → FileDownloader κ → Prop) (h : DownloaderHistory H κ)
    (s : FileDownloader κ) : Prop :=
  (announcedSize h = none ∧ s.Idle) ∨
    ∃ size callbacks, announcedSize h = some size ∧ s.Live callbacks ∧ P size s

/-- What `download` establishes and every request and every packet that is not the last one
keeps holds of each download as long as it is in progress. -/
theorem inProgress_of_run (P : UInt64 → FileDownloader κ → Prop)
    (hdownload : ∀ h d fileName fileSize fileHash directory callbacks created,
      (downloaderMachine H κ maxPacketSize).Run C h d →
      C h d (.command (.download fileName fileSize fileHash directory callbacks) created) →
        P fileSize (d.download H fileName fileSize fileHash directory callbacks).1)
    (hrequested : ∀ size d, P size d → P size d.requested)
    (happended : ∀ h d size b created, announcedSize h = some size → P size d →
      C h d (.command (.handleData b) created) → d.fileHandler.Accepts H b →
        d.currentPacketIndex + 1 ≠ d.currentPacketCount → P size (d.appended H b))
    (hrun : (downloaderMachine H κ maxPacketSize).Run C h s) : InProgress P h s := by
  induction hrun with
  | start =>
    left
    exact ⟨rfl, (cleared_construct maxPacketSize).idle⟩
  | @step h s s' ev out hr hC hstep ih =>
    have hlife : (∃ callbacks, s.Live callbacks) ∨ s.Idle :=
      ih.symm.imp (fun ⟨_, callbacks, _, hl, _⟩ => ⟨callbacks, hl⟩) And.right
    have hnone (hi : s.Idle) : announcedSize h = none := by
      rcases ih with ⟨hnone, _⟩ | ⟨_, _, _, hl, _⟩
      · exact hnone
      · exact absurd hi hl.not_idle
    have hsome {callbacks : κ} (hl : s.Live callbacks) :
        ∃ size, announcedSize h = some size ∧ P size s := by
      rcases ih with ⟨_, hi⟩ | ⟨size, _, hsize, _, hP⟩
      · exact absurd hi hl.not_idle
      · exact ⟨size, hsize, hP⟩
    cases lifeMoves_of_step hlife hstep with
    | downloaded fileName fileSize fileHash directory callbacks created =>
      right
      exact ⟨fileSize, callbacks, by rw [announcedSize_append], download_live _ _ _ _ _,
        hdownload h s _ _ _ _ _ created hr hC⟩
    | aborted created d' hc =>
      left
      exact ⟨by rw [announcedSize_append], hc.idle⟩
    | ended ev d' out callbacks hl hev hc hout =>
      left
      exact ⟨by rw [announcedSize_continues hev, if_pos hout], hc.idle⟩
    | repeated ev callbacks hl hev hl' =>
      right
      obtain ⟨size, hsize, hP⟩ := hsome hl
      exact ⟨size, callbacks, by rw [announcedSize_continues hev, hsize]; rfl, hl',
        hrequested size s hP⟩
    | appended b created callbacks hl ha hlast hl' =>
      right
      obtain ⟨size, hsize, hP⟩ := hsome hl
      exact ⟨size, callbacks, by rw [announcedSize_continues rfl, hsize]; rfl, hl',
        hrequested size _ (happended h s size b created hsize hP hC ha hlast)⟩
    | wiped b created d' hi hc =>
      left
      exact ⟨by rw [announcedSize_continues rfl, hnone hi]; rfl, hc.idle⟩
    | threw b created d' hi hi' =>
      left
      exact ⟨by rw [announcedSize_continues rfl, hnone hi]; rfl, hi'⟩

/-- The buffer with the data of one more packet. -/
def contentWith (d : FileDownloader κ) (b : H.BinaryData) : ByteArray :=
  d.fileHandler.currentPacketData ++ H.getData b

/-- If the packet is accepted, it brings no more than what is missing of the size, and exactly
that when it is the last one and the file gets the announced hash. -/
def Fits (H : Host) (size : UInt64) (d : FileDownloader κ) (b : H.BinaryData) : Prop :=
  d.fileHandler.Accepts H b →
    (contentWith d b).length ≤ size.toNat ∧
      (d.currentPacketIndex + 1 = d.currentPacketCount →
        d.currentFileHash = H.hashSHA256 (contentWith d b) →
          (contentWith d b).length = size.toNat)

instance (size : UInt64) (d : FileDownloader κ) (b : H.BinaryData) : Decidable (Fits H size d b) :=
  inferInstanceAs (Decidable (_ → _ ∧ (_ → _ → _)))

/-- Every packet that is accepted during a download fits. -/
def PacketsFit : Condition (FileDownloader κ) (DownloaderEvent H κ) (Effect κ) :=
  fun h d ev =>
    match ev with
    | .command (.handleData b) _ => ∀ size ∈ announcedSize h, Fits H size d b
    | _ => True

instance (h : DownloaderHistory H κ) (d : FileDownloader κ) (ev : DownloaderEvent H κ) :
    Decidable (PacketsFit h d ev) :=
  match ev with
  | .command (.handleData b) _ =>
    -- by the size in the history, not by trying all sizes
    show Decidable (∀ size ∈ announcedSize h, Fits H size d b) from Option.decidableForallMem _
  | .command (.download ..) _ => isTrue trivial
  | .command .abort _ => isTrue trivial
  | .timerExpired => isTrue trivial

/-- A download buffers no more than was announced for it, and what is saved when its success
callback is called has the announced size. -/
structure SizeHonoured (h : DownloaderHistory H κ) (s : FileDownloader κ) : Prop where
  buffered : ∀ size ∈ announcedSize h, s.fileHandler.currentPacketData.length ≤ size.toNat
  saved : ∀ k m l callback path, h = k ++ m :: l → .onSuccess callback path ∈ m.output →
    ∃ size ∈ announcedSize k, ∃ filePath content,
      m.output = [.createBinaryFileWithContent filePath content true, .onSuccess callback path] ∧
        content.length = size.toNat

/-- The success callback is called for the last packet, with what was saved. -/
theorem handleData_success {d : FileDownloader κ} {b : H.BinaryData} {created : Bool}
    {callback : κ} {path : String} (h : .onSuccess callback path ∈ (d.handleData H b created).2) :
    d.fileHandler.Accepts H b ∧ d.currentPacketIndex + 1 = d.currentPacketCount ∧
      d.currentFileHash = H.hashSHA256 (contentWith d b) ∧ ∃ filePath,
        (d.handleData H b created).2 =
          [.createBinaryFileWithContent filePath (contentWith d b) true,
            .onSuccess callback path] := by
  by_cases ha : d.fileHandler.Accepts H b
  · by_cases hl : d.currentPacketIndex + 1 = d.currentPacketCount
    · rw [handleData_of_last ha hl] at h ⊢
      have hs := downloadComplete_success h
      exact ⟨ha, hl, hs.hash.symm, _, hs.effects_eq⟩
    · rw [handleData_of_not_last ha hl] at h
      exact absurd h (requestPacket_no_success _ _ _ _)
  · rw [handleData_of_not_accepts ha] at h
    exact absurd h (packetFailed_no_success _ _)

theorem idle_handleData_no_success {d : FileDownloader κ} (hi : d.Idle) (b : H.BinaryData)
    (created : Bool) (callback : κ) (path : String) :
    .onSuccess callback path ∉ (d.handleData H b created).2 := by
  by_cases hb : d.Clears H b
  · simp [(hi.handleData_of_clears hb created).1]
  · simp [(hi.handleData_of_not_clears hb created).1]

theorem buffered_of_run (hrun : (downloaderMachine H κ maxPacketSize).Run PacketsFit h s) :
    InProgress (fun size d => d.fileHandler.currentPacketData.length ≤ size.toNat) h s := by
  apply inProgress_of_run _ _ _ _ hrun
  · intro h d fileName fileSize fileHash directory callbacks created _ _
    exact Nat.zero_le _
  · intro size d hP
    exact hP
  · intro h d size b created hsize hP hC ha hlast
    exact (hC size hsize ha).1

theorem sizeHonoured_of_fit (hrun : (downloaderMachine H κ maxPacketSize).Run PacketsFit h s) :
    SizeHonoured h s := by
  constructor
  · intro size hsize
    rcases buffered_of_run hrun with ⟨hnone, _⟩ | ⟨size', _, hsize', _, hP⟩
    · rw [hnone] at hsize
      cases hsize
    · obtain rfl := Option.some.inj (hsize'.symm.trans hsize)
      exact hP
  · rintro k m l callback path rfl hsuccess
    obtain ⟨hk, hC, s', hstep⟩ := hrun.moment
    obtain ⟨d, ev, out⟩ := m
    cases ev with
    | timerExpired =>
      exact absurd hsuccess (timerExpired_no_success (r := (s', out)) hstep callback path)
    | command c created =>
      have he : d.run H c created = (s', out) := Option.some.inj hstep
      obtain rfl : (d.run H c created).2 = out := congrArg Prod.snd he
      cases c with
      | download => exact absurd hsuccess (requestPacket_no_success _ _ callback path)
      | abort => cases hsuccess
      | handleData b =>
        obtain ⟨ha, hlast, hhash, filePath, hout⟩ := handleData_success (d := d) hsuccess
        rcases buffered_of_run hk with ⟨_, hi⟩ | ⟨size, _, hsize, _, _⟩
        · exact absurd hsuccess (idle_handleData_no_success hi b created callback path)
        · have hfits : Fits H size d b := hC size hsize
          exact ⟨size, hsize, filePath, contentWith d b, hout, (hfits ha).2 hlast hhash⟩

/-! Packets that bring what was requested fit. -/

namespace FileDownloader

variable {d : FileDownloader κ} {b : H.BinaryData} {created : Bool}

theorem requestPacket_maxPacketSize (index : UInt32) (size : UInt64) :
    (d.requestPacket index size).1.maxPacketSize = d.maxPacketSize := by
  cases hp : d.packetProvider <;> simp [requestPacket, hp]

theorem packetFailed_maxPacketSize : d.packetFailed.1.maxPacketSize = d.maxPacketSize := by
  by_cases hr : d.retryCount = maxRetryCount
  · rw [packetFailed_of_eq hr]
    rfl
  · rw [packetFailed_of_ne hr]
    exact requestPacket_maxPacketSize _ _

theorem handleData_maxPacketSize :
    (d.handleData H b created).1.maxPacketSize = d.maxPacketSize := by
  by_cases ha : d.fileHandler.Accepts H b
  · by_cases hl : d.currentPacketIndex + 1 = d.currentPacketCount
    · rw [handleData_of_last ha hl, downloadComplete_clears]
      rfl
    · rw [handleData_of_not_last ha hl]
      exact requestPacket_maxPacketSize (d := d.appended H b) _ _
  · rw [handleData_of_not_accepts ha]
    exact packetFailed_maxPacketSize (d := d.stopTimer)

end FileDownloader

theorem maxPacketSize_of_run (hrun : (downloaderMachine H κ maxPacketSize).Run C h s) :
    s.maxPacketSize = maxPacketSize := by
  apply hrun.state_invariant fun d => d.maxPacketSize = maxPacketSize
  · rfl
  · intro h s s' ev out _ hs _ hstep
    rw [← hs]
    cases ev with
    | timerExpired =>
      change s.timerExpired = some (s', out) at hstep
      unfold timerExpired at hstep
      split at hstep
      · obtain rfl : s' = _ := (congrArg Prod.fst (Option.some.inj hstep)).symm
        exact packetFailed_maxPacketSize (d := s.stopTimer)
      · cases hstep
    | command c created =>
      obtain rfl : s' = _ := (congrArg Prod.fst (Option.some.inj hstep)).symm
      cases c with
      | download => exact requestPacket_maxPacketSize _ _
      | abort => rfl
      | handleData b => exact handleData_maxPacketSize

/-- How many bytes of the file a packet of the current request holds. -/
def chunkLength (d : FileDownloader κ) : ℕ := d.currentPacketSize.toNat - 2 * sha256HashByteLength

/-- An accepted packet brings as many bytes as were requested, or the rest of the file. -/
def AnswersRequest (H : Host) (size : UInt64) (d : FileDownloader κ) (b : H.BinaryData) : Prop :=
  d.fileHandler.Accepts H b → (H.getData b).length =
    min (chunkLength d) (size.toNat - d.currentPacketIndex.toNat * chunkLength d)

/-- Downloads have safe plans, and their packets answer the requests. -/
def RequestsAnswered (maxPacketSize : UInt64) :
    Condition (FileDownloader κ) (DownloaderEvent H κ) (Effect κ) :=
  fun h d ev =>
    match ev with
    | .command (.download _ fileSize _ _ _) _ => PlanSafe H maxPacketSize fileSize
    | .command (.handleData b) _ => ∀ size ∈ announcedSize h, AnswersRequest H size d b
    | _ => True

instance (size : UInt64) (d : FileDownloader κ) (b : H.BinaryData) :
    Decidable (AnswersRequest H size d b) :=
  inferInstanceAs (Decidable (_ → _ = _))

instance (h : DownloaderHistory H κ) (d : FileDownloader κ) (ev : DownloaderEvent H κ) :
    Decidable (RequestsAnswered maxPacketSize h d ev) :=
  match ev with
  | .command (.handleData b) _ =>
    show Decidable (∀ size ∈ announcedSize h, AnswersRequest H size d b) from
      Option.decidableForallMem _
  | .command (.download _ fileSize _ _ _) _ =>
    inferInstanceAs (Decidable (PlanSafe H maxPacketSize fileSize))
  | .command .abort _ => isTrue trivial
  | .timerExpired => isTrue trivial

/-- The packets before the current one were full, and none of them was the last. -/
structure OnPlan (size : UInt64) (d : FileDownloader κ) : Prop where
  index : d.currentPacketIndex < d.currentPacketCount
  short : (d.currentPacketCount.toNat - 1) * chunkLength d < size.toNat
  covers : size.toNat ≤ d.currentPacketCount.toNat * chunkLength d
  buffered : d.fileHandler.currentPacketData.length =
    d.currentPacketIndex.toNat * chunkLength d

/-- A safe plan is followed from its start. -/
theorem onPlan_of_safe {fileSize : UInt64} {count : UInt32} {packetSize : UInt64}
    (hplan : packetPlan H maxPacketSize fileSize = (count, packetSize))
    (hsafe : PlanSafe H maxPacketSize fileSize) :
    0 < count.toNat ∧
      (count.toNat - 1) * (packetSize.toNat - 2 * sha256HashByteLength) < fileSize.toNat ∧
      fileSize.toNat ≤ count.toNat * (packetSize.toNat - 2 * sha256HashByteLength) := by
  obtain ⟨hshort, hcovers⟩ := hsafe.covers
  rw [hplan] at hshort hcovers
  dsimp only at hshort hcovers
  have hdata : (0 : ℤ) < packetSize.toNat - 2 * sha256HashByteLength := by linarith
  have hcount : 0 < count.toNat := by
    apply Nat.pos_of_ne_zero
    intro hzero
    have hsize : fileSize = 0 := by
      apply UInt64.toNat_inj.mp
      rw [hzero] at hcovers
      simpa using hcovers
    rw [hsize, packetPlan_of_le (UInt64.le_iff_toNat_le.mpr (Nat.zero_le _))] at hplan
    obtain ⟨rfl, -⟩ := Prod.mk.inj hplan
    exact absurd hzero (by decide)
  have hcast : ((packetSize.toNat - 2 * sha256HashByteLength : ℕ) : ℤ) =
      packetSize.toNat - 2 * sha256HashByteLength := by
    omega
  refine ⟨hcount, ?_, ?_⟩
  · zify [hcount]
    rw [hcast]
    exact hshort
  · zify
    rw [hcast]
    exact hcovers

theorem OnPlan.requested {size : UInt64} {d : FileDownloader κ} (h : OnPlan size d) :
    OnPlan size d.requested := ⟨h.index, h.short, h.covers, h.buffered⟩

/-- A packet that is not the last one is a full one. -/
theorem OnPlan.full {size : UInt64} {d : FileDownloader κ} (h : OnPlan size d)
    (hlast : d.currentPacketIndex + 1 ≠ d.currentPacketCount) :
    (d.currentPacketIndex + 1).toNat = d.currentPacketIndex.toNat + 1 ∧
      d.currentPacketIndex + 1 < d.currentPacketCount ∧
        (d.currentPacketIndex.toNat + 1) * chunkLength d ≤ size.toNat := by
  have hindex : d.currentPacketIndex.toNat < d.currentPacketCount.toNat := h.index
  have hbound := d.currentPacketCount.toNat_lt
  have hnext : (d.currentPacketIndex + 1).toNat = d.currentPacketIndex.toNat + 1 := by
    rw [UInt32.toNat_add]
    exact Nat.mod_eq_of_lt (by change d.currentPacketIndex.toNat + 1 < _; omega)
  have hne : d.currentPacketIndex.toNat + 1 ≠ d.currentPacketCount.toNat := by
    intro he
    exact hlast (UInt32.toNat_inj.mp (hnext.trans he))
  refine ⟨hnext, UInt32.lt_iff_toNat_lt.mpr (by omega), ?_⟩
  have hle : d.currentPacketIndex.toNat + 1 ≤ d.currentPacketCount.toNat - 1 := by omega
  exact Nat.le_of_lt (Nat.lt_of_le_of_lt (Nat.mul_le_mul_right _ hle) h.short)

theorem OnPlan.appended {size : UInt64} {d : FileDownloader κ} {b : H.BinaryData}
    (h : OnPlan size d) (hb : AnswersRequest H size d b) (ha : d.fileHandler.Accepts H b)
    (hlast : d.currentPacketIndex + 1 ≠ d.currentPacketCount) :
    OnPlan size (d.appended H b) := by
  obtain ⟨hnext, hlt, hfull⟩ := h.full hlast
  have hlength := hb ha
  rw [Nat.succ_mul] at hfull
  refine ⟨hlt, h.short, h.covers, ?_⟩
  change (d.fileHandler.currentPacketData ++ H.getData b).length =
    (d.currentPacketIndex + 1).toNat * chunkLength d
  rw [List.length_append, h.buffered, hlength, hnext, Nat.succ_mul]
  omega

/-- What answers the request fits, and the last packet makes the file complete. -/
theorem OnPlan.fits {size : UInt64} {d : FileDownloader κ} {b : H.BinaryData}
    (h : OnPlan size d) (hb : AnswersRequest H size d b) : Fits H size d b := by
  intro ha
  have hlength := hb ha
  have hindex : d.currentPacketIndex.toNat < d.currentPacketCount.toNat := h.index
  have hle : d.currentPacketIndex.toNat * chunkLength d ≤
      (d.currentPacketCount.toNat - 1) * chunkLength d := Nat.mul_le_mul_right _ (by omega)
  have hshort := h.short
  unfold contentWith
  rw [List.length_append, h.buffered, hlength]
  constructor
  · omega
  · intro hlast _
    have hcovers := h.covers
    have hcount : d.currentPacketCount.toNat = d.currentPacketIndex.toNat + 1 := by
      rw [← hlast, UInt32.toNat_add]
      have hbound := d.currentPacketCount.toNat_lt
      exact Nat.mod_eq_of_lt (by change d.currentPacketIndex.toNat + 1 < _; omega)
    rw [hcount, Nat.succ_mul] at hcovers
    omega

theorem onPlan_of_run
    (hrun : (downloaderMachine H κ maxPacketSize).Run (RequestsAnswered maxPacketSize) h s) :
    InProgress OnPlan h s := by
  apply inProgress_of_run _ _ _ _ hrun
  · intro h d fileName fileSize fileHash directory callbacks created hr hC
    have hmax := maxPacketSize_of_run hr
    have hsafe : PlanSafe H d.maxPacketSize fileSize := by
      rw [hmax]
      exact hC
    obtain ⟨hcount, hshort, hcovers⟩ := onPlan_of_safe rfl hsafe
    exact ⟨UInt32.lt_iff_toNat_lt.mpr hcount, hshort, hcovers, (Nat.zero_mul _).symm⟩
  · intro size d hP
    exact hP.requested
  · intro h d size b created hsize hP hC ha hlast
    exact hP.appended (hC size hsize) ha hlast

/-- Where the plans are safe, packets that answer their requests fit. -/
theorem fit_of_answered
    (hrun : (downloaderMachine H κ maxPacketSize).Run (RequestsAnswered maxPacketSize) h s) :
    (downloaderMachine H κ maxPacketSize).Run PacketsFit h s := by
  apply hrun.mono
  intro h d ev hr hC
  cases ev with
  | timerExpired => trivial
  | command c created =>
    cases c with
    | download => trivial
    | abort => trivial
    | handleData b =>
      intro size hsize
      rcases onPlan_of_run hr with ⟨hnone, _⟩ | ⟨size', _, hsize', _, hP⟩
      · rw [hnone] at hsize
        cases hsize
      · obtain rfl := Option.some.inj (hsize'.symm.trans hsize)
        exact hP.fits (hC size' hsize)

/-- The announced size is honoured where every packet fits; and under safe plans every packet
fits that brings what was requested. -/
theorem announced_size_honoured (h : DownloaderHistory H κ) (s : FileDownloader κ) :
    ((downloaderMachine H κ maxPacketSize).Run PacketsFit h s → SizeHonoured h s) ∧
      ((downloaderMachine H κ maxPacketSize).Run (RequestsAnswered maxPacketSize) h s →
        (downloaderMachine H κ maxPacketSize).Run PacketsFit h s) :=
  ⟨sizeHonoured_of_fit, fit_of_answered⟩

/-- A file of two bytes in two packets: the first one comes late, the second one after a packet
that is refused. -/
def sampleTwoPackets : List (DownloaderEvent sampleHost Unit) :=
  [.command (.download "f" 2 (sampleHost.hashSHA256 [97, 98]) "/files" ()) true,
    .timerExpired,
    .command (.handleData (sampleHost.packet firstPreviousHash [97])) true,
    .command (.handleData (sampleHost.packet firstPreviousHash [97])) true,
    .command (.handleData (sampleHost.packet (sampleHost.hashSHA256 [97]) [98])) true]

theorem announced_size_honoured_sample : ∃ h s,
    (downloaderMachine sampleHost Unit 65).Run (RequestsAnswered 65) h s ∧
      .onSuccess () "/files/f" ∈ outputs h ∧ SizeHonoured h s := by
  obtain ⟨h, s, hr, hp⟩ := (downloaderMachine sampleHost Unit 65).exists_run_of_replay
    (RequestsAnswered 65) sampleTwoPackets
    (fun h _ => decide (.onSuccess () "/files/f" ∈ outputs h)) (by decide +kernel)
  have hfit := (announced_size_honoured h s).2 hr
  exact ⟨h, s, hr, of_decide_eq_true hp, (announced_size_honoured h s).1 hfit⟩

/-- One byte is announced, with the hash of a file of two. -/
def oversizedDownload : List (DownloaderEvent sampleHost Unit) :=
  [.command (.download "f" 1 (sampleHost.hashSHA256 [97, 98]) "/files" ()) true,
    .command (.handleData (sampleHost.packet firstPreviousHash [97, 98])) true]

/-- A file of one byte is announced, and two are saved. -/
theorem announced_size_exceeded :
    ¬ ∀ h s, (downloaderMachine sampleHost Unit 66).Run Free h s → SizeHonoured h s := by
  intro hall
  let saved : List (Effect Unit) :=
    [.createBinaryFileWithContent "/files/f" [97, 98] true, .onSuccess () "/files/f"]
  obtain ⟨h, s, hr, hp⟩ := (downloaderMachine sampleHost Unit 66).exists_run_of_replay Free
    oversizedDownload (fun h _ => decide ((h.drop 1).map Moment.output = [saved] ∧
      announcedSize (h.take 1) = some 1)) (by decide +kernel)
  obtain ⟨hout, hsize⟩ := of_decide_eq_true hp
  obtain ⟨m, hm, hmout⟩ := List.map_eq_singleton_iff.mp hout
  have hsplit : h = h.take 1 ++ m :: [] := by rw [← hm, List.take_append_drop]
  obtain ⟨size, hsize', filePath, content, heq, hlength⟩ :=
    (hall h s hr).saved (h.take 1) m [] () "/files/f" hsplit (by simp [hmout, saved])
  obtain rfl := Option.some.inj (hsize.symm.trans hsize')
  rw [hmout] at heq
  obtain ⟨-, rfl⟩ : "/files/f" = filePath ∧ [97, 98] = content := by simpa [saved] using heq
  cases hlength

end WolkConnect
