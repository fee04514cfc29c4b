import WolkConnect.File.DownloaderLife
import WolkConnect.File.HonestSender

/-! One download from an honest sender whose packets may be lost, delayed and delivered
again: which chunks are buffered, and what uses up the attempts. -/
namespace WolkConnect
open Transition Transition.Machine Blocks
namespace Transfer

variable {κ : Type} (H : Host) (t : Transfer κ)

/-- One `download` call comes first; then come packets that answer an earlier request with data
of the file, expiries and aborts in any order. -/
def FromSender : Condition (FileDownloader κ) (DownloaderEvent H κ) (Effect κ) :=
  fun h _ ev => match ev with
    | .command (.download fileName fileSize fileHash directory callbacks) _ => h = [] ∧
      Command.download fileName fileSize fileHash directory callbacks = t.command H
    | .command (.handleData b) _ => ∃ request,
      .packetProvider t.callbacks request ∈ outputs h ∧ requestedData t.file request ≠ [] ∧
        b = senderAnswer H t.file request
    | _ => True

/-- In addition no timer expires. -/
def Undelayed : Condition (FileDownloader κ) (DownloaderEvent H κ) (Effect κ) :=
  fun h s ev => t.FromSender H h s ev ∧ ev ≠ .timerExpired

/-- Packets that look alike to the hash chain carry the same data, the last one aside, as far as
the chunks are in the file. -/
def Identifies : Prop := ∀ i k, i < k → k + 1 < t.lastCount H → t.Has H k →
  t.previousHash H i = t.previousHash H k → t.chunk H i = t.chunk H k

/-- The downloader has taken the first chunks of the file in order, and has asked for no
later ones. -/
def InOrder (h : DownloaderHistory H κ) (s : FileDownloader κ) : Prop :=
  ∃ k attempt, k < t.lastCount H ∧ t.Has H k ∧
    1 ≤ attempt ∧ attempt ≤ FileDownloader.maxRetryCount ∧ s = t.waiting H k attempt ∧
    ∀ request, .packetProvider t.callbacks request ∈ outputs h → ∃ i ≤ k, request = t.request H i

variable {H t}

theorem Has.succ {k : ℕ} (hhas : t.Has H k) (hd : t.chunk H k ≠ []) : t.Has H (k + 1) := by
  intro i hi
  rcases Nat.lt_succ_iff_lt_or_eq.mp hi with hlt | rfl
  · exact hhas i hlt
  · exact hd

/-- The answer to a request that was made may arrive. -/
theorem Undelayed.of_answer {h : DownloaderHistory H κ} {s : FileDownloader κ} {i : ℕ}
    {created : Bool} (hd : t.chunk H i ≠ []) (hi : i < t.lastCount H)
    (hmem : .packetProvider t.callbacks (t.request H i) ∈ outputs h) :
    t.Undelayed H h s (.command (.handleData (senderAnswer H t.file (t.request H i))) created) :=
  ⟨⟨_, hmem, requestedData_request hi ▸ hd, rfl⟩, nofun⟩

theorem waiting_live (k : ℕ) {attempt : UInt16} (h1 : 1 ≤ attempt)
    (h3 : attempt ≤ FileDownloader.maxRetryCount) : (t.waiting H k attempt).Live t.callbacks :=
  ⟨rfl, rfl, rfl, rfl, h1, h3⟩

/-- A failed attempt ends the download or leaves it in order. -/
theorem InOrder.of_failed {h : DownloaderHistory H κ} {k : ℕ} {attempt : UInt16}
    (hk : k < t.lastCount H) (hhas : t.Has H k) (h1 : 1 ≤ attempt)
    (h3 : attempt ≤ FileDownloader.maxRetryCount)
    (hreq : ∀ request, .packetProvider t.callbacks request ∈ outputs h →
      ∃ i ≤ k, request = t.request H i)
    {s' : FileDownloader κ} {ev : DownloaderEvent H κ} {out : List (Effect κ)}
    (hstep : (t.waiting H k attempt).stopTimer.packetFailed = (s', out))
    (hgo : out.any Effect.isOutcome = false) :
    t.InOrder H (h ++ [⟨t.waiting H k attempt, ev, out⟩]) s' := by
  by_cases hr : attempt = FileDownloader.maxRetryCount
  · subst hr
    rw [waiting_exceeded] at hstep
    obtain ⟨_, rfl⟩ := Prod.ext_iff.mp hstep
    cases hgo
  · rw [waiting_failed k hr] at hstep
    obtain ⟨rfl, rfl⟩ := Prod.ext_iff.mp hstep
    have hlt : attempt < FileDownloader.maxRetryCount := by grind
    refine ⟨k, attempt + 1, hk, hhas, ?_, ?_, rfl, ?_⟩
    · simp only [FileDownloader.maxRetryCount] at hlt
      grind
    · simp only [FileDownloader.maxRetryCount] at hlt ⊢
      grind
    · intro request hmem
      simp only [outputs_append, outputs_singleton, List.mem_append, List.mem_singleton,
        Effect.packetProvider.injEq, true_and] at hmem
      rcases hmem with hmem | rfl
      · exact hreq request hmem
      · exact ⟨k, le_rfl, rfl⟩

/-- One packet of the sender: if it is taken for chunk `k`, it is chunk `k`. -/
theorem InOrder.of_packet {h : DownloaderHistory H κ} {k i : ℕ} {attempt : UInt16}
    (hgood : t.Identifies H) (hk : k < t.lastCount H) (hhas : t.Has H k) (h1 : 1 ≤ attempt)
    (h3 : attempt ≤ FileDownloader.maxRetryCount)
    (hreq : ∀ request, .packetProvider t.callbacks request ∈ outputs h →
      ∃ i ≤ k, request = t.request H i) (hi : i ≤ k) (hd : t.chunk H i ≠ []) {created : Bool}
    {s' : FileDownloader κ} {ev : DownloaderEvent H κ} {out : List (Effect κ)}
    (hstep : (t.waiting H k attempt).handleData H (senderAnswer H t.file (t.request H i)) created =
      (s', out)) (hgo : out.any Effect.isOutcome = false) :
    t.InOrder H (h ++ [⟨t.waiting H k attempt, ev, out⟩]) s' := by
  by_cases ha : t.previousHash H i = t.previousHash H k
  · by_cases hl : k + 1 = t.lastCount H
    · rw [waiting_last (by omega) hd hl ha] at hstep
      obtain ⟨_, o, ho, hout⟩ := (waiting_live k h1 h3).downloadComplete_cases
        (senderAnswer H t.file (t.request H i)) created
      rw [hstep] at ho
      rw [List.any_eq_false] at hgo
      exact absurd hout (hgo o ho)
    · have hc : t.chunk H i = t.chunk H k := by
        rcases Nat.lt_or_eq_of_le hi with hlt | rfl
        · exact hgood i k hlt (by omega) hhas ha
        · rfl
      rw [waiting_next (by omega) hd (by omega) ha hc] at hstep
      obtain ⟨rfl, rfl⟩ := Prod.ext_iff.mp hstep
      refine ⟨k + 1, 1, by omega, hhas.succ (hc ▸ hd), by decide, by decide, rfl, ?_⟩
      intro request hmem
      simp only [outputs_append, outputs_singleton, List.mem_append, List.mem_singleton,
        Effect.packetProvider.injEq, true_and] at hmem
      rcases hmem with hmem | rfl
      · obtain ⟨m, hm, rfl⟩ := hreq request hmem
        exact ⟨m, by omega, rfl⟩
      · exact ⟨k + 1, le_rfl, rfl⟩
  · rw [waiting_refused fun h => ha ((handlerAt_accepts_iff (by omega) hd).mp h)] at hstep
    exact .of_failed hk hhas h1 h3 hreq hstep hgo

variable {h : DownloaderHistory H κ} {s : FileDownloader κ}

/-- While its download is in progress the downloader is in order. -/
theorem inOrder_of_run (hgood : t.Identifies H)
    (hrun : (downloaderMachine H κ t.maxPacketSize).Run (t.FromSender H) h s)
    (hne : h ≠ []) (hgo : isOver h = false) : t.InOrder H h s := by
  induction hrun with
  | start => exact absurd rfl hne
  | @step h s s' ev out hr hc hstep ih =>
    rw [isOver_append] at hgo
    cases ev with
    | timerExpired =>
      change s.timerExpired = some (s', out) at hstep
      simp only [Bool.or_eq_false_iff] at hgo
      have hne : h ≠ [] := by
        rintro rfl
        rw [hr.eq_start] at hstep
        cases hstep
      obtain ⟨k, attempt, hk, hhas, h1, h3, rfl, hreq⟩ := ih hne hgo.1
      rw [waiting_expired] at hstep
      exact .of_failed hk hhas h1 h3 hreq (Option.some.inj hstep) hgo.2
    | command c created =>
      have he : s.run H c created = (s', out) := Option.some.inj hstep
      cases c with
      | abort => cases hgo
      | download fileName fileSize fileHash directory callbacks =>
        obtain ⟨rfl, hcommand⟩ := hc
        rw [hcommand, hr.eq_start, download_waiting rfl] at he
        obtain ⟨rfl, rfl⟩ := Prod.ext_iff.mp he
        refine ⟨0, 1, lastCount_pos, nofun, by decide, by decide, rfl, ?_⟩
        intro request hmem
        obtain rfl : request = t.request H 0 := by simpa using hmem
        exact ⟨0, le_rfl, rfl⟩
      | handleData b =>
        simp only [Bool.or_eq_false_iff] at hgo
        obtain ⟨request, hmem, hd, rfl⟩ := hc
        have hne : h ≠ [] := by
          rintro rfl
          cases hmem
        obtain ⟨k, attempt, hk, hhas, h1, h3, rfl, hreq⟩ := ih hne hgo.1
        obtain ⟨i, hi, rfl⟩ := hreq request hmem
        rw [requestedData_request (by omega)] at hd
        exact .of_packet hgood hk hhas h1 h3 hreq hi hd he hgo.2

theorem run_command {maxPacketSize : UInt64}
    {C : Condition (FileDownloader κ) (DownloaderEvent H κ) (Effect κ)}
    (hrun : (downloaderMachine H κ maxPacketSize).Run C h s) (c : Command H κ) (created : Bool)
    (hc : C h s (.command c created)) {r : FileDownloader κ × List (Effect κ)}
    (hr : s.run H c created = r) :
    (downloaderMachine H κ maxPacketSize).Run C (h ++ [⟨s, .command c created, r.2⟩]) r.1 :=
  hrun.step hc (congrArg some hr)

/-- The packets delivered in order, each once. -/
theorem run_to {k : ℕ} (hk : k < t.lastCount H) (hhas : t.Has H k) : ∃ h : DownloaderHistory H κ,
    (downloaderMachine H κ t.maxPacketSize).Run (t.Undelayed H) h (t.waiting H k 1) ∧ h ≠ [] ∧
    isOver h = false ∧ ∀ i ≤ k, .packetProvider t.callbacks (t.request H i) ∈ outputs h := by
  induction k with
  | zero =>
    have hd := download_waiting (H := H) (t := t) (d := .construct t.maxPacketSize) rfl true
    have hr := run_command (C := t.Undelayed H) .start (t.command H) true
      (by exact ⟨⟨rfl, rfl⟩, nofun⟩) hd
    refine ⟨_, hr, by simp, rfl, ?_⟩
    intro i hi
    obtain rfl : i = 0 := by omega
    simp
  | succ k ih =>
    obtain ⟨h, hr, hne, hgo, hreq⟩ := ih (by omega) fun i hi => hhas i (by omega)
    have hd : t.chunk H k ≠ [] := hhas k (Nat.lt_succ_self k)
    have hn := waiting_next (t := t) (H := H) (i := k) (k := k) (by omega) hd hk rfl rfl 1 true
    have hr' := run_command hr (.handleData (senderAnswer H t.file (t.request H k))) true
      (by exact .of_answer hd (by omega) (hreq k le_rfl)) hn
    refine ⟨_, hr', by simp, ?_, ?_⟩
    · rw [isOver_append]
      simp [hgo, Effect.isOutcome]
    · intro i hi
      rw [outputs_append, outputs_singleton]
      rcases Nat.lt_or_eq_of_le hi with hlt | rfl
      · exact List.mem_append_left _ (hreq i (by omega))
      · exact List.mem_append_right _ (by simp)

/-- Packet `i` once more in place of packet `k`: its data is appended. -/
theorem duplicate_taken {i k : ℕ} (hik : i < k) (hk : k + 1 < t.lastCount H) (hhas : t.Has H k)
    (ha : t.previousHash H i = t.previousHash H k) : ∃ (h : DownloaderHistory H κ) (s : _),
    (downloaderMachine H κ t.maxPacketSize).Run (t.Undelayed H) h s ∧ h ≠ [] ∧
    isOver h = false ∧ s.currentPacketIndex = UInt32.ofNat (k + 1) ∧
    s.fileHandler.currentPacketData =
      t.file.take (k * payloadLength (t.packetSize H)) ++ t.chunk H i := by
  obtain ⟨h, hr, _, hgo, hreq⟩ := t.run_to (H := H) (k := k) (by omega) hhas
  have hd : t.chunk H i ≠ [] := hhas i hik
  have hacc := (handlerAt_accepts_iff (t := t) (H := H) (i := i) (k := k) (by omega) hd).mpr ha
  have hl : UInt32.ofNat k + 1 ≠ t.packetCount H := by
    rw [Ne, index_eq_count_iff (by omega)]
    omega
  have hstep : (t.waiting H k 1).handleData H (senderAnswer H t.file (t.request H i)) true = _ :=
    FileDownloader.handleData_of_not_last hacc hl
  rw [FileDownloader.requestPacket_some rfl] at hstep
  have hr' := run_command hr (.handleData (senderAnswer H t.file (t.request H i))) true
    (by exact .of_answer hd (by omega) (hreq i (by omega))) hstep
  refine ⟨_, _, hr', by simp, ?_, ?_, ?_⟩
  · rw [isOver_append]
    simp [hgo, Effect.isOutcome]
  · change UInt32.ofNat k + 1 = UInt32.ofNat (k + 1)
    simp
  · change (t.handlerAt H k).currentPacketData ++ _ = _
    rw [handlerAt_data, senderAnswer_data (by omega) hd]

theorem fromSender_of_undelayed {s : FileDownloader κ}
    (hrun : (downloaderMachine H κ t.maxPacketSize).Run (t.Undelayed H) h s) :
    (downloaderMachine H κ t.maxPacketSize).Run (t.FromSender H) h s :=
  hrun.mono fun _ hc => hc.1

end Transfer

variable {κ : Type}

/-- The buffer is the concatenation of the first chunks in every state in progress of
every run, exactly for the files whose packets the hash chain can tell apart. -/
theorem buffer_prefix_iff (H : Host) (t : Transfer κ) :
    (∀ h s, (downloaderMachine H κ t.maxPacketSize).Run (t.FromSender H) h s → h ≠ [] →
      isOver h = false → s.fileHandler.currentPacketData =
        ((List.range s.currentPacketIndex.toNat).map (t.chunk H)).flatten) ↔ t.Identifies H := by
  have hflat (k : ℕ) : ((List.range k).map (t.chunk H)).flatten =
      t.file.take (k * payloadLength (t.packetSize H)) := flatten_blocks _ _ _
  constructor
  · intro hbuffer i k hik hk hhas ha
    obtain ⟨h, s, hr, hne, hgo, hindex, hdata⟩ := Transfer.duplicate_taken hik hk hhas ha
    have hb := hbuffer h s (Transfer.fromSender_of_undelayed hr) hne hgo
    have hnat := Transfer.request_index (t := t) (H := H) hk
    change (UInt32.ofNat (k + 1)).toNat = k + 1 at hnat
    rw [hdata, hindex, hnat, hflat, take_succ_mul] at hb
    exact List.append_cancel_left hb
  · intro hgood h s hrun hne hgo
    obtain ⟨k, attempt, hk, _, _, _, rfl, _⟩ := Transfer.inOrder_of_run hgood hrun hne hgo
    have hnat := Transfer.request_index (t := t) (H := H) hk
    change (UInt32.ofNat k).toNat = k at hnat
    change (t.handlerAt H k).currentPacketData = _
    rw [Transfer.handlerAt_data, ← hflat]
    change _ = ((List.range (UInt32.ofNat k).toNat).map (t.chunk H)).flatten
    rw [hnat]

/-- A file of four packets whose first two are the same. -/
def sampleRepeating : Transfer Unit :=
  Transfer.ofFile sampleHost 65 "f" "/files" () [97, 97, 98, 98]

/-- The second packet is delivered twice: it is taken for the third one. -/
theorem duplicate_corrupts_prefix : ∃ h s, (downloaderMachine sampleHost Unit 65).Run
    (sampleRepeating.FromSender sampleHost) h s ∧ h ≠ [] ∧ isOver h = false ∧
    s.fileHandler.currentPacketData ≠
      ((List.range s.currentPacketIndex.toNat).map (sampleRepeating.chunk sampleHost)).flatten := by
  obtain ⟨h, s, hr, hne, hgo, hindex, hdata⟩ := Transfer.duplicate_taken (H := sampleHost)
    (t := sampleRepeating) (i := 1) (k := 2) (by decide) (by decide +kernel)
    (by unfold Transfer.Has; decide +kernel) (by decide +kernel)
  refine ⟨h, s, (Transfer.fromSender_of_undelayed hr), hne, hgo, ?_⟩
  rw [hdata, hindex]
  decide +kernel

end WolkConnect
