import WolkConnect.File.Duplicates
import WolkConnect.File.DownloaderEffects

/-! What uses up the attempts of a download when no timer expires: every packet that the
hash chain refuses, late answers to earlier requests included. -/
namespace WolkConnect
open Transition Transition.Machine

variable {κ : Type} {H : Host}

/-- A packet was processed and refused. -/
def isRefusal (m : Moment (FileDownloader κ) (DownloaderEvent H κ) (Effect κ)) : Bool :=
  match m.event with
  | .command (.handleData b) _ => !decide (m.state.fileHandler.Accepts H b)
  | _ => false

/-- How many steps at the end of a history are refusals. -/
def refusedInARow (h : DownloaderHistory H κ) : ℕ :=
  h.foldl (fun n m => if isRefusal m then n + 1 else 0) 0

theorem refusedInARow_append (h : DownloaderHistory H κ)
    (m : Moment (FileDownloader κ) (DownloaderEvent H κ) (Effect κ)) :
    refusedInARow (h ++ [m]) = if isRefusal m then refusedInARow h + 1 else 0 := by
  simp [refusedInARow, List.foldl_append]

theorem isRefusal_handleData {s : FileDownloader κ} {b : H.BinaryData} {created : Bool}
    {out : List (Effect κ)} :
    isRefusal ⟨s, .command (.handleData b) created, out⟩ = true ↔
      ¬ s.fileHandler.Accepts H b := by
  simp [isRefusal]

namespace FileDownloader

variable {d : FileDownloader κ}

theorem downloadComplete_not_exceeded (d : FileDownloader κ) (created : Bool) (k : κ) :
    .onFail k .retryCountExceeded ∉ (d.downloadComplete H created).2 := by
  have hf (code : FileTransferError) (hcode : code ≠ .retryCountExceeded) :
      .onFail k .retryCountExceeded ∉ d.notifyFail code := by
    cases h : d.currentOnFailCallback <;> simp [notifyFail, h, hcode.symm]
  have hs (path : String) : .onFail k .retryCountExceeded ∉ d.notifySuccess path := by
    cases h : d.currentOnSuccessCallback <;> simp [notifySuccess, h]
  rcases d.downloadComplete_cases (H := H) created with ⟨_, he⟩ | ⟨_, _, he⟩ | ⟨_, _, he⟩ <;>
    rw [he]
  · exact hf _ (by decide)
  · simpa using hf .fileSystemError (by decide)
  · simpa using hs _

/-- A packet fails a live download exactly if it is refused on the third attempt. -/
theorem Live.handleData_exceeded_iff {callbacks : κ} (h : d.Live callbacks) (b : H.BinaryData)
    (created : Bool) : .onFail callbacks .retryCountExceeded ∈ (d.handleData H b created).2 ↔
      ¬ d.fileHandler.Accepts H b ∧ d.retryCount = maxRetryCount := by
  by_cases ha : d.fileHandler.Accepts H b
  · simp only [ha, not_true_eq_false, false_and, iff_false]
    by_cases hl : d.currentPacketIndex + 1 = d.currentPacketCount
    · rw [handleData_of_last ha hl]
      exact downloadComplete_not_exceeded _ created callbacks
    · rw [handleData_of_not_last ha hl, requestPacket_some (d := d.appended H b) h.provider]
      simp
  · rw [handleData_of_not_accepts ha]
    rcases h.packetFailed_cases with ⟨hr, he⟩ | ⟨hr, he, _⟩
    · simp [he, hr, ha]
    · simp [he, hr]

/-- A packet that leaves the download in progress: a refusal adds an attempt, a packet
that is taken starts again with one. -/
theorem Live.handleData_attempts {callbacks : κ} (h : d.Live callbacks) {b : H.BinaryData}
    {created : Bool} {d' : FileDownloader κ} {out : List (Effect κ)}
    (hstep : d.handleData H b created = (d', out)) (hgo : out.any Effect.isOutcome = false) :
    d'.Live callbacks ∧ d'.retryCount.toNat =
      if d.fileHandler.Accepts H b then 1 else d.retryCount.toNat + 1 := by
  rcases h.handleData_cases b created with ⟨hany, _⟩ | ⟨ha, he, hl⟩ | ⟨ha, _, he, hl⟩
  · rw [hstep, hgo] at hany
    cases hany
  · obtain ⟨rfl, rfl⟩ := Prod.mk.inj (he.symm.trans hstep)
    rw [if_neg ha]
    refine ⟨hl, ?_⟩
    have hle := UInt16.le_iff_toNat_le.mp h.retry_le
    change (d.retryCount + 1).toNat = _
    rw [UInt16.toNat_add]
    simp only [maxRetryCount, UInt16.reduceToNat] at hle ⊢
    omega
  · obtain ⟨rfl, rfl⟩ := Prod.mk.inj (he.symm.trans hstep)
    rw [if_pos ha]
    exact ⟨hl, rfl⟩

end FileDownloader

namespace Transfer

variable {t : Transfer κ} {h : DownloaderHistory H κ} {s : FileDownloader κ}

/-- While the download is in progress, the attempts used are the refusals in a row and
the one that is out. -/
theorem attempts_of_run (hrun : (downloaderMachine H κ t.maxPacketSize).Run (t.Undelayed H) h s)
    (hne : h ≠ []) (hgo : isOver h = false) :
    s.Live t.callbacks ∧ s.retryCount.toNat = refusedInARow h + 1 := by
  induction hrun with
  | start => exact absurd rfl hne
  | @step h s s' ev out hr hc hstep ih =>
    rw [isOver_append] at hgo
    rw [refusedInARow_append]
    cases ev with
    | timerExpired => exact absurd rfl hc.2
    | command c created =>
      have he : s.run H c created = (s', out) := Option.some.inj hstep
      cases c with
      | abort => cases hgo
      | download fileName fileSize fileHash directory callbacks =>
        obtain ⟨⟨rfl, hcommand⟩, _⟩ := hc
        rw [hcommand, hr.eq_start, download_waiting rfl] at he
        obtain ⟨rfl, rfl⟩ := Prod.ext_iff.mp he
        exact ⟨waiting_live 0 (by decide) (by decide), rfl⟩
      | handleData b =>
        simp only [Bool.or_eq_false_iff] at hgo
        obtain ⟨⟨request, hmem, -⟩, _⟩ := hc
        have hne : h ≠ [] := by
          rintro rfl
          cases hmem
        obtain ⟨hl, hcount⟩ := ih hne hgo.1
        change s.handleData H b created = (s', out) at he
        obtain ⟨hl', hcount'⟩ := hl.handleData_attempts he hgo.2
        refine ⟨hl', ?_⟩
        rw [hcount', hcount]
        by_cases ha : s.fileHandler.Accepts H b <;> simp [isRefusal, ha]

/-- A late delivery: the packet answers the request for a chunk that was already taken. -/
def Late (t : Transfer κ) (m : Moment (FileDownloader κ) (DownloaderEvent H κ) (Effect κ)) : Prop :=
  ∃ i created, i < m.state.currentPacketIndex.toNat ∧
    m.event = .command (.handleData (senderAnswer H t.file (t.request H i))) created

/-- Chunk digests that are distinct and never 32 zero bytes tell all packets apart. -/
theorem previousHash_ne (hdistinct : ∀ i j, i < j → j < t.lastCount H →
      H.hashSHA256 (t.chunk H i) ≠ H.hashSHA256 (t.chunk H j))
    (hzero : ∀ i < t.lastCount H, H.hashSHA256 (t.chunk H i) ≠ firstPreviousHash)
    {i k : ℕ} (hik : i < k) (hk : k < t.lastCount H) :
    t.previousHash H i ≠ t.previousHash H k := by
  obtain ⟨k, rfl⟩ : ∃ m, k = m + 1 := Nat.exists_eq_succ_of_ne_zero (by omega)
  cases i with
  | zero => exact fun h => hzero k (by omega) h.symm
  | succ i => exact hdistinct i k (by omega) (by omega)

/-- Then a refused packet is a late one. -/
theorem isRefusal_iff_late (hne : ∀ {i k}, i < k → k < t.lastCount H →
      t.previousHash H i ≠ t.previousHash H k)
    (hrun : (downloaderMachine H κ t.maxPacketSize).Run (t.Undelayed H) h s)
    (hgo : isOver h = false) {ev : DownloaderEvent H κ} (hc : t.Undelayed H h s ev)
    (out : List (Effect κ)) : isRefusal ⟨s, ev, out⟩ = true ↔ t.Late ⟨s, ev, out⟩ := by
  cases ev with
  | timerExpired => exact absurd rfl hc.2
  | command c created =>
    cases c with
    | abort => simp [isRefusal, Late]
    | download fileName fileSize fileHash directory callbacks => simp [isRefusal, Late]
    | handleData b =>
      obtain ⟨⟨request, hmem, hd, rfl⟩, _⟩ := hc
      have hnil : h ≠ [] := by
        rintro rfl
        cases hmem
      have hgood : t.Identifies H := fun i k hik hk _ ha => absurd ha (hne hik (by omega))
      obtain ⟨k, attempt, hk, hhas, _, _, rfl, hreq⟩ :=
        inOrder_of_run hgood (fromSender_of_undelayed hrun) hnil hgo
      obtain ⟨i, hi, rfl⟩ := hreq request hmem
      rw [requestedData_request (by omega)] at hd
      have hindex : (t.waiting H k attempt).currentPacketIndex.toNat = k := request_index hk
      rw [isRefusal_handleData]
      change ¬ (t.handlerAt H k).Accepts H _ ↔ _
      constructor
      · intro hn
        have hik : i ≠ k := by
          rintro rfl
          exact hn ((handlerAt_accepts_iff hk hd).mpr rfl)
        exact ⟨i, created, by rw [hindex]; omega, rfl⟩
      · rintro ⟨j, _, hj, hb⟩
        rw [hindex] at hj
        simp only [DownloaderEvent.command.injEq, Command.handleData.injEq] at hb
        rw [hb.1, handlerAt_accepts_iff (by omega) (hhas j hj)]
        exact hne hj hk

theorem refusals_are_late (hne : ∀ {i k}, i < k → k < t.lastCount H →
      t.previousHash H i ≠ t.previousHash H k)
    (hrun : (downloaderMachine H κ t.maxPacketSize).Run (t.Undelayed H) h s)
    (hgo : isOver h = false) : ∀ m ∈ h, isRefusal m = true ↔ t.Late m := by
  induction hrun with
  | start =>
    intro m hm
    cases hm
  | @step h s s' ev out hr hc _ ih =>
    intro m hm
    have hgo' : isOver h = false := by
      rw [isOver_append] at hgo
      cases ev with
      | timerExpired => exact absurd rfl hc.2
      | command c created =>
        cases c with
        | abort => cases hgo
        | download fileName fileSize fileHash directory callbacks =>
          obtain ⟨⟨rfl, _⟩, _⟩ := hc
          rfl
        | handleData b => exact (Bool.or_eq_false_iff.mp hgo).1
    rcases List.mem_append.mp hm with hm | hm
    · exact ih hgo' m hm
    · obtain rfl := List.mem_singleton.mp hm
      exact isRefusal_iff_late hne hr hgo' hc out

/-- Packet `i` late for chunk `k`: two deliveries leave one attempt, the third ends it. -/
theorem late_deliveries {i k : ℕ} (hik : i < k) (hk : k < t.lastCount H) (hhas : t.Has H k)
    (hne : t.previousHash H i ≠ t.previousHash H k) : ∃ h : DownloaderHistory H κ,
    (downloaderMachine H κ t.maxPacketSize).Run (t.Undelayed H) h
      (t.waiting H k FileDownloader.maxRetryCount) ∧ isOver h = false ∧
    .packetProvider t.callbacks (t.request H i) ∈ outputs h ∧
    (t.waiting H k FileDownloader.maxRetryCount).handleData H
        (senderAnswer H t.file (t.request H i)) true =
      (.construct t.maxPacketSize, [.onFail t.callbacks .retryCountExceeded]) := by
  obtain ⟨h, hr, _, hgo, hreq⟩ := t.run_to hk hhas
  have hd : t.chunk H i ≠ [] := hhas i hik
  have hi : i < t.lastCount H := hik.trans hk
  have hn := fun ha => hne ((handlerAt_accepts_iff hi hd).mp ha)
  have hmem := hreq i hik.le
  have h1 : (t.waiting H k 1).handleData H (senderAnswer H t.file (t.request H i)) true = _ :=
    (waiting_refused hn 1 true).trans (waiting_failed k (by decide))
  have h2 : (t.waiting H k 2).handleData H (senderAnswer H t.file (t.request H i)) true = _ :=
    (waiting_refused hn 2 true).trans (waiting_failed k (by decide))
  have hr1 := run_command hr (.handleData (senderAnswer H t.file (t.request H i))) true
    (by exact .of_answer hd hi hmem) h1
  have hr2 := run_command hr1 (.handleData (senderAnswer H t.file (t.request H i))) true
    (by exact .of_answer hd hi (by rw [outputs_append]; exact List.mem_append_left _ hmem)) h2
  refine ⟨_, hr2, ?_, ?_, (waiting_refused hn _ true).trans (waiting_exceeded k)⟩
  · rw [isOver_append, isOver_append]
    simp [hgo, Effect.isOutcome]
  · rw [outputs_append, outputs_append]
    exact List.mem_append_left _ (List.mem_append_left _ hmem)

end Transfer

/-- Without expiries and corrupted packets, `RETRY_COUNT_EXCEEDED` is reported exactly at
the third refusal in a row; and the refused packets are exactly the late answers to
requests for chunks that were already taken, unless a chunk has the digest that marks a
first packet. -/
theorem retry_exceeded_iff (t : Transfer κ) {h : DownloaderHistory H κ}
    {s s' : FileDownloader κ} {ev : DownloaderEvent H κ} {out : List (Effect κ)}
    (hdistinct : ∀ i j, i < j → j < t.lastCount H →
      H.hashSHA256 (t.chunk H i) ≠ H.hashSHA256 (t.chunk H j))
    (hrun : (downloaderMachine H κ t.maxPacketSize).Run (t.Undelayed H) h s)
    (hgo : isOver h = false) (hc : t.Undelayed H h s ev)
    (hstep : (downloaderMachine H κ t.maxPacketSize).step s ev = some (s', out)) :
    (.onFail t.callbacks .retryCountExceeded ∈ out ↔
      refusedInARow (h ++ [⟨s, ev, out⟩]) = 3) ∧
    ((∀ i < t.lastCount H, H.hashSHA256 (t.chunk H i) ≠ firstPreviousHash) →
      ∀ m ∈ h ++ [⟨s, ev, out⟩], isRefusal m = true ↔ t.Late m) := by
  constructor
  · rw [refusedInARow_append]
    cases ev with
    | timerExpired => exact absurd rfl hc.2
    | command c created =>
      have he : s.run H c created = (s', out) := Option.some.inj hstep
      have hends (ho : .onFail t.callbacks .retryCountExceeded ∈ out) : ∃ b, c = .handleData b := by
        have hcalls : FileDownloader.outcomeCalls out ≠ 0 :=
          Nat.pos_iff_ne_zero.mp (List.countP_pos_iff.mpr ⟨_, ho, rfl⟩)
        obtain ⟨b, hb, _⟩ := (s.run_outcomeCalls c created).2 (by rwa [he])
        exact ⟨b, hb⟩
      cases c with
      | abort => simpa [isRefusal] using hends
      | download fileName fileSize fileHash directory callbacks => simpa [isRefusal] using hends
      | handleData b =>
        obtain ⟨⟨request, hmem, -⟩, _⟩ := hc
        have hne : h ≠ [] := by
          rintro rfl
          cases hmem
        obtain ⟨hl, hcount⟩ := Transfer.attempts_of_run hrun hne hgo
        have hiff := hl.handleData_exceeded_iff b created
        change s.handleData H b created = (s', out) at he
        rw [he] at hiff
        rw [hiff, ← UInt16.toNat_inj, hcount]
        by_cases ha : s.fileHandler.Accepts H b
        · simp [isRefusal, ha]
        · simp [isRefusal, ha, FileDownloader.maxRetryCount]
  · intro hzero m hm
    have hne {i k : ℕ} := Transfer.previousHash_ne (i := i) (k := k) hdistinct hzero
    rcases List.mem_append.mp hm with hm | hm
    · exact Transfer.refusals_are_late hne hrun hgo m hm
    · obtain rfl := List.mem_singleton.mp hm
      exact Transfer.isRefusal_iff_late hne hrun hgo hc out

/-- A file of two packets with different digests. -/
def sampleTwo : Transfer Unit := Transfer.ofFile sampleHost 65 "f" "/files" () [97, 98]

theorem sampleTwo_lastCount : sampleTwo.lastCount sampleHost = 2 := by decide +kernel

theorem sampleTwo_distinct : ∀ i j, i < j → j < sampleTwo.lastCount sampleHost →
    sampleHost.hashSHA256 (sampleTwo.chunk sampleHost i) ≠
      sampleHost.hashSHA256 (sampleTwo.chunk sampleHost j) := by
  intro i j hij hj
  rw [sampleTwo_lastCount] at hj
  obtain rfl : i = 0 := by omega
  obtain rfl : j = 1 := by omega
  decide +kernel

theorem sampleTwo_late : ∃ h, (downloaderMachine sampleHost Unit 65).Run
    (sampleTwo.Undelayed sampleHost) h (sampleTwo.waiting sampleHost 1 3) ∧ isOver h = false ∧
    .packetProvider () (sampleTwo.request sampleHost 0) ∈ outputs h ∧
    (sampleTwo.waiting sampleHost 1 3).handleData sampleHost
        (senderAnswer sampleHost sampleTwo.file (sampleTwo.request sampleHost 0)) true =
      (.construct 65, [.onFail () .retryCountExceeded]) :=
  Transfer.late_deliveries (t := sampleTwo) (i := 0) (k := 1) (by decide)
    (by rw [sampleTwo_lastCount]; decide) (by unfold Transfer.Has; decide +kernel)
    (by decide +kernel)

theorem retry_exceeded_iff_sample : ∃ h s ev out, (downloaderMachine sampleHost Unit 65).Run
    (sampleTwo.Undelayed sampleHost) h s ∧
    .onFail () .retryCountExceeded ∈ out ∧ refusedInARow (h ++ [⟨s, ev, out⟩]) = 3 := by
  obtain ⟨h, hr, hgo, hmem, hstep⟩ := sampleTwo_late
  let ev : DownloaderEvent sampleHost Unit := .command (.handleData (senderAnswer sampleHost
    sampleTwo.file (sampleTwo.request sampleHost 0))) true
  have hc : sampleTwo.Undelayed sampleHost h (sampleTwo.waiting sampleHost 1 3) ev :=
    .of_answer (by decide +kernel) (by rw [sampleTwo_lastCount]; decide) hmem
  have hiff := retry_exceeded_iff sampleTwo sampleTwo_distinct hr hgo hc (congrArg some hstep)
  exact ⟨h, _, ev, _, hr, List.mem_cons_self, hiff.1.mp List.mem_cons_self⟩

/-- The first packet is delivered four times and nothing is lost: the download of a file
with distinct chunks fails with `RETRY_COUNT_EXCEEDED`. -/
theorem late_answers_exhaust_attempts : ∃ h s, (downloaderMachine sampleHost Unit 65).Run
    (sampleTwo.Undelayed sampleHost) h s ∧
    (∀ i j, i < j → j < sampleTwo.lastCount sampleHost →
      sampleHost.hashSHA256 (sampleTwo.chunk sampleHost i) ≠
        sampleHost.hashSHA256 (sampleTwo.chunk sampleHost j)) ∧
    .onFail () .retryCountExceeded ∈ outputs h := by
  obtain ⟨h, hr, hgo, hmem, hstep⟩ := sampleTwo_late
  have hr' := Transfer.run_command hr (.handleData (senderAnswer sampleHost sampleTwo.file
    (sampleTwo.request sampleHost 0))) true
    (by exact .of_answer (by decide +kernel) (by rw [sampleTwo_lastCount]; decide) hmem) hstep
  refine ⟨_, _, hr', sampleTwo_distinct, ?_⟩
  rw [outputs_append]
  exact List.mem_append_right _ (by simp)

end WolkConnect
