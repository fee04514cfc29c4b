import WolkConnect.File.FileDownloader

/-! The life of a `FileDownloader`: between two commands it either waits for a packet with
all callbacks set or has no callback at all. -/
namespace WolkConnect
open Transition Transition.Machine
namespace FileDownloader

variable {κ : Type} {H : Host} {d : FileDownloader κ}

/-- As the constructor left it: no callback, no timer, empty buffer, zero counters. -/
def Cleared (d : FileDownloader κ) : Prop := d = construct d.maxPacketSize

/-- A packet is awaited: `callbacks` are set and the timer of its request is armed. -/
structure Live (d : FileDownloader κ) (callbacks : κ) : Prop where
  provider : d.packetProvider = some callbacks
  success : d.currentOnSuccessCallback = some callbacks
  fail : d.currentOnFailCallback = some callbacks
  timer : d.timer = true
  retry_pos : 1 ≤ d.retryCount
  retry_le : d.retryCount ≤ maxRetryCount

theorem cleared_construct (maxPacketSize : UInt64) :
    (construct maxPacketSize : FileDownloader κ).Cleared := rfl

theorem cleared_clear (h : d.timer = false) : d.clear.Cleared := by
  rw [clear_eq_construct h]
  exact cleared_construct _

theorem download_live (fileName : String) (fileSize : UInt64) (fileHash : ByteArray)
    (downloadDirectory : String) (callbacks : κ) :
    (d.download H fileName fileSize fileHash downloadDirectory callbacks).1.Live callbacks :=
  ⟨rfl, rfl, rfl, rfl, show (1 : UInt16) ≤ 0 + 1 by decide,
    show (0 : UInt16) + 1 ≤ maxRetryCount by decide⟩

/-- A request counts one attempt and arms the timer. -/
theorem requested_live {callbacks : κ} (hp : d.packetProvider = some callbacks)
    (hs : d.currentOnSuccessCallback = some callbacks)
    (hf : d.currentOnFailCallback = some callbacks) (hr : d.retryCount < maxRetryCount) :
    d.requested.Live callbacks := by
  refine ⟨hp, hs, hf, rfl, ?_, ?_⟩ <;> simp only [requested, maxRetryCount] at hr ⊢ <;> grind

/-- A failed packet either ends the download with the failure callback or is asked for
again; the timer was stopped or has just expired. -/
theorem Live.packetFailed_cases {callbacks : κ} (h : d.Live callbacks) :
    (d.retryCount = maxRetryCount ∧
      d.stopTimer.packetFailed =
        (construct d.maxPacketSize, [.onFail callbacks .retryCountExceeded])) ∨
    (d.retryCount ≠ maxRetryCount ∧
      d.stopTimer.packetFailed = (d.requested, [.packetProvider callbacks
        ⟨d.currentFileName, d.currentPacketIndex, d.currentPacketSize⟩]) ∧
      d.requested.Live callbacks) := by
  by_cases hr : d.retryCount = maxRetryCount
  · left
    refine ⟨hr, ?_⟩
    rw [packetFailed_of_eq (d := d.stopTimer) hr, clear_eq_construct rfl]
    simp [notifyFail, stopTimer, h.fail]
  · right
    have hlt : d.retryCount < maxRetryCount := by
      have hle := h.retry_le
      grind
    refine ⟨hr, ?_, requested_live h.provider h.success h.fail hlt⟩
    rw [packetFailed_of_ne (d := d.stopTimer) hr, requestPacket_some (d := d.stopTimer) h.provider]
    rfl

/-- The last packet of a live download ends it with an outcome callback. -/
theorem Live.downloadComplete_cases {callbacks : κ} (h : d.Live callbacks) (b : H.BinaryData)
    (created : Bool) :
    ((d.appended H b).downloadComplete H created).1 = construct d.maxPacketSize ∧
      ∃ o ∈ ((d.appended H b).downloadComplete H created).2, o.isOutcome = true := by
  have hc : (d.appended H b).clear = construct d.maxPacketSize := clear_eq_construct rfl
  have hf (code : FileTransferError) :
      (d.appended H b).notifyFail code = [.onFail callbacks code] := by
    simp [notifyFail, appended, h.fail]
  have hs (path : String) : (d.appended H b).notifySuccess path = [.onSuccess callbacks path] := by
    simp [notifySuccess, appended, h.success]
  rcases FileDownloader.downloadComplete_cases (H := H) (d.appended H b) created with
    ⟨_, he⟩ | ⟨_, _, he⟩ | ⟨_, _, he⟩ <;> simp [he, hc, hf, hs, Effect.isOutcome]

/-- A packet makes a live downloader end its download, or ask for it again, or append it and
ask for the next one. -/
theorem Live.handleData_cases {callbacks : κ} (h : d.Live callbacks) (b : H.BinaryData)
    (created : Bool) :
    ((d.handleData H b created).2.any Effect.isOutcome = true ∧
      (d.handleData H b created).1.Cleared) ∨
    (¬ d.fileHandler.Accepts H b ∧ d.handleData H b created = (d.requested,
      [.packetProvider callbacks
        ⟨d.currentFileName, d.currentPacketIndex, d.currentPacketSize⟩]) ∧
          d.requested.Live callbacks) ∨
    (d.fileHandler.Accepts H b ∧ d.currentPacketIndex + 1 ≠ d.currentPacketCount ∧
      d.handleData H b created = ((d.appended H b).requested, [.packetProvider callbacks
        ⟨d.currentFileName, d.currentPacketIndex + 1, d.currentPacketSize⟩]) ∧
          (d.appended H b).requested.Live callbacks) := by
  by_cases ha : d.fileHandler.Accepts H b
  · by_cases hl : d.currentPacketIndex + 1 = d.currentPacketCount
    · left
      rw [handleData_of_last ha hl]
      obtain ⟨hc, ho⟩ := h.downloadComplete_cases b created
      rw [hc]
      exact ⟨List.any_eq_true.mpr ho, cleared_construct _⟩
    · right; right
      rw [handleData_of_not_last ha hl, requestPacket_some (d := d.appended H b) h.provider]
      have hr : (d.appended H b).retryCount < maxRetryCount := show (0 : UInt16) < 3 by decide
      exact ⟨ha, hl, rfl, requested_live h.provider h.success h.fail hr⟩
  · rw [handleData_of_not_accepts ha]
    rcases h.packetFailed_cases with ⟨_, he⟩ | ⟨_, he, hlive⟩
    · left
      rw [he]
      exact ⟨rfl, cleared_construct _⟩
    · right; left
      exact ⟨ha, he, hlive⟩

/-- No callback is set and no file is announced: the downloader was cleared, and since
then only packets came. -/
structure Idle (d : FileDownloader κ) : Prop where
  provider : d.packetProvider = none
  success : d.currentOnSuccessCallback = none
  fail : d.currentOnFailCallback = none
  timer : d.timer = false
  count : d.currentPacketCount = 0
  fileHash : d.currentFileHash = []

theorem Cleared.idle (h : d.Cleared) : d.Idle := by
  rw [h]
  constructor <;> rfl

/-- The packet makes an idle downloader clear itself: it is refused and no attempt is left,
or it is taken and the index wraps around to the packet count, which is zero. -/
def Clears (H : Host) (d : FileDownloader κ) (b : H.BinaryData) : Prop :=
  if d.fileHandler.Accepts H b then d.currentPacketIndex + 1 = 0 else d.retryCount = maxRetryCount

/-- A downloader that was just cleared has all attempts and index zero. -/
theorem Cleared.not_clears (h : d.Cleared) (b : H.BinaryData) : ¬ d.Clears H b := by
  have hr : d.retryCount = 0 := by rw [h]; rfl
  have hi : d.currentPacketIndex = 0 := by rw [h]; rfl
  unfold Clears
  split
  · rw [hi]
    decide
  · rw [hr]
    decide

theorem Idle.handleData_of_clears (h : d.Idle) {b : H.BinaryData} (hb : d.Clears H b)
    (created : Bool) : (d.handleData H b created).2 = [] ∧
      (d.handleData H b created).1.Cleared := by
  unfold Clears at hb
  split at hb
  next ha =>
    have hl : d.currentPacketIndex + 1 = d.currentPacketCount := by rw [hb, h.count]
    have hhash : (d.appended H b).currentFileHash ≠
        H.hashSHA256 (d.appended H b).fileHandler.currentPacketData := by
      change d.currentFileHash ≠ _
      rw [h.fileHash]
      exact (H.hashSHA256_ne_nil _).symm
    rw [handleData_of_last ha hl]
    rcases FileDownloader.downloadComplete_cases (H := H) (d.appended H b) created with
      ⟨_, he⟩ | ⟨heq, _⟩ | ⟨heq, _⟩
    · rw [he]
      exact ⟨notifyFail_none (d := d.appended H b) h.fail _, cleared_clear rfl⟩
    · exact absurd heq hhash
    · exact absurd heq hhash
  next ha =>
    rw [handleData_of_not_accepts ha, packetFailed_of_eq (d := d.stopTimer) hb]
    exact ⟨notifyFail_none (d := d.stopTimer) h.fail _, cleared_clear rfl⟩

/-- Any other packet makes an idle downloader call its null packet provider. -/
theorem Idle.handleData_of_not_clears (h : d.Idle) {b : H.BinaryData} (hb : ¬ d.Clears H b)
    (created : Bool) : (d.handleData H b created).2 = [.badFunctionCall] ∧
      (d.handleData H b created).1.Idle := by
  unfold Clears at hb
  split at hb
  next ha =>
    have hl : d.currentPacketIndex + 1 ≠ d.currentPacketCount := by rwa [h.count]
    rw [handleData_of_not_last ha hl, requestPacket_none (d := d.appended H b) h.provider]
    exact ⟨rfl, h.provider, h.success, h.fail, rfl, h.count, h.fileHash⟩
  next ha =>
    rw [handleData_of_not_accepts ha, packetFailed_of_ne (d := d.stopTimer) hb,
      requestPacket_none (d := d.stopTimer) h.provider]
    exact ⟨rfl, h.provider, h.success, h.fail, rfl, h.count, h.fileHash⟩

theorem Live.not_idle {callbacks : κ} (h : d.Live callbacks) : ¬ d.Idle := by
  intro hi
  have hprovider := h.provider
  rw [hi.provider] at hprovider
  cases hprovider

/-- The event neither starts nor aborts a download. -/
def continues : DownloaderEvent H κ → Bool
  | .command (.handleData _) _ => true
  | .timerExpired => true
  | _ => false

/-- What a step of a live or idle downloader comes to: a download starts, is aborted, ends with
its outcome, asks for a packet again or for the next one; an idle downloader is cleared by a
packet or throws. -/
inductive LifeMoves (d : FileDownloader κ) :
    DownloaderEvent H κ → FileDownloader κ → List (Effect κ) → Prop where
  | downloaded (fileName fileSize fileHash downloadDirectory callbacks created) :
      LifeMoves d
        (.command (.download fileName fileSize fileHash downloadDirectory callbacks) created)
        (d.download H fileName fileSize fileHash downloadDirectory callbacks).1
        (d.download H fileName fileSize fileHash downloadDirectory callbacks).2
  | aborted (created d') (hc : Cleared d') : LifeMoves d (.command .abort created) d' []
  | ended (ev d' out callbacks) (hl : d.Live callbacks) (hev : continues ev = true)
      (hc : Cleared d') (hout : out.any Effect.isOutcome = true) : LifeMoves d ev d' out
  | repeated (ev callbacks) (hl : d.Live callbacks) (hev : continues ev = true)
      (hl' : d.requested.Live callbacks) : LifeMoves d ev d.requested [.packetProvider callbacks
        ⟨d.currentFileName, d.currentPacketIndex, d.currentPacketSize⟩]
  | appended (b created callbacks) (hl : d.Live callbacks) (ha : d.fileHandler.Accepts H b)
      (hlast : d.currentPacketIndex + 1 ≠ d.currentPacketCount)
      (hl' : (d.appended H b).requested.Live callbacks) :
      LifeMoves d (.command (.handleData b) created) (d.appended H b).requested
        [.packetProvider callbacks
          ⟨d.currentFileName, d.currentPacketIndex + 1, d.currentPacketSize⟩]
  | wiped (b created d') (hi : d.Idle) (hc : Cleared d') :
      LifeMoves d (.command (.handleData b) created) d' []
  | threw (b created d') (hi : d.Idle) (hi' : Idle d') :
      LifeMoves d (.command (.handleData b) created) d' [.badFunctionCall]

theorem Live.lifeMoves_data {callbacks : κ} (h : d.Live callbacks) (b : H.BinaryData)
    (created : Bool) : d.LifeMoves (.command (.handleData b) created)
      (d.handleData H b created).1 (d.handleData H b created).2 := by
  rcases h.handleData_cases b created with ⟨hany, hc⟩ | ⟨_, he, hl⟩ | ⟨ha, hlast, he, hl⟩
  · exact .ended _ _ _ callbacks h rfl hc hany
  · rw [he]
    exact .repeated _ callbacks h rfl hl
  · rw [he]
    exact .appended b created callbacks h ha hlast hl

theorem Idle.lifeMoves_data (h : d.Idle) (b : H.BinaryData) (created : Bool) :
    d.LifeMoves (.command (.handleData b) created)
      (d.handleData H b created).1 (d.handleData H b created).2 := by
  by_cases hb : d.Clears H b
  · obtain ⟨hout, hc⟩ := h.handleData_of_clears hb created
    rw [hout]
    exact .wiped b created _ h hc
  · obtain ⟨hout, hi⟩ := h.handleData_of_not_clears hb created
    rw [hout]
    exact .threw b created _ h hi

/-- The inversion of a step, for every downloader that a run can reach. -/
theorem lifeMoves_of_step {maxPacketSize : UInt64} {d' : FileDownloader κ}
    {ev : DownloaderEvent H κ} {out : List (Effect κ)}
    (hlife : (∃ callbacks, d.Live callbacks) ∨ d.Idle)
    (hstep : (downloaderMachine H κ maxPacketSize).step d ev = some (d', out)) :
    d.LifeMoves ev d' out := by
  cases ev with
  | timerExpired =>
    change d.timerExpired = some (d', out) at hstep
    rcases hlife with ⟨callbacks, hl⟩ | hi
    · simp only [timerExpired, hl.timer, ↓reduceIte] at hstep
      rcases hl.packetFailed_cases with ⟨_, he⟩ | ⟨_, he, hl'⟩
      · rw [he] at hstep
        obtain ⟨rfl, rfl⟩ := Prod.mk.inj (Option.some.inj hstep)
        exact .ended _ _ _ callbacks hl rfl (cleared_construct _) rfl
      · rw [he] at hstep
        obtain ⟨rfl, rfl⟩ := Prod.mk.inj (Option.some.inj hstep)
        exact .repeated _ callbacks hl rfl hl'
    · simp [timerExpired, hi.timer] at hstep
  | command c created =>
    have he : d.run H c created = (d', out) := Option.some.inj hstep
    obtain ⟨rfl, rfl⟩ := Prod.mk.inj he.symm
    cases c with
    | download fileName fileSize fileHash downloadDirectory callbacks =>
      exact .downloaded fileName fileSize fileHash downloadDirectory callbacks created
    | abort => exact .aborted created _ (cleared_clear rfl)
    | handleData b =>
      rcases hlife with ⟨callbacks, hl⟩ | hi
      · exact hl.lifeMoves_data b created
      · exact hi.lifeMoves_data b created

end FileDownloader

variable {κ : Type} {H : Host} {maxPacketSize : UInt64}

/-- What a run of one downloader did so far. -/
abbrev DownloaderHistory (H : Host) (κ : Type) :=
  List (Moment (FileDownloader κ) (DownloaderEvent H κ) (Effect κ))

/-- The download is over: since the last `download` an abort was processed or a success
or failure callback was invoked. -/
def isOver (h : DownloaderHistory H κ) : Bool :=
  h.foldl (fun ended m => match m.event with
    | .command (.download ..) _ => false
    | .command .abort _ => true
    | _ => ended || m.output.any Effect.isOutcome) false

theorem isOver_append (h : DownloaderHistory H κ)
    (m : Moment (FileDownloader κ) (DownloaderEvent H κ) (Effect κ)) :
    isOver (h ++ [m]) = match m.event with
      | .command (.download ..) _ => false
      | .command .abort _ => true
      | _ => isOver h || m.output.any Effect.isOutcome := by
  simp [isOver, List.foldl_append]

/-- The history goes on with a packet or an expiry. -/
theorem isOver_continues {h : DownloaderHistory H κ} {s : FileDownloader κ}
    {ev : DownloaderEvent H κ} {out : List (Effect κ)} (hev : FileDownloader.continues ev = true) :
    isOver (h ++ [⟨s, ev, out⟩]) = (isOver h || out.any Effect.isOutcome) := by
  rw [isOver_append]
  unfold FileDownloader.continues at hev
  split at hev
  · rfl
  · rfl
  · cases hev

variable {C : Condition (FileDownloader κ) (DownloaderEvent H κ) (Effect κ)}
  {h : DownloaderHistory H κ} {s : FileDownloader κ}

/-- A downloader is live with its download not over, or it is idle; it is cleared then
unless its null packet provider has been called. -/
theorem downloader_live_or_idle (hrun : (downloaderMachine H κ maxPacketSize).Run C h s) :
    (∃ callbacks, s.Live callbacks ∧ isOver h = false) ∨
      (s.Idle ∧ (.badFunctionCall ∉ outputs h → s.Cleared)) := by
  induction hrun with
  | start =>
    have hc : (FileDownloader.construct maxPacketSize : FileDownloader κ).Cleared := rfl
    exact .inr ⟨hc.idle, fun _ => hc⟩
  | @step h s s' ev out _ _ hstep ih =>
    have hlife : (∃ callbacks, s.Live callbacks) ∨ s.Idle :=
      ih.imp (fun ⟨callbacks, hl, _⟩ => ⟨callbacks, hl⟩) And.left
    have hover {callbacks : κ} (hl : s.Live callbacks) : isOver h = false := by
      rcases ih with ⟨_, _, ho⟩ | ⟨hi, _⟩
      · exact ho
      · exact absurd hi hl.not_idle
    rw [outputs_append, outputs_singleton]
    have hcleared {os : List (Effect κ)} (hc : s'.Cleared) :
        s'.Idle ∧ (.badFunctionCall ∉ os → s'.Cleared) := ⟨hc.idle, fun _ => hc⟩
    cases FileDownloader.lifeMoves_of_step hlife hstep with
    | downloaded fileName fileSize fileHash directory callbacks created =>
      left
      exact ⟨callbacks, FileDownloader.download_live _ _ _ _ _, by rw [isOver_append]⟩
    | aborted created d' hc => exact .inr (hcleared hc)
    | ended ev d' out callbacks hl hev hc hout => exact .inr (hcleared hc)
    | repeated ev callbacks hl hev hl' =>
      left
      exact ⟨callbacks, hl', by rw [isOver_continues hev, hover hl]; rfl⟩
    | appended b created callbacks hl ha hlast hl' =>
      left
      exact ⟨callbacks, hl', by rw [isOver_continues rfl, hover hl]; rfl⟩
    | wiped b created d' hi hc => exact .inr (hcleared hc)
    | threw b created d' hi hi' =>
      right
      exact ⟨hi', fun hthrow => absurd (List.mem_append_right _ List.mem_cons_self) hthrow⟩

theorem idle_of_over (hrun : (downloaderMachine H κ maxPacketSize).Run C h s)
    (hover : isOver h = true) : s.Idle ∧ (.badFunctionCall ∉ outputs h → s.Cleared) := by
  rcases downloader_live_or_idle hrun with ⟨_, _, ho⟩ | hi
  · rw [ho] at hover
    cases hover
  · exact hi

/-- Processing `b` now would invoke no callback, ask for no packet and leave the downloader
cleared. -/
def HarmlessData (H : Host) (s : FileDownloader κ) (b : H.BinaryData) (created : Bool) : Prop :=
  (s.handleData H b created).2 = [] ∧ (s.handleData H b created).1.Cleared

/-- A packet that reaches a downloader whose download is over is harmless only if it makes
the downloader clear itself once more. The first such packet never does: it makes the
downloader call its null packet provider, which throws in the worker. -/
theorem late_data_harmless_iff (hrun : (downloaderMachine H κ maxPacketSize).Run Free h s)
    (hover : isOver h = true) (b : H.BinaryData) (created : Bool) :
    (HarmlessData H s b created ↔ s.Clears H b) ∧
    (.badFunctionCall ∉ outputs h → (s.handleData H b created).2 = [.badFunctionCall]) := by
  obtain ⟨hi, hc⟩ := idle_of_over hrun hover
  refine ⟨⟨?_, ?_⟩, ?_⟩
  · intro hh
    by_contra hb
    have ht := (hi.handleData_of_not_clears hb created).1
    cases ht.symm.trans hh.1
  · intro hb
    exact hi.handleData_of_clears hb created
  · intro hthrow
    exact (hi.handleData_of_not_clears ((hc hthrow).not_clears b) created).1

/-- A one-byte file is announced and its only packet arrives. -/
def sampleDownload : List (DownloaderEvent sampleHost Unit) :=
  [.command (.download "f" 1 (sampleHost.hashSHA256 [97]) "/files" ()) true,
    .command (.handleData (sampleHost.packet firstPreviousHash [97])) true]

theorem sampleDownload_over : ∃ h s, (downloaderMachine sampleHost Unit 66).Run Free h s ∧
    .badFunctionCall ∉ outputs h ∧ isOver h = true := by
  obtain ⟨h, s, hr, hp⟩ := (downloaderMachine sampleHost Unit 66).exists_run_of_replay Free
    sampleDownload (fun h _ => decide (.badFunctionCall ∉ outputs h) && isOver h)
    (by decide +kernel)
  simp only [Bool.and_eq_true, decide_eq_true_eq] at hp
  exact ⟨h, s, hr, hp⟩

theorem late_data_harmless_iff_sample : ∃ h s,
    (downloaderMachine sampleHost Unit 66).Run Free h s ∧ isOver h = true ∧
    (s.handleData sampleHost (sampleHost.packet firstPreviousHash [97]) true).2 =
      [.badFunctionCall] := by
  obtain ⟨h, s, hr, ht, ho⟩ := sampleDownload_over
  exact ⟨h, s, hr, ho, (late_data_harmless_iff hr ho _ true).2 ht⟩

/-- The packet of the finished download, delivered once more, is not harmless. -/
theorem late_data_not_harmless : ∃ h s, (downloaderMachine sampleHost Unit 66).Run Free h s ∧
    .badFunctionCall ∉ outputs h ∧ isOver h = true ∧
    ¬ HarmlessData sampleHost s (sampleHost.packet firstPreviousHash [97]) true := by
  obtain ⟨h, s, hr, hp⟩ := (downloaderMachine sampleHost Unit 66).exists_run_of_replay Free
    sampleDownload (fun h s => decide (.badFunctionCall ∉ outputs h) && isOver h &&
      decide ((s.handleData sampleHost (sampleHost.packet firstPreviousHash [97]) true).2 ≠ []))
    (by decide +kernel)
  simp only [Bool.and_eq_true, decide_eq_true_eq] at hp
  exact ⟨h, s, hr, hp.1.1, hp.1.2, fun hh => hp.2 hh.1⟩

end WolkConnect
