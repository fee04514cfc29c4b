import WolkConnect.File.EntryRuns
import WolkConnect.File.Integrity
import WolkConnect.File.LifeCycle

/-! No transfer hangs: as long as it is not over it can go on by its own timer, and every packet and
every expiry uses up one of three attempts for each packet. -/
namespace WolkConnect
open Transition Transition.Machine

variable {H : Host}

namespace FileDownloader

variable {κ : Type} {d d' : FileDownloader κ} {callbacks : κ} {ev : DownloaderEvent H κ}
  {out : List (Effect κ)} {maxPacketSize : UInt64}

/-- How many packets and expiries a download in progress can still take. -/
def attemptsLeft (d : FileDownloader κ) : ℕ :=
  3 * (d.currentPacketCount.toNat - d.currentPacketIndex.toNat) + 1 - d.retryCount.toNat

theorem Live.callbacks_unique {passed : κ} (h : d.Live callbacks) (h' : d.Live passed) :
    passed = callbacks := by
  have hprovider := h'.provider
  rw [h.provider] at hprovider
  exact (Option.some.inj hprovider).symm

theorem Live.retry_toNat_le (h : d.Live callbacks) : d.retryCount.toNat ≤ 3 :=
  UInt16.le_iff_toNat_le.mp h.retry_le

theorem Downloading.attemptsLeft_pos (h : d.Downloading callbacks) : 0 < d.attemptsLeft := by
  have hindex := UInt32.lt_iff_toNat_lt.mp h.index_lt
  have hretry := h.retry_toNat_le
  unfold attemptsLeft
  omega

theorem Downloading.requested (h : d.Downloading callbacks) (hlive : d.requested.Live callbacks) :
    d.requested.Downloading callbacks ∧ d.requested.attemptsLeft < d.attemptsLeft := by
  refine ⟨⟨hlive, h.index_lt⟩, ?_⟩
  have hindex := UInt32.lt_iff_toNat_lt.mp h.index_lt
  have hretry : d.requested.retryCount.toNat = d.retryCount.toNat + 1 := by
    have hbound := h.retry_toNat_le
    have hone : (1 : UInt16).toNat = 1 := rfl
    show (d.retryCount + 1).toNat = _
    rw [UInt16.toNat_add]
    omega
  have hbound := hlive.retry_toNat_le
  unfold attemptsLeft
  rw [hretry] at hbound ⊢
  show 3 * (d.currentPacketCount.toNat - d.currentPacketIndex.toNat) + 1 - _ < _
  omega

/-- The next packet has its three attempts again. -/
theorem Downloading.appended {b : H.BinaryData} (h : d.Downloading callbacks)
    (hlast : d.currentPacketIndex + 1 ≠ d.currentPacketCount)
    (hlive : (d.appended H b).requested.Live callbacks) :
    (d.appended H b).requested.Downloading callbacks ∧
      (d.appended H b).requested.attemptsLeft < d.attemptsLeft := by
  have hnext := h.next_index hlast
  refine ⟨⟨hlive, hnext⟩, ?_⟩
  have hindex := UInt32.lt_iff_toNat_lt.mp h.index_lt
  have hretry := h.retry_toNat_le
  have hsucc : (d.currentPacketIndex + 1).toNat = d.currentPacketIndex.toNat + 1 := by
    have hlt := d.currentPacketCount.toNat_lt
    have hone : (1 : UInt32).toNat = 1 := rfl
    rw [UInt32.toNat_add]
    omega
  unfold attemptsLeft
  show 3 * (d.currentPacketCount.toNat - (d.currentPacketIndex + 1).toNat) + 1 - 1 < _
  rw [hsucc]
  omega

/-- Every packet and every expiry ends the download or uses up an attempt. -/
theorem Downloading.uses_attempt (h : d.Downloading callbacks) (hev : continues ev = true)
    (hstep : (downloaderMachine H κ maxPacketSize).step d ev = some (d', out))
    (hout : out.any Effect.isOutcome = false) :
    d'.Downloading callbacks ∧ d'.attemptsLeft < d.attemptsLeft := by
  cases lifeMoves_of_step (.inl ⟨callbacks, h.toLive⟩) hstep with
  | downloaded fileName fileSize fileHash directory passed created => cases hev
  | aborted created _ hc => cases hev
  | ended _ _ _ passed hl _ hc hany =>
    rw [hany] at hout
    cases hout
  | repeated _ passed hl _ hl' =>
    obtain rfl := h.toLive.callbacks_unique hl
    exact h.requested hl'
  | appended b created passed hl ha hlast hl' =>
    obtain rfl := h.toLive.callbacks_unique hl
    exact h.appended hlast hl'
  | wiped b created _ hi hc => exact absurd hi h.toLive.not_idle
  | threw b created _ hi hi' => exact absurd hi h.toLive.not_idle

/-- The first packet is asked for. -/
theorem downloading_of_plan (fileName directory : String) {fileSize : UInt64}
    (fileHash : ByteArray) (callbacks : κ)
    (hcount : (packetPlan H d.maxPacketSize fileSize).1 ≠ 0) :
    (d.download H fileName fileSize fileHash directory callbacks).1.Downloading callbacks ∧
      (d.download H fileName fileSize fileHash directory callbacks).1.attemptsLeft =
        3 * (packetPlan H d.maxPacketSize fileSize).1.toNat := by
  refine ⟨⟨download_live _ _ _ _ _, UInt32.pos_iff_ne_zero.mpr hcount⟩, ?_⟩
  show 3 * ((packetPlan H d.maxPacketSize fileSize).1.toNat - 0) + 1 - 1 = _
  omega

end FileDownloader

/-- How many packets were taken and how often the timer expired. -/
def attempts {κ : Type} (h : DownloaderHistory H κ) : ℕ :=
  h.countP fun m => FileDownloader.continues m.event

theorem attempts_append {κ : Type} (h k : DownloaderHistory H κ) :
    attempts (h ++ k) = attempts h + attempts k := List.countP_append

/-- The state of an entry whose download of `size` bytes is not over: `download` is still queued, or
the packets and expiries so far leave some for later. -/
inductive Entry.Underway (maxPacketSize size : UInt64) (e : Entry H) :
    DownloaderHistory H Capture → Prop where
  | queued (fileName fileHash directory callbacks rest)
      (hq : e.commandBuffer = .download fileName size fileHash directory callbacks :: rest)
      (hrest : ∀ c ∈ rest, ∃ b, c = .handleData b)
      (hd : e.downloader = .construct maxPacketSize) : e.Underway maxPacketSize size []
  | running (hist callbacks) (hq : ∀ c ∈ e.commandBuffer, ∃ b, c = .handleData b)
      (hd : e.downloader.Downloading callbacks)
      (hle : attempts hist + e.downloader.attemptsLeft ≤
        3 * (FileDownloader.packetPlan H maxPacketSize size).1.toNat) :
      e.Underway maxPacketSize size hist

namespace Entry.Underway

variable {maxPacketSize size : UInt64} {e : Entry H} {hist : DownloaderHistory H Capture}

theorem push (h : e.Underway maxPacketSize size hist) (b : H.BinaryData) :
    (e.push (.handleData b)).Underway maxPacketSize size hist := by
  have hpush {cs : List (Command H Capture)} (hcs : ∀ c ∈ cs, ∃ b, c = .handleData b) :
      ∀ c ∈ cs ++ [.handleData b], ∃ b, c = .handleData b := by
    intro c hc
    rcases List.mem_append.mp hc with hc | hc
    · exact hcs c hc
    · exact ⟨b, List.mem_singleton.mp hc⟩
  cases h with
  | queued fileName fileHash directory callbacks rest hq hrest hd =>
    refine .queued fileName fileHash directory callbacks (rest ++ [.handleData b]) ?_
      (hpush hrest) hd
    show e.commandBuffer ++ _ = _
    rw [hq, List.cons_append]
  | running _ callbacks hq hd hle => exact .running hist callbacks (hpush hq) hd hle

/-- A packet or an expiry after which the download is not over. -/
theorem next {ev : DownloaderEvent H Capture} {d : FileDownloader Capture}
    {out : List (Effect Capture)} {callbacks : Capture} (rest : List (Command H Capture))
    {flag : Bool} (hd : e.downloader.Downloading callbacks)
    (hle : attempts hist + e.downloader.attemptsLeft ≤
      3 * (FileDownloader.packetPlan H maxPacketSize size).1.toNat)
    (hrest : ∀ c ∈ rest, ∃ b, c = .handleData b) (hev : FileDownloader.continues ev = true)
    (hstep : (downloaderMachine H Capture maxPacketSize).step e.downloader ev = some (d, out))
    (hout : out.any Effect.isOutcome = false) :
    ({ e with downloader := d, commandBuffer := rest, flag := flag } : Entry H).Underway
      maxPacketSize size (hist ++ [⟨e.downloader, ev, out⟩]) := by
  obtain ⟨hd', hlt⟩ := hd.uses_attempt hev hstep hout
  refine .running _ callbacks hrest hd' ?_
  have hone : attempts [(⟨e.downloader, ev, out⟩ :
      Moment (FileDownloader Capture) (DownloaderEvent H Capture) (Effect Capture))] = 1 := by
    simp [attempts, hev]
  rw [attempts_append, hone]
  show attempts hist + 1 + d.attemptsLeft ≤ _
  omega

theorem ran (h : e.Underway maxPacketSize size hist)
    (hcount : (FileDownloader.packetPlan H maxPacketSize size).1 ≠ 0)
    {c : Command H Capture} {rest : List (Command H Capture)} {created flag : Bool}
    (hc : e.commandBuffer = c :: rest)
    (hout : (e.downloader.run H c created).2.any Effect.isOutcome = false) :
    ({ e with downloader := (e.downloader.run H c created).1
              commandBuffer := rest
              flag := flag } : Entry H).Underway maxPacketSize size
      (hist ++ [⟨e.downloader, .command c created, (e.downloader.run H c created).2⟩]) := by
  cases h with
  | queued fileName fileHash directory callbacks rest' hq hrest hd =>
    obtain ⟨rfl, rfl⟩ := List.cons_eq_cons.mp (hq.symm.trans hc)
    have hplan : (FileDownloader.packetPlan H e.downloader.maxPacketSize size).1 ≠ 0 := by
      rw [hd]
      exact hcount
    obtain ⟨hd', hleft⟩ :=
      FileDownloader.downloading_of_plan fileName directory fileHash callbacks hplan
    refine .running _ callbacks hrest hd' ?_
    show 0 + (e.downloader.download H fileName size fileHash directory callbacks).1.attemptsLeft ≤ _
    rw [hleft, hd, Nat.zero_add]
    exact le_rfl
  | running _ callbacks hq hd hle =>
    rw [hc] at hq
    obtain ⟨b, rfl⟩ := hq c List.mem_cons_self
    exact next _ hd hle (fun c' hc' => hq c' (List.mem_cons_of_mem _ hc')) rfl rfl hout

theorem expired (h : e.Underway maxPacketSize size hist)
    {r : FileDownloader Capture × List (Effect Capture)} {flag : Bool}
    (hr : e.downloader.timerExpired = some r) (hout : r.2.any Effect.isOutcome = false) :
    ({ e with downloader := r.1, flag := flag } : Entry H).Underway maxPacketSize size
      (hist ++ [⟨e.downloader, .timerExpired, r.2⟩]) := by
  cases h with
  | queued fileName fileHash directory callbacks rest hq hrest hd =>
    rw [hd] at hr
    cases hr
  | running _ callbacks hq hd hle => exact next e.commandBuffer hd hle hq rfl hr hout

end Entry.Underway

variable {deviceKey directory : String} {maxPacketSize : UInt64}
  {C : Condition (FileDownloadService H) (ServiceEvent H) Output} {h : ServiceHistory H}
  {s : FileDownloadService H}

/-- A call that was not made yet has no history. -/
theorem run_fresh (hrun : (fileDownloadMachine H deviceKey directory maxPacketSize).Run C h s)
    {call : ℕ} (hcall : s.calls ≤ call) : entryHistory call h = [] := by
  induction hrun with
  | start => rfl
  | step hr _ hstep ih =>
    have hle := (FileDownloadService.step_moves hstep).calls_le.trans hcall
    rw [entryHistory_append, FileDownloadService.entryMoment_fresh (run_wf hr) hle, ih hle]
    rfl

/-- The downloads of all entries that are not flagged are underway. -/
theorem run_underway (hrun : (fileDownloadMachine H deviceKey directory maxPacketSize).Run C h s)
    {name : String} {e : Entry H} (he : s.activeDownloads name = some e) (hflag : e.flag = false) :
    ∃ size, .download e.call name size e.hash ∈ outputs h ∧
      ((FileDownloader.packetPlan H maxPacketSize size).1 ≠ 0 →
        e.Underway maxPacketSize size (entryHistory e.call h)) := by
  induction hrun generalizing name e with
  | start => cases he
  | @step h s s' ev out hr _ hstep ih =>
    have hwf := run_wf hr
    rw [outputs_append, outputs_singleton, entryHistory_append]
    have hidle {f : Entry H} (hf : s.activeDownloads name = some f) (hflag : f.flag = false)
        (hev : ∀ created, ev ≠ .downloaderCommand name created) (hexp : ev ≠ .timerExpired name) :
        ∃ size, .download f.call name size f.hash ∈ outputs h ++ out ∧
          ((FileDownloader.packetPlan H maxPacketSize size).1 ≠ 0 → f.Underway maxPacketSize size
            (entryHistory f.call h ++ (entryMoment f.call ⟨s, ev, out⟩).toList)) := by
      obtain ⟨size, hs, hunderway⟩ := ih hf hflag
      refine ⟨size, List.mem_append_left _ hs, ?_⟩
      rw [FileDownloadService.entryMoment_idle hwf hf hev hexp, Option.toList_none, List.append_nil]
      exact hunderway
    cases (FileDownloadService.step_moves hstep).entryMoves hwf he with
    | kept _ hf hev hexp => exact hidle hf hflag hev hexp
    | pushed b f hf hq hev hexp =>
      obtain ⟨size, hs, hunderway⟩ := hidle hf hflag hev hexp
      exact ⟨size, hs, fun hcount => (hunderway hcount).push b⟩
    | aborted f hf hq hev hexp => cases hflag
    | started size hash hf hout =>
      refine ⟨size, List.mem_append_right _ hout, fun _ => ?_⟩
      show Entry.Underway maxPacketSize size (s.newEntry name size hash)
        (entryHistory s.calls h ++ (entryMoment s.calls ⟨s, ev, out⟩).toList)
      rw [run_fresh hr le_rfl, FileDownloadService.entryMoment_fresh hwf le_rfl,
        ← run_maxPacketSize hr]
      exact .queued name _ _ _ [] rfl (by simp) rfl
    | ran created f c rest hf hc hev hout =>
      subst hev
      obtain ⟨hflag, hany⟩ := Bool.or_eq_false_iff.mp hflag
      obtain ⟨size, hs, hunderway⟩ := ih hf hflag
      refine ⟨size, List.mem_append_left _ hs, fun hcount => ?_⟩
      rw [FileDownloadService.entryMoment_command hf hc]
      exact (hunderway hcount).ran hcount hc hany
    | expired f r hf hexp hev =>
      subst hev
      obtain ⟨hflag, hany⟩ := Bool.or_eq_false_iff.mp hflag
      obtain ⟨size, hs, hunderway⟩ := ih hf hflag
      refine ⟨size, List.mem_append_left _ hs, fun hcount => ?_⟩
      rw [FileDownloadService.entryMoment_expiry hf hexp]
      exact (hunderway hcount).expired hexp hany

/-- A transfer that is not over has had fewer than three packets and expiries for each of its
packets, and its timer is armed unless `download` is still queued. -/
theorem transfer_bounded
    (hrun : (fileDownloadMachine H deviceKey directory maxPacketSize).Run C h s) {name : String}
    {e : Entry H} (he : s.activeDownloads name = some e) (hflag : e.flag = false) {size : UInt64}
    {hash : String} (hdownload : .download e.call name size hash ∈ outputs h)
    (hcount : (FileDownloader.packetPlan H maxPacketSize size).1 ≠ 0) :
    attempts (entryHistory e.call h) <
        3 * (FileDownloader.packetPlan H maxPacketSize size).1.toNat ∧
      (e.downloader.timer = true ∨ ∃ rest, e.commandBuffer =
        .download name size (H.base64Decode e.hash) directory (e.capture name) :: rest) := by
  obtain ⟨announced, hannounced, hunderway⟩ := run_underway hrun he hflag
  obtain ⟨-, rfl, -⟩ := run_call_unique hrun hannounced hdownload
  have hok := (run_wf hrun).entry he
  rw [run_directory hrun] at hok
  generalize entryHistory e.call h = hist at hunderway ⊢
  cases hunderway hcount with
  | queued fileName fileHash downloadDirectory callbacks rest hq hrest hd =>
    have hmem : .download fileName size fileHash downloadDirectory callbacks ∈
        e.commandBuffer := by simp [hq]
    obtain rfl := hok.queued _ hmem callbacks rfl
    obtain ⟨rfl, rfl, rfl⟩ := hok.queued_announced _ hmem _ _ _ _ _ rfl
    refine ⟨?_, .inr ⟨rest, hq⟩⟩
    have hpos : 0 < (FileDownloader.packetPlan H maxPacketSize size).1.toNat :=
      UInt32.lt_iff_toNat_lt.mp (UInt32.pos_iff_ne_zero.mpr hcount)
    show 0 < _
    omega
  | running _ callbacks hq hd hle =>
    have hpos := hd.attemptsLeft_pos
    exact ⟨by omega, .inl hd.timer⟩

/-- Two of the three attempts for the only packet of `f` are used up. -/
theorem transfer_bounded_sample : ∃ h s e, sampleService.Run Free h s ∧
    s.activeDownloads "f" = some e ∧ attempts (entryHistory e.call h) = 2 ∧
      attempts (entryHistory e.call h) < 3 * 1 := by
  obtain ⟨h, s, hrun, ht⟩ := sampleService.exists_run_of_replay Free
    [.messageReceived (.fileUploadInitiate "f" 1 sampleHash), .serviceCommand none,
      .downloaderCommand "f" true, .timerExpired "f", .timerExpired "f"]
    (fun h s => (s.activeDownloads "f").any fun e => !e.flag &&
      decide (attempts (entryHistory e.call h) = 2) &&
        decide (.download e.call "f" 1 sampleHash ∈ outputs h)) (by decide +kernel)
  obtain ⟨e, he, ht⟩ := (Option.any_eq_true _ _).mp ht
  simp only [Bool.and_eq_true, Bool.not_eq_true', decide_eq_true_eq] at ht
  obtain ⟨⟨hflag, htwo⟩, hdownload⟩ := ht
  have hplan : (FileDownloader.packetPlan sampleHost 66 1).1 = 1 := by decide +kernel
  have hbound := (transfer_bounded hrun he hflag hdownload (by rw [hplan]; decide)).1
  rw [hplan] at hbound
  exact ⟨h, s, e, hrun, he, htwo, hbound⟩

end WolkConnect
