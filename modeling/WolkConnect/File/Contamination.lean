import WolkConnect.File.EntryRuns
import WolkConnect.File.HonestSender

/-! Which packets reach the buffer of a download when the platform is honest but may
answer late: what a packet answers is not in it, only the digest of the data before. -/
namespace WolkConnect
open Transition Transition.Machine

variable {H : Host} {κ : Type}

/-- The packet that the step appends to the buffer. -/
def takenPacket (m : Moment (FileDownloader κ) (DownloaderEvent H κ) (Effect κ)) :
    Option H.BinaryData :=
  match m.event with
  | .command (.handleData b) _ => if m.state.fileHandler.Accepts H b then some b else none
  | _ => none

/-- Whether the step leaves a cleared buffer. -/
def clearsBuffer (m : Moment (FileDownloader κ) (DownloaderEvent H κ) (Effect κ)) : Bool :=
  match m.event with
  | .command c created => decide ((m.state.run H c created).1.fileHandler = .empty)
  | .timerExpired => m.state.timerExpired.any fun r => decide (r.1.fileHandler = .empty)

/-- The packets appended since the buffer was last cleared. -/
def bufferedPackets
    (h : List (Moment (FileDownloader κ) (DownloaderEvent H κ) (Effect κ))) : List H.BinaryData :=
  h.foldl (fun bs m => if clearsBuffer m then [] else bs ++ (takenPacket m).toList) []

theorem bufferedPackets_append
    (h : List (Moment (FileDownloader κ) (DownloaderEvent H κ) (Effect κ)))
    (m : Moment (FileDownloader κ) (DownloaderEvent H κ) (Effect κ)) :
    bufferedPackets (h ++ [m]) =
      if clearsBuffer m then [] else bufferedPackets h ++ (takenPacket m).toList := by
  simp [bufferedPackets, List.foldl_append]

theorem takenPacket_command {d : FileDownloader κ} {c : Command H κ} {created : Bool}
    {out : List (Effect κ)} {b : H.BinaryData}
    (hb : takenPacket ⟨d, .command c created, out⟩ = some b) :
    c = .handleData b ∧ d.fileHandler.Accepts H b := by
  cases c with
  | handleData b' =>
    simp only [takenPacket] at hb
    split at hb
    next ha =>
      obtain rfl := Option.some.inj hb
      exact ⟨rfl, ha⟩
    next => cases hb
  | _ => cases hb

/-- The previous hash that is awaited after these packets. -/
def awaitedHash (H : Host) (bs : List H.BinaryData) : ByteArray :=
  match bs.getLast? with
  | none => firstPreviousHash
  | some b => H.hashSHA256 (H.getData b)

/-- The file handler that holds these packets. -/
def FileHandler.ofPackets (H : Host) (bs : List H.BinaryData) : FileHandler :=
  ⟨bs.flatMap H.getData, match bs.getLast? with
    | none => []
    | some b => H.hashSHA256 (H.getData b)⟩

theorem FileHandler.ofPackets_expected (bs : List H.BinaryData) :
    (FileHandler.ofPackets H bs).expectedPreviousHash = awaitedHash H bs := by
  unfold FileHandler.ofPackets awaitedHash FileHandler.expectedPreviousHash
  cases bs.getLast? with
  | none => rfl
  | some b => simp [H.hashSHA256_ne_nil]

theorem FileHandler.ofPackets_append {bs : List H.BinaryData} {b : H.BinaryData}
    (hb : H.valid b = true) : (⟨(FileHandler.ofPackets H bs).currentPacketData ++ H.getData b,
      H.getHash b⟩ : FileHandler) = FileHandler.ofPackets H (bs ++ [b]) := by
  simp [FileHandler.ofPackets, (H.valid_iff b).mp hb]

namespace FileDownloader

variable {d : FileDownloader κ} {bs : List H.BinaryData}

theorem requestPacket_fileHandler (d : FileDownloader κ) (index : UInt32) (size : UInt64) :
    (d.requestPacket index size).1.fileHandler = d.fileHandler := by
  cases hp : d.packetProvider <;> simp [requestPacket, hp]

theorem packetFailed_fileHandler (d : FileDownloader κ) :
    d.packetFailed.1.fileHandler = .empty ∨ d.packetFailed.1.fileHandler = d.fileHandler := by
  by_cases hr : d.retryCount = maxRetryCount
  · left
    rw [packetFailed_of_eq hr]
    rfl
  · right
    rw [packetFailed_of_ne hr, requestPacket_fileHandler]

/-- A command clears the buffer or appends the packet it takes. -/
theorem run_fileHandler (hd : d.fileHandler = .ofPackets H bs) (c : Command H κ)
    (created : Bool) (out : List (Effect κ)) :
    (d.run H c created).1.fileHandler = .empty ∨ (d.run H c created).1.fileHandler =
      .ofPackets H (bs ++ (takenPacket ⟨d, .command c created, out⟩).toList) := by
  cases c with
  | download fileName fileSize fileHash directory callbacks =>
    left
    exact requestPacket_fileHandler _ _ _
  | abort => exact .inl rfl
  | handleData b =>
    change (d.handleData H b created).1.fileHandler = _ ∨
      (d.handleData H b created).1.fileHandler = _
    by_cases ha : d.fileHandler.Accepts H b
    · by_cases hl : d.currentPacketIndex + 1 = d.currentPacketCount
      · left
        rw [handleData_of_last ha hl, downloadComplete_clears]
        rfl
      · right
        rw [handleData_of_not_last ha hl, requestPacket_fileHandler]
        have hb : takenPacket ⟨d, .command (.handleData b) created, out⟩ = some b := if_pos ha
        rw [hb]
        change (⟨d.fileHandler.currentPacketData ++ H.getData b, H.getHash b⟩ : FileHandler) = _
        rw [hd]
        exact FileHandler.ofPackets_append ha.1
    · have hb : takenPacket ⟨d, .command (.handleData b) created, out⟩ = none := if_neg ha
      rw [handleData_of_not_accepts ha, hb, Option.toList_none, List.append_nil, ← hd]
      exact d.stopTimer.packetFailed_fileHandler

theorem timerExpired_fileHandler {r : FileDownloader κ × List (Effect κ)}
    (hr : d.timerExpired = some r) :
    r.1.fileHandler = .empty ∨ r.1.fileHandler = d.fileHandler := by
  unfold timerExpired at hr
  split at hr
  · obtain rfl := Option.some.inj hr
    exact d.stopTimer.packetFailed_fileHandler
  · cases hr

end FileDownloader

/-- In every run of a downloader the buffer is what the packets say that it took. -/
theorem downloader_buffered {maxPacketSize : UInt64}
    {C : Condition (FileDownloader κ) (DownloaderEvent H κ) (Effect κ)}
    {h : List (Moment (FileDownloader κ) (DownloaderEvent H κ) (Effect κ))}
    {d : FileDownloader κ} (hrun : (downloaderMachine H κ maxPacketSize).Run C h d) :
    d.fileHandler = .ofPackets H (bufferedPackets h) := by
  induction hrun with
  | start => rfl
  | @step h d d' ev out _ _ hs ih =>
    rw [bufferedPackets_append]
    cases hclear : clearsBuffer ⟨d, ev, out⟩ with
    | true =>
      rw [if_pos rfl]
      cases ev with
      | command c created =>
        obtain rfl : (d.run H c created).1 = d' := congrArg Prod.fst (Option.some.inj hs)
        exact of_decide_eq_true hclear
      | timerExpired =>
        obtain ⟨r, hr, hempty⟩ := (Option.any_eq_true _ _).mp hclear
        obtain rfl := Option.some.inj (hr.symm.trans hs)
        exact of_decide_eq_true hempty
    | false =>
      rw [if_neg Bool.false_ne_true]
      cases ev with
      | command c created =>
        obtain rfl : (d.run H c created).1 = d' := congrArg Prod.fst (Option.some.inj hs)
        exact (FileDownloader.run_fileHandler ih c created out).resolve_left
          (of_decide_eq_false hclear)
      | timerExpired =>
        have hs : d.timerExpired = some (d', out) := hs
        have hne : d'.fileHandler ≠ .empty := by
          simpa [clearsBuffer, hs] using hclear
        change _ = FileHandler.ofPackets H (bufferedPackets h ++ [])
        rw [List.append_nil, ← ih]
        exact (FileDownloader.timerExpired_fileHandler hs).resolve_left hne

/-- An answer of the platform to a request made for the given call; `content` is the file
the platform has for a call. -/
def AnswerTo (content : ℕ → ByteArray) (os : List Output) (call : ℕ) (b : H.BinaryData) : Prop :=
  ∃ request, .publishRequest call request ∈ os ∧ b = senderAnswer H (content call) request

/-- Every packet that comes in answers an earlier request of this service. -/
def HonestPlatform (H : Host) (content : ℕ → ByteArray) :
    Condition (FileDownloadService H) (ServiceEvent H) Output :=
  fun h _ ev => match ev with
    | .messageReceived (.binaryData b) => ∃ call, AnswerTo content (outputs h) call b
    | _ => True

theorem AnswerTo.mono {content : ℕ → ByteArray} {os ps : List Output} {call : ℕ}
    {b : H.BinaryData} (h : AnswerTo content os call b) (hsub : os ⊆ ps) :
    AnswerTo content ps call b :=
  h.imp fun _ hr => ⟨hsub hr.1, hr.2⟩

namespace FileDownloadService

variable {s s' : FileDownloadService H} {ev : ServiceEvent H} {out : List Output}
  {h : List (Moment (FileDownloadService H) (ServiceEvent H) Output)} {content : ℕ → ByteArray}

/-- Every packet on its way through the queues is an answer of the platform. -/
structure Genuine (content : ℕ → ByteArray)
    (h : List (Moment (FileDownloadService H) (ServiceEvent H) Output))
    (s : FileDownloadService H) : Prop where
  queued : ∀ b, .handle (.binaryData b) ∈ s.commandBuffer →
    ∃ call, AnswerTo content (outputs h) call b
  delivered : ∀ name e b, s.activeDownloads name = some e → .handleData b ∈ e.commandBuffer →
    ∃ call, AnswerTo content (outputs h) call b

theorem Genuine.step (hg : Genuine content h s) (hwf : s.Wf)
    (hc : HonestPlatform H content h s ev) (hm : Moves s ev s' out) :
    Genuine content (h ++ [⟨s, ev, out⟩]) s' := by
  have hmono {b : H.BinaryData} (hb : ∃ c, AnswerTo content (outputs h) c b) :
      ∃ c, AnswerTo content (outputs (h ++ [⟨s, ev, out⟩])) c b := by
    obtain ⟨c, hans⟩ := hb
    refine ⟨c, hans.mono ?_⟩
    rw [outputs_append]
    exact List.subset_append_left _ _
  constructor
  · intro b hb
    rcases hm.handle_origin hb with hb | rfl
    · exact hmono (hg.queued b hb)
    · exact hmono hc
  · intro name e' b he' hb
    apply hmono
    cases hm.entryMoves hwf he' with
    | kept _ he hev hexp => exact hg.delivered name e' b he hb
    | pushed b' e he hq hev hexp =>
      rcases List.mem_append.mp hb with hb | hb
      · exact hg.delivered name e b he hb
      · obtain rfl : b = b' := by simpa using hb
        exact hg.queued b hq
    | aborted e he hq hev hexp =>
      rcases List.mem_append.mp hb with hb | hb
      · exact hg.delivered name e b he hb
      · simp at hb
    | started size hash he hout => simp [newEntry] at hb
    | ran created e c rest he hc hev hout =>
      exact hg.delivered name e b he (hc ▸ List.mem_cons_of_mem c hb)
    | expired e r he hr hev => exact hg.delivered name e b he hb

end FileDownloadService

variable {deviceKey directory : String} {maxPacketSize : UInt64} {content : ℕ → ByteArray}
  {h : List (Moment (FileDownloadService H) (ServiceEvent H) Output)}
  {s s' : FileDownloadService H}

theorem run_genuine (hrun : (fileDownloadMachine H deviceKey directory maxPacketSize).Run
    (HonestPlatform H content) h s) : FileDownloadService.Genuine content h s := by
  apply hrun.invariant (FileDownloadService.Genuine content)
  · constructor
    · intro b hb
      cases hb
    · intro name e b he
      cases he
  · intro h s s' ev out hr hg hc hstep
    exact hg.step (run_wf hr) hc (FileDownloadService.step_moves hstep)

/-- With an honest platform every packet appended to a buffer answers a request of this
service, of the same download or of another one whose packet looks like the awaited one:
it carries the digest of the data appended last, or 32 zero bytes if there is none. -/
theorem taken_packets_answer {k l : List (Moment (FileDownloadService H) (ServiceEvent H) Output)}
    {m : Moment (FileDownloadService H) (ServiceEvent H) Output}
    (hrun : (fileDownloadMachine H deviceKey directory maxPacketSize).Run
      (HonestPlatform H content) (k ++ m :: l) s)
    {call : ℕ} {b : H.BinaryData} (hb : (entryMoment call m).bind takenPacket = some b) :
    ∃ c, AnswerTo content (outputs k) c b ∧ (c = call ∨ c ≠ call ∧
      H.previousHash b = awaitedHash H (bufferedPackets (entryHistory call k))) := by
  have hk := hrun.moment.1
  obtain ⟨d, hd, ht⟩ := Option.bind_eq_some_iff.mp hb
  obtain ⟨t, ev, out⟩ := m
  cases FileDownloadService.concerns_of_entryMoment hd with
  | expiry name e r he hcall hr => cases ht
  | command name created e c rest he hcall hc =>
    subst hcall
    obtain ⟨rfl, ha⟩ := takenPacket_command ht
    obtain ⟨c, hans⟩ := (run_genuine hk).delivered name e b he (by simp [hc])
    have hprev : H.previousHash b = awaitedHash H (bufferedPackets (entryHistory e.call k)) := by
      rw [← FileHandler.ofPackets_expected, ← downloader_buffered (run_entry hk he)]
      exact ha.2
    refine ⟨c, hans, ?_⟩
    by_cases hcall : c = e.call
    · exact .inl hcall
    · exact .inr ⟨hcall, hprev⟩

/-- The platform has the file `a` for the first call and `b` for all later ones. -/
def sampleContent : ℕ → ByteArray
  | 0 => [97]
  | _ => [98]

/-- Whether the packet answers a request of a call that passes the test. -/
def answersCall (os : List Output) (p : ℕ → Bool) (b : sampleHost.BinaryData) : Bool :=
  os.any fun o => match o with
    | .publishRequest c request =>
      p c && decide (b = senderAnswer sampleHost (sampleContent c) request)
    | _ => false

theorem answersCall_iff {os : List Output} {p : ℕ → Bool} {b : sampleHost.BinaryData} :
    answersCall os p b = true ↔ ∃ c, p c = true ∧ AnswerTo sampleContent os c b := by
  unfold answersCall AnswerTo
  rw [List.any_eq_true]
  constructor
  · rintro ⟨o, ho, hb⟩
    cases o with
    | publishRequest c request =>
      simp only [Bool.and_eq_true, decide_eq_true_eq] at hb
      exact ⟨c, hb.1, request, ho, hb.2⟩
    | _ => cases hb
  · rintro ⟨c, hc, request, hmem, hb⟩
    exact ⟨_, hmem, by simp [hc, hb]⟩

/-- The honest platform of the sample files, as a test. -/
def sampleHonest (h : List (Moment (FileDownloadService sampleHost) (ServiceEvent sampleHost)
    Output)) : ServiceEvent sampleHost → Bool
  | .messageReceived (.binaryData b) => answersCall (outputs h) (fun _ => true) b
  | _ => true

theorem honestPlatform_of_sampleHonest
    {h : List (Moment (FileDownloadService sampleHost) (ServiceEvent sampleHost) Output)}
    {s : FileDownloadService sampleHost} {ev : ServiceEvent sampleHost}
    (hev : sampleHonest h ev = true) : HonestPlatform sampleHost sampleContent h s ev := by
  cases ev with
  | messageReceived message =>
    cases message with
    | binaryData b =>
      obtain ⟨c, _, hans⟩ := answersCall_iff.mp hev
      exact ⟨c, hans⟩
    | _ => trivial
  | _ => trivial

/-- A computed replay and one more step are a run with an honest platform. -/
theorem exists_honest_run (es : List (ServiceEvent sampleHost)) (ev : ServiceEvent sampleHost)
    (p : List (Moment (FileDownloadService sampleHost) (ServiceEvent sampleHost) Output) →
      Moment (FileDownloadService sampleHost) (ServiceEvent sampleHost) Output → Bool)
    (hp : ((sampleService.replay (fun h _ ev => sampleHonest h ev = true) es []
      sampleService.start).any fun r => sampleHonest r.1 ev &&
        (r.2.step ev).any fun q => p r.1 ⟨r.2, ev, q.2⟩) = true) :
    ∃ k m s, sampleService.Run (HonestPlatform sampleHost sampleContent) (k ++ [m]) s ∧
      p k m = true := by
  obtain ⟨h, s, hr, hev⟩ := sampleService.exists_run_of_replay
    (fun h _ ev => sampleHonest h ev = true) es
    (fun h s => sampleHonest h ev && (s.step ev).any fun q => p h ⟨s, ev, q.2⟩) hp
  obtain ⟨hhonest, hany⟩ := Bool.and_eq_true_iff.mp hev
  obtain ⟨⟨s', out⟩, hstep, hpm⟩ := (Option.any_eq_true _ _).mp hany
  have hr' := hr.mono (D := HonestPlatform sampleHost sampleContent)
    fun _ hc => honestPlatform_of_sampleHonest hc
  exact ⟨h, _, s', hr'.step (honestPlatform_of_sampleHonest hhonest) hstep, hpm⟩

theorem taken_packets_answer_sample : ∃ k m s b,
    sampleService.Run (HonestPlatform sampleHost sampleContent) (k ++ [m]) s ∧
    (entryMoment 0 m).bind takenPacket = some b ∧ ∃ c, AnswerTo sampleContent (outputs k) c b := by
  obtain ⟨k, m, s, hr, hp⟩ := exists_honest_run sampleTransfer (.downloaderCommand "f" true)
    (fun _ m => decide ((entryMoment 0 m).bind takenPacket =
      some (sampleHost.packet firstPreviousHash [97])))
    (by decide +kernel)
  have hb := of_decide_eq_true hp
  obtain ⟨c, hans, _⟩ := taken_packets_answer hr hb
  exact ⟨k, m, s, _, hr, hb, c, hans⟩

/-- The file `f` is requested and aborted, then `g` is announced; the delayed first packet
of `f` is taken as data of `g`. -/
theorem delayed_packet_contaminates : ∃ k m s b,
    sampleService.Run (HonestPlatform sampleHost sampleContent) (k ++ [m]) s ∧
    .badFunctionCall ∉ outputs k ∧ .download 1 "g" 1 otherHash ∈ outputs k ∧
    (entryMoment 1 m).bind takenPacket = some b ∧ ¬ AnswerTo sampleContent (outputs k) 1 b := by
  obtain ⟨k, m, s, hr, hp⟩ := exists_honest_run
    [.messageReceived (.fileUploadInitiate "f" 1 sampleHash), .serviceCommand none,
      .downloaderCommand "f" true, .messageReceived (.fileUploadAbort "f"), .serviceCommand none,
      .messageReceived (.fileUploadInitiate "g" 1 otherHash), .serviceCommand none,
      .downloaderCommand "g" true,
      .messageReceived (.binaryData (sampleHost.packet firstPreviousHash [97])),
      .serviceCommand none] (.downloaderCommand "g" true)
    (fun k m => decide (.badFunctionCall ∉ outputs k) &&
      decide (.download 1 "g" 1 otherHash ∈ outputs k) &&
      decide ((entryMoment 1 m).bind takenPacket =
        some (sampleHost.packet firstPreviousHash [97])) &&
      !answersCall (outputs k) (fun c => c == 1) (sampleHost.packet firstPreviousHash [97]))
    (by decide +kernel)
  simp only [Bool.and_eq_true, decide_eq_true_eq, Bool.not_eq_true'] at hp
  obtain ⟨⟨⟨hthrow, hcall⟩, htaken⟩, hno⟩ := hp
  refine ⟨k, m, s, _, hr, hthrow, hcall, htaken, ?_⟩
  intro hans
  rw [answersCall_iff.mpr ⟨1, rfl, hans⟩] at hno
  cases hno

end WolkConnect
