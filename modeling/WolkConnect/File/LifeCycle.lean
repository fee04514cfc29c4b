import WolkConnect.File.DownloaderEffects
import WolkConnect.File.DownloaderLife
import WolkConnect.Transition.Erasure
import WolkConnect.Transition.Segment

/-! The life cycle of a `FileDownloader` from its first `download` on: idle or in progress, how a
download stops, and how often a packet is asked for. -/
namespace WolkConnect
open Transition Transition.Machine

variable {κ : Type} {H : Host}

def Effect.request : Effect κ → Option FilePacketRequest
  | .packetProvider _ request => some request
  | _ => none

/-- The packet requests among the effects. -/
def requests (os : List (Effect κ)) : List FilePacketRequest := os.filterMap Effect.request

/-- The callbacks of a `download` call. -/
def DownloaderEvent.callbacks : DownloaderEvent H κ → Option κ
  | .command c _ => c.callbacks
  | .timerExpired => none

/-- How many packets a `download` call comes to. -/
def DownloaderEvent.packetCount (maxPacketSize : UInt64) : DownloaderEvent H κ → Option UInt32
  | .command (.download _ fileSize _ _ _) _ =>
    some (FileDownloader.packetPlan H maxPacketSize fileSize).1
  | _ => none

/-- The run starts with a `download`, and every `download` has a packet to ask for. -/
def BeginsWithDownload : Condition (FileDownloader κ) (DownloaderEvent H κ) (Effect κ) :=
  fun h d ev =>
    (h = [] → ev.callbacks.isSome = true) ∧ ev.packetCount d.maxPacketSize ≠ some 0

abbrev DownloaderMoment (H : Host) (κ : Type) :=
  Moment (FileDownloader κ) (DownloaderEvent H κ) (Effect κ)

/-- The callbacks of the last `download` call. -/
def lastCallbacks (h : DownloaderHistory H κ) : Option κ :=
  h.reverse.findSome? fun m => m.event.callbacks

/-- The file handler returned `OK` for a packet. -/
def acceptsPacket (m : DownloaderMoment H κ) : Prop :=
  ∃ b created, m.event = .command (.handleData b) created ∧ m.state.fileHandler.Accepts H b

/-- From this moment on another packet is asked for. -/
def OpensPacket (m : DownloaderMoment H κ) : Prop :=
  m.event.callbacks.isSome = true ∨ acceptsPacket m

namespace FileDownloader

/-- A packet of the announced ones is awaited, with all callbacks set and the timer armed. -/
structure Downloading (d : FileDownloader κ) (callbacks : κ) : Prop
    extends Live d callbacks where
  index_lt : d.currentPacketIndex < d.currentPacketCount

/-- The request that the downloader waits for an answer to. -/
def awaited (d : FileDownloader κ) : FilePacketRequest :=
  ⟨d.currentFileName, d.currentPacketIndex, d.currentPacketSize⟩

/-- What a step, other than a `download`, makes of a download in progress. -/
inductive Proceeds (d : FileDownloader κ) (callbacks : κ) :
    DownloaderEvent H κ → FileDownloader κ → List (Effect κ) → Prop where
  | aborted (created d') (hc : Cleared d') : Proceeds d callbacks (.command .abort created) d' []
  | ended (ev d' out) (hev : continues ev = true) (hc : Cleared d')
      (hone : outcomeCalls out = 1) (hnone : requests out = [])
      (huses : ∀ o ∈ out, ∀ k ∈ o.callback, k = callbacks) : Proceeds d callbacks ev d' out
  | repeated (ev d') (hev : continues ev = true) (hd' : Downloading d' callbacks)
      (hrefused : ∀ b created, ev = .command (.handleData b) created →
        ¬ d.fileHandler.Accepts H b)
      (hretry : d'.retryCount = d.retryCount + 1) (hsame : d'.awaited = d.awaited) :
      Proceeds d callbacks ev d' [.packetProvider callbacks d'.awaited]
  | next (b created d') (ha : d.fileHandler.Accepts H b) (hd' : Downloading d' callbacks)
      (hretry : d'.retryCount = 1) :
      Proceeds d callbacks (.command (.handleData b) created) d'
        [.packetProvider callbacks d'.awaited]

variable {d d' : FileDownloader κ} {callbacks : κ} {ev : DownloaderEvent H κ}
  {out : List (Effect κ)} {maxPacketSize : UInt64}

theorem Live.callbacksIn (h : d.Live callbacks) : d.CallbacksIn (· = callbacks) := by
  unfold CallbacksIn
  rw [h.provider, h.success, h.fail]
  simp

theorem requests_notifyFail (code : FileTransferError) : requests (d.notifyFail code) = [] := by
  unfold notifyFail
  split <;> rfl

theorem requests_notifySuccess (path : String) : requests (d.notifySuccess path) = [] := by
  unfold notifySuccess
  split <;> rfl

theorem requests_downloadComplete (created : Bool) :
    requests (d.downloadComplete H created).2 = [] := by
  rcases d.downloadComplete_cases (H := H) created with ⟨_, he⟩ | ⟨_, _, he⟩ | ⟨_, _, he⟩
  · rw [he]
    exact requests_notifyFail _
  · rw [he]
    exact requests_notifyFail (d := d) _
  · rw [he]
    exact requests_notifySuccess (d := d) _

/-- A packet after which nothing is awaited asked for nothing. -/
theorem requests_of_cleared {b : H.BinaryData} {created : Bool}
    (hc : (d.handleData H b created).1.Cleared) :
    requests (d.handleData H b created).2 = [] := by
  have htimer : (d.handleData H b created).1.timer = false := by
    rw [hc]
    rfl
  have hrequest (e : FileDownloader κ) (index : UInt32) (size : UInt64)
      (he : (e.requestPacket index size).1.timer = false) :
      requests (e.requestPacket index size).2 = [] := by
    cases hp : e.packetProvider with
    | none =>
      rw [requestPacket_none hp]
      rfl
    | some callback =>
      rw [requestPacket_some hp] at he
      cases he
  by_cases ha : d.fileHandler.Accepts H b
  · by_cases hl : d.currentPacketIndex + 1 = d.currentPacketCount
    · rw [handleData_of_last ha hl]
      exact requests_downloadComplete created
    · rw [handleData_of_not_last ha hl] at htimer ⊢
      exact hrequest _ _ _ htimer
  · rw [handleData_of_not_accepts ha] at htimer ⊢
    by_cases hr : d.stopTimer.retryCount = maxRetryCount
    · rw [packetFailed_of_eq hr]
      exact requests_notifyFail _
    · rw [packetFailed_of_ne hr] at htimer ⊢
      exact hrequest _ _ _ htimer

theorem outcomeCalls_of_any (hany : out.any Effect.isOutcome = true) (hle : outcomeCalls out ≤ 1) :
    outcomeCalls out = 1 := by
  obtain ⟨o, ho, hout⟩ := List.any_eq_true.mp hany
  have hpos : 0 < outcomeCalls out := List.countP_pos_iff.mpr ⟨o, ho, hout⟩
  omega

/-- The index stays below the count, without an overflow, while packets are missing. -/
theorem Downloading.next_index (h : d.Downloading callbacks)
    (hlast : d.currentPacketIndex + 1 ≠ d.currentPacketCount) :
    d.currentPacketIndex + 1 < d.currentPacketCount := by
  have hlt := h.index_lt
  grind

theorem Downloading.proceeds_data (h : d.Downloading callbacks) (b : H.BinaryData)
    (created : Bool) : d.Proceeds callbacks (.command (.handleData b) created)
      (d.handleData H b created).1 (d.handleData H b created).2 := by
  rcases h.toLive.handleData_cases b created with ⟨hany, hc⟩ | ⟨ha, he, hl⟩ | ⟨ha, hlast, he, hl⟩
  · have hle := (run_outcomeCalls d (.handleData b) created).1
    have huses : UsesIn (· = callbacks) (d.handleData H b created) :=
      handleData_usesIn h.callbacksIn b created
    exact .ended _ _ _ rfl hc (outcomeCalls_of_any hany hle) (requests_of_cleared hc) huses.2
  · rw [he]
    refine .repeated _ _ rfl ⟨hl, h.index_lt⟩ ?_ rfl rfl
    intro b' created' hb
    obtain rfl : b = b' := by simpa using (DownloaderEvent.command.inj hb).1
    exact ha
  · rw [he]
    exact .next b created _ ha ⟨hl, h.next_index hlast⟩ rfl

/-- The inversion of a step of a download in progress. -/
theorem Downloading.proceeds (h : d.Downloading callbacks) (hev : ev.callbacks = none)
    (hstep : (downloaderMachine H κ maxPacketSize).step d ev = some (d', out)) :
    d.Proceeds callbacks ev d' out := by
  cases ev with
  | timerExpired =>
    change d.timerExpired = some (d', out) at hstep
    simp only [timerExpired, h.timer, ↓reduceIte] at hstep
    rcases h.toLive.packetFailed_cases with ⟨_, he⟩ | ⟨_, he, hl⟩
    · rw [he] at hstep
      obtain ⟨rfl, rfl⟩ := Prod.mk.inj (Option.some.inj hstep)
      exact .ended _ _ _ rfl (cleared_construct _) rfl rfl (by simp [Effect.callback])
    · rw [he] at hstep
      obtain ⟨rfl, rfl⟩ := Prod.mk.inj (Option.some.inj hstep)
      refine .repeated _ _ rfl ⟨hl, h.index_lt⟩ ?_ rfl rfl
      intro b created hb
      cases hb
  | command c created =>
    have he : d.run H c created = (d', out) := Option.some.inj hstep
    obtain ⟨rfl, rfl⟩ := Prod.mk.inj he.symm
    cases c with
    | download fileName fileSize fileHash downloadDirectory callbacks => cases hev
    | abort => exact .aborted created _ (cleared_clear rfl)
    | handleData b => exact h.proceeds_data b created

/-- Whatever the downloader was doing, `download` puts it in progress. -/
theorem downloading_of_download (hev : ev.callbacks = some callbacks)
    (hcount : ev.packetCount d.maxPacketSize ≠ some 0)
    (hstep : (downloaderMachine H κ maxPacketSize).step d ev = some (d', out)) :
    d'.Downloading callbacks ∧ d'.retryCount = 1 ∧
      out = [.packetProvider callbacks d'.awaited] := by
  cases ev with
  | timerExpired => cases hev
  | command c created =>
    have he : d.run H c created = (d', out) := Option.some.inj hstep
    obtain ⟨rfl, rfl⟩ := Prod.mk.inj he.symm
    cases c with
    | abort => cases hev
    | handleData b => cases hev
    | download fileName fileSize fileHash downloadDirectory passed =>
      obtain rfl : passed = callbacks := Option.some.inj hev
      have hpos : (packetPlan H d.maxPacketSize fileSize).1 ≠ 0 :=
        fun h0 => hcount (congrArg some h0)
      exact ⟨⟨download_live _ _ _ _ _, UInt32.pos_iff_ne_zero.mpr hpos⟩, rfl, rfl⟩

/-- An idle downloader does nothing but throw. -/
theorem Cleared.kept (h : d.Cleared) (hev : ev.callbacks = none)
    (hthrow : .badFunctionCall ∉ out)
    (hstep : (downloaderMachine H κ maxPacketSize).step d ev = some (d', out)) :
    d'.Cleared ∧ out = [] := by
  cases ev with
  | timerExpired =>
    change d.timerExpired = some (d', out) at hstep
    simp [timerExpired, h.idle.timer] at hstep
  | command c created =>
    have he : d.run H c created = (d', out) := Option.some.inj hstep
    obtain ⟨rfl, rfl⟩ := Prod.mk.inj he.symm
    cases c with
    | download fileName fileSize fileHash downloadDirectory callbacks => cases hev
    | abort => exact ⟨cleared_clear rfl, rfl⟩
    | handleData b =>
      have hout := (h.idle.handleData_of_not_clears (h.not_clears b) created).1
      change .badFunctionCall ∉ (d.handleData H b created).2 at hthrow
      rw [hout] at hthrow
      exact absurd List.mem_cons_self hthrow

end FileDownloader

variable {d₀ s : FileDownloader κ} {maxPacketSize : UInt64} {h k l : DownloaderHistory H κ}
  {m : DownloaderMoment H κ} {callbacks : κ}

theorem lastCallbacks_eq (hm : m.event.callbacks = some callbacks)
    (hl : ∀ n ∈ l, n.event.callbacks = none) : lastCallbacks (k ++ m :: l) = some callbacks := by
  have hnone : l.reverse.findSome? (fun n => n.event.callbacks) = none := by
    rw [List.findSome?_eq_none_iff]
    intro n hn
    exact hl n (List.mem_reverse.mp hn)
  unfold lastCallbacks
  rw [List.reverse_append, List.reverse_cons, List.append_assoc, List.findSome?_append, hnone]
  simp [hm]

/-- The last `download` call of a run that begins with one. -/
theorem exists_last_download
    (hrun : ((downloaderMachine H κ maxPacketSize).startAt d₀).Run BeginsWithDownload h s)
    (hne : h ≠ []) : ∃ k m l callbacks, h = k ++ m :: l ∧ m.event.callbacks = some callbacks ∧
      ∀ n ∈ l, n.event.callbacks = none := by
  induction hrun with
  | start => exact absurd rfl hne
  | @step h s s' ev out hr hc hstep ih =>
    cases hev : ev.callbacks with
    | some callbacks => exact ⟨h, ⟨s, ev, out⟩, [], callbacks, rfl, hev, by simp⟩
    | none =>
      have hnonempty : h ≠ [] := by
        intro hnil
        have hfirst := hc.1 hnil
        rw [hev] at hfirst
        cases hfirst
      obtain ⟨k, m, l, callbacks, rfl, hm, hl⟩ := ih hnonempty
      refine ⟨k, m, l ++ [⟨s, ev, out⟩], callbacks, by simp, hm, ?_⟩
      intro n hn
      rcases List.mem_append.mp hn with hn | hn
      · exact hl n hn
      · obtain rfl := List.mem_singleton.mp hn
        exact hev

/-- A segment from a `download` on: it is still in progress, or over with at most one outcome. -/
structure OneDownload (callbacks : κ) (seg : DownloaderHistory H κ) (s : FileDownloader κ) :
    Prop where
  phase : (s.Cleared ∧ FileDownloader.outcomeCalls (outputs seg) ≤ 1) ∨
    (s.Downloading callbacks ∧ FileDownloader.outcomeCalls (outputs seg) = 0)
  uses : ∀ o ∈ outputs seg, ∀ c ∈ o.callback, c = callbacks

theorem outcomeCalls_append (os ps : List (Effect κ)) : FileDownloader.outcomeCalls (os ++ ps) =
    FileDownloader.outcomeCalls os + FileDownloader.outcomeCalls ps := List.countP_append

theorem oneDownload_of_download {t : FileDownloader κ}
    (hm : m.event.callbacks = some callbacks)
    (hcount : m.event.packetCount m.state.maxPacketSize ≠ some 0)
    (hstep : (downloaderMachine H κ maxPacketSize).step m.state m.event = some (t, m.output)) :
    OneDownload callbacks [m] t := by
  obtain ⟨hin, _, hout⟩ := FileDownloader.downloading_of_download hm hcount hstep
  constructor
  · right
    rw [outputs_singleton, hout]
    exact ⟨hin, rfl⟩
  · rw [outputs_singleton, hout]
    simp [Effect.callback]

theorem OneDownload.concat {seg : DownloaderHistory H κ} {n : DownloaderMoment H κ}
    {t : FileDownloader κ} (hseg : OneDownload callbacks seg n.state)
    (hn : n.event.callbacks = none) (hthrow : .badFunctionCall ∉ n.output)
    (hstep : (downloaderMachine H κ maxPacketSize).step n.state n.event = some (t, n.output)) :
    OneDownload callbacks (seg ++ [n]) t := by
  obtain ⟨hphase, huses⟩ := hseg
  rcases hphase with ⟨hc, hle⟩ | ⟨hin, hzero⟩
  · obtain ⟨ht, hout⟩ := hc.kept hn hthrow hstep
    constructor
    · left
      rw [outputs_append, outputs_singleton, hout, List.append_nil]
      exact ⟨ht, hle⟩
    · rw [outputs_append, outputs_singleton, hout, List.append_nil]
      exact huses
  · have hcalls : FileDownloader.outcomeCalls (outputs (seg ++ [n])) =
        FileDownloader.outcomeCalls n.output := by
      rw [outputs_append, outputs_singleton, outcomeCalls_append, hzero, Nat.zero_add]
    have happend (hnew : ∀ o ∈ n.output, ∀ c ∈ o.callback, c = callbacks) :
        ∀ o ∈ outputs (seg ++ [n]), ∀ c ∈ o.callback, c = callbacks := by
      intro o ho
      rw [outputs_append, outputs_singleton] at ho
      rcases List.mem_append.mp ho with ho | ho
      · exact huses o ho
      · exact hnew o ho
    have hproceeds := hin.proceeds hn hstep
    generalize n.event = ev at hproceeds
    generalize n.output = out at hproceeds hcalls happend
    cases hproceeds with
    | aborted created _ hc =>
      exact ⟨.inl ⟨hc, by rw [hcalls]; exact Nat.zero_le 1⟩, happend (by simp)⟩
    | ended ev _ out hev hc hone hnone huses' =>
      exact ⟨.inl ⟨hc, by rw [hcalls, hone]⟩, happend huses'⟩
    | repeated ev _ hev hd' hrefused hretry hsame =>
      exact ⟨.inr ⟨hd', hcalls⟩, happend (by simp [Effect.callback])⟩
    | next b created _ ha hd' hretry =>
      exact ⟨.inr ⟨hd', hcalls⟩, happend (by simp [Effect.callback])⟩

theorem oneDownload_of_run
    (hrun : ((downloaderMachine H κ maxPacketSize).startAt d₀).Run BeginsWithDownload
      (k ++ m :: l) s)
    (hm : m.event.callbacks = some callbacks) (hl : ∀ n ∈ l, n.event.callbacks = none)
    (hthrow : .badFunctionCall ∉ outputs (k ++ m :: l)) : OneDownload callbacks (m :: l) s := by
  refine hrun.segment (OneDownload callbacks) ?_ ?_
  · intro t _ hc hstep
    rw [startAt_step] at hstep
    exact oneDownload_of_download hm hc.2 hstep
  · intro l' n t hpre _ hseg _ hstep
    rw [startAt_step] at hstep
    have hn : n ∈ l := hpre.subset (by simp)
    refine hseg.concat (hl n hn) ?_ hstep
    intro hmem
    exact hthrow (List.mem_flatMap.mpr ⟨n, by simp [hn], hmem⟩)

/-- From the first `download` on, the downloader is idle or in progress for the last one. -/
theorem phase_of_run
    (hrun : ((downloaderMachine H κ maxPacketSize).startAt d₀).Run BeginsWithDownload h s)
    (hne : h ≠ []) (hthrow : .badFunctionCall ∉ outputs h) :
    ∃ callbacks, lastCallbacks h = some callbacks ∧ (s.Cleared ∨ s.Downloading callbacks) := by
  obtain ⟨k, m, l, callbacks, rfl, hm, hl⟩ := exists_last_download hrun hne
  refine ⟨callbacks, lastCallbacks_eq hm hl, ?_⟩
  exact (oneDownload_of_run hrun hm hl hthrow).phase.imp And.left And.left

/-- A segment that asks for one packet: the same request every time, and as often as the attempts
are counted while it is awaited. -/
def OneRequest (seg : DownloaderHistory H κ) (s : FileDownloader κ) : Prop :=
  ∃ n request, n ≤ 3 ∧ requests (outputs seg) = List.replicate n request ∧
    ∀ callbacks, s.Downloading callbacks → n = s.retryCount.toNat ∧ request = s.awaited

theorem requests_append (os ps : List (Effect κ)) :
    requests (os ++ ps) = requests os ++ requests ps := List.filterMap_append

theorem oneRequest_of_asked {t : FileDownloader κ} (hretry : t.retryCount = 1)
    (hout : m.output = [.packetProvider callbacks t.awaited]) : OneRequest [m] t := by
  refine ⟨1, t.awaited, by decide, ?_, ?_⟩
  · rw [outputs_singleton, hout]
    rfl
  · intro c _
    rw [hretry]
    exact ⟨rfl, rfl⟩

theorem oneRequest_of_cleared {t : FileDownloader κ} (ht : t.Cleared)
    (hnone : requests m.output = []) : OneRequest [m] t := by
  refine ⟨0, t.awaited, by decide, ?_, ?_⟩
  · rw [outputs_singleton, hnone]
    rfl
  · intro c hin
    exact absurd ht.idle hin.toLive.not_idle

theorem oneRequest_of_accepted {t : FileDownloader κ}
    (hphase : m.state.Cleared ∨ m.state.Downloading callbacks) (ha : acceptsPacket m)
    (hthrow : .badFunctionCall ∉ m.output)
    (hstep : (downloaderMachine H κ maxPacketSize).step m.state m.event = some (t, m.output)) :
    OneRequest [m] t := by
  obtain ⟨b, created, hevent, hb⟩ := ha
  have hnone : m.event.callbacks = none := by
    rw [hevent]
    rfl
  rcases hphase with hc | hin
  · obtain ⟨ht, hout⟩ := hc.kept hnone hthrow hstep
    exact oneRequest_of_cleared ht (by rw [hout]; rfl)
  · have hproceeds := hin.proceeds hnone hstep
    generalize hev : m.event = ev at hproceeds
    generalize hout : m.output = out at hproceeds
    cases hproceeds with
    | aborted created _ hc => exact oneRequest_of_cleared hc (by rw [hout]; rfl)
    | ended ev _ out _ hc hone hrequests huses => exact oneRequest_of_cleared hc (hout ▸ hrequests)
    | repeated ev _ _ hd' hrefused hretry hsame =>
      exact absurd hb (hrefused b created (hev.symm.trans hevent))
    | next b created _ ha hd' hretry => exact oneRequest_of_asked hretry hout

theorem OneRequest.concat {seg : DownloaderHistory H κ} {n : DownloaderMoment H κ}
    {t : FileDownloader κ} (hseg : OneRequest seg n.state)
    (hphase : n.state.Cleared ∨ n.state.Downloading callbacks) (hn : ¬ OpensPacket n)
    (hthrow : .badFunctionCall ∉ n.output)
    (hstep : (downloaderMachine H κ maxPacketSize).step n.state n.event = some (t, n.output)) :
    OneRequest (seg ++ [n]) t := by
  obtain ⟨count, request, hle, hrequests, hawaited⟩ := hseg
  have hnone : n.event.callbacks = none := by
    by_contra hsome
    exact hn (.inl (Option.isSome_iff_ne_none.mpr hsome))
  have hconcat : requests (outputs (seg ++ [n])) =
      List.replicate count request ++ requests n.output := by
    rw [outputs_append, outputs_singleton, requests_append, hrequests]
  have hkept (ht : t.Cleared) (hout : requests n.output = []) : OneRequest (seg ++ [n]) t := by
    refine ⟨count, request, hle, by rw [hconcat, hout, List.append_nil], ?_⟩
    intro c hin
    exact absurd ht.idle hin.toLive.not_idle
  rcases hphase with hc | hin
  · obtain ⟨ht, hout⟩ := hc.kept hnone hthrow hstep
    exact hkept ht (by rw [hout]; rfl)
  · have hproceeds := hin.proceeds hnone hstep
    obtain ⟨hcount, rfl⟩ := hawaited _ hin
    generalize hev : n.event = ev at hproceeds
    generalize hout : n.output = out at hproceeds hconcat hkept
    cases hproceeds with
    | aborted created _ hc => exact hkept hc rfl
    | ended ev _ out _ hc hone hrequests huses => exact hkept hc hrequests
    | next b created _ ha hd' hretry => exact absurd (.inr ⟨b, created, hev, ha⟩) hn
    | repeated ev _ _ hd' hrefused hretry hsame =>
      -- the attempts are counted in sixteen bits, but never above three
      have hbound : t.retryCount.toNat ≤ 3 := UInt16.le_iff_toNat_le.mp hd'.retry_le
      have hnext : t.retryCount.toNat = count + 1 := by
        have hpos : 1 ≤ t.retryCount.toNat := UInt16.le_iff_toNat_le.mp hd'.retry_pos
        rw [hretry, UInt16.toNat_add] at hpos hbound ⊢
        have hthree : n.state.retryCount.toNat ≤ 3 := UInt16.le_iff_toNat_le.mp hin.retry_le
        have hone : (1 : UInt16).toNat = 1 := rfl
        omega
      refine ⟨count + 1, t.awaited, by omega, ?_, ?_⟩
      · rw [hconcat, ← hsame, List.replicate_succ']
        rfl
      · intro c _
        exact ⟨hnext.symm, rfl⟩

theorem oneRequest_of_run
    (hrun : ((downloaderMachine H κ maxPacketSize).startAt d₀).Run BeginsWithDownload
      (k ++ m :: l) s)
    (hm : OpensPacket m) (hl : ∀ n ∈ l, ¬ OpensPacket n)
    (hthrow : .badFunctionCall ∉ outputs (k ++ m :: l)) : OneRequest (m :: l) s := by
  have hquiet (g : DownloaderHistory H κ) (hg : g ⊆ k ++ m :: l) :
      .badFunctionCall ∉ outputs g := by
    intro hmem
    obtain ⟨n, hn, hout⟩ := List.mem_flatMap.mp hmem
    exact hthrow (List.mem_flatMap.mpr ⟨n, hg hn, hout⟩)
  refine hrun.segment OneRequest ?_ ?_
  · intro t hk hc hstep
    rw [startAt_step] at hstep
    cases hm with
    | inl hsome =>
      obtain ⟨callbacks, hcallbacks⟩ := Option.isSome_iff_exists.mp hsome
      obtain ⟨_, hretry, hout⟩ :=
        FileDownloader.downloading_of_download hcallbacks hc.2 hstep
      exact oneRequest_of_asked hretry hout
    | inr ha =>
      have hne : k ≠ [] := by
        intro hnil
        have hfirst := hc.1 hnil
        obtain ⟨b, created, hevent, _⟩ := ha
        rw [hevent] at hfirst
        cases hfirst
      obtain ⟨callbacks, _, hphase⟩ := phase_of_run hk hne (hquiet k (by simp))
      have hthrow := hquiet [m] (by simp)
      rw [outputs_singleton] at hthrow
      exact oneRequest_of_accepted hphase ha hthrow hstep
  · intro l' n t hpre hl' hseg _ hstep
    rw [startAt_step] at hstep
    have hn : n ∈ l := hpre.subset (by simp)
    have hsub : k ++ m :: l' ⊆ k ++ m :: l := by
      have hl' : l' ⊆ l := fun x hx => hpre.subset (List.mem_append_left _ hx)
      grind
    obtain ⟨callbacks, _, hphase⟩ := phase_of_run hl' (by simp) (hquiet _ hsub)
    have hthrow := hquiet [n] (by simp [hn])
    rw [outputs_singleton] at hthrow
    exact hseg.concat hphase (hl n hn) hthrow hstep

/-- How a step leaves a download that is in progress: another one replaces it, it is aborted, it
ends with exactly one outcome, or it stays in progress without an outcome. -/
def StopsOrStays (callbacks : κ) (m : DownloaderMoment H κ) (t : FileDownloader κ) : Prop :=
  (∃ passed, m.event.callbacks = some passed ∧ t.Downloading passed ∧
    FileDownloader.outcomeCalls m.output = 0) ∨
  ((∃ created, m.event = .command .abort created) ∧ t.Cleared ∧ m.output = []) ∨
  (FileDownloader.continues m.event = true ∧ t.Cleared ∧
    FileDownloader.outcomeCalls m.output = 1) ∨
  (FileDownloader.continues m.event = true ∧ t.Downloading callbacks ∧
    FileDownloader.outcomeCalls m.output = 0)

/-- The life cycle along a run with history `h` that is now in `s`; the parts of `h` are the run
from a `download`, or from an accepted packet, to the next one at most. -/
structure LifeCycle (maxPacketSize : UInt64) (h : DownloaderHistory H κ) (s : FileDownloader κ) :
    Prop where
  phase : Xor s.Cleared (∃ callbacks, lastCallbacks h = some callbacks ∧ s.Downloading callbacks)
  outcomes : ∀ k m l r callbacks, h = k ++ m :: (l ++ r) → m.event.callbacks = some callbacks →
    (∀ n ∈ l, n.event.callbacks = none) →
      FileDownloader.outcomeCalls (outputs (m :: l)) ≤ 1 ∧
        ∀ o ∈ outputs (m :: l), ∀ c ∈ o.callback, c = callbacks
  stops : ∀ m ∈ h, ∀ callbacks, m.state.Downloading callbacks →
    ∃ t, (downloaderMachine H κ maxPacketSize).step m.state m.event = some (t, m.output) ∧
      StopsOrStays callbacks m t
  requests : ∀ k m l r, h = k ++ m :: (l ++ r) → OpensPacket m → (∀ n ∈ l, ¬ OpensPacket n) →
    ∃ n request, n ≤ 3 ∧ requests (outputs (m :: l)) = List.replicate n request

theorem stopsOrStays_of_step {t : FileDownloader κ} (hin : m.state.Downloading callbacks)
    (hcount : m.event.packetCount m.state.maxPacketSize ≠ some 0)
    (hstep : (downloaderMachine H κ maxPacketSize).step m.state m.event = some (t, m.output)) :
    StopsOrStays callbacks m t := by
  cases hev : m.event.callbacks with
  | some passed =>
    obtain ⟨ht, _, hout⟩ := FileDownloader.downloading_of_download hev hcount hstep
    exact .inl ⟨passed, hev, ht, by rw [hout]; rfl⟩
  | none =>
    have hproceeds := hin.proceeds hev hstep
    unfold StopsOrStays
    generalize m.event = ev at hproceeds
    generalize m.output = out at hproceeds
    right
    cases hproceeds with
    | aborted created _ hc => exact .inl ⟨⟨created, rfl⟩, hc, rfl⟩
    | ended ev _ out hcont hc hone hnone huses => exact .inr (.inl ⟨hcont, hc, hone⟩)
    | repeated ev _ hcont hd' hrefused hretry hsame => exact .inr (.inr ⟨hcont, hd', rfl⟩)
    | next b created _ ha hd' hretry => exact .inr (.inr ⟨rfl, hd', rfl⟩)

/-- Up to an exception, a downloader that begins with a `download` keeps to the life cycle,
whatever its fields were before. -/
theorem downloader_life_cycle
    (hrun : ((downloaderMachine H κ maxPacketSize).startAt d₀).Run BeginsWithDownload h s)
    (hne : h ≠ []) (hthrow : .badFunctionCall ∉ outputs h) : LifeCycle maxPacketSize h s := by
  have hquiet {k r : DownloaderHistory H κ} (hh : h = k ++ r) : .badFunctionCall ∉ outputs k := by
    rw [hh, outputs_append] at hthrow
    exact fun hmem => hthrow (List.mem_append_left _ hmem)
  constructor
  · obtain ⟨callbacks, hlast, hphase⟩ := phase_of_run hrun hne hthrow
    rcases hphase with hc | hin
    · left
      refine ⟨hc, ?_⟩
      rintro ⟨passed, _, hin⟩
      exact hin.toLive.not_idle hc.idle
    · right
      exact ⟨⟨callbacks, hlast, hin⟩, fun hc => hin.toLive.not_idle hc.idle⟩
  · intro k m l r callbacks hh hm hl
    have hsplit : h = (k ++ m :: l) ++ r := by simp [hh]
    rw [hsplit] at hrun
    obtain ⟨t, hrun⟩ := hrun.stopped
    have hone := oneDownload_of_run hrun hm hl (hquiet hsplit)
    exact ⟨hone.phase.elim And.right fun hin => hin.2.le.trans (Nat.zero_le 1), hone.uses⟩
  · intro m hm callbacks hin
    obtain ⟨k, r, rfl⟩ := List.append_of_mem hm
    obtain ⟨_, hc, t, hstep⟩ := hrun.moment
    rw [startAt_step] at hstep
    exact ⟨t, hstep, stopsOrStays_of_step hin hc.2 hstep⟩
  · intro k m l r hh hm hl
    have hsplit : h = (k ++ m :: l) ++ r := by simp [hh]
    rw [hsplit] at hrun
    obtain ⟨t, hrun⟩ := hrun.stopped
    obtain ⟨n, request, hle, hrequests, _⟩ := oneRequest_of_run hrun hm hl (hquiet hsplit)
    exact ⟨n, request, hle, hrequests⟩

instance (h : DownloaderHistory H κ) (d : FileDownloader κ) (ev : DownloaderEvent H κ) :
    Decidable (BeginsWithDownload h d ev) := by
  unfold BeginsWithDownload
  infer_instance

/-- One packet is refused and comes again, then the file is there; a second download is
aborted. -/
theorem downloader_life_cycle_sample : ∃ h s,
    ((downloaderMachine sampleHost Unit 66).startAt (.construct 66)).Run BeginsWithDownload h s ∧
      LifeCycle 66 h s ∧ FileDownloader.outcomeCalls (outputs h) = 1 ∧
      (requests (outputs h)).length = 3 := by
  obtain ⟨h, s, hrun, ht⟩ :=
    ((downloaderMachine sampleHost Unit 66).startAt (.construct 66)).exists_run_of_replay
      BeginsWithDownload
      [.command (.download "f" 1 (sampleHost.hashSHA256 [97]) "/files" ()) true,
        .command (.handleData (sampleHost.packet [1] [97])) true,
        .command (.handleData (sampleHost.packet firstPreviousHash [97])) true,
        .command (.download "g" 1 (sampleHost.hashSHA256 [98]) "/files" ()) true,
        .command .abort true]
      (fun h _ => decide (h.isEmpty = false ∧ .badFunctionCall ∉ outputs h ∧
        FileDownloader.outcomeCalls (outputs h) = 1 ∧ (requests (outputs h)).length = 3))
      (by decide +kernel)
  obtain ⟨hne, hthrow, hone, hthree⟩ := of_decide_eq_true ht
  have hne : h ≠ [] := by
    rintro rfl
    cases hne
  exact ⟨h, s, hrun, downloader_life_cycle hrun hne hthrow, hone, hthree⟩

end WolkConnect
