import WolkConnect.Firmware.MarkerReport
import WolkConnect.Transition.Past

/-! Why the platform gets a firmware status: over any number of processes, every status goes back to
an install command for this device, step by step. -/
namespace WolkConnect
open Transition Transition.Machine

abbrev FirmwareMoment := Moment FirmwareUpdateService FirmwareEvent FirmwareOutput

namespace FirmwareUpdateService

section

variable (W : FirmwareConfig)

/-- The worker takes an install command for this device. -/
def TakesInstall (m : FirmwareMoment) (firmwareFile : String) (a : FirmwareAnswers) : Prop :=
  m.event = .execute a ∧ ∃ deviceKeys rest,
    m.state.commandBuffer = .install deviceKeys firmwareFile :: rest ∧
      isForDevice W deviceKeys = true

/-- An install command for this device passes its checks: it writes the marker of an installation,
with the version that the device has. -/
def Marked (n : ℕ) (version : String) (_ : FirmwareHistory) (m : FirmwareMoment) : Prop :=
  m.state.installs = n ∧ ∃ firmwareFile a, TakesInstall W m firmwareFile a ∧
    marks W firmwareFile a = true ∧ a.version = version

/-- The record of the file is found after the marker was written. -/
def Announced (n : ℕ) (k : FirmwareHistory) (m : FirmwareMoment) : Prop :=
  (∃ info a, m.event = .announce (some info) a) ∧
    (∃ firmwareFile, m.state.worker = .marked firmwareFile n) ∧
      ∃ version, Once (Marked W n version) k

/-- The installer is called after the announcement. -/
def Started (n : ℕ) (k : FirmwareHistory) (m : FirmwareMoment) : Prop :=
  (∃ path, .install path n ∈ m.output) ∧ Once (Announced W n) k

/-- A connection compares the version of the device with the one in the marker. -/
def Compared (n : ℕ) (status : FirmwareStatus) (k : FirmwareHistory) (m : FirmwareMoment) : Prop :=
  ∃ a version, m.event = .notifyConnected a ∧ m.state.marker = some ⟨version, n⟩ ∧
    decides W a = true ∧ status = resultStatus W version a ∧ Once (Marked W n version) k

/-- Why a moment sends a status, given what has come before. -/
inductive Cause (k : FirmwareHistory) (m : FirmwareMoment) : Option ℕ → FirmwareStatus → Prop where
  | refused (firmwareFile a error) (htakes : TakesInstall W m firmwareFile a)
      (hmarks : marks W firmwareFile a = false) : Cause k m none (.error error)
  | unrecorded (n version firmwareFile a) (hm : m.event = .announce none a)
      (hworker : m.state.worker = .marked firmwareFile n) (hmarked : Once (Marked W n version) k) :
      Cause k m none (.error .fileSystemError)
  | announced (n) (hannounced : Announced W n k m) : Cause k m (some n) .installation
  | succeeded (n a) (hm : m.event = .installSucceeded n a) (hstarted : Once (Started W n) k) :
      Cause k m (some n) .completed
  | failed (n a) (hm : m.event = .installFailed n a) (hstarted : Once (Started W n) k) :
      Cause k m (some n) (.error .installationFailed)
  | aborted (installation a deviceKeys rest) (hm : m.event = .execute a)
      (hcommand : m.state.commandBuffer = .abort deviceKeys :: rest)
      (hkeys : isForDevice W deviceKeys = true) (haborted : a.aborted = true)
      (hannounced : ∀ n, installation = some n → Once (Announced W n) k) :
      Cause k m installation .aborted
  | compared (n status a) (hm : m.event = .report a) (hcompared : Once (Compared W n status) k) :
      Cause k m (some n) status

/-- What the state tells of installations has happened. -/
structure Traced (h : FirmwareHistory) (s : FirmwareUpdateService) : Prop where
  marker : ∀ marker, s.marker = some marker → Once (Marked W marker.installation marker.version) h
  marked : ∀ firmwareFile n, s.worker = .marked firmwareFile n →
    ∃ version, Once (Marked W n version) h
  announced : ∀ path n, s.worker = .announced path n → Once (Announced W n) h
  running : ∀ n ∈ s.running, Once (Started W n) h
  last : ∀ n, s.last = some n → Once (Announced W n) h
  decided : ∀ status n, s.reporter = .decided status n → Once (Compared W n status) h

end

variable {W : FirmwareConfig} {h : FirmwareHistory} {s s' : FirmwareUpdateService}
  {ev : FirmwareEvent} {out : List FirmwareOutput}

/-- A step after which the state tells no more of installations than before. -/
theorem Traced.mono {t : FirmwareUpdateService} (ht : Traced W h s) (m : FirmwareMoment)
    (hmarker : t.marker = s.marker ∨ t.marker = none)
    (hworker : t.worker = s.worker ∨ t.worker = .idle) (hrunning : t.running ⊆ s.running)
    (hlast : t.last = s.last)
    (hreporter : t.reporter = s.reporter ∨ ∀ status n, t.reporter ≠ .decided status n) :
    Traced W (h ++ [m]) t := by
  constructor
  · intro marker hs
    rcases hmarker with he | he
    · exact (ht.marker marker (he ▸ hs)).append _
    · rw [he] at hs
      cases hs
  · intro firmwareFile n hs
    rcases hworker with he | he
    · obtain ⟨version, hmarked⟩ := ht.marked firmwareFile n (he ▸ hs)
      exact ⟨version, hmarked.append _⟩
    · rw [he] at hs
      cases hs
  · intro path n hs
    rcases hworker with he | he
    · exact (ht.announced path n (he ▸ hs)).append _
    · rw [he] at hs
      cases hs
  · intro n hn
    exact (ht.running n (hrunning hn)).append _
  · intro n hs
    exact (ht.last n (hlast ▸ hs)).append _
  · intro status n hs
    rcases hreporter with he | he
    · exact (ht.decided status n (he ▸ hs)).append _
    · exact absurd hs (he status n)

theorem mem_sendStatus {installation about : Option ℕ} {status sent : FirmwareStatus}
    {published : Bool} {a : FirmwareAnswers}
    (hout : .publishStatus installation status published ∈ sendStatus about sent a) :
    installation = about ∧ status = sent := by
  unfold sendStatus at hout
  split at hout
  · obtain ⟨rfl, rfl, -⟩ := FirmwareOutput.publishStatus.inj (List.mem_singleton.mp hout)
    exact ⟨rfl, rfl⟩
  · cases hout

/-- An install command is not answered, or refused, or writes the marker of a new installation. -/
theorem handleInstall_cases (W : FirmwareConfig) (s : FirmwareUpdateService)
    (deviceKeys : List String) (firmwareFile : String) (a : FirmwareAnswers) :
    handleInstall W s deviceKeys firmwareFile a = (s, []) ∨
      isForDevice W deviceKeys = true ∧ (marks W firmwareFile a = false ∧ (∃ error,
          handleInstall W s deviceKeys firmwareFile a = (s, sendStatus none (.error error) a)) ∨
        marks W firmwareFile a = true ∧ handleInstall W s deviceKeys firmwareFile a =
          ({ s.withMarker a.version with worker := .marked firmwareFile s.installs }, [])) := by
  cases hkeys : isForDevice W deviceKeys with
  | false => exact .inl (by simp [handleInstall, hkeys])
  | true =>
    cases hasks : asksVersion W firmwareFile a with
    | false =>
      have hmarks : marks W firmwareFile a = false := by simp [marks, hasks]
      exact .inr ⟨rfl, .inl ⟨hmarks, handleInstall_refused s hkeys hasks⟩⟩
    | true =>
      have hhandled := handleInstall_asks s hkeys hasks
      by_cases hversion : a.version = ""
      · rw [if_pos hversion] at hhandled
        exact .inl hhandled
      rw [if_neg hversion] at hhandled
      cases hcreated : a.created with
      | false =>
        have hmarks : marks W firmwareFile a = false := by simp [marks, hcreated]
        rw [hcreated] at hhandled
        exact .inr ⟨rfl, .inl ⟨hmarks, _, hhandled⟩⟩
      | true =>
        have hmarks : marks W firmwareFile a = true := by
          simp [marks, hasks, hversion, hcreated]
        rw [hcreated] at hhandled
        exact .inr ⟨rfl, .inr ⟨hmarks, hhandled⟩⟩

/-- A connection does not come to a result, or compares the versions. -/
theorem reportFirmwareUpdateResult_cases (W : FirmwareConfig) (s : FirmwareUpdateService)
    (a : FirmwareAnswers) :
    reportFirmwareUpdateResult W s a = (s, [.nullPointer]) ∨
      reportFirmwareUpdateResult W s a = (s.reported, []) ∨
      ∃ version n, s.marker = some ⟨version, n⟩ ∧ decides W a = true ∧
        reportFirmwareUpdateResult W s a =
          ({ s with reporter := .decided (resultStatus W version a) n }, []) := by
  unfold reportFirmwareUpdateResult
  cases hmarker : s.marker with
  | none => exact .inr (.inl rfl)
  | some marker =>
    cases hprovider : W.firmwareVersionProvider with
    | false => exact .inl rfl
    | true =>
      by_cases hversion : a.version = ""
      · exact .inr (.inl (by simp [hversion]))
      refine .inr (.inr ⟨marker.version, marker.installation, rfl, ?_, ?_⟩)
      · simp [decides, hprovider, hversion]
      · by_cases hsame : a.version =
            W.removeTrailingWhitespace (if a.readable then marker.version else "")
        · simp [resultStatus, hversion, ← hsame]
        · simp [resultStatus, hversion, hsame]

/-- A command of the worker: what the state tells of installations, and why it sends a status. -/
theorem Traced.ran (ht : Traced W h s) {c : FirmwareCommand} {rest : List FirmwareCommand}
    {a : FirmwareAnswers} (hq : s.commandBuffer = c :: rest)
    (hrun : runCommand W { s with commandBuffer := rest } c a = (s', out)) :
    Traced W (h ++ [⟨s, .execute a, out⟩]) s' ∧ ∀ installation status published,
      .publishStatus installation status published ∈ out →
        Cause W h ⟨s, .execute a, out⟩ installation status := by
  have hkept : Traced W (h ++ [⟨s, .execute a, out⟩]) { s with commandBuffer := rest } :=
    ht.mono _ (.inl rfl) (.inl rfl) (List.Subset.refl _) rfl (.inl rfl)
  cases c with
  | install deviceKeys firmwareFile =>
    have htakes (hkeys : isForDevice W deviceKeys = true) :
        TakesInstall W ⟨s, .execute a, out⟩ firmwareFile a := ⟨rfl, deviceKeys, rest, hq, hkeys⟩
    rcases handleInstall_cases W { s with commandBuffer := rest } deviceKeys firmwareFile a with
      hr | ⟨hkeys, ⟨hmarks, error, hr⟩ | ⟨hmarks, hr⟩⟩ <;>
      obtain ⟨rfl, rfl⟩ := Prod.mk.inj (hrun.symm.trans hr)
    · exact ⟨hkept, by simp⟩
    · refine ⟨hkept, ?_⟩
      intro installation status published hout
      obtain ⟨rfl, rfl⟩ := mem_sendStatus hout
      exact .refused firmwareFile a error (htakes hkeys) hmarks
    · refine ⟨?_, by simp⟩
      have hmarked : Once (Marked W s.installs a.version)
          (h ++ [(⟨s, .execute a, []⟩ : FirmwareMoment)]) :=
        .concat ⟨rfl, firmwareFile, a, htakes hkeys, hmarks, rfl⟩
      constructor
      · rintro marker ⟨⟩
        exact hmarked
      · rintro file n ⟨⟩
        exact ⟨a.version, hmarked⟩
      · rintro path n ⟨⟩
      · exact hkept.running
      · exact hkept.last
      · exact hkept.decided
  | abort deviceKeys =>
    simp only [runCommand, handleAbort, abort] at hrun
    split at hrun
    · obtain ⟨rfl, rfl⟩ := Prod.mk.inj hrun
      exact ⟨hkept, by simp⟩
    next hkeys =>
    split at hrun
    · obtain ⟨rfl, rfl⟩ := Prod.mk.inj hrun
      exact ⟨hkept, by simp⟩
    split at hrun
    next haborted =>
      obtain ⟨rfl, rfl⟩ := Prod.mk.inj hrun
      refine ⟨ht.mono _ (.inl rfl) (.inl rfl) (List.nil_subset _) rfl (.inl rfl), ?_⟩
      intro installation status published hout
      obtain ⟨rfl, rfl⟩ := mem_sendStatus hout
      refine .aborted _ a deviceKeys rest rfl hq (by simpa using hkeys) haborted ?_
      intro n hn
      rcases Option.or_eq_some_iff.mp hn with hn | ⟨-, hn⟩
      · have hstarted := ht.running n (List.mem_of_head? hn)
        exact hstarted.earlier fun _ _ hm => hm.2
      · exact ht.last n hn
    next =>
      obtain ⟨rfl, rfl⟩ := Prod.mk.inj hrun
      exact ⟨hkept, by simp⟩
  | publishFirmwareVersion =>
    obtain ⟨rfl, rfl⟩ := Prod.mk.inj hrun
    refine ⟨hkept, ?_⟩
    intro installation status published hout
    simp only [publishFirmwareVersion] at hout
    split_ifs at hout <;> simp at hout

/-- Every step keeps track, and sends no status without a cause. -/
theorem Traced.step (ht : Traced W h s) (hstep : step W s ev = some (s', out)) :
    Traced W (h ++ [⟨s, ev, out⟩]) s' ∧ ∀ installation status published,
      .publishStatus installation status published ∈ out →
        Cause W h ⟨s, ev, out⟩ installation status := by
  cases step_moves hstep with
  | received c =>
    exact ⟨ht.mono _ (.inl rfl) (.inl rfl) (List.Subset.refl _) rfl (.inl rfl), by simp⟩
  | ran c rest a s' out hw hq hr =>
    have hrun : runCommand W { s with commandBuffer := rest } c a = (s', out) := by
      simpa [FirmwareUpdateService.step, hw, hq] using hstep
    exact ht.ran hq hrun
  | announced firmwareFile n fileInfo a hw =>
    obtain ⟨version, hmarked⟩ := ht.marked firmwareFile n hw
    cases fileInfo with
    | none =>
      refine ⟨ht.mono _ (.inl rfl) (.inr rfl) (List.Subset.refl _) rfl (.inl rfl), ?_⟩
      intro installation status published hout
      obtain ⟨rfl, rfl⟩ := mem_sendStatus hout
      exact .unrecorded n version firmwareFile a rfl hw hmarked
    | some info =>
      have hannounced : Announced W n h
          ⟨s, .announce (some info) a, sendStatus (some n) .installation a⟩ :=
        ⟨⟨info, a, rfl⟩, ⟨firmwareFile, hw⟩, version, hmarked⟩
      have hkept := ht.mono (t := { s with worker := .idle })
        ⟨s, .announce (some info) a, sendStatus (some n) .installation a⟩ (.inl rfl) (.inr rfl)
        (List.Subset.refl _) rfl (.inl rfl)
      constructor
      · refine ⟨hkept.marker, ?_, ?_, hkept.running, ?_, hkept.decided⟩
        · rintro file k ⟨⟩
        · rintro path k ⟨⟩
          exact .concat hannounced
        · rintro k ⟨⟩
          exact .concat hannounced
      · intro installation status published hout
        obtain ⟨rfl, rfl⟩ := mem_sendStatus hout
        exact .announced n hannounced
  | started path n hw =>
    have hkept := ht.mono (t := { s with worker := .idle }) ⟨s, .start, [.install path n]⟩
      (.inl rfl) (.inr rfl) (List.Subset.refl _) rfl (.inl rfl)
    refine ⟨⟨hkept.marker, hkept.marked, hkept.announced, ?_, hkept.last, hkept.decided⟩, by simp⟩
    intro k hk
    rcases List.mem_cons.mp hk with rfl | hk
    · exact .concat ⟨⟨path, List.mem_singleton_self _⟩, ht.announced path k hw⟩
    · exact hkept.running k hk
  | succeeded n a hn =>
    refine ⟨ht.mono _ (.inl rfl) (.inl rfl) List.erase_subset rfl (.inl rfl), ?_⟩
    intro installation status published hout
    obtain ⟨rfl, rfl⟩ := mem_sendStatus hout
    exact .succeeded n a rfl (ht.running n hn)
  | failed n a hn =>
    refine ⟨ht.mono _ (.inl rfl) (.inl rfl) List.erase_subset rfl (.inl rfl), ?_⟩
    intro installation status published hout
    obtain ⟨rfl, rfl⟩ := mem_sendStatus hout
    exact .failed n a rfl (ht.running n hn)
  | notified a hr =>
    rcases reportFirmwareUpdateResult_cases W s a with hrep | hrep | ⟨version, n, hmarker, hd, hrep⟩
    · rw [hrep]
      exact ⟨ht.mono _ (.inl rfl) (.inl rfl) (List.Subset.refl _) rfl (.inl rfl), by simp⟩
    · rw [hrep]
      refine ⟨ht.mono _ (.inl rfl) (.inl rfl) (List.Subset.refl _) rfl (.inr ?_), by simp⟩
      rintro status n ⟨⟩
    · rw [hrep]
      have hkept := ht.mono (t := { s with reporter := .idle }) ⟨s, .notifyConnected a, []⟩
        (.inl rfl) (.inl rfl) (List.Subset.refl _) rfl (.inr (by rintro status k ⟨⟩))
      refine ⟨⟨hkept.marker, hkept.marked, hkept.announced, hkept.running, hkept.last, ?_⟩, by simp⟩
      rintro status k ⟨⟩
      exact .concat ⟨a, version, rfl, hmarker, hd, rfl, ht.marker _ hmarker⟩
  | sent status n a hr =>
    refine ⟨ht.mono _ (.inl rfl) (.inl rfl) (List.Subset.refl _) rfl (.inr ?_), ?_⟩
    · rintro status n ⟨⟩
    · intro installation response published hout
      obtain ⟨rfl, rfl⟩ := mem_sendStatus hout
      exact .compared n _ a rfl (ht.decided _ n hr)
  | deleted a hr =>
    refine ⟨ht.mono _ ?_ (.inl rfl) (List.Subset.refl _) rfl (.inr ?_), by simp⟩
    · cases a.deleted with
      | false => exact .inl rfl
      | true => exact .inr rfl
    · rintro status n ⟨⟩
  | restarted =>
    refine ⟨ht.mono _ (.inl rfl) (.inr rfl) (List.nil_subset _) rfl (.inr ?_), by simp⟩
    rintro status n ⟨⟩

theorem run_traced {C : Condition FirmwareUpdateService FirmwareEvent FirmwareOutput}
    (hrun : (firmwareMachine W).Run C h s) : Traced W h s := by
  induction hrun with
  | start => constructor <;> simp [firmwareMachine, construct]
  | step _ _ hstep ih => exact (ih.step hstep).1

end FirmwareUpdateService

open FirmwareUpdateService

/-- No firmware status is made up: whatever restarts, whichever connections and callbacks come in
between, every one has a cause. -/
theorem statuses_have_causes {W : FirmwareConfig}
    {C : Condition FirmwareUpdateService FirmwareEvent FirmwareOutput} {k l : FirmwareHistory}
    {m : FirmwareMoment} {s : FirmwareUpdateService}
    (hrun : (firmwareMachine W).Run C (k ++ m :: l) s) {installation : Option ℕ}
    {status : FirmwareStatus} {published : Bool}
    (hout : .publishStatus installation status published ∈ m.output) :
    Cause W k m installation status := by
  obtain ⟨hbefore, -, t, hstep⟩ := hrun.moment
  exact ((run_traced hbefore).step hstep).2 installation status published hout

/-- After a restart with its new firmware the device reports that the installation is complete. -/
theorem statuses_have_causes_sample : ∃ k m l s,
    (firmwareMachine sampleFirmware).Run Free (k ++ m :: l) s ∧
      .publishStatus (some 0) .completed true ∈ m.output ∧
        Cause sampleFirmware k m (some 0) .completed := by
  obtain ⟨h, s, hrun, hs⟩ := (firmwareMachine sampleFirmware).exists_run_of_replay Free
    (sampleInstall ++ .restart :: sampleReport "2")
    (fun h _ => decide (∃ m ∈ h, .publishStatus (some 0) .completed true ∈ m.output))
    (by decide +kernel)
  obtain ⟨m, hm, hout⟩ := of_decide_eq_true hs
  obtain ⟨k, l, rfl⟩ := List.append_of_mem hm
  exact ⟨k, m, l, s, hrun, hout, statuses_have_causes hrun hout⟩

end WolkConnect
