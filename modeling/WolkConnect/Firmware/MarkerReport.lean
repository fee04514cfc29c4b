import WolkConnect.Firmware.InstallCommand
import Mathlib.Data.List.DropRight

/-! The report of a result at a connection, from the reading of the marker file to its deletion:
what it tells of the version the marker holds, and whether the platform gets it. -/
namespace WolkConnect
open Transition Transition.Machine

namespace FirmwareUpdateService

section

variable (W : FirmwareConfig)

/-- The rest of a report once its status is decided. -/
def finishReport (s : FirmwareUpdateService) (a : FirmwareAnswers) :
    FirmwareUpdateService × List FirmwareOutput :=
  match s.reporter with
  | .decided status installation =>
    ({ s with
        ended := installation :: s.ended
        marker := if a.deleted then none else s.marker }.reported,
      sendStatus (some installation) status a)
  | _ => (s, [])

/-- The whole report of one connection, with no other thread in between. -/
def connect (s : FirmwareUpdateService) (a : FirmwareAnswers) :
    FirmwareUpdateService × List FirmwareOutput :=
  let (s, out) := reportFirmwareUpdateResult W s a
  let (s, sent) := finishReport s a
  (s, out ++ sent)

/-- The state after the reports of some connections, one after another. -/
def afterConnects (s : FirmwareUpdateService) (cs : List FirmwareAnswers) : FirmwareUpdateService :=
  cs.foldl (fun s a => (connect W s a).1) s

/-- The provider returns a version. -/
def decides (a : FirmwareAnswers) : Bool := W.firmwareVersionProvider && a.version ≠ ""

/-- The connection's report deletes the marker. -/
def deletes (a : FirmwareAnswers) : Bool := decides W a && a.deleted

/-- The provider returns a version, and publishing works. -/
def delivers (a : FirmwareAnswers) : Bool := decides W a && a.makesMessage && a.published

/-- The status that a report tells for a stored version. -/
def resultStatus (version : String) (a : FirmwareAnswers) : FirmwareStatus :=
  if a.version = W.removeTrailingWhitespace (if a.readable then version else "") then
    .error .installationFailed
  else .completed

end

variable {W : FirmwareConfig} {s : FirmwareUpdateService} {a : FirmwareAnswers}
  {cs : List FirmwareAnswers} {marker : Marker}

theorem finishReport_path (W : FirmwareConfig) (s : FirmwareUpdateService) :
    (firmwareMachine W).Path s (finishReport s a).2 (finishReport s a).1 := by
  unfold finishReport
  split
  next status installation hr =>
    have hsend : step W s (.report a) =
        some ({ s with reporter := .sent, ended := installation :: s.ended },
          sendStatus (some installation) status a) := by
      simp [step, hr]
    have hpath := (step_path hsend).trans (step_path (e := .deleteMarker a) rfl)
    rwa [List.append_nil] at hpath
  next => exact .nil s

/-- A report in one go is one way for the service to notice a connection. -/
theorem connect_path (hr : s.reporter = .idle) :
    (firmwareMachine W).Path s (connect W s a).2 (connect W s a).1 := by
  have hstep : step W s (.notifyConnected a) = some (reportFirmwareUpdateResult W s a) := by
    simp [step, hr]
  exact (step_path hstep).trans (finishReport_path W _)

/-- Without a version, or without a marker, a connection reports nothing. -/
theorem connect_quiet (hr : s.reporter = .idle) (h : s.marker = none ∨ decides W a = false) :
    (connect W s a).1.marker = s.marker ∧ (connect W s a).1.reporter = .idle ∧
      ∀ installation status published,
        .publishStatus installation status published ∉ (connect W s a).2 := by
  unfold connect reportFirmwareUpdateResult
  cases hm : s.marker with
  | none => simp [finishReport, reported, addToCommandBuffer, hm]
  | some marker =>
    have hd : decides W a = false := by simpa [hm] using h
    cases hp : W.firmwareVersionProvider
    · simp [finishReport, hr, hm]
    · have hv : a.version = "" := by simpa [decides, hp] using hd
      simp [finishReport, reported, addToCommandBuffer, hv, hm]

/-- Otherwise it sends the status, and deletes the marker whatever comes of that. -/
theorem connect_decides (hm : s.marker = some marker) (hd : decides W a = true) :
    (connect W s a).1.marker = (if a.deleted then none else s.marker) ∧
      (connect W s a).1.reporter = .idle ∧
      (connect W s a).2 =
        sendStatus (some marker.installation) (resultStatus W marker.version a) a := by
  obtain ⟨hp, hv⟩ : W.firmwareVersionProvider = true ∧ a.version ≠ "" := by
    simpa [decides] using hd
  unfold connect reportFirmwareUpdateResult resultStatus
  rw [hm]
  dsimp only
  generalize W.removeTrailingWhitespace _ = stored
  by_cases hsame : a.version = stored
  · subst hsame
    simp [finishReport, reported, addToCommandBuffer, hp, hv]
  · simp [finishReport, reported, addToCommandBuffer, hp, hv, hsame]

theorem connect_reporter (hr : s.reporter = .idle) : (connect W s a).1.reporter = .idle := by
  cases hm : s.marker with
  | none => exact (connect_quiet hr (.inl hm)).2.1
  | some marker =>
    by_cases hd : decides W a = true
    · exact (connect_decides hm hd).2.1
    · exact (connect_quiet hr (.inr (by simpa using hd))).2.1

theorem connect_marker (hr : s.reporter = .idle) :
    (connect W s a).1.marker = if deletes W a then none else s.marker := by
  cases hm : s.marker with
  | none => simp [(connect_quiet (W := W) (a := a) hr (.inl hm)).1, hm]
  | some marker =>
    by_cases hd : decides W a = true
    · simp [(connect_decides hm hd).1, deletes, hd, hm]
    · have hd : decides W a = false := by simpa using hd
      simp [(connect_quiet hr (.inr hd)).1, deletes, hd, hm]

theorem afterConnects_reporter (hr : s.reporter = .idle) :
    (afterConnects W s cs).reporter = .idle := by
  induction cs generalizing s with
  | nil => exact hr
  | cons a cs ih => exact ih (connect_reporter hr)

theorem afterConnects_marker (hr : s.reporter = .idle) :
    (afterConnects W s cs).marker = if cs.any (deletes W) then none else s.marker := by
  induction cs generalizing s with
  | nil => rfl
  | cons a cs ih =>
    rw [afterConnects, List.foldl_cons]
    refine (ih (connect_reporter hr)).trans ?_
    rw [connect_marker hr, List.any_cons]
    cases deletes W a <;> simp

/-- The result of the marker gets out exactly when there is a version and publishing works. -/
theorem connect_publishes_iff (hr : s.reporter = .idle) (hm : s.marker = some marker) :
    (∃ status, .publishStatus (some marker.installation) status true ∈ (connect W s a).2) ↔
      delivers W a = true := by
  unfold delivers
  by_cases hd : decides W a = true
  · rw [(connect_decides hm hd).2.2, hd]
    cases hmessage : a.makesMessage
    · simp [sendStatus, hmessage]
    · simp [sendStatus, hmessage]
  · have hd : decides W a = false := by simpa using hd
    have hquiet := (connect_quiet (W := W) hr (.inr hd)).2.2
    simp [hd, hquiet]

/-- The status is sent, for whichever installation. -/
def Publishes (status : FirmwareStatus) (out : List FirmwareOutput) : Prop :=
  ∃ installation published, .publishStatus installation status published ∈ out

/-- A report for a stored version tells of completion when the version has changed, and of
failure when it has not. -/
def RoundTrips (stored version : String) (out : List FirmwareOutput) : Prop :=
  (Publishes .completed out ↔ version ≠ stored) ∧
    (Publishes (.error .installationFailed) out ↔ version = stored)

theorem install_marker {firmwareFile : String} (hinstaller : W.firmwareInstaller = true)
    (hprovider : W.firmwareVersionProvider = true) (hv : a.version ≠ "")
    (hc : a.created = true) :
    (install W s firmwareFile a).1.marker = some ⟨a.version, s.installs⟩ := by
  simp [install, hinstaller, hprovider, hv, hc]

theorem publishes_sendStatus {installation : Option ℕ} {status response : FirmwareStatus}
    (hmessage : a.makesMessage = true) :
    Publishes status (sendStatus installation response a) ↔ status = response := by
  simp [Publishes, sendStatus, hmessage]

/-- Where the marker can be read and a message can be made, the report compares the version
with the stored one without its trailing whitespace. -/
theorem connect_roundTrips_iff (hm : s.marker = some marker) (hd : decides W a = true)
    (hmessage : a.makesMessage = true) (hread : a.readable = true) :
    RoundTrips marker.version a.version (connect W s a).2 ↔
      (a.version = W.removeTrailingWhitespace marker.version ↔ a.version = marker.version) := by
  unfold RoundTrips
  rw [(connect_decides hm hd).2.2, publishes_sendStatus hmessage, publishes_sendStatus hmessage]
  by_cases hsame : a.version = W.removeTrailingWhitespace marker.version
  · rw [resultStatus, hread, if_pos rfl, if_pos hsame]
    simp [hsame]
  · rw [resultStatus, hread, if_pos rfl, if_neg hsame]
    simp [hsame]

/-- The marker is deleted only in a call that published its result, and the first connection
on which that can work publishes it. -/
structure ResultNotLost (W : FirmwareConfig) (s : FirmwareUpdateService)
    (cs : List FirmwareAnswers) : Prop where
  published : ∀ before a after marker, cs = before ++ a :: after →
    (afterConnects W s before).marker = some marker →
      (connect W (afterConnects W s before) a).1.marker = none →
        ∃ status, .publishStatus (some marker.installation) status true ∈
          (connect W (afterConnects W s before) a).2
  arrives : ∀ before a after marker, cs = before ++ a :: after → s.marker = some marker →
    (∀ c ∈ before, delivers W c = false) → delivers W a = true →
      ∃ status, .publishStatus (some marker.installation) status true ∈
        (connect W (afterConnects W s before) a).2

/-- The marker is there as long as no connection has deleted it. -/
theorem afterConnects_marker_some (hr : s.reporter = .idle) (hm : s.marker = some marker) :
    (afterConnects W s cs).marker = some marker ↔ ∀ c ∈ cs, deletes W c = false := by
  rw [afterConnects_marker hr, hm]
  simp

theorem find_deletes {before after : List FirmwareAnswers}
    (hbefore : ∀ c ∈ before, deletes W c = false) (ha : deletes W a = true) :
    (before ++ a :: after).find? (deletes W) = some a := by
  rw [List.find?_eq_some_iff_append]
  exact ⟨ha, before, after, rfl, fun c hc => by simp [hbefore c hc]⟩

/-- A report that deletes the marker has decided on a status, so only its publishing can fail. -/
theorem delivers_iff_of_deletes (ha : deletes W a = true) :
    delivers W a = true ↔ a.makesMessage = true ∧ a.published = true := by
  have hd : decides W a = true := by
    simp only [deletes, Bool.and_eq_true] at ha
    exact ha.1
  simp [delivers, hd]

/-- If the first deletion is a delivery, nothing is deleted before something is delivered. -/
theorem not_deletes_of_not_delivers {before after : List FirmwareAnswers}
    (hfirst : ∀ c, (before ++ after).find? (deletes W) = some c → delivers W c = true)
    (hbefore : ∀ c ∈ before, delivers W c = false) : ∀ c ∈ before, deletes W c = false := by
  by_contra hany
  push Not at hany
  obtain ⟨c, hc, hdel⟩ := hany
  have hsome : (before.find? (deletes W)).isSome = true :=
    List.find?_isSome.mpr ⟨c, hc, by simpa using hdel⟩
  obtain ⟨first, hfound⟩ := Option.isSome_iff_exists.mp hsome
  have hfind : (before ++ after).find? (deletes W) = some first := by
    rw [List.find?_append, hfound]
    rfl
  have hworks := hfirst first hfind
  rw [hbefore first (List.mem_of_find?_eq_some hfound)] at hworks
  cases hworks

end FirmwareUpdateService

open FirmwareUpdateService

variable {W : FirmwareConfig} {s : FirmwareUpdateService}

/-- Exactly the strings that do not end in whitespace are kept. -/
theorem removeTrailingWhitespace_eq_self_iff {isSpace : Char → Bool}
    (hstrip : ∀ x, W.removeTrailingWhitespace x = String.ofList (x.toList.rdropWhile isSpace))
    (version : String) : W.removeTrailingWhitespace version = version ↔
      ∀ c, version.toList.getLast? = some c → isSpace c = false := by
  have hlist : W.removeTrailingWhitespace version = version ↔
      version.toList.rdropWhile isSpace = version.toList := by
    rw [hstrip, ← String.toList_inj, String.toList_ofList]
  rw [hlist, List.rdropWhile_eq_self_iff]
  constructor
  · intro h c hc
    have hne : version.toList ≠ [] := by
      intro he
      simp [he] at hc
    rw [List.getLast?_eq_some_getLast hne] at hc
    obtain rfl := Option.some.inj hc
    simpa using h hne
  · intro h hne
    simpa using h _ (List.getLast?_eq_some_getLast hne)

/-- A version that `install` has recorded makes its way back exactly when it does not end in
whitespace, or the version at the report is neither the recorded one nor that one stripped. -/
theorem marker_round_trips_iff {isSpace : Char → Bool} {t : FirmwareUpdateService}
    {a b : FirmwareAnswers} (firmwareFile : String)
    (hstrip : ∀ x, W.removeTrailingWhitespace x = String.ofList (x.toList.rdropWhile isSpace))
    (hinstaller : W.firmwareInstaller = true) (hprovider : W.firmwareVersionProvider = true)
    (hstored : a.version ≠ "") (hcreated : a.created = true)
    (ht : t.marker = (install W s firmwareFile a).1.marker) (hversion : b.version ≠ "")
    (hread : b.readable = true) (hmessage : b.makesMessage = true) :
    RoundTrips a.version b.version (connect W t b).2 ↔
      (∀ c, a.version.toList.getLast? = some c → isSpace c = false) ∨
        (b.version ≠ a.version ∧ b.version ≠ W.removeTrailingWhitespace a.version) := by
  rw [install_marker hinstaller hprovider hstored hcreated] at ht
  have hd : decides W b = true := by simp [decides, hprovider, hversion]
  have hiff : RoundTrips a.version b.version (connect W t b).2 ↔ _ :=
    connect_roundTrips_iff ht hd hmessage hread
  rw [hiff, ← removeTrailingWhitespace_eq_self_iff hstrip]
  constructor
  · intro h
    by_cases hsame : b.version = a.version
    · exact .inl ((h.mpr hsame).symm.trans hsame)
    · exact .inr ⟨hsame, fun hb => hsame (h.mp hb)⟩
  · rintro (h | ⟨hne, hstripped⟩)
    · rw [h]
    · exact iff_of_false hstripped hne

theorem sampleFirmware_strips (x : String) : sampleFirmware.removeTrailingWhitespace x =
    String.ofList (x.toList.rdropWhile Char.isWhitespace) := rfl

/-- The device that has recorded a version. -/
def recordedVersion (version : String) : FirmwareUpdateService :=
  (install sampleFirmware .construct "fw" (firmwareAnswers version)).1

theorem marker_round_trips_sample :
    RoundTrips "1" "2" (connect sampleFirmware (recordedVersion "1") (firmwareAnswers "2")).2 :=
  (marker_round_trips_iff (W := sampleFirmware) (s := .construct) (t := recordedVersion "1")
    (a := firmwareAnswers "1") (b := firmwareAnswers "2") "fw" sampleFirmware_strips rfl rfl
    (by decide) rfl rfl (by decide) rfl rfl).mpr (.inr (by decide +kernel))

/-- The version is read from a file with a line end: a failed installation is reported as
completed. -/
theorem marker_loses_line_end :
    ¬ ∀ (W : FirmwareConfig) (isSpace : Char → Bool) (s t : FirmwareUpdateService)
      (firmwareFile : String) (a b : FirmwareAnswers),
      (∀ x, W.removeTrailingWhitespace x = String.ofList (x.toList.rdropWhile isSpace)) →
      W.firmwareInstaller = true → W.firmwareVersionProvider = true → a.version ≠ "" →
      a.created = true → t.marker = (install W s firmwareFile a).1.marker → b.version ≠ "" →
      b.readable = true → b.makesMessage = true →
        RoundTrips a.version b.version (connect W t b).2 := by
  intro hall
  have htrip := hall sampleFirmware Char.isWhitespace .construct (recordedVersion "1\n") "fw"
    (firmwareAnswers "1\n") (firmwareAnswers "1\n") sampleFirmware_strips rfl rfl (by decide) rfl
    rfl (by decide) rfl rfl
  have hcompleted : Publishes .completed (connect sampleFirmware (recordedVersion "1\n")
      (firmwareAnswers "1\n")).2 := by
    refine ⟨some 0, true, ?_⟩
    decide +kernel
  exact htrip.1.mp hcompleted rfl

/-- A result is not lost exactly when the first report that deletes the marker is published. -/
theorem result_not_lost_iff (marker : Marker) (cs : List FirmwareAnswers)
    (hr : s.reporter = .idle) (hm : s.marker = some marker) :
    ResultNotLost W s cs ↔
      ∀ c, cs.find? (deletes W) = some c → c.makesMessage = true ∧ c.published = true := by
  constructor
  · intro h c hc
    obtain ⟨hdel, before, after, rfl, hbefore⟩ := List.find?_eq_some_iff_append.mp hc
    have hthere : (afterConnects W s before).marker = some marker :=
      (afterConnects_marker_some hr hm).mpr fun c hc => by simpa using hbefore c hc
    have hgone : (connect W (afterConnects W s before) c).1.marker = none := by
      rw [connect_marker (afterConnects_reporter hr), if_pos hdel]
    have hout := h.published before c after marker rfl hthere hgone
    rw [connect_publishes_iff (afterConnects_reporter hr) hthere] at hout
    exact (delivers_iff_of_deletes hdel).mp hout
  · intro h
    have hfirst (c : FirmwareAnswers) (hc : cs.find? (deletes W) = some c) :
        delivers W c = true := (delivers_iff_of_deletes (List.find?_some hc)).mpr (h c hc)
    constructor
    · rintro before a after marker' rfl hthere hgone
      have hnone : before.any (deletes W) = false := by
        by_contra hany
        rw [afterConnects_marker hr, if_pos (by simpa using hany)] at hthere
        cases hthere
      have hdel : deletes W a = true := by
        by_contra hdel
        rw [connect_marker (afterConnects_reporter hr), if_neg hdel, hthere] at hgone
        cases hgone
      rw [connect_publishes_iff (afterConnects_reporter hr) hthere]
      exact hfirst a (find_deletes (by simpa using hnone) hdel)
    · rintro before a after marker' rfl hm' hbefore ha
      have hthere : (afterConnects W s before).marker = some marker' :=
        (afterConnects_marker_some hr hm').mpr (not_deletes_of_not_delivers hfirst hbefore)
      rw [connect_publishes_iff (afterConnects_reporter hr) hthere]
      exact ha

/-- The device after a restart, with the marker of an installation that was started. -/
def restartedDevice : FirmwareUpdateService := { FirmwareUpdateService.construct with
  marker := some ⟨"1", 0⟩, installs := 1 }

/-- The provider fails at the first connection, and the second one publishes. -/
theorem result_not_lost_sample : ResultNotLost sampleFirmware restartedDevice
    [firmwareAnswers "", firmwareAnswers "2"] :=
  (result_not_lost_iff (W := sampleFirmware) (s := restartedDevice) ⟨"1", 0⟩
    [firmwareAnswers "", firmwareAnswers "2"] rfl rfl).mpr (by
      intro c hc
      have hlast : [firmwareAnswers "", firmwareAnswers "2"].find? (deletes sampleFirmware) =
          some (firmwareAnswers "2") := by
        decide +kernel
      obtain rfl := Option.some.inj (hlast.symm.trans hc)
      exact ⟨rfl, rfl⟩)

/-- The first connection breaks before the status is out, and the second one finds no marker. -/
theorem result_lost : ¬ ∀ W s cs, s.reporter = .idle → ResultNotLost W s cs := by
  intro hall
  have hkept := hall sampleFirmware restartedDevice
    [{ firmwareAnswers "2" with published := false }, firmwareAnswers "2"] rfl
  obtain ⟨status, hout⟩ := hkept.published [] _ [firmwareAnswers "2"] ⟨"1", 0⟩ rfl rfl
    (by decide +kernel)
  have hsent : (connect sampleFirmware restartedDevice
      { firmwareAnswers "2" with published := false }).2 =
      [.publishStatus (some 0) .completed false] := by
    decide +kernel
  rw [afterConnects, List.foldl_nil, hsent] at hout
  simp at hout

end WolkConnect
