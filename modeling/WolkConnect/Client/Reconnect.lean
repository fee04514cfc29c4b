import WolkConnect.Client.VerifiedInstall
import WolkConnect.Data.Disconnect
import WolkConnect.Transition.Segment

/-! After every connection the platform gets a file list, and what it has then is right as soon as
nothing is queued. -/
namespace WolkConnect
open Transition Transition.Machine

variable {H : Host} {σ : Type}

/-- A queued update of the file list waits, or the file list is sent. -/
theorem QueuedDevice.update_kept {W : DeviceConfig H} {S : Set String} (E : Environment W S)
    {s s' : QueuedDevice H} {ev : DeviceEvent} {out : List DeviceOutput}
    (hstep : s.step W ev = some (s', out))
    (hq : .service .sendFileListUpdate ∈ s.commandBuffer) :
    .service .sendFileListUpdate ∈ s'.commandBuffer ∨ fileLists out ≠ [] := by
  have habsorbed {r : Option (Device H × List DeviceOutput)}
      (h : r.map (fun r => (QueuedDevice.absorb r.1 s.commandBuffer, r.2)) = some (s', out)) :
      .service .sendFileListUpdate ∈ s'.commandBuffer ∨ fileLists out ≠ [] := by
    obtain ⟨r, -, heq⟩ := Option.map_eq_some_iff.mp h
    obtain ⟨rfl, rfl⟩ := Prod.mk.inj heq
    exact .inl (List.mem_append_left _ hq)
  cases ev with
  | messageReceived message =>
    simp only [step] at hstep
    split at hstep
    · obtain ⟨rfl, rfl⟩ := Prod.mk.inj (Option.some.inj hstep)
      exact .inl (List.mem_append_left _ hq)
    · obtain ⟨rfl, rfl⟩ := Prod.mk.inj (Option.some.inj hstep)
      exact .inl hq
  | command a =>
    simp only [step] at hstep
    split at hstep
    · cases hstep
    · next c rest hcommand =>
      obtain ⟨r, hrun, heq⟩ := Option.map_eq_some_iff.mp hstep
      obtain ⟨rfl, rfl⟩ := Prod.mk.inj heq
      rw [hcommand] at hq
      rcases List.mem_cons.mp hq with rfl | hq
      · cases Device.commandMoves_of_run E.executes s.drained hrun with
        | listed D' out htable hdisk hpushed hlist =>
          right
          rw [fileLists, hlist E.makesFileList]
          simp
        | kept c D' out hc hupdate => cases hupdate
        | removed c D' out hc hshrinks hpushed hlist =>
          left
          simp [absorb, hpushed]
      · exact .inl (List.mem_append_left _ hq)
  | downloaderCommand fileName created => exact habsorbed hstep
  | timerExpired fileName => exact habsorbed hstep
  | clearDownloads => exact habsorbed (r := s.device.stepService .clearDownloads) hstep
  | urlDownloadCompleted fileUrl fileName filePath =>
    obtain ⟨rfl, rfl⟩ := Prod.mk.inj (Option.some.inj hstep)
    exact .inl (List.mem_append_right _ List.mem_cons_self)
  | urlDownloadFailed fileUrl errorCode =>
    obtain ⟨rfl, rfl⟩ := Prod.mk.inj (Option.some.inj hstep)
    exact .inl (List.mem_append_left _ hq)
  | sendFileList =>
    obtain ⟨rfl, rfl⟩ := Prod.mk.inj (Option.some.inj hstep)
    exact .inl (List.mem_append_left _ hq)
  | getFileInfo fileName =>
    obtain ⟨rfl, rfl⟩ := Prod.mk.inj (Option.some.inj hstep)
    exact .inl hq
  | fileChanged path content =>
    obtain ⟨rfl, rfl⟩ := Prod.mk.inj (Option.some.inj hstep)
    exact .inl hq

namespace Wolk

variable {W : WolkConfig σ} {s s' : Wolk σ} {ev : WolkEvent} {out : List WolkOutput}

/-- A connected `Wolk` is about to ask for the file list. -/
theorem Moves.connected (hm : Moves W s ev s' out) (hservice : W.fileDownloadService = true)
    (ho : .notifyConnected ∈ out) : .sendFileList ∈ s'.running := by
  cases hm with
  | executed a c rest hr hq =>
    cases hc : c.isTryConnect with
    | false => cases run_isConnect hc a _ _ ho
    | true =>
      obtain ⟨firstTime, rfl⟩ : ∃ firstTime, c = .tryConnect firstTime := by
        cases c <;> simp_all [WolkCommand.isTryConnect]
      by_cases hconnected : a.connected
      · simp [run, hconnected, notifyConnected, connectedTasks, hservice]
      · simp [run, hconnected] at ho
  | sentFileList rest hr => simp at ho
  | _ => cases ho

/-- Until it does, it does nothing else with the worker. -/
theorem Moves.sendFileList_kept (hm : Moves W s ev s' out) (hr : .sendFileList ∈ s.running) :
    .sendFileList ∈ s'.running ∨ (ev = .work ∧ .sendFileList ∈ out) := by
  cases hm with
  | called c currentRtc =>
    rw [call_eq]
    exact .inl hr
  | executed a c rest hidle hq =>
    rw [hidle] at hr
    cases hr
  | pushed c rest hrunning =>
    rw [hrunning] at hr
    rcases List.mem_cons.mp hr with hc | hr
    · cases hc
    · exact .inl hr
  | sentFileList rest hrunning => exact .inr ⟨rfl, List.mem_singleton_self _⟩
  | _ => exact .inl hr

end Wolk

namespace Client

variable {W : ClientConfig H σ} {S : Set String} {h : List (ClientMoment H σ)}
  {s s' : Client H σ} {e : ClientEvent} {out : List ClientOutput}

/-- A file list is asked for, queued or sent. -/
def ListComing (os : List ClientOutput) (s : Client H σ) : Prop :=
  .sendFileList ∈ s.wolk.running ∨ .service .sendFileListUpdate ∈ s.files.commandBuffer ∨
    sentFileLists os ≠ []

theorem work_of_act (hact : (wolkPart W).act ⟨s, e, out⟩ = some .work) : e = .work := by
  cases e with
  | work => rfl
  | deliver =>
    obtain ⟨c, -, hc⟩ := Option.map_eq_some_iff.mp hact
    cases hc
  | _ => cases hact

theorem listComing_step (E : Environment W.files S) (hstep : s.step W e = some (s', out))
    {os : List ClientOutput} (hcoming : ListComing os s) : ListComing (os ++ out) s' := by
  have hlists : sentFileLists (os ++ out) = sentFileLists os ++ sentFileLists out := by
    simp [sentFileLists, fileLists, List.filterMap_append]
  rcases hcoming with hasked | hqueued | hsent
  · rcases (wolkPart_of W).step_cases hstep with ⟨-, hsame, -⟩ | ⟨ev, hact, hwolk⟩
    · have hwolk : s'.wolk = s.wolk := hsame
      left
      rwa [hwolk]
    · rcases (Wolk.step_moves hwolk).sendFileList_kept hasked with hkept | ⟨rfl, ho⟩
      · exact .inl hkept
      · -- the worker calls the file service, which queues the update
        obtain rfl := work_of_act hact
        have ho' : .sendFileList ∈ out.filterMap ClientOutput.ofWolk := ho
        have hfiles := (composed_of_step hstep).files
        simp only [filesPart, ClientConfig.filesCall, if_pos ho'] at hfiles
        have hsame : s.files.sendFileList = s'.files := (Prod.mk.inj (Option.some.inj hfiles)).1
        right
        left
        rw [← hsame]
        exact List.mem_append_right _ List.mem_cons_self
  · rcases (filesPart_of W).step_cases hstep with ⟨-, hsame, -⟩ | ⟨d, -, hfiles⟩
    · have hfiles : s'.files = s.files := hsame
      right
      left
      rwa [hfiles]
    · rcases QueuedDevice.update_kept E hfiles hqueued with hkept | hsent
      · exact .inr (.inl hkept)
      · refine .inr (.inr ?_)
        rw [hlists]
        exact List.append_ne_nil_of_right_ne_nil _ hsent
  · refine .inr (.inr ?_)
    rw [hlists]
    exact List.append_ne_nil_of_left_ne_nil hsent _

end Client

open Client

variable {W : ClientConfig H σ} {S : Set String} {s : Client H σ}

/-- After a connection, once the file list is neither to be asked for nor queued, one has been sent
since then, and the last one names exactly the records of the repository, whose files are on disk
as the records describe them. -/
theorem view_current_after_connect (E : Environment W.files S) {k l : List (ClientMoment H σ)}
    {m : ClientMoment H σ} (hrun : (clientMachine W).Run (FilesRegular W S) (k ++ m :: l) s)
    (hconnected : .wolk .notifyConnected ∈ m.output) (hasked : .sendFileList ∉ s.wolk.running)
    (hquiet : .service .sendFileListUpdate ∉ s.files.commandBuffer) :
    ∃ names, (sentFileLists (outputs (m :: l))).getLast? = some names ∧
      (∀ name, name ∈ names ↔ name ∈ s.files.device.repository.table.keys) ∧
      ∀ r ∈ s.files.device.repository.table.list, ∃ content,
        s.files.device.disk r.path = some content ∧ Describes H r content := by
  have hcoming : ListComing (outputs (m :: l)) s := by
    refine hrun.segment (fun l s => ListComing (outputs l) s) ?_ ?_
    · intro t _ _ hstep
      left
      have ho : .notifyConnected ∈ m.output.filterMap ClientOutput.ofWolk :=
        List.mem_filterMap.mpr ⟨_, hconnected, rfl⟩
      obtain ⟨ev, -, hwolk⟩ := (wolkPart_of W).step_of_output hstep ho
      exact (Wolk.step_moves hwolk).connected W.fileDownloadService ho
    · intro l' n t _ _ hprev _ hstep
      rw [outputs_append, outputs_singleton]
      exact listComing_step E hstep hprev
  have hsent : sentFileLists (outputs (m :: l)) ≠ [] := by
    rcases hcoming with h | h | h
    · exact absurd h hasked
    · exact absurd h hquiet
    · exact h
  obtain ⟨names, hnames⟩ := Option.isSome_iff_exists.mp (List.getLast?_isSome.mpr hsent)
  refine ⟨names, hnames, ?_⟩
  have hview := view_of_run E.toSurroundings (files_run hrun)
  rw [(filesPart_of W).outputs_project hrun, outputs_append, List.filterMap_append] at hview
  apply hview.quiet E.makesFileList hquiet
  rw [fileLists, List.filterMap_append]
  exact (List.getLast?_append_of_ne_nil _ hsent).trans hnames

/-- The client connects, and the list of no files is sent. -/
theorem view_current_after_connect_sample : ∃ k m l s,
    (clientMachine sampleClient).Run (FilesRegular sampleClient Set.univ) (k ++ m :: l) s ∧
      .wolk .notifyConnected ∈ m.output ∧
      ∃ names, (sentFileLists (outputs (m :: l))).getLast? = some names ∧
        (∀ name, name ∈ names ↔ name ∈ s.files.device.repository.table.keys) ∧
        ∀ r ∈ s.files.device.repository.table.list, ∃ content,
          s.files.device.disk r.path = some content ∧ Describes encodingHost r content := by
  obtain ⟨h, s, hr, hs⟩ := (clientMachine sampleClient).exists_run_of_replay FilesPresent
    [.call .connect 0, .execute sampleAnswers ⟨true, "1", true, true, true, true, true, true⟩,
      .work, .work, .work, .work, .files (.command ⟨2, fun _ => true, fun _ => true, []⟩)]
    (fun h s => decide ((∃ m ∈ h, .wolk .notifyConnected ∈ m.output) ∧
      .sendFileList ∉ s.wolk.running ∧ s.files.commandBuffer.length = 0)) (by decide +kernel)
  obtain ⟨⟨m, hm, ho⟩, hasked, hqueue⟩ := of_decide_eq_true hs
  obtain ⟨k, l, rfl⟩ := List.append_of_mem hm
  have hregular := hr.mono (D := FilesRegular sampleClient Set.univ)
    fun _ hpresent => filesRegular_of_present hpresent
  refine ⟨k, m, l, s, hregular, ho, ?_⟩
  apply view_current_after_connect sampleDeviceConfig_environment hregular ho hasked
  rw [List.length_eq_zero_iff.mp hqueue]
  exact List.not_mem_nil

end WolkConnect
