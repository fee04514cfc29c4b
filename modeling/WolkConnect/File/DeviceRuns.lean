import WolkConnect.File.DeviceQueue
import WolkConnect.File.Integrity
import WolkConnect.Transition.Simulation

/-! The packet downloads inside the whole device: deletions, purges, downloads from a URL and
updates of the file list come in between, but what the packet downloads do is a run of their own
machine. -/
namespace WolkConnect
open Transition Transition.Machine SQLiteFileRepository

variable {H : Host}

/-- The commands that the packet downloads wait for; an update of the file list is not one. -/
def ServiceCommand.waiting : ServiceCommand H → Option (ServiceCommand H)
  | .sendFileListUpdate => none
  | c => some c

def DeviceCommand.waiting : DeviceCommand H → Option (ServiceCommand H)
  | .service c => c.waiting
  | _ => none

/-- The outputs of the packet downloads. -/
def Output.visible : Output → Option Output
  | .sendFileListUpdate => none
  | o => some o

def DeviceOutput.visible : DeviceOutput → Option Output
  | .service o => o.visible
  | _ => none

namespace FileDownloadService

/-- A command does not look at what waits behind it. -/
theorem runCommand_behind (s : FileDownloadService H) (q : List (ServiceCommand H))
    (c : ServiceCommand H) (fileInfo : Option FileInfo) :
    { s with commandBuffer := q }.runCommand c fileInfo =
      ({ (s.runCommand c fileInfo).1 with commandBuffer := q }, (s.runCommand c fileInfo).2) := by
  match c with
  | .handle (.binaryData b) =>
    simp only [runCommand, handleBinaryData]
    cases s.activeDownloads s.activeDownload <;> rfl
  | .handle (.fileUploadInitiate name size hash) =>
    simp only [runCommand, handleFileUploadInitiate]
    split_ifs
    · rfl
    · rfl
    · rfl
    · rfl
    cases fileInfo with
    | none =>
      simp only [download]
      cases s.activeDownloads name with
      | none => rfl
      | some e =>
        simp only
        split <;> rfl
    | some info =>
      simp only
      split <;> rfl
  | .handle (.fileUploadAbort name) =>
    simp only [runCommand, handleFileUploadAbort]
    split
    · rfl
    · simp only [abortDownload]
      cases s.activeDownloads name with
      | none => rfl
      | some e => simp [flagCompletedDownload_eq, setEntry, sendStatus]
  | .storeFile info call => rfl
  | .sendFileListUpdate => rfl

/-- The service's own thread pushes nothing while it runs a command. -/
theorem runCommand_commandBuffer (s : FileDownloadService H) (c : ServiceCommand H)
    (fileInfo : Option FileInfo) :
    (s.runCommand c fileInfo).1.commandBuffer = s.commandBuffer := by
  have h := runCommand_behind s s.commandBuffer c fileInfo
  exact congrArg (fun r => r.1.commandBuffer) h

end FileDownloadService

/-- The events that neither push a command from outside nor take one. -/
def ServiceEvent.internal : ServiceEvent H → Bool
  | .messageReceived _ => false
  | .serviceCommand _ => false
  | _ => true

namespace FileDownloadService

/-- What the downloaders and the collector push goes behind whatever waits. -/
theorem step_behind (s : FileDownloadService H) (q : List (ServiceCommand H))
    {e : ServiceEvent H} (he : e.internal = true) (hs : s.commandBuffer = []) :
    { s with commandBuffer := q }.step e = (s.step e).map fun r =>
      ({ r.1 with commandBuffer := q ++ r.1.commandBuffer }, r.2) := by
  cases e with
  | messageReceived message => cases he
  | serviceCommand fileInfo => cases he
  | downloaderCommand fileName created =>
    simp only [step]
    cases s.activeDownloads fileName with
    | none => rfl
    | some e =>
      cases hc : e.commandBuffer with
      | nil => simp [hc]
      | cons c rest =>
        simp only [hc, performAll_eq, Option.map_some, setEntry, hs, List.nil_append]
        rfl
  | timerExpired fileName =>
    simp only [step]
    cases s.activeDownloads fileName with
    | none => rfl
    | some e =>
      cases hr : e.downloader.timerExpired with
      | none => simp [hr]
      | some r =>
        simp only [hr, performAll_eq, Option.map_some, setEntry, hs, List.nil_append]
        rfl
  | clearDownloads => simp [step, clearDownloads, hs]

end FileDownloadService

/-- A service with the downloads of the device, and the same commands waiting. -/
structure Shadows (s : QueuedDevice H) (x : FileDownloadService H) : Prop where
  fields : { x with commandBuffer := [] } = s.device.service
  waiting : x.commandBuffer.filterMap ServiceCommand.waiting =
    s.commandBuffer.filterMap DeviceCommand.waiting

section

variable {W : DeviceConfig H} {s s' : QueuedDevice H} {x : FileDownloadService H}

/-- The machine of the packet downloads alone. -/
abbrev DeviceConfig.packetMachine (W : DeviceConfig H) :
    Machine (FileDownloadService H) (ServiceEvent H) Output :=
  fileDownloadMachine H W.deviceKey W.fileDownloadDirectory W.maxPacketSize

/-- The updates of the file list in front of a command are run first. -/
theorem path_to_waiting {c : ServiceCommand H} {rest : List (ServiceCommand H)}
    (hx : x.commandBuffer.filterMap ServiceCommand.waiting = c :: rest) :
    ∃ os q, W.packetMachine.Path x os { x with commandBuffer := c :: q } ∧
      os.filterMap Output.visible = [] ∧ q.filterMap ServiceCommand.waiting = rest := by
  generalize hq : x.commandBuffer = queue at hx
  induction queue generalizing x with
  | nil => simp at hx
  | cons d queue ih =>
    cases hd : d.waiting with
    | some d' =>
      obtain rfl : d = d' := by
        cases d <;> simp_all [ServiceCommand.waiting]
      rw [List.filterMap_cons_some hd] at hx
      obtain ⟨rfl, hrest⟩ := List.cons_eq_cons.mp hx
      refine ⟨[], queue, ?_, rfl, hrest⟩
      rw [← hq]
      exact .nil x
    | none =>
      obtain rfl : d = .sendFileListUpdate := by
        cases d <;> simp_all [ServiceCommand.waiting]
      rw [List.filterMap_cons_none hd] at hx
      obtain ⟨os, q, hpath, hos, hrest⟩ := ih (x := { x with commandBuffer := queue }) rfl hx
      have hstep : W.packetMachine.step x (.serviceCommand none) =
          some ({ x with commandBuffer := queue }, [.sendFileListUpdate]) := by
        show x.step (.serviceCommand none) = _
        simp [FileDownloadService.step, hq, FileDownloadService.runCommand]
      refine ⟨_, q, .cons hstep hpath, ?_, hrest⟩
      rw [List.filterMap_append, hos]
      rfl

theorem Shadows.of_absorb {D : Device H} {queue : List (DeviceCommand H)}
    (hfields : { x with commandBuffer := [] } = { D.service with commandBuffer := [] })
    (hwaiting : x.commandBuffer.filterMap ServiceCommand.waiting =
      queue.filterMap DeviceCommand.waiting ++
        D.service.commandBuffer.filterMap ServiceCommand.waiting) :
    Shadows (QueuedDevice.absorb D queue) x := by
  refine ⟨hfields, ?_⟩
  have hpushed : (D.service.commandBuffer.map DeviceCommand.service).filterMap
      DeviceCommand.waiting = D.service.commandBuffer.filterMap ServiceCommand.waiting := by
    rw [List.filterMap_map]
    rfl
  rw [hwaiting, QueuedDevice.absorb, List.filterMap_append, hpushed]

/-- What is not of the packet downloads may be pushed. -/
theorem Shadows.push (hx : Shadows s x) {c : DeviceCommand H} (hc : c.waiting = none) :
    Shadows (s.push c) x := by
  refine ⟨hx.fields, ?_⟩
  simp [QueuedDevice.push, List.filterMap_append, hc, hx.waiting]

theorem Shadows.sendFileList (hx : Shadows s x) : Shadows s.sendFileList x := hx.push rfl

end

namespace Device

variable {W : DeviceConfig H} {D D' : Device H} {c : DeviceCommand H} {a : DeviceAnswers}
  {out : List DeviceOutput}

theorem handleFileDelete_service {executes : Outcomes} {deletes : String → Bool} {name : String}
    (h : D.handleFileDelete executes deletes name = some D') :
    D'.service = D.service.sendFileList := by
  unfold handleFileDelete at h
  split at h
  · obtain rfl := Option.some.inj h
    rfl
  · simp only [deleteFile, getFileInfo] at h
    split at h
    · cases h
    · split at h
      · obtain rfl := Option.some.inj h
        rfl
      · obtain rfl := Option.some.inj h
        rfl

/-- A command of the packet downloads is run by the service alone. -/
theorem runCommand_of_waiting {d : ServiceCommand H} (hc : c.waiting = some d)
    (hrun : D.runCommand W c a = some (D', out)) : ∃ fileInfo,
    D'.service = (D.service.runCommand d fileInfo).1 ∧
      out = (D.service.runCommand d fileInfo).2.map .service := by
  match c with
  | .service (.handle (.fileUploadInitiate name size hash)) =>
    obtain rfl := Option.some.inj hc
    have hservice : (D.initiateInfo W.executes name size hash).2.service = D.service := by
      unfold initiateInfo
      split <;> rfl
    have hserved : (D.initiateInfo W.executes name size hash).2.serve
        (.handle (.fileUploadInitiate name size hash))
        (D.initiateInfo W.executes name size hash).1 = (D', out) := Option.some.inj hrun
    simp only [serve, hservice] at hserved
    obtain ⟨rfl, rfl⟩ := Prod.mk.inj hserved
    exact ⟨_, rfl, rfl⟩
  | .service (.handle (.binaryData b)) =>
    obtain rfl := Option.some.inj hc
    obtain ⟨rfl, rfl⟩ := Prod.mk.inj (Option.some.inj hrun)
    exact ⟨none, rfl, rfl⟩
  | .service (.handle (.fileUploadAbort name)) =>
    obtain rfl := Option.some.inj hc
    obtain ⟨rfl, rfl⟩ := Prod.mk.inj (Option.some.inj hrun)
    exact ⟨none, rfl, rfl⟩
  | .service (.storeFile info call) =>
    obtain rfl := Option.some.inj hc
    obtain ⟨E, hE, he⟩ := Option.map_eq_some_iff.mp hrun
    obtain ⟨repository, -, rfl⟩ := Option.map_eq_some_iff.mp hE
    obtain ⟨rfl, rfl⟩ := Prod.mk.inj he
    exact ⟨none, rfl, rfl⟩
  | .service .sendFileListUpdate => cases hc
  | .fileDelete name => cases hc
  | .purgeFiles => cases hc
  | .fileUrlDownloadInitiate url => cases hc
  | .fileUrlDownloadAbort url => cases hc
  | .storeUrlFile fileUrl fileName filePath => cases hc

theorem sendUrlStatus_invisible (response : FileUrlDownloadStatus) :
    (D.sendUrlStatus W response).filterMap DeviceOutput.visible = [] := by
  unfold sendUrlStatus
  split <;> rfl

/-- Every other command leaves the packet downloads alone, and may queue the file list. -/
theorem runCommand_of_not_waiting (hc : c.waiting = none)
    (hrun : D.runCommand W c a = some (D', out)) :
    (D'.service = D.service ∨ D'.service = D.service.sendFileList) ∧
      out.filterMap DeviceOutput.visible = [] := by
  match c with
  | .service (.handle message) => cases hc
  | .service (.storeFile info call) => cases hc
  | .service .sendFileListUpdate =>
    obtain ⟨r, hr, he⟩ := Option.map_eq_some_iff.mp hrun
    obtain ⟨rfl, rfl⟩ := Prod.mk.inj he
    obtain ⟨repository, -, rfl⟩ := Option.map_eq_some_iff.mp hr
    refine ⟨.inl rfl, ?_⟩
    simp only [FileDownloadService.runCommand]
    split <;> simp [DeviceOutput.visible, Output.visible]
  | .fileDelete name =>
    obtain ⟨E, hE, he⟩ := Option.map_eq_some_iff.mp hrun
    obtain ⟨rfl, rfl⟩ := Prod.mk.inj he
    exact ⟨.inr (handleFileDelete_service hE), rfl⟩
  | .purgeFiles =>
    obtain ⟨rfl, rfl⟩ := Prod.mk.inj (Option.some.inj hrun)
    exact ⟨.inr (handleFilePurge_service _ _ _), rfl⟩
  | .fileUrlDownloadInitiate url =>
    obtain ⟨rfl, rfl⟩ := Prod.mk.inj (Option.some.inj hrun)
    refine ⟨.inl rfl, ?_⟩
    unfold handleUrlDownloadInitiate
    split_ifs
    · exact sendUrlStatus_invisible _
    · exact sendUrlStatus_invisible _
    · rfl
  | .fileUrlDownloadAbort url =>
    obtain ⟨rfl, rfl⟩ := Prod.mk.inj (Option.some.inj hrun)
    refine ⟨.inl rfl, ?_⟩
    unfold handleUrlDownloadAbort
    split_ifs
    · exact sendUrlStatus_invisible _
    · exact sendUrlStatus_invisible _
    · exact sendUrlStatus_invisible _
  | .storeUrlFile fileUrl fileName filePath =>
    simp only [runCommand, storeUrlFile] at hrun
    split at hrun
    · obtain ⟨rfl, rfl⟩ := Prod.mk.inj (Option.some.inj hrun)
      refine ⟨.inl ?_, sendUrlStatus_invisible _⟩
      split <;> rfl
    · obtain ⟨E, hE, he⟩ := Option.map_eq_some_iff.mp hrun
      obtain ⟨repository, -, rfl⟩ := Option.map_eq_some_iff.mp hE
      obtain ⟨rfl, rfl⟩ := Prod.mk.inj he
      exact ⟨.inl rfl, sendUrlStatus_invisible _⟩

end Device

section

variable {W : DeviceConfig H} {s s' : QueuedDevice H} {x : FileDownloadService H}
  {ev : DeviceEvent} {out : List DeviceOutput}

/-- Every recognised message is one of the packet downloads, or none of them waits for it. -/
theorem commandOf_cases {message : Message} {c : DeviceCommand H}
    (hc : FileDownloadService.commandOf W.protocol message = some c) :
    (∃ m, c = .service (.handle m)) ∨
      (c.waiting = none ∧
        ∀ fileUrl fileName filePath, c ≠ .storeUrlFile fileUrl fileName filePath) := by
  unfold FileDownloadService.commandOf at hc
  split at hc
  · obtain rfl := Option.some.inj hc
    exact .inl ⟨_, rfl⟩
  split at hc
  · obtain rfl := Option.some.inj hc
    exact .inl ⟨_, rfl⟩
  split at hc
  · obtain rfl := Option.some.inj hc
    exact .inl ⟨_, rfl⟩
  split at hc
  · obtain rfl := Option.some.inj hc
    exact .inr ⟨rfl, by simp⟩
  split at hc
  · obtain rfl := Option.some.inj hc
    exact .inr ⟨rfl, by simp⟩
  split at hc
  · cases hc
  split at hc
  · obtain rfl := Option.some.inj hc
    exact .inr ⟨rfl, by simp⟩
  · obtain ⟨url, -, rfl⟩ := Option.map_eq_some_iff.mp hc
    exact .inr ⟨rfl, by simp⟩

/-- The downloaders and the collector do in the device what they do alone. -/
theorem shadow_internal (hx : Shadows s x) {e : ServiceEvent H} (he : e.internal = true)
    {r : Device H × List DeviceOutput} (hr : s.device.stepService e = some r) :
    ∃ x' os, x.step e = some (x', os) ∧ r.2 = os.map .service ∧
      r.1.disk = Device.written H s.device.disk os ∧
      x'.commandBuffer = x.commandBuffer ++ r.1.service.commandBuffer ∧
      Shadows (QueuedDevice.absorb r.1 s.commandBuffer) x' := by
  obtain ⟨⟨t, os⟩, ht, rfl⟩ := Option.map_eq_some_iff.mp hr
  have hbehind := FileDownloadService.step_behind s.device.service x.commandBuffer he s.drained
  have hsame : { s.device.service with commandBuffer := x.commandBuffer } = x := by
    rw [← hx.fields]
  rw [hsame, ht] at hbehind
  refine ⟨_, os, hbehind, rfl, rfl, rfl, .of_absorb rfl ?_⟩
  rw [List.filterMap_append, hx.waiting]

/-- A command that the packet downloads wait for. -/
theorem shadow_waiting (hx : Shadows s x) {c : DeviceCommand H} {d : ServiceCommand H}
    {rest : List (DeviceCommand H)} {a : DeviceAnswers} {D : Device H}
    (hq : s.commandBuffer = c :: rest) (hc : c.waiting = some d)
    (hrun : s.device.runCommand W c a = some (D, out)) :
    ∃ os x', W.packetMachine.Path x os x' ∧
      os.filterMap Output.visible = out.filterMap DeviceOutput.visible ∧
        Shadows (QueuedDevice.absorb D rest) x' := by
  obtain ⟨fileInfo, hservice, rfl⟩ := Device.runCommand_of_waiting hc hrun
  have hwaiting := hx.waiting
  rw [hq, List.filterMap_cons_some hc] at hwaiting
  obtain ⟨os, q, hpath, hos, hrest⟩ := path_to_waiting (W := W) hwaiting
  set y : FileDownloadService H := { s.device.service with commandBuffer := q } with hy
  have hstep : W.packetMachine.step { x with commandBuffer := d :: q } (.serviceCommand fileInfo) =
      some (y.runCommand d fileInfo) := by
    have hsame : { x with commandBuffer := q } = y := by
      rw [hy, ← hx.fields]
    show some ({ x with commandBuffer := q }.runCommand d fileInfo) = _
    rw [hsame]
  rw [hy, FileDownloadService.runCommand_behind] at hstep
  refine ⟨_, _, hpath.trans (.single hstep), ?_, .of_absorb ?_ ?_⟩
  · rw [List.filterMap_append, hos, List.filterMap_map]
    rfl
  · rw [hservice]
  · rw [hservice, FileDownloadService.runCommand_commandBuffer, s.drained, hrest]
    simp

/-- A command of another kind. -/
theorem shadow_not_waiting (hx : Shadows s x) {c : DeviceCommand H}
    {rest : List (DeviceCommand H)} {a : DeviceAnswers} {D : Device H}
    (hq : s.commandBuffer = c :: rest) (hc : c.waiting = none)
    (hrun : s.device.runCommand W c a = some (D, out)) :
    out.filterMap DeviceOutput.visible = [] ∧ Shadows (QueuedDevice.absorb D rest) x := by
  obtain ⟨hservice, hout⟩ := Device.runCommand_of_not_waiting hc hrun
  have hwaiting := hx.waiting
  rw [hq, List.filterMap_cons_none hc] at hwaiting
  refine ⟨hout, .of_absorb ?_ ?_⟩
  · rw [hx.fields]
    rcases hservice with hs | hs
    · rw [hs, s.service_drained]
    · rw [hs, ← s.service_drained]
      rfl
  · rcases hservice with hs | hs
    · simp [hs, s.drained, hwaiting]
    · simp [hs, FileDownloadService.sendFileList, FileDownloadService.addToCommandBuffer,
        s.drained, hwaiting, ServiceCommand.waiting]

theorem shadow_step (hx : Shadows s x) (hstep : s.step W ev = some (s', out)) :
    ∃ os x', W.packetMachine.Path x os x' ∧
      os.filterMap Output.visible = out.filterMap DeviceOutput.visible ∧ Shadows s' x' := by
  have hinternal {e : ServiceEvent H} (he : e.internal = true)
      (h : (s.device.stepService e).map (fun r =>
        (QueuedDevice.absorb r.1 s.commandBuffer, r.2)) = some (s', out)) :
      ∃ os x', W.packetMachine.Path x os x' ∧
        os.filterMap Output.visible = out.filterMap DeviceOutput.visible ∧ Shadows s' x' := by
    obtain ⟨⟨D, ds⟩, hr, heq⟩ := Option.map_eq_some_iff.mp h
    obtain ⟨rfl, rfl⟩ := Prod.mk.inj heq
    obtain ⟨x', os, hs, hout, -, -, hx'⟩ := shadow_internal hx he hr
    have hstep : W.packetMachine.step x e = some (x', os) := hs
    have hvisible : ds = os.map .service := hout
    refine ⟨os, x', .single hstep, ?_, hx'⟩
    rw [hvisible, List.filterMap_map]
    rfl
  have hkept (hx' : Shadows s' x) (hout : out.filterMap DeviceOutput.visible = []) :
      ∃ os x', W.packetMachine.Path x os x' ∧
        os.filterMap Output.visible = out.filterMap DeviceOutput.visible ∧ Shadows s' x' :=
    ⟨[], x, .nil x, hout.symm, hx'⟩
  cases ev with
  | messageReceived message =>
    simp only [QueuedDevice.step] at hstep
    split at hstep
    · next c hc =>
      obtain ⟨rfl, rfl⟩ := Prod.mk.inj (Option.some.inj hstep)
      rcases commandOf_cases hc with ⟨m, rfl⟩ | ⟨hc, -⟩
      · have hreceived : W.packetMachine.step x (.messageReceived m) =
            some (x.addToCommandBuffer (.handle m), []) := rfl
        refine ⟨_, _, .single hreceived, rfl, hx.fields, ?_⟩
        simp [FileDownloadService.addToCommandBuffer, QueuedDevice.push, hx.waiting,
          ServiceCommand.waiting, DeviceCommand.waiting]
      · exact hkept (hx.push hc) rfl
    · obtain ⟨rfl, rfl⟩ := Prod.mk.inj (Option.some.inj hstep)
      exact hkept hx rfl
  | command a =>
    simp only [QueuedDevice.step] at hstep
    split at hstep
    · cases hstep
    · next c rest hq =>
      obtain ⟨⟨D, ds⟩, hr, heq⟩ := Option.map_eq_some_iff.mp hstep
      obtain ⟨rfl, rfl⟩ := Prod.mk.inj heq
      cases hc : c.waiting with
      | some d => exact shadow_waiting hx hq hc hr
      | none =>
        obtain ⟨hout, hx'⟩ := shadow_not_waiting hx hq hc hr
        exact hkept hx' hout
  | downloaderCommand fileName created => exact hinternal rfl hstep
  | timerExpired fileName => exact hinternal rfl hstep
  | clearDownloads => exact hinternal (e := .clearDownloads) rfl hstep
  | urlDownloadCompleted fileUrl fileName filePath =>
    obtain ⟨rfl, rfl⟩ := Prod.mk.inj (Option.some.inj hstep)
    have hpushed : Shadows (s.push (.storeUrlFile fileUrl fileName filePath)) x := hx.push rfl
    exact hkept hpushed.sendFileList rfl
  | urlDownloadFailed fileUrl errorCode =>
    obtain ⟨rfl, rfl⟩ := Prod.mk.inj (Option.some.inj hstep)
    exact hkept hx.sendFileList (Device.sendUrlStatus_invisible _)
  | sendFileList =>
    obtain ⟨rfl, rfl⟩ := Prod.mk.inj (Option.some.inj hstep)
    exact hkept hx.sendFileList rfl
  | getFileInfo fileName =>
    obtain ⟨rfl, rfl⟩ := Prod.mk.inj (Option.some.inj hstep)
    exact hkept ⟨hx.fields, hx.waiting⟩ rfl
  | fileChanged path content =>
    obtain ⟨rfl, rfl⟩ := Prod.mk.inj (Option.some.inj hstep)
    exact hkept ⟨hx.fields, hx.waiting⟩ rfl

/-- Whatever else the device does, its packet downloads are at every time those of a run of the
packet machine with the same outputs. -/
theorem shadow_of_run {C : Condition (QueuedDevice H) DeviceEvent DeviceOutput}
    {h : List (Moment (QueuedDevice H) DeviceEvent DeviceOutput)}
    (hrun : (deviceMachine W).Run C h s) : ∃ k x, W.packetMachine.Run Free k x ∧
      (outputs k).filterMap Output.visible = (outputs h).filterMap DeviceOutput.visible ∧
        Shadows s x :=
  hrun.simulated_visibly DeviceOutput.visible Output.visible Shadows ⟨rfl, rfl⟩
    fun _ hx _ hstep => shadow_step hx hstep

theorem service_directory {C : Condition (QueuedDevice H) DeviceEvent DeviceOutput}
    {h : List (Moment (QueuedDevice H) DeviceEvent DeviceOutput)}
    (hrun : (deviceMachine W).Run C h s) :
    s.device.service.fileDownloadDirectory = W.fileDownloadDirectory := by
  obtain ⟨k, x, hk, -, hx⟩ := shadow_of_run hrun
  rw [← hx.fields]
  exact run_directory (s := x) hk

/-- Whatever holds of the packet machine along all of its runs holds of the packet downloads of the
device, too: of what they put out and of the fields of the service. -/
theorem device_inherits (P : List Output → FileDownloadService H → Prop)
    (hP : ∀ k x, W.packetMachine.Run Free k x →
      P ((outputs k).filterMap Output.visible) { x with commandBuffer := [] })
    {C : Condition (QueuedDevice H) DeviceEvent DeviceOutput}
    {h : List (Moment (QueuedDevice H) DeviceEvent DeviceOutput)}
    (hrun : (deviceMachine W).Run C h s) :
    P ((outputs h).filterMap DeviceOutput.visible) s.device.service := by
  obtain ⟨k, x, hk, hvisible, hx⟩ := shadow_of_run hrun
  have hpacket := hP k x hk
  rwa [hvisible, hx.fields] at hpacket

end

/-- In the sample the downloads stay in the directory that the service was constructed with, and
no call number stands for two of them. -/
theorem device_inherits_sample : ∃ h s, (deviceMachine sampleDeviceConfig).Run Free h s ∧
    .download 0 "f" 1 sampleHash ∈ (outputs h).filterMap DeviceOutput.visible ∧
    s.device.service.fileDownloadDirectory = "/files" ∧
    ∀ call m n y z f g, .download call m y f ∈ (outputs h).filterMap DeviceOutput.visible →
      .download call n z g ∈ (outputs h).filterMap DeviceOutput.visible →
        n = m ∧ z = y ∧ g = f := by
  obtain ⟨h, s, hr, hs⟩ := (deviceMachine sampleDeviceConfig).exists_run_of_replay Free sampleUpload
    (fun h _ => decide (.download 0 "f" 1 sampleHash ∈
      (outputs h).filterMap DeviceOutput.visible)) (by decide +kernel)
  refine ⟨h, s, hr, of_decide_eq_true hs, ?_⟩
  apply device_inherits (W := sampleDeviceConfig) (fun os x => x.fileDownloadDirectory = "/files" ∧
    ∀ call m n y z f g, .download call m y f ∈ os → .download call n z g ∈ os →
      n = m ∧ z = y ∧ g = f) ?_ hr
  intro k x hk
  have hmem {call : ℕ} {n : String} {z : UInt64} {g : String}
      (ho : .download call n z g ∈ (outputs k).filterMap Output.visible) :
      .download call n z g ∈ outputs k := by
    obtain ⟨o, ho, hv⟩ := List.mem_filterMap.mp ho
    cases o <;> simp_all [Output.visible]
  have hdirectory : x.fileDownloadDirectory = "/files" := run_directory hk
  exact ⟨hdirectory, fun call m n y z f g hm hn => run_call_unique hk (hmem hm) (hmem hn)⟩

end WolkConnect
