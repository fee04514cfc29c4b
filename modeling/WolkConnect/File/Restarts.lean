import WolkConnect.File.PlatformView

/-! The device over any number of processes: each of them finds the database and the files that the
one before it has left behind. -/
namespace WolkConnect
open Transition Transition.Machine SQLiteFileRepository

variable {H : Host}

/-- The device that starts with the given database and files. -/
def DeviceConfig.restarted (W : DeviceConfig H) (t : FileTable) (disk : Disk) : DeviceConfig H :=
  { W with records := t, disk := disk }

/-- No upload has replaced a file whose record is still the old one. -/
def QueuedDevice.Stoppable (s : QueuedDevice H) : Prop :=
  ∀ info call, .service (.storeFile info call) ∈ s.commandBuffer →
    ∀ r ∈ s.device.repository.table.list, info.path ≠ r.path

/-- The processes of a device, one after another. Each one is stopped wherever it is stoppable, and
until the next one starts nobody changes a file that has a record. -/
inductive Processes (W : DeviceConfig H) (S : Set String) : DeviceConfig H → Prop where
  | first : Processes W S W
  | next {V : DeviceConfig H} {h : DeviceHistory H} {s : QueuedDevice H} {disk : Disk}
      (hbefore : Processes W S V) (hrun : (deviceMachine V).Run (Regular V S) h s)
      (hstopped : s.Stoppable)
      (hdisk : ∀ r ∈ s.device.repository.table.list, disk r.path = s.device.disk r.path) :
      Processes W S (V.restarted s.device.repository.table disk)

section

variable {W V : DeviceConfig H} {S : Set String} {h : DeviceHistory H} {s : QueuedDevice H}
  {disk : Disk}

/-- What a process takes for granted, it leaves behind for the next one. -/
theorem Surroundings.restarted (E : Surroundings W S)
    (hrun : (deviceMachine W).Run (Regular W S) h s) (hstopped : s.Stoppable)
    (hdisk : ∀ r ∈ s.device.repository.table.list, disk r.path = s.device.disk r.path) :
    Surroundings (W.restarted s.device.repository.table disk) S where
  distinct := E.distinct
  executes := E.executes
  decodes := E.decodes
  absolute := E.absolute
  placed := (view_of_run E hrun).placed
  described := by
    intro r hr content hcontent
    change disk r.path = some content at hcontent
    rw [hdisk r hr] at hcontent
    exact (view_of_run E hrun).describes hr hcontent fun info call hq => hstopped info call hq r hr

theorem environment_of_processes (E : Environment W S) (hV : Processes W S V) :
    Environment V S := by
  induction hV with
  | first => exact E
  | next _ hrun hstopped hdisk ih =>
    exact { ih.toSurroundings.restarted hrun hstopped hdisk with makesFileList := ih.makesFileList }

/-- In every process a record describes its file as long as no other one is queued for it, and the
file list that was sent last is right as long as no other one is queued. -/
theorem records_survive_restarts (E : Environment W S) (hV : Processes W S V)
    (hrun : (deviceMachine V).Run (Regular V S) h s) :
    (∀ r ∈ s.device.repository.table.list, ∀ content, s.device.disk r.path = some content →
      (∀ info call, .service (.storeFile info call) ∈ s.commandBuffer → info.path ≠ r.path) →
        Describes H r content) ∧
    ∀ names, (fileLists (outputs h)).getLast? = some names →
      .service .sendFileListUpdate ∉ s.commandBuffer →
        ∀ name, name ∈ names ↔ name ∈ s.device.repository.table.keys := by
  have hE := environment_of_processes E hV
  have hview := view_of_run hE.toSurroundings hrun
  refine ⟨fun r hr content hdisk hnone => hview.describes hr hdisk hnone, ?_⟩
  intro names hlast hquiet
  exact (hview.quiet hE.makesFileList hquiet hlast).1

end

/-- The file `f` is uploaded, the process ends and the next one sends its file list. -/
theorem records_survive_restarts_sample : ∃ V h s,
    Processes sampleDeviceConfig Set.univ V ∧ (deviceMachine V).Run (Regular V Set.univ) h s ∧
      ⟨"f", sampleHash, "/files/f"⟩ ∈ s.device.repository.table.list ∧
      Describes encodingHost ⟨"f", sampleHash, "/files/f"⟩ [97] := by
  obtain ⟨k, t, hr, hrecords, hdisk, hqueue, -⟩ := sampleUpload_run
  have hstopped : t.Stoppable := by
    intro info call hq
    rw [hqueue] at hq
    cases hq
  have hV := Processes.next .first hr hstopped fun _ _ => rfl
  have hrun (V : DeviceConfig encodingHost) : (deviceMachine V).Run (Regular V Set.univ)
      [⟨(deviceMachine V).start, .sendFileList, []⟩] (deviceMachine V).start.sendFileList :=
    Run.start.step (e := DeviceEvent.sendFileList) trivial rfl
  have hmem : ⟨"f", sampleHash, "/files/f"⟩ ∈ t.device.repository.table.list := by
    rw [hrecords]
    exact List.mem_singleton_self _
  refine ⟨_, _, _, hV, hrun _, hmem, ?_⟩
  apply (records_survive_restarts sampleDeviceConfig_environment hV (hrun _)).1 _ hmem [97] hdisk
  intro info call hq
  obtain hq := List.mem_singleton.mp hq
  cases hq

end WolkConnect
