import WolkConnect.File.DeviceQueue
import WolkConnect.Transition.Queue

/-! The downloads from a URL: what is asked of the service about them is handled once and in order,
and what the platform and the `UrlFileDownloader` get is the answer to that. -/
namespace WolkConnect
open Transition Transition.Machine

variable {H : Host}

/-- The commands that concern a download from a URL. -/
inductive UrlRequest where
  | initiate (url : String)
  | abort (url : String)
  | completed (fileUrl fileName filePath : String)
  deriving DecidableEq

namespace UrlRequest

variable (W : DeviceConfig H)

/-- The answer to a request; an `initiate` that is passed on is answered when it has completed or
failed. -/
def reply (readable : String → Bool) : UrlRequest → Option FileUrlDownloadStatus
  | .initiate url =>
    if !W.urlFileDownloader then some (.error url (.sent .transferProtocolDisabled))
    else if url = "" then some (.error url (.sent .unspecifiedError))
    else none
  | .abort url =>
    if !W.urlFileDownloader then some (.error url (.sent .transferProtocolDisabled))
    else if url = "" then some (.error url (.sent .unspecifiedError))
    else some (.status url .aborted)
  | .completed fileUrl fileName filePath =>
    if readable filePath then some (.downloaded fileUrl fileName)
    else some (.error fileUrl (.sent .fileSystemError))

/-- The request goes to the `UrlFileDownloader`. -/
def passedOn : UrlRequest → Bool
  | .initiate url => W.urlFileDownloader && decide (url ≠ "")
  | .abort url => W.urlFileDownloader && decide (url ≠ "")
  | .completed _ _ _ => false

end UrlRequest

def DeviceCommand.urlRequest : DeviceCommand H → Option UrlRequest
  | .fileUrlDownloadInitiate url => some (.initiate url)
  | .fileUrlDownloadAbort url => some (.abort url)
  | .storeUrlFile fileUrl fileName filePath => some (.completed fileUrl fileName filePath)
  | _ => none

namespace DeviceOutput

def urlStatus : DeviceOutput → Option FileUrlDownloadStatus
  | .publishUrlStatus status => some status
  | _ => none

/-- The calls of the `UrlFileDownloader`. -/
def urlCall : DeviceOutput → Option UrlRequest
  | .urlDownload url _ => some (.initiate url)
  | .urlAbort url => some (.abort url)
  | _ => none

end DeviceOutput

/-- The request that a moment brings. -/
def askedUrl (W : DeviceConfig H) (m : Moment (QueuedDevice H) DeviceEvent DeviceOutput) :
    Option UrlRequest :=
  match m.event with
  | .messageReceived message =>
    (FileDownloadService.commandOf W.protocol message).bind DeviceCommand.urlRequest
  | .urlDownloadCompleted fileUrl fileName filePath => some (.completed fileUrl fileName filePath)
  | _ => none

/-- The request that a moment handles. -/
def handledUrl (m : Moment (QueuedDevice H) DeviceEvent DeviceOutput) : Option UrlRequest :=
  match m.event with
  | .command _ => m.state.commandBuffer.head?.bind DeviceCommand.urlRequest
  | _ => none

/-- The status that the platform is to get in a moment. -/
def urlReply (W : DeviceConfig H) (m : Moment (QueuedDevice H) DeviceEvent DeviceOutput) :
    Option FileUrlDownloadStatus :=
  match m.event with
  | .urlDownloadFailed fileUrl errorCode => some (.error fileUrl errorCode)
  | .command a => (handledUrl m).bind (UrlRequest.reply W fun path =>
      (m.state.device.readBinaryFileContent a.opens path).isSome)
  | _ => none

namespace Device

variable {W : DeviceConfig H} {D D' : Device H} {c : DeviceCommand H} {a : DeviceAnswers}
  {out : List DeviceOutput}

/-- What a command does about URLs. -/
structure UrlEffects (W : DeviceConfig H) (D : Device H) (c : DeviceCommand H) (a : DeviceAnswers)
    (out : List DeviceOutput) : Prop where
  replies : out.filterMap DeviceOutput.urlStatus =
    (c.urlRequest.bind (UrlRequest.reply W fun path =>
      (D.readBinaryFileContent a.opens path).isSome)).toList
  calls : out.filterMap DeviceOutput.urlCall =
    (c.urlRequest.filter (UrlRequest.passedOn W)).toList

theorem urlEffects_of_service {d : ServiceCommand H}
    (hstatus : ∀ o ∈ out, o.urlStatus = none) (hcall : ∀ o ∈ out, o.urlCall = none) :
    UrlEffects W D (.service d) a out :=
  ⟨List.filterMap_eq_nil_iff.mpr hstatus, List.filterMap_eq_nil_iff.mpr hcall⟩

theorem urlEffects_of_serve {d : ServiceCommand H} (E : Device H) (fileInfo : Option FileInfo) :
    UrlEffects W D (.service d) a (E.serve d fileInfo).2 := by
  apply urlEffects_of_service
  · intro o ho
    obtain ⟨o, -, rfl⟩ := List.mem_map.mp ho
    rfl
  · intro o ho
    obtain ⟨o, -, rfl⟩ := List.mem_map.mp ho
    rfl

theorem urlEffects_of_fileListUpdate
    (hrun : D.runCommand W (.service .sendFileListUpdate) a = some (D', out)) :
    UrlEffects W D (.service .sendFileListUpdate) a out := by
  obtain ⟨r, hupdate, heq⟩ := Option.map_eq_some_iff.mp hrun
  obtain ⟨-, rfl⟩ := Prod.mk.inj heq
  obtain ⟨repository, -, rfl⟩ := Option.map_eq_some_iff.mp hupdate
  have hkind (o : DeviceOutput) (ho : o ∈ [DeviceOutput.service .sendFileListUpdate] ++
      if W.protocol.makesFileList D.service.deviceKey
          (updateFileList H W.base64Encode D.service.fileDownloadDirectory
            (D.readBinaryFileContent a.opens) a.filesOnDisk
              (D.getAllFileNames W.executes).1).1 then
        [.publishFileList (updateFileList H W.base64Encode D.service.fileDownloadDirectory
            (D.readBinaryFileContent a.opens) a.filesOnDisk
              (D.getAllFileNames W.executes).1).1]
      else []) : o.urlStatus = none ∧ o.urlCall = none := by
    rcases List.mem_append.mp ho with ho | ho
    · obtain rfl := List.mem_singleton.mp ho
      exact ⟨rfl, rfl⟩
    · split at ho
      · obtain rfl := List.mem_singleton.mp ho
        exact ⟨rfl, rfl⟩
      · cases ho
  exact urlEffects_of_service (fun o ho => (hkind o ho).1) (fun o ho => (hkind o ho).2)

variable (hmakes : ∀ deviceKey response, W.protocol.makesUrlStatus deviceKey response = true)

include hmakes

theorem sendUrlStatus_eq (response : FileUrlDownloadStatus) :
    D.sendUrlStatus W response = [.publishUrlStatus response] := if_pos (hmakes _ _)

theorem urlEffects_of_initiate (url : String) :
    UrlEffects W D (.fileUrlDownloadInitiate url) a (D.handleUrlDownloadInitiate W url) := by
  unfold handleUrlDownloadInitiate
  by_cases hdownloader : W.urlFileDownloader = true <;> by_cases hurl : url = "" <;>
    constructor <;> simp [sendUrlStatus_eq hmakes, DeviceCommand.urlRequest,
      DeviceOutput.urlStatus, DeviceOutput.urlCall, UrlRequest.reply, UrlRequest.passedOn,
      Option.filter_some, hdownloader, hurl]

theorem urlEffects_of_abort (url : String) :
    UrlEffects W D (.fileUrlDownloadAbort url) a (D.handleUrlDownloadAbort W url) := by
  unfold handleUrlDownloadAbort
  rw [sendUrlStatus_eq hmakes, sendUrlStatus_eq hmakes, sendUrlStatus_eq hmakes]
  by_cases hdownloader : W.urlFileDownloader = true <;> by_cases hurl : url = "" <;>
    simp only [hdownloader, hurl, Bool.not_true, Bool.not_false, Bool.false_eq_true, if_true,
      if_false] <;>
    constructor <;> simp [DeviceCommand.urlRequest, UrlRequest.reply, UrlRequest.passedOn,
      Option.filter_some, hdownloader, hurl] <;> rfl

theorem urlEffects_of_storeUrlFile {fileUrl fileName filePath : String}
    (hrun : D.storeUrlFile W a fileUrl fileName filePath = some (D', out)) :
    UrlEffects W D (.storeUrlFile fileUrl fileName filePath) a out := by
  unfold storeUrlFile at hrun
  split at hrun
  · next hread =>
    obtain ⟨-, rfl⟩ := Prod.mk.inj (Option.some.inj hrun)
    constructor <;> simp [sendUrlStatus_eq hmakes, DeviceCommand.urlRequest,
      DeviceOutput.urlStatus, DeviceOutput.urlCall, UrlRequest.reply, UrlRequest.passedOn,
      Option.filter_some, hread]
  · next content hread =>
    obtain ⟨E, -, heq⟩ := Option.map_eq_some_iff.mp hrun
    obtain ⟨-, rfl⟩ := Prod.mk.inj heq
    constructor <;> simp [sendUrlStatus_eq hmakes, DeviceCommand.urlRequest,
      DeviceOutput.urlStatus, DeviceOutput.urlCall, UrlRequest.reply, UrlRequest.passedOn,
      Option.filter_some, hread]

theorem urlEffects_of_command (hrun : D.runCommand W c a = some (D', out)) :
    UrlEffects W D c a out := by
  cases c with
  | service d =>
    cases d with
    | handle message =>
      cases message with
      | fileUploadInitiate name size hash =>
        obtain ⟨-, rfl⟩ := Prod.mk.inj (Option.some.inj hrun)
        exact urlEffects_of_serve _ _
      | _ =>
        obtain ⟨-, rfl⟩ := Prod.mk.inj (Option.some.inj hrun)
        exact urlEffects_of_serve D none
    | storeFile info call =>
      obtain ⟨E, -, heq⟩ := Option.map_eq_some_iff.mp hrun
      obtain ⟨-, rfl⟩ := Prod.mk.inj heq
      exact urlEffects_of_serve E none
    | sendFileListUpdate => exact urlEffects_of_fileListUpdate hrun
  | fileDelete name =>
    obtain ⟨E, -, heq⟩ := Option.map_eq_some_iff.mp hrun
    obtain ⟨-, rfl⟩ := Prod.mk.inj heq
    exact ⟨rfl, rfl⟩
  | purgeFiles =>
    obtain ⟨-, rfl⟩ := Prod.mk.inj (Option.some.inj hrun)
    exact ⟨rfl, rfl⟩
  | fileUrlDownloadInitiate url =>
    obtain ⟨-, rfl⟩ := Prod.mk.inj (Option.some.inj hrun)
    exact urlEffects_of_initiate hmakes url
  | fileUrlDownloadAbort url =>
    obtain ⟨-, rfl⟩ := Prod.mk.inj (Option.some.inj hrun)
    exact urlEffects_of_abort hmakes url
  | storeUrlFile fileUrl fileName filePath => exact urlEffects_of_storeUrlFile hmakes hrun

end Device

variable {W : DeviceConfig H} {h : List (Moment (QueuedDevice H) DeviceEvent DeviceOutput)}
  {s s' : QueuedDevice H} {ev : DeviceEvent} {out : List DeviceOutput}

/-- The requests in the queue of the service. -/
def QueuedDevice.urlRequests (s : QueuedDevice H) : List UrlRequest :=
  s.commandBuffer.filterMap DeviceCommand.urlRequest

namespace QueuedDevice

theorem urlRequests_absorb (D : Device H) (queue : List (DeviceCommand H)) :
    (absorb D queue).urlRequests = queue.filterMap DeviceCommand.urlRequest := by
  simp [urlRequests, absorb, List.filterMap_append, List.filterMap_map, Function.comp_def,
    DeviceCommand.urlRequest]

theorem urlRequests_push (c : DeviceCommand H) :
    (s.push c).urlRequests = s.urlRequests ++ c.urlRequest.toList := by
  cases hc : c.urlRequest <;> simp [urlRequests, push, hc]

theorem urlRequests_sendFileList : s.sendFileList.urlRequests = s.urlRequests := by
  rw [sendFileList, urlRequests_push]
  exact List.append_nil _

end QueuedDevice

/-- What a step does about URLs. -/
structure UrlStep (W : DeviceConfig H) (m : Moment (QueuedDevice H) DeviceEvent DeviceOutput)
    (s' : QueuedDevice H) : Prop where
  requests : m.state.urlRequests ++ (askedUrl W m).toList =
    (handledUrl m).toList ++ s'.urlRequests
  replies : m.output.filterMap DeviceOutput.urlStatus = (urlReply W m).toList
  calls : m.output.filterMap DeviceOutput.urlCall =
    ((handledUrl m).filter (UrlRequest.passedOn W)).toList

open QueuedDevice in
theorem urlStep_of_step (hmakes : ∀ deviceKey response,
    W.protocol.makesUrlStatus deviceKey response = true) (hstep : s.step W ev = some (s', out)) :
    UrlStep W ⟨s, ev, out⟩ s' := by
  have hservice {e : ServiceEvent H} (hask : askedUrl W ⟨s, ev, out⟩ = none)
      (hhandled : handledUrl ⟨s, ev, out⟩ = none) (hreply : urlReply W ⟨s, ev, out⟩ = none)
      (hs : (s.device.stepService e).map (fun r => (absorb r.1 s.commandBuffer, r.2)) =
        some (s', out)) : UrlStep W ⟨s, ev, out⟩ s' := by
    obtain ⟨r, hr, heq⟩ := Option.map_eq_some_iff.mp hs
    obtain ⟨rfl, rfl⟩ := Prod.mk.inj heq
    obtain ⟨x, -, rfl⟩ := Option.map_eq_some_iff.mp hr
    constructor
    · rw [hask, hhandled, urlRequests_absorb]
      exact List.append_nil _
    · rw [hreply]
      simp [List.filterMap_map, Function.comp_def, DeviceOutput.urlStatus]
    · rw [hhandled]
      simp [List.filterMap_map, Function.comp_def, DeviceOutput.urlCall]
  cases ev with
  | messageReceived message =>
    simp only [QueuedDevice.step] at hstep
    split at hstep
    · next c hc =>
      obtain ⟨rfl, rfl⟩ := Prod.mk.inj (Option.some.inj hstep)
      exact ⟨by simp [askedUrl, handledUrl, urlRequests_push, hc], rfl, rfl⟩
    · next hc =>
      obtain ⟨rfl, rfl⟩ := Prod.mk.inj (Option.some.inj hstep)
      exact ⟨by simp [askedUrl, handledUrl, hc], rfl, rfl⟩
  | command a =>
    simp only [QueuedDevice.step] at hstep
    split at hstep
    · cases hstep
    · next c rest hq =>
      obtain ⟨r, hr, heq⟩ := Option.map_eq_some_iff.mp hstep
      obtain ⟨rfl, rfl⟩ := Prod.mk.inj heq
      have heffects := Device.urlEffects_of_command hmakes hr
      have hhandled : handledUrl ⟨s, .command a, r.2⟩ = c.urlRequest := by simp [handledUrl, hq]
      constructor
      · rw [hhandled, urlRequests_absorb]
        cases hc : c.urlRequest <;> simp [askedUrl, urlRequests, hq, hc]
      · rw [urlReply, hhandled]
        exact heffects.replies
      · rw [hhandled]
        exact heffects.calls
  | downloaderCommand fileName created =>
    exact hservice (e := .downloaderCommand fileName created) rfl rfl rfl hstep
  | timerExpired fileName => exact hservice (e := .timerExpired fileName) rfl rfl rfl hstep
  | clearDownloads => exact hservice (e := .clearDownloads) rfl rfl rfl hstep
  | urlDownloadCompleted fileUrl fileName filePath =>
    obtain ⟨rfl, rfl⟩ := Prod.mk.inj (Option.some.inj hstep)
    refine ⟨?_, rfl, rfl⟩
    rw [urlRequests_sendFileList, urlRequests_push]
    rfl
  | urlDownloadFailed fileUrl errorCode =>
    obtain ⟨rfl, rfl⟩ := Prod.mk.inj (Option.some.inj hstep)
    refine ⟨?_, ?_, ?_⟩
    · rw [urlRequests_sendFileList]
      exact List.append_nil _
    · rw [Device.sendUrlStatus_eq hmakes]
      rfl
    · rw [Device.sendUrlStatus_eq hmakes]
      rfl
  | sendFileList =>
    obtain ⟨rfl, rfl⟩ := Prod.mk.inj (Option.some.inj hstep)
    refine ⟨?_, rfl, rfl⟩
    rw [urlRequests_sendFileList]
    exact List.append_nil _
  | getFileInfo fileName =>
    obtain ⟨rfl, rfl⟩ := Prod.mk.inj (Option.some.inj hstep)
    exact ⟨by simp [askedUrl, handledUrl, getFileInfo, urlRequests], rfl, rfl⟩
  | fileChanged path content =>
    obtain ⟨rfl, rfl⟩ := Prod.mk.inj (Option.some.inj hstep)
    exact ⟨by simp [askedUrl, handledUrl, urlRequests], rfl, rfl⟩

/-- The URL traffic of a run: the requests and completions in the order of their arrival, the
statuses that the platform gets and the calls of the `UrlFileDownloader`. -/
structure UrlTraffic (W : DeviceConfig H)
    (h : List (Moment (QueuedDevice H) DeviceEvent DeviceOutput)) (s : QueuedDevice H) : Prop where
  inOrder : h.filterMap (askedUrl W) = h.filterMap handledUrl ++ s.urlRequests
  replies : (outputs h).filterMap DeviceOutput.urlStatus = h.filterMap (urlReply W)
  calls : (outputs h).filterMap DeviceOutput.urlCall =
    (h.filterMap handledUrl).filter (UrlRequest.passedOn W)

/-- Every request about a URL and every completed download is handled once and in order, the
platform gets the reply to each of them and nothing else, and the `UrlFileDownloader` is called for
those that pass the checks. -/
theorem url_requests_answered (hmakes : ∀ deviceKey response,
    W.protocol.makesUrlStatus deviceKey response = true) {C : Condition _ _ _}
    (hrun : (deviceMachine W).Run C h s) : UrlTraffic W h s := by
  constructor
  · apply hrun.fifo (askedUrl W) handledUrl QueuedDevice.urlRequests rfl
    intro h s s' ev out _ _ hstep
    exact (urlStep_of_step hmakes hstep).requests
  · apply hrun.outputs_filterMap
    intro h s s' ev out _ _ hstep
    exact (urlStep_of_step hmakes hstep).replies
  · rw [List.filter_filterMap]
    apply hrun.outputs_filterMap
    intro h s s' ev out _ _ hstep
    exact (urlStep_of_step hmakes hstep).calls

/-- A device with a `UrlFileDownloader`; the content of a message on its channel is the URL. -/
def sampleUrlConfig : DeviceConfig encodingHost :=
  { sampleDeviceConfig with
    urlFileDownloader := true
    protocol := { sampleProtocol with
      makeFileUrlDownloadInitiate := fun message =>
        if message.channel = "url" then some message.content else none } }

/-- One download completes, one is refused and the last one waits. -/
theorem url_requests_answered_sample : ∃ h s, (deviceMachine sampleUrlConfig).Run Free h s ∧
    UrlTraffic sampleUrlConfig h s ∧ s.urlRequests = [.initiate "v"] ∧
    (outputs h).filterMap DeviceOutput.urlStatus =
      [.error "" (.sent .unspecifiedError), .downloaded "u" "f"] := by
  let a : DeviceAnswers := ⟨2, fun _ => true, fun _ => true, []⟩
  obtain ⟨h, s, hrun, ht⟩ := (deviceMachine sampleUrlConfig).exists_run_of_replay Free
    [.messageReceived ⟨"u", "url"⟩, .messageReceived ⟨"", "url"⟩, .command a, .command a,
      .fileChanged "/files/f" (some [97]), .urlDownloadCompleted "u" "f" "/files/f",
      .messageReceived ⟨"v", "url"⟩, .command a]
    (fun h s => decide (s.urlRequests = [.initiate "v"] ∧
      (outputs h).filterMap DeviceOutput.urlStatus =
        [.error "" (.sent .unspecifiedError), .downloaded "u" "f"])) (by decide +kernel)
  obtain ⟨hwaiting, hstatus⟩ := of_decide_eq_true ht
  exact ⟨h, s, hrun, url_requests_answered (fun _ _ => rfl) hrun, hwaiting, hstatus⟩

end WolkConnect
