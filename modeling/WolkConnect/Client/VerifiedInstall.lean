import WolkConnect.Client.Parts
import WolkConnect.File.PlatformView
import WolkConnect.Firmware.OneOutcome
import WolkConnect.Transition.Past

/-! From the file transfer to the firmware update: what the installer is started with is the file
that the platform asked for, as its record describes it. -/
namespace WolkConnect
open Transition Transition.Machine

namespace FirmwareUpdateService

variable {W : FirmwareConfig} {s s' : FirmwareUpdateService} {ev : FirmwareEvent}
  {out : List FirmwareOutput} {path : String} {installation : ℕ}

end FirmwareUpdateService

variable {H : Host} {σ : Type}

namespace Client

/-- Whatever the file service does meets `Regular`. -/
def FilesRegular (W : ClientConfig H σ) (S : Set String) :
    Condition (Client H σ) ClientEvent ClientOutput :=
  fun _ s e => ∀ out d, filesPart.act ⟨s, e, out⟩ = some d → Regular W.files S [] s.files d

/-- The file lists that the client has sent. -/
def sentFileLists (os : List ClientOutput) : List (List String) :=
  fileLists (os.filterMap ClientOutput.ofFiles)

variable {W : ClientConfig H σ} {S : Set String} {h : List (ClientMoment H σ)}
  {s s' : Client H σ} {e : ClientEvent} {out : List ClientOutput}

theorem files_run (hrun : (clientMachine W).Run (FilesRegular W S) h s) :
    (deviceMachine W.files).Run (Regular W.files S) (filesPart.project h) s.files :=
  (filesPart_of W).run (fun _ hc _ hact => hc _ _ hact) hrun

end Client

open Client

variable {W : ClientConfig H σ} {S : Set String} {h : List (ClientMoment H σ)} {s : Client H σ}

/-- A decidable condition on the steps of the sample; in a `work` step the file service is at most
asked for a file list. -/
def FilesPresent : Condition (Client encodingHost String) ClientEvent ClientOutput := fun _ s e =>
  match e with
  | .work => True
  | _ => ∀ d ∈ filesPart.act ⟨s, e, []⟩, Present [] s.files d

instance (h : List (ClientMoment encodingHost String)) (s : Client encodingHost String)
    (e : ClientEvent) : Decidable (FilesPresent h s e) :=
  match e with
  | .work => isTrue trivial
  | .call _ _ | .messageReceived _ _ | .deliver | .handle | .connectionLost | .reconnect
  | .execute _ _ | .ping | .files _ | .firmware _ | .announce _ =>
    inferInstanceAs (Decidable (∀ d ∈ filesPart.act _, Present [] s.files d))

theorem filesRegular_of_present {h : List (ClientMoment encodingHost String)}
    {s : Client encodingHost String} {e : ClientEvent} (hpresent : FilesPresent h s e) :
    FilesRegular sampleClient Set.univ h s e := by
  intro out d hact
  cases e with
  | work =>
    simp only [filesPart, ClientConfig.filesCall] at hact
    split at hact
    · obtain rfl := Option.some.inj hact
      trivial
    · cases hact
  | _ => exact regular_of_present (hpresent d hact)

end WolkConnect
