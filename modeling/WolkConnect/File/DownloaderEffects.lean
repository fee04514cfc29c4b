import WolkConnect.File.FileDownloader

/-! What one command of a `FileDownloader` can do: which callbacks it uses and keeps,
which of the announced values it keeps, and what precedes the success callback. -/
namespace WolkConnect

/-- The callback an effect is a call of. -/
def Effect.callback {κ : Type} : Effect κ → Option κ
  | .packetProvider callback _ => some callback
  | .onSuccess callback _ => some callback
  | .onFail callback _ => some callback
  | _ => none

/-- The callbacks a queued command brings. -/
def Command.callbacks {H : Host} {κ : Type} : Command H κ → Option κ
  | .download _ _ _ _ callbacks => some callbacks
  | _ => none

namespace FileDownloader

variable {κ : Type} {H : Host} {d : FileDownloader κ}

/-- Every callback that is set satisfies `p`. -/
def CallbacksIn (p : κ → Prop) (d : FileDownloader κ) : Prop :=
  (∀ k ∈ d.packetProvider, p k) ∧ (∀ k ∈ d.currentOnSuccessCallback, p k) ∧
    ∀ k ∈ d.currentOnFailCallback, p k

/-- The callbacks stay in `p` and only callbacks in `p` are called. -/
def UsesIn (p : κ → Prop) (r : FileDownloader κ × List (Effect κ)) : Prop :=
  r.1.CallbacksIn p ∧ ∀ o ∈ r.2, ∀ k ∈ o.callback, p k

variable {p : κ → Prop}

theorem callbacksIn_construct (maxPacketSize : UInt64) :
    (construct maxPacketSize : FileDownloader κ).CallbacksIn p := by
  simp [CallbacksIn, construct]

theorem callbacksIn_clear (d : FileDownloader κ) : d.clear.CallbacksIn p := by
  simp [CallbacksIn, clear]

theorem requestPacket_usesIn (h : d.CallbacksIn p) (index : UInt32) (size : UInt64) :
    UsesIn p (d.requestPacket index size) := by
  cases hp : d.packetProvider with
  | none => exact ⟨by simpa [requestPacket, hp, CallbacksIn] using h,
      by simp [requestPacket, hp, Effect.callback]⟩
  | some callback =>
    rw [requestPacket_some hp]
    exact ⟨h, by simpa [Effect.callback] using h.1 callback hp⟩

theorem notifyFail_callback (h : d.CallbacksIn p) (code : FileTransferError) :
    ∀ o ∈ d.notifyFail code, ∀ k ∈ o.callback, p k := by
  intro o ho k hk
  cases hf : d.currentOnFailCallback with
  | none => simp [notifyFail, hf] at ho
  | some callback =>
    obtain rfl : o = .onFail callback code := by simpa [notifyFail, hf] using ho
    obtain rfl : callback = k := by simpa [Effect.callback] using hk
    exact h.2.2 callback hf

theorem notifySuccess_callback (h : d.CallbacksIn p) (path : String) :
    ∀ o ∈ d.notifySuccess path, ∀ k ∈ o.callback, p k := by
  intro o ho k hk
  cases hf : d.currentOnSuccessCallback with
  | none => simp [notifySuccess, hf] at ho
  | some callback =>
    obtain rfl : o = .onSuccess callback path := by simpa [notifySuccess, hf] using ho
    obtain rfl : callback = k := by simpa [Effect.callback] using hk
    exact h.2.1 callback hf

theorem packetFailed_usesIn (h : d.CallbacksIn p) : UsesIn p d.packetFailed := by
  by_cases hr : d.retryCount = maxRetryCount
  · rw [packetFailed_of_eq hr]
    exact ⟨callbacksIn_clear d, notifyFail_callback h _⟩
  · rw [packetFailed_of_ne hr]
    exact requestPacket_usesIn h _ _

theorem downloadComplete_usesIn (h : d.CallbacksIn p) (created : Bool) :
    UsesIn p (d.downloadComplete H created) := by
  have hwritten (path : String) (content : ByteArray) (ok : Bool) (os : List (Effect κ))
      (hos : ∀ o ∈ os, ∀ k ∈ o.callback, p k) :
      ∀ o ∈ .createBinaryFileWithContent path content ok :: os, ∀ k ∈ o.callback, p k := by
    intro o ho
    rcases List.mem_cons.mp ho with rfl | ho
    · simp [Effect.callback]
    · exact hos o ho
  rcases d.downloadComplete_cases (H := H) created with ⟨_, he⟩ | ⟨_, _, he⟩ | ⟨_, _, he⟩ <;>
    rw [he] <;> refine ⟨callbacksIn_clear d, ?_⟩
  · exact notifyFail_callback h _
  · exact hwritten _ _ _ _ (notifyFail_callback h _)
  · exact hwritten _ _ _ _ (notifySuccess_callback h _)

theorem handleData_usesIn (h : d.CallbacksIn p) (b : H.BinaryData) (created : Bool) :
    UsesIn p (d.handleData H b created) := by
  by_cases ha : d.fileHandler.Accepts H b
  · by_cases hl : d.currentPacketIndex + 1 = d.currentPacketCount
    · rw [handleData_of_last ha hl]
      exact downloadComplete_usesIn (d := d.appended H b) h created
    · rw [handleData_of_not_last ha hl]
      exact requestPacket_usesIn (d := d.appended H b) h _ _
  · rw [handleData_of_not_accepts ha]
    exact packetFailed_usesIn (d := d.stopTimer) h

/-- A command uses and keeps only the callbacks that were set and those it brings. -/
theorem run_usesIn (h : d.CallbacksIn p) {c : Command H κ} (hc : ∀ k ∈ c.callbacks, p k)
    (created : Bool) : UsesIn p (d.run H c created) := by
  cases c with
  | download fileName fileSize fileHash downloadDirectory callbacks =>
    have hk : p callbacks := hc callbacks rfl
    refine requestPacket_usesIn ⟨?_, ?_, ?_⟩ _ _ <;> simpa using hk
  | handleData b => exact handleData_usesIn h b created
  | abort => exact ⟨callbacksIn_clear _, by simp [run, abort]⟩

theorem timerExpired_usesIn (h : d.CallbacksIn p) {r : FileDownloader κ × List (Effect κ)}
    (hr : d.timerExpired = some r) : UsesIn p r := by
  unfold timerExpired at hr
  split at hr
  · obtain rfl := Option.some.inj hr
    exact packetFailed_usesIn (d := d.stopTimer) h
  · cases hr

/-- The announced values the success callback belongs to. -/
def Announced (R : String → ByteArray → String → κ → Prop) (d : FileDownloader κ) : Prop :=
  ∀ k ∈ d.currentOnSuccessCallback, R d.currentFileName d.currentFileHash
    d.currentDownloadDirectory k

variable {R : String → ByteArray → String → κ → Prop}

theorem announced_clear (d : FileDownloader κ) : d.clear.Announced R := by
  simp [Announced, clear]

theorem requestPacket_announced (h : d.Announced R) (index : UInt32) (size : UInt64) :
    (d.requestPacket index size).1.Announced R := by
  cases hp : d.packetProvider with
  | none => simpa [requestPacket, hp, Announced] using h
  | some callback =>
    rw [requestPacket_some hp]
    exact h

theorem packetFailed_announced (h : d.Announced R) : d.packetFailed.1.Announced R := by
  by_cases hr : d.retryCount = maxRetryCount
  · rw [packetFailed_of_eq hr]
    exact announced_clear d
  · rw [packetFailed_of_ne hr]
    exact requestPacket_announced h _ _

theorem downloadComplete_clears (d : FileDownloader κ) (created : Bool) :
    (d.downloadComplete H created).1 = d.clear := by
  rcases d.downloadComplete_cases (H := H) created with ⟨_, he⟩ | ⟨_, _, he⟩ | ⟨_, _, he⟩ <;>
    rw [he]

/-- A command keeps the announced values together with the success callback, replaces
all of them at once, or clears the callback. -/
theorem run_announced (h : d.Announced R) {c : Command H κ}
    (hc : ∀ fileName fileSize fileHash downloadDirectory callbacks,
      c = .download fileName fileSize fileHash downloadDirectory callbacks →
        R fileName fileHash downloadDirectory callbacks)
    (created : Bool) : (d.run H c created).1.Announced R := by
  cases c with
  | download fileName fileSize fileHash downloadDirectory callbacks =>
    have hR := hc fileName fileSize fileHash downloadDirectory callbacks rfl
    refine requestPacket_announced ?_ _ _
    intro k hk
    obtain rfl : callbacks = k := by simpa using hk
    exact hR
  | handleData b =>
    change (d.handleData H b created).1.Announced R
    by_cases ha : d.fileHandler.Accepts H b
    · by_cases hl : d.currentPacketIndex + 1 = d.currentPacketCount
      · rw [handleData_of_last ha hl, downloadComplete_clears]
        exact announced_clear _
      · rw [handleData_of_not_last ha hl]
        exact requestPacket_announced (d := d.appended H b) h _ _
    · rw [handleData_of_not_accepts ha]
      exact packetFailed_announced (d := d.stopTimer) h
  | abort => exact announced_clear _

theorem timerExpired_announced (h : d.Announced R) {r : FileDownloader κ × List (Effect κ)}
    (hr : d.timerExpired = some r) : r.1.Announced R := by
  unfold timerExpired at hr
  split at hr
  · obtain rfl := Option.some.inj hr
    exact packetFailed_announced (d := d.stopTimer) h
  · cases hr

theorem requestPacket_no_success (index : UInt32) (size : UInt64) (k : κ) (path : String) :
    .onSuccess k path ∉ (d.requestPacket index size).2 := by
  cases hp : d.packetProvider <;> simp [requestPacket, hp]

theorem notifyFail_no_success (code : FileTransferError) (k : κ) (path : String) :
    .onSuccess k path ∉ d.notifyFail code := by
  cases hf : d.currentOnFailCallback <;> simp [notifyFail, hf]

theorem packetFailed_no_success (k : κ) (path : String) :
    .onSuccess k path ∉ d.packetFailed.2 := by
  by_cases hr : d.retryCount = maxRetryCount
  · rw [packetFailed_of_eq hr]
    exact notifyFail_no_success _ k path
  · rw [packetFailed_of_ne hr]
    exact requestPacket_no_success _ _ k path

/-- The success callback comes right after a successful write of content with the
announced hash, and gets the absolute path of what was written. -/
structure SuccessSpec (H : Host) (d : FileDownloader κ) (effects : List (Effect κ)) (k : κ)
    (path : String) (content : ByteArray) : Prop where
  callback : d.currentOnSuccessCallback = some k
  hash : H.hashSHA256 content = d.currentFileHash
  path_eq : path = H.absolutePath (H.composePath d.currentFileName d.currentDownloadDirectory)
  effects_eq : effects = [.createBinaryFileWithContent
    (H.composePath d.currentFileName d.currentDownloadDirectory) content true, .onSuccess k path]

theorem downloadComplete_success {created : Bool} {k : κ} {path : String}
    (h : .onSuccess k path ∈ (d.downloadComplete H created).2) :
    SuccessSpec H d (d.downloadComplete H created).2 k path d.fileHandler.currentPacketData := by
  rcases d.downloadComplete_cases (H := H) created with ⟨_, he⟩ | ⟨_, _, he⟩ | ⟨hh, _, he⟩
  · rw [he] at h
    exact absurd h (notifyFail_no_success _ k path)
  · rw [he] at h
    rcases List.mem_cons.mp h with h | h
    · cases h
    · exact absurd h (notifyFail_no_success _ k path)
  · rw [he] at h ⊢
    cases hs : d.currentOnSuccessCallback with
    | none => simp [notifySuccess, hs] at h
    | some callback =>
      simp only [notifySuccess, hs, List.mem_cons, reduceCtorEq, Effect.onSuccess.injEq,
        List.not_mem_nil, or_false, false_or] at h ⊢
      obtain ⟨rfl, rfl⟩ := h
      exact ⟨hs, hh.symm, rfl, rfl⟩

theorem run_success {c : Command H κ} {created : Bool} {k : κ} {path : String}
    (h : .onSuccess k path ∈ (d.run H c created).2) :
    ∃ content, SuccessSpec H d (d.run H c created).2 k path content := by
  cases c with
  | download => exact absurd h (requestPacket_no_success _ _ k path)
  | abort => cases h
  | handleData b =>
    change .onSuccess k path ∈ (d.handleData H b created).2 at h
    change ∃ content, SuccessSpec H d (d.handleData H b created).2 k path content
    by_cases ha : d.fileHandler.Accepts H b
    · by_cases hl : d.currentPacketIndex + 1 = d.currentPacketCount
      · rw [handleData_of_last ha hl] at h ⊢
        have hs := downloadComplete_success h
        exact ⟨_, hs.callback, hs.hash, hs.path_eq, hs.effects_eq⟩
      · rw [handleData_of_not_last ha hl] at h
        exact absurd h (requestPacket_no_success _ _ k path)
    · rw [handleData_of_not_accepts ha] at h
      exact absurd h (packetFailed_no_success k path)

theorem timerExpired_no_success {r : FileDownloader κ × List (Effect κ)}
    (hr : d.timerExpired = some r) (k : κ) (path : String) : .onSuccess k path ∉ r.2 := by
  unfold timerExpired at hr
  split at hr
  · obtain rfl := Option.some.inj hr
    exact packetFailed_no_success k path
  · cases hr

/-- An outcome callback is set. -/
def Reports (d : FileDownloader κ) : Prop :=
  d.currentOnSuccessCallback ≠ none ∨ d.currentOnFailCallback ≠ none

/-- A failed attempt now would be the last one. -/
def EndsOnFailure (d : FileDownloader κ) : Prop := d.Reports ∧ d.retryCount = maxRetryCount

/-- This packet ends the download: it is the last one, or the last attempt at one. -/
def EndsOn (H : Host) (d : FileDownloader κ) (b : H.BinaryData) : Prop :=
  d.Reports ∧ if d.fileHandler.Accepts H b then d.currentPacketIndex + 1 = d.currentPacketCount
    else d.retryCount = maxRetryCount

/-- How often an outcome callback is called. -/
def outcomeCalls (os : List (Effect κ)) : ℕ := os.countP Effect.isOutcome

theorem outcomeCalls_written (path : String) (content : ByteArray) (created : Bool)
    (os : List (Effect κ)) :
    outcomeCalls (.createBinaryFileWithContent path content created :: os) = outcomeCalls os := by
  simp [outcomeCalls, Effect.isOutcome]

theorem requestPacket_outcomeCalls (d : FileDownloader κ) (index : UInt32) (size : UInt64) :
    outcomeCalls (d.requestPacket index size).2 = 0 := by
  cases hp : d.packetProvider <;> simp [requestPacket, hp, outcomeCalls, Effect.isOutcome]

theorem notifyFail_outcomeCalls (d : FileDownloader κ) (code : FileTransferError) :
    outcomeCalls (d.notifyFail code) ≤ 1 ∧ (outcomeCalls (d.notifyFail code) ≠ 0 → d.Reports) := by
  cases hf : d.currentOnFailCallback <;>
    simp [notifyFail, hf, outcomeCalls, Effect.isOutcome, Reports]

theorem notifySuccess_outcomeCalls (d : FileDownloader κ) (path : String) :
    outcomeCalls (d.notifySuccess path) ≤ 1 ∧
      (outcomeCalls (d.notifySuccess path) ≠ 0 → d.Reports) := by
  cases hf : d.currentOnSuccessCallback <;>
    simp [notifySuccess, hf, outcomeCalls, Effect.isOutcome, Reports]

theorem packetFailed_outcomeCalls (d : FileDownloader κ) :
    outcomeCalls d.packetFailed.2 ≤ 1 ∧ (outcomeCalls d.packetFailed.2 ≠ 0 → d.EndsOnFailure) := by
  by_cases hr : d.retryCount = maxRetryCount
  · rw [packetFailed_of_eq hr]
    have hf := d.notifyFail_outcomeCalls .retryCountExceeded
    exact ⟨hf.1, fun hne => ⟨hf.2 hne, hr⟩⟩
  · rw [packetFailed_of_ne hr, requestPacket_outcomeCalls]
    simp

theorem downloadComplete_outcomeCalls (d : FileDownloader κ) (created : Bool) :
    outcomeCalls (d.downloadComplete H created).2 ≤ 1 ∧
      (outcomeCalls (d.downloadComplete H created).2 ≠ 0 → d.Reports) := by
  rcases d.downloadComplete_cases (H := H) created with ⟨_, he⟩ | ⟨_, _, he⟩ | ⟨_, _, he⟩ <;>
    simp only [he, outcomeCalls_written]
  · exact d.notifyFail_outcomeCalls _
  · exact d.notifyFail_outcomeCalls _
  · exact d.notifySuccess_outcomeCalls _

/-- A command calls at most one outcome callback, and only for a packet that ends the
download. -/
theorem run_outcomeCalls (d : FileDownloader κ) (c : Command H κ) (created : Bool) :
    outcomeCalls (d.run H c created).2 ≤ 1 ∧
      (outcomeCalls (d.run H c created).2 ≠ 0 → ∃ b, c = .handleData b ∧ d.EndsOn H b) := by
  cases c with
  | download fileName fileSize fileHash downloadDirectory callbacks =>
    have hz : outcomeCalls (d.run H (.download fileName fileSize fileHash downloadDirectory
        callbacks) created).2 = 0 := requestPacket_outcomeCalls _ _ _
    simp [hz]
  | abort => simp [run, abort, outcomeCalls]
  | handleData b =>
    change outcomeCalls (d.handleData H b created).2 ≤ 1 ∧ (outcomeCalls (d.handleData H b
      created).2 ≠ 0 → _)
    by_cases ha : d.fileHandler.Accepts H b
    · by_cases hl : d.currentPacketIndex + 1 = d.currentPacketCount
      · rw [handleData_of_last ha hl]
        have hc := (d.appended H b).downloadComplete_outcomeCalls (H := H) created
        exact ⟨hc.1, fun hne => ⟨b, rfl, hc.2 hne, by simpa [ha] using hl⟩⟩
      · rw [handleData_of_not_last ha hl, requestPacket_outcomeCalls]
        simp
    · rw [handleData_of_not_accepts ha]
      have hf := d.stopTimer.packetFailed_outcomeCalls
      refine ⟨hf.1, fun hne => ⟨b, rfl, (hf.2 hne).1, ?_⟩⟩
      have hr : d.retryCount = maxRetryCount := (hf.2 hne).2
      simpa [ha] using hr

theorem timerExpired_outcomeCalls {r : FileDownloader κ × List (Effect κ)}
    (hr : d.timerExpired = some r) :
    outcomeCalls r.2 ≤ 1 ∧ (outcomeCalls r.2 ≠ 0 → d.EndsOnFailure) := by
  unfold timerExpired at hr
  split at hr
  · obtain rfl := Option.some.inj hr
    exact d.stopTimer.packetFailed_outcomeCalls
  · cases hr

end FileDownloader
end WolkConnect
