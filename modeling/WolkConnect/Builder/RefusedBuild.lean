import WolkConnect.Builder.WolkBuilder

/-! Runs of a `WolkBuilder`: which refused builds it shows no trace of, and when a later `build`
runs into a missing data protocol. -/
namespace WolkConnect
open Transition Transition.Machine

variable {α : Type*}

abbrev BuilderMoment (α : Type*) := Moment (WolkBuilder α) (BuilderCall α) (BuildResult α)

/-- A `build` that throws leaves the builder as it was, so that it does the same as without that
attempt from then on; and no `build` gets past its checks without a protocol. -/
structure SurvivesRefusals (h : List (BuilderMoment α)) : Prop where
  unchanged : ∀ m ∈ h, ∀ live what, m.event = .build live → m.output = [.logicError what] →
    (m.state.build live).2 = m.state
  later : ∀ m ∈ h, ∀ live what, m.event = .build live → m.output = [.logicError what] →
    ∀ (setters : List (BuilderSetter α)) (live' : α → Bool),
      ((setters.foldl WolkBuilder.set (m.state.build live).2).build live').1 =
        ((setters.foldl WolkBuilder.set m.state).build live').1
  protocol : ∀ m ∈ h, .nullProtocol ∉ m.output

/-- A `build` has passed the first five checks, and no protocol was set since. -/
def protocolTaken (h : List (BuilderMoment α)) : Bool :=
  h.foldl (fun taken m =>
    match m.event with
    | .set (.withDataProtocol _) => false
    | .set _ => taken
    | .build live => taken || (m.state.check live).isNone) false

/-- Every `build` that passes the first five checks finds a protocol that was not taken yet, and
no firmware update without file management. -/
def BuildsInOrder (h : List (BuilderMoment α)) : Prop :=
  ∀ k m l live, h = k ++ m :: l → m.event = .build live → m.state.check live = none →
    protocolTaken k = false ∧
      (m.state.firmwareUpdate.isSome = true → m.state.fileManagementEnabled = true)

namespace WolkBuilder

variable {b : WolkBuilder α} {live : α → Bool}

theorem build_of_refused {what : String} (hcheck : b.check live = some what) :
    b.build live = (.logicError what, b) := by
  unfold build
  rw [hcheck]

/-- Past the first five checks the builder has no protocol any more. -/
theorem build_of_checked (hcheck : b.check live = none) :
    (b.build live).2 = { b with dataProtocol := none } := by
  unfold build
  rw [hcheck]
  cases b.dataProtocol with
  | none => rfl
  | some dataProtocol =>
    show (if _ then _ else _ : BuildResult α × WolkBuilder α).2 = _
    split <;> rfl

theorem build_of_unprotected (hcheck : b.check live = none) (hnone : b.dataProtocol = none) :
    (b.build live).1 = .nullProtocol := by
  unfold build
  rw [hcheck, hnone]

theorem build_of_protected {dataProtocol : α} (hcheck : b.check live = none)
    (hsome : b.dataProtocol = some dataProtocol) :
    (b.build live).1 =
      if b.firmwareUpdate.isSome = true ∧ b.fileManagementEnabled = false then
        .logicError "File management must be enabled in order to use firmware update."
      else .built (b.parts dataProtocol) := by
  unfold build
  rw [hcheck, hsome]
  show (if _ then _ else _ : BuildResult α × WolkBuilder α).1 = _
  split <;> rfl

theorem set_dataProtocol (setter : BuilderSetter α)
    (hset : ∀ protocol, setter ≠ .withDataProtocol protocol) :
    (b.set setter).dataProtocol = b.dataProtocol := by
  cases setter with
  | withDataProtocol protocol => exact absurd rfl (hset protocol)
  | _ => rfl

end WolkBuilder

variable {device : WolkBuilder.Device} {persistence protocol : α} {h : List (BuilderMoment α)}
  {b : WolkBuilder α}

theorem protocolTaken_concat (m : BuilderMoment α) : protocolTaken (h ++ [m]) =
    match m.event with
    | .set (.withDataProtocol _) => false
    | .set _ => protocolTaken h
    | .build live => protocolTaken h || (m.state.check live).isNone := by
  simp only [protocolTaken, List.foldl_concat]

/-- The builder is without a protocol exactly while it is taken. -/
theorem protocolTaken_iff (hrun : (builderMachine device persistence protocol).Run Free h b) :
    protocolTaken h = b.dataProtocol.isNone := by
  induction hrun with
  | start => rfl
  | @step h b b' e out _ _ hstep ih =>
    rw [protocolTaken_concat]
    cases e with
    | set setter =>
      obtain ⟨rfl, -⟩ := Prod.mk.inj (Option.some.inj hstep)
      by_cases hset : ∃ protocol, setter = .withDataProtocol protocol
      · obtain ⟨protocol, rfl⟩ := hset
        rfl
      · have hkept : ∀ protocol, setter ≠ .withDataProtocol protocol := not_exists.mp hset
        show _ = (b.set setter).dataProtocol.isNone
        rw [WolkBuilder.set_dataProtocol setter hkept, ← ih]
        cases setter with
        | withDataProtocol protocol => exact absurd rfl (hkept protocol)
        | _ => rfl
    | build live =>
      obtain ⟨rfl, -⟩ := Prod.mk.inj (Option.some.inj hstep)
      show (protocolTaken h || (b.check live).isNone) = (b.build live).2.dataProtocol.isNone
      cases hcheck : b.check live with
      | some what => simp [WolkBuilder.build_of_refused hcheck, ih]
      | none => simp [WolkBuilder.build_of_checked hcheck]

theorem output_of_build {k l : List (BuilderMoment α)} {m : BuilderMoment α} {live : α → Bool}
    (hrun : (builderMachine device persistence protocol).Run Free (k ++ m :: l) b)
    (hevent : m.event = .build live) : m.output = [(m.state.build live).1] := by
  obtain ⟨-, -, b', hstep⟩ := hrun.moment
  rw [hevent] at hstep
  exact (Prod.mk.inj (Option.some.inj hstep)).2.symm

/-- In order, a build that passes the five checks returns a `Wolk`. -/
theorem BuildsInOrder.built {k l : List (BuilderMoment α)} {m : BuilderMoment α}
    {live : α → Bool}
    (hrun : (builderMachine device persistence protocol).Run Free (k ++ m :: l) b)
    (horder : BuildsInOrder (k ++ m :: l)) (hevent : m.event = .build live)
    (hcheck : m.state.check live = none) :
    ∃ dataProtocol, (m.state.build live).1 = .built (m.state.parts dataProtocol) := by
  obtain ⟨htaken, hfirmware⟩ := horder k m l live rfl hevent hcheck
  rw [protocolTaken_iff hrun.moment.1] at htaken
  obtain ⟨dataProtocol, hsome⟩ := Option.isSome_iff_exists.mp (by simpa using htaken)
  have hfiles : ¬ (m.state.firmwareUpdate.isSome = true ∧
      m.state.fileManagementEnabled = false) := by
    rintro ⟨hupdate, hfalse⟩
    rw [hfirmware hupdate] at hfalse
    cases hfalse
  exact ⟨dataProtocol, by rw [WolkBuilder.build_of_protected hcheck hsome, if_neg hfiles]⟩

theorem survivesRefusals_of_buildsInOrder
    (hrun : (builderMachine device persistence protocol).Run Free h b)
    (horder : BuildsInOrder h) : SurvivesRefusals h := by
  have hunchanged : ∀ m ∈ h, ∀ live what, m.event = .build live →
      m.output = [.logicError what] → (m.state.build live).2 = m.state := by
    intro m hm live what hevent hout
    obtain ⟨k, l, rfl⟩ := List.append_of_mem hm
    cases hcheck : m.state.check live with
    | some what => rw [WolkBuilder.build_of_refused hcheck]
    | none =>
      obtain ⟨dataProtocol, hbuilt⟩ := BuildsInOrder.built hrun horder hevent hcheck
      rw [output_of_build hrun hevent, hbuilt] at hout
      simp at hout
  refine ⟨hunchanged, ?_, ?_⟩
  · intro m hm live what hevent hout setters live'
    rw [hunchanged m hm live what hevent hout]
  · intro m hm
    obtain ⟨k, l, rfl⟩ := List.append_of_mem hm
    cases hevent : m.event with
    | set setter =>
      obtain ⟨-, -, b', hstep⟩ := hrun.moment
      rw [hevent] at hstep
      rw [← (Prod.mk.inj (Option.some.inj hstep)).2]
      exact List.not_mem_nil
    | build live =>
      rw [output_of_build hrun hevent]
      cases hcheck : m.state.check live with
      | some what => simp [WolkBuilder.build_of_refused hcheck]
      | none =>
        obtain ⟨dataProtocol, hbuilt⟩ := BuildsInOrder.built hrun horder hevent hcheck
        simp [hbuilt]

theorem buildsInOrder_of_survivesRefusals
    (hrun : (builderMachine device persistence protocol).Run Free h b)
    (hsurvives : SurvivesRefusals h) : BuildsInOrder h := by
  rintro k m l live rfl hevent hcheck
  have hm : m ∈ k ++ m :: l := by simp
  have hout := output_of_build hrun hevent
  have htaken : m.state.dataProtocol ≠ none := by
    intro hnone
    apply hsurvives.protocol m hm
    rw [hout, WolkBuilder.build_of_unprotected hcheck hnone]
    exact List.mem_singleton_self _
  obtain ⟨dataProtocol, hsome⟩ := Option.ne_none_iff_exists'.mp htaken
  constructor
  · rw [protocolTaken_iff hrun.moment.1, hsome]
    rfl
  · intro hupdate
    by_contra hfiles
    have hbuild := WolkBuilder.build_of_protected hcheck hsome
    rw [if_pos ⟨hupdate, Bool.eq_false_iff.mpr hfiles⟩] at hbuild
    rw [hbuild] at hout
    -- the last check throws, but the protocol is gone
    have hsame := hsurvives.unchanged m hm live _ hevent hout
    rw [WolkBuilder.build_of_checked hcheck] at hsame
    have hgone := congrArg WolkBuilder.dataProtocol hsame
    rw [hsome] at hgone
    cases hgone

/-- Refused builds leave no trace, and no build runs into a missing protocol, exactly in the runs
whose builds are in order. -/
theorem survivesRefusals_iff
    (hrun : (builderMachine device persistence protocol).Run Free h b) :
    SurvivesRefusals h ↔ BuildsInOrder h :=
  ⟨buildsInOrder_of_survivesRefusals hrun, survivesRefusals_of_buildsInOrder hrun⟩

/-- A refused build, then the missing handler, a build, a new protocol and a build. -/
theorem survivesRefusals_iff_sample : ∃ (h : List (BuilderMoment ℕ)) (b : WolkBuilder ℕ),
    (builderMachine ⟨"key", "", ["A1"]⟩ 0 1).Run Free h b ∧
      (SurvivesRefusals h ↔ BuildsInOrder h) ∧ (outputs h).length = 3 ∧
      (outputs h).head? = some (.logicError "Actuation handler not set.") := by
  obtain ⟨h, b, hrun, ht⟩ :=
    (builderMachine (⟨"key", "", ["A1"]⟩ : WolkBuilder.Device) 0 1).exists_run_of_replay Free
      [.build fun _ => true, .set (.actuationHandlerLambda (some 2)),
        .set (.actuatorStatusProvider (some 3)), .build fun _ => true,
        .set (.withDataProtocol 4), .build fun _ => true]
      (fun h _ => decide ((outputs h).length = 3 ∧
        (outputs h).head? = some (.logicError "Actuation handler not set."))) (by decide +kernel)
  obtain ⟨hlength, hhead⟩ := of_decide_eq_true ht
  exact ⟨h, b, hrun, survivesRefusals_iff hrun, hlength, hhead⟩

/-- Firmware update without file management: the refused build takes the protocol with it, and
the next one passes all checks without. -/
theorem refused_build_takes_protocol : ¬ ∀ (h : List (BuilderMoment ℕ)) (b : WolkBuilder ℕ),
    (builderMachine ⟨"key", "", []⟩ 0 1).Run Free h b → SurvivesRefusals h := by
  intro hclaim
  obtain ⟨h, b, hrun, ht⟩ :=
    (builderMachine (⟨"key", "", []⟩ : WolkBuilder.Device) 0 1).exists_run_of_replay Free
      [.set (.withFirmwareUpdate (some 2) (some 3)), .build fun _ => true,
        .set (.withFileManagement "files" 1024 none), .build fun _ => true]
      (fun h _ => decide (BuildResult.nullProtocol ∈ outputs h)) (by decide +kernel)
  obtain ⟨m, hm, hnull⟩ := List.mem_flatMap.mp (of_decide_eq_true ht)
  exact (hclaim h b hrun).protocol m hm hnull

end WolkConnect
