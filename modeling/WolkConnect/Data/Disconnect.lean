import WolkConnect.Data.Conservation
import Mathlib.Data.List.Infix

/-! Whether `disconnect()` is final: what is pushed behind a `disconnect()` command, and what
the worker does after it. -/
namespace WolkConnect
open Transition Transition.Machine

def WolkCommand.isTryConnect : WolkCommand → Bool
  | .tryConnect _ => true
  | _ => false

/-- A call of `ConnectivityService::connect` or of `notifyConnected`. -/
def WolkOutput.isConnect : WolkOutput → Bool
  | .connect _ => true
  | .notifyConnected => true
  | _ => false

namespace Wolk

variable {σ : Type}

def userCall (m : Moment (Wolk σ) WolkEvent WolkOutput) : Option UserCall :=
  match m.event with
  | .call c _ => some c
  | _ => none

/-- The calls of the user, oldest first. -/
def userCalls (h : WolkHistory σ) : List UserCall := h.filterMap userCall

/-- The last of the user's `connect()` and `disconnect()` calls is a `disconnect()`. -/
def Disconnecting (h : WolkHistory σ) : Prop :=
  ((userCalls h).filter fun c => c = .connect ∨ c = .disconnect).getLast? = some .disconnect

instance (h : WolkHistory σ) : Decidable (Disconnecting h) :=
  inferInstanceAs (Decidable (_ = _))

/-- Once a `disconnect()` command has executed after whose call the user did not call
`connect()`, nothing connects and the keep-alive timer is stopped. -/
def DisconnectFinal (h : WolkHistory σ) (s : Wolk σ) : Prop :=
  ∀ k m l, h = k ++ m :: l →
    executedCommand m = some (.disconnect ((userCalls h).count .connect)) →
      (∀ m' ∈ l, ∀ o ∈ m'.output, o.isConnect = false) ∧ s.timer = false

/-- The step pushes a `tryConnect` that the user did not call for: a failed one queues itself
again, or the connection-lost handler goes on. -/
def retries (s : Wolk σ) : WolkEvent → Bool
  | .reconnect => true
  | .work =>
    match s.running with
    | .push c :: _ => c.isTryConnect
    | _ => false
  | _ => false

/-- No `tryConnect` is pushed by others than the user after the user's last `disconnect()`. -/
def NoRetry : Condition (Wolk σ) WolkEvent WolkOutput :=
  fun h s ev => Disconnecting h → s.retries ev = false

instance (h : WolkHistory σ) (s : Wolk σ) (ev : WolkEvent) : Decidable (NoRetry h s ev) :=
  inferInstanceAs (Decidable (Disconnecting h → s.retries ev = false))

/-- `executed` are the numbers of the `disconnect()` commands that have executed, and
`disconnecting` tells whether the user's last call is `disconnect()`. -/
structure DisconnectInv (W : WolkConfig σ) (s : Wolk σ) (executed : ℕ → Prop)
    (disconnecting : Prop) : Prop where
  queued : ∀ e, .disconnect e ∈ s.commandBuffer → e ≤ s.connects
  done : ∀ e, executed e → e ≤ s.connects
  behind : s.commandBuffer.Pairwise fun c d => c = .disconnect s.connects → d.isTryConnect = false
  quiet : executed s.connects → (∀ c ∈ s.commandBuffer, c.isTryConnect = false) ∧
    (∀ c, .push c ∈ s.running → c.isTryConnect = false) ∧ s.timer = false
  connecting : ¬ disconnecting → .disconnect s.connects ∉ s.commandBuffer ∧ ¬ executed s.connects
  handling : ∀ c ∈ s.handling, c.isTryConnect = false ∧ ∀ e, c ≠ .disconnect e
  running : ∀ c, .push c ∈ s.running → ∀ e, c ≠ .disconnect e
  timer : W.keepAliveService = false → s.timer = false

namespace DisconnectInv

variable {W : WolkConfig σ} {s : Wolk σ} {executed : ℕ → Prop} {disconnecting : Prop}
  {c : WolkCommand}

theorem push (h : DisconnectInv W s executed disconnecting) (hc : ∀ e, c ≠ .disconnect e)
    (hd : c.isTryConnect = true → ¬ disconnecting) :
    DisconnectInv W (s.addToCommandBuffer c) executed disconnecting where
  queued e he := by
    rcases List.mem_append.mp he with he | he
    · exact h.queued e he
    · exact absurd (List.mem_singleton.mp he).symm (hc e)
  done := h.done
  behind := by
    apply List.pairwise_append.mpr ⟨h.behind, List.pairwise_singleton _ _, ?_⟩
    rintro x hx y hy rfl
    obtain rfl := List.mem_singleton.mp hy
    rw [← Bool.not_eq_true]
    intro ht
    exact (h.connecting (hd ht)).1 hx
  quiet he := by
    obtain ⟨hq, hr, ht⟩ := h.quiet he
    refine ⟨?_, hr, ht⟩
    intro x hx
    rcases List.mem_append.mp hx with hx | hx
    · exact hq x hx
    · obtain rfl := List.mem_singleton.mp hx
      rw [← Bool.not_eq_true]
      intro ht
      exact (h.connecting (hd ht)).2 he
  connecting hn := by
    refine ⟨?_, (h.connecting hn).2⟩
    intro he
    rcases List.mem_append.mp he with he | he
    · exact (h.connecting hn).1 he
    · exact hc _ (List.mem_singleton.mp he).symm
  handling := h.handling
  running := h.running
  timer := h.timer

/-- The user calls `connect()`: older `disconnect()` commands no longer matter. -/
theorem connect (h : DisconnectInv W s executed disconnecting) :
    DisconnectInv W { s.addToCommandBuffer (.tryConnect true) with connects := s.connects + 1 }
      executed False where
  queued e he := by
    rcases List.mem_append.mp he with he | he
    · exact (h.queued e he).trans (Nat.le_succ _)
    · cases List.mem_singleton.mp he
  done e he := (h.done e he).trans (Nat.le_succ _)
  behind := by
    apply List.Pairwise.imp_of_mem _ (List.pairwise_of_forall fun _ _ => trivial)
    rintro x y hx - - rfl
    rcases List.mem_append.mp hx with hx | hx
    · exact absurd (h.queued _ hx) (by simp)
    · cases List.mem_singleton.mp hx
  quiet he := absurd (h.done _ he) (by simp)
  connecting _ := by
    constructor
    · intro he
      rcases List.mem_append.mp he with he | he
      · exact absurd (h.queued _ he) (by simp)
      · cases List.mem_singleton.mp he
    · intro he
      exact absurd (h.done _ he) (by simp)
  handling := h.handling
  running := h.running
  timer := h.timer

theorem disconnect (h : DisconnectInv W s executed disconnecting) :
    DisconnectInv W (s.addToCommandBuffer (.disconnect s.connects)) executed True where
  queued e he := by
    rcases List.mem_append.mp he with he | he
    · exact h.queued e he
    · cases List.mem_singleton.mp he
      exact le_rfl
  done := h.done
  behind := by
    apply List.pairwise_append.mpr ⟨h.behind, List.pairwise_singleton _ _, ?_⟩
    rintro x hx y hy -
    obtain rfl := List.mem_singleton.mp hy
    rfl
  quiet he := by
    obtain ⟨hq, hr, ht⟩ := h.quiet he
    refine ⟨?_, hr, ht⟩
    intro x hx
    rcases List.mem_append.mp hx with hx | hx
    · exact hq x hx
    · obtain rfl := List.mem_singleton.mp hx
      rfl
  connecting hn := absurd trivial hn
  handling := h.handling
  running := h.running
  timer := h.timer

/-- The command is taken from the queue; `hquiet` is what is left to show of it. -/
theorem take (h : DisconnectInv W s executed disconnecting) {rest : List WolkCommand}
    (hq : s.commandBuffer = c :: rest) (s' : Wolk σ) (hb : s'.commandBuffer = rest)
    (hh : s'.handling = s.handling) (hn : s'.connects = s.connects)
    (hrunning : ∀ d, .push d ∈ s'.running → ∀ e, d ≠ .disconnect e)
    (htimer : W.keepAliveService = false → s'.timer = false)
    (hquiet : c.isTryConnect = false → executed s.connects ∨ c = .disconnect s.connects →
      (∀ d, .push d ∈ s'.running → d.isTryConnect = false) ∧ s'.timer = false) :
    DisconnectInv W s' (fun e => executed e ∨ c = .disconnect e) disconnecting := by
  have hbehind := h.behind
  rw [hq, List.pairwise_cons] at hbehind
  constructor
  · intro e he
    rw [hn]
    exact h.queued e (by simp [hq, ← hb, he])
  · rintro e (he | rfl)
    · rw [hn]
      exact h.done e he
    · rw [hn]
      exact h.queued e (by simp [hq])
  · rw [hb, hn]
    exact hbehind.2
  · intro he
    rw [hn] at he
    have hcommands : c.isTryConnect = false ∧ ∀ d ∈ rest, d.isTryConnect = false := by
      rcases he with he | hc
      · have hquiet := (h.quiet he).1
        rw [hq] at hquiet
        exact ⟨hquiet c List.mem_cons_self, fun d hd => hquiet d (List.mem_cons_of_mem _ hd)⟩
      · exact ⟨by rw [hc]; rfl, fun d hd => hbehind.1 d hd hc⟩
    obtain ⟨hr, ht⟩ := hquiet hcommands.1 he
    rw [hb]
    exact ⟨hcommands.2, hr, ht⟩
  · intro hd
    obtain ⟨hnot, hdone⟩ := h.connecting hd
    rw [hq] at hnot
    rw [hb, hn]
    refine ⟨fun he => hnot (List.mem_cons_of_mem _ he), ?_⟩
    rintro (he | rfl)
    · exact hdone he
    · exact hnot List.mem_cons_self
  · rw [hh]
    exact h.handling
  · exact hrunning
  · exact htimer

theorem execute (h : DisconnectInv W s executed disconnecting) {a : Answers}
    {rest : List WolkCommand} (hr : s.running = []) (hq : s.commandBuffer = c :: rest) :
    DisconnectInv W
      { (run W c a { s with commandBuffer := rest }).1 with executed := s.executed + 1 }
      (fun e => executed e ∨ c = .disconnect e) disconnecting := by
  obtain ⟨hb, hh, hn⟩ := run_frame W c a { s with commandBuffer := rest }
  refine h.take hq _ hb hh hn ?_ ?_ ?_
  · intro d hd
    rcases run_push W (by exact hr) hd with ⟨reference, rfl⟩ | rfl | rfl | rfl <;> simp
  · intro hoff
    have ht := h.timer hoff
    cases c with
    | tryConnect firstTime =>
      by_cases hconnected : a.connected <;> simp [run, hconnected, notifyConnected, hoff, ht]
    | disconnect connects => simp [run, notifyDisonnected, hoff, ht]
    | _ => exact ht
  · intro hc he
    have hidle : ∀ d, .push d ∈ s.running → d.isTryConnect = false := by simp [hr]
    cases c with
    | tryConnect firstTime => cases hc
    | disconnect connects =>
      refine ⟨hidle, ?_⟩
      cases hk : W.keepAliveService with
      | true => simp [run, notifyDisonnected, hk]
      | false => simpa [run, notifyDisonnected, hk] using h.timer hk
    | _ => exact ⟨hidle, (h.quiet (he.resolve_right (by simp))).2.2⟩

theorem call (h : DisconnectInv W s executed disconnecting) (currentRtc : UInt64) (c : UserCall) :
    DisconnectInv W (s.call currentRtc c) executed
      (c = .disconnect ∨ (c ≠ .connect ∧ disconnecting)) := by
  have hother (hc : c ≠ .connect) (hd : c ≠ .disconnect) :
      (c = .disconnect ∨ (c ≠ .connect ∧ disconnecting)) = disconnecting := by simp [hc, hd]
  cases c with
  | connect =>
    simp only [reduceCtorEq, ne_eq, not_true_eq_false, false_and, or_self]
    exact h.connect
  | disconnect =>
    simp only [true_or]
    exact h.disconnect
  | addSensorReadings reference values rtc =>
    rw [hother (by simp) (by simp)]
    by_cases hv : values.isEmpty
    · rw [Wolk.call, if_pos hv]
      exact h
    · rw [Wolk.call, if_neg hv]
      exact h.push (by simp) (by simp [WolkCommand.isTryConnect])
  | _ =>
    rw [hother (by simp) (by simp)]
    exact h.push (by simp) (by simp [WolkCommand.isTryConnect])

/-- The worker has done the next task of its command. -/
theorem work (h : DisconnectInv W s executed disconnecting) {task : WorkerTask}
    {rest : List WorkerTask} (hr : s.running = task :: rest) :
    DisconnectInv W { s with running := rest } executed disconnecting :=
  { h with
    quiet := fun he => by
      obtain ⟨hq, hpush, ht⟩ := h.quiet he
      exact ⟨hq, fun d hd => hpush d (by simp [hr, hd]), ht⟩
    running := fun d hd => h.running d (by simp [hr, hd]) }

/-- A step that the condition allows, apart from the calls of the user. -/
theorem moves (h : DisconnectInv W s executed disconnecting) {s' : Wolk σ} {ev : WolkEvent}
    {out : List WolkOutput} (hm : Moves W s ev s' out)
    (hretry : disconnecting → s.retries ev = false)
    (hcall : ∀ c currentRtc, ev ≠ .call c currentRtc) :
    DisconnectInv W s'
      (fun e => executed e ∨ executedCommand ⟨s, ev, out⟩ = some (.disconnect e))
      disconnecting := by
  have hkept (hev : ∀ a, ev ≠ .execute a) :
      (fun e => executed e ∨ executedCommand ⟨s, ev, out⟩ = some (.disconnect e)) =
        executed := by
    funext e
    cases ev with
    | execute a => exact absurd rfl (hev a)
    | _ => simp [executedCommand]
  cases hm with
  | called c currentRtc => exact absurd rfl (hcall c currentRtc)
  | received c hh =>
    rw [hkept (by simp)]
    refine { h with handling := ?_ }
    intro d hd
    cases c <;> simp only [pushes, List.mem_cons, List.not_mem_nil, or_false] at hd <;>
      rcases hd with rfl | rfl <;> exact ⟨rfl, by simp⟩
  | handled c rest hh =>
    rw [hkept (by simp)]
    have hc := h.handling c (by simp [hh])
    have hrest : DisconnectInv W { s with handling := rest } executed disconnecting :=
      { h with handling := fun d hd => h.handling d (by simp [hh, hd]) }
    exact hrest.push hc.2 fun ht => by simp [hc.1] at ht
  | connectionLost =>
    rw [hkept (by simp)]
    refine { h with quiet := fun he => ?_, timer := fun hoff => ?_ }
    · obtain ⟨hq, hr, ht⟩ := h.quiet he
      exact ⟨hq, hr, by simp [notifyDisonnected, ht]⟩
    · simp [notifyDisonnected, hoff, h.timer hoff]
  | reconnected lost hl =>
    rw [hkept (by simp)]
    have hrest : DisconnectInv W { s with lost := lost } executed disconnecting := { h with }
    exact hrest.push (by simp) fun _ hd => by simpa [retries] using hretry hd
  | executed a c rest hr hq =>
    have hcommand : executedCommand
        ⟨s, .execute a, (run W c a { s with commandBuffer := rest }).2⟩ = some c := by
      simp [executedCommand, hq]
    rw [hcommand]
    simpa only [Option.some.injEq] using h.execute hr hq
  | pushed c rest hr =>
    rw [hkept (by simp)]
    apply (h.work hr).push (h.running c (by simp [hr]))
    intro ht hd
    simp [retries, hr, ht] at hretry
    exact hretry hd
  | sentFileList rest hr =>
    rw [hkept (by simp)]
    exact h.work hr

end DisconnectInv

variable {W : WolkConfig σ} {h : WolkHistory σ} {s s' : Wolk σ} {ev : WolkEvent}
  {out : List WolkOutput}

/-- The `disconnect()` command of number `e` has executed. -/
def Executed (h : WolkHistory σ) (e : ℕ) : Prop :=
  ∃ m ∈ h, executedCommand m = some (.disconnect e)

theorem executed_concat {e : ℕ} : Executed (h ++ [⟨s, ev, out⟩]) e ↔
    Executed h e ∨ executedCommand ⟨s, ev, out⟩ = some (.disconnect e) := by
  simp [Executed, or_and_right, exists_or]

theorem disconnecting_call (c : UserCall) (currentRtc : UInt64) :
    Disconnecting (h ++ [⟨s, .call c currentRtc, out⟩]) ↔
      c = .disconnect ∨ (c ≠ .connect ∧ Disconnecting h) := by
  cases c <;> simp [Disconnecting, userCalls, userCall]

theorem userCalls_concat (hcall : ∀ c currentRtc, ev ≠ .call c currentRtc) :
    userCalls (h ++ [⟨s, ev, out⟩]) = userCalls h := by
  cases ev with
  | call c currentRtc => exact absurd rfl (hcall c currentRtc)
  | _ => simp [userCalls, userCall]

theorem run_disconnectInv (hrun : (wolkMachine W).Run NoRetry h s) :
    DisconnectInv W s (Executed h) (Disconnecting h) := by
  induction hrun with
  | start =>
    constructor <;> simp [wolkMachine, construct, Executed]
  | @step h s s' ev out _ hc hstep ih =>
    have hexecuted : Executed (h ++ [⟨s, ev, out⟩]) =
        fun e => Executed h e ∨ executedCommand ⟨s, ev, out⟩ = some (.disconnect e) :=
      funext fun e => propext executed_concat
    rw [hexecuted]
    have hm := step_moves hstep
    by_cases hcall : ∀ c currentRtc, ev ≠ .call c currentRtc
    · have hd : Disconnecting (h ++ [⟨s, ev, out⟩]) = Disconnecting h := by
        rw [Disconnecting, userCalls_concat hcall, Disconnecting]
      rw [hd]
      exact ih.moves hm hc hcall
    · push Not at hcall
      obtain ⟨c, currentRtc, rfl⟩ := hcall
      cases hm
      rw [propext (disconnecting_call c currentRtc)]
      simpa [executedCommand] using ih.call currentRtc c

theorem run_connects {C : Condition (Wolk σ) WolkEvent WolkOutput}
    (hrun : (wolkMachine W).Run C h s) : s.connects = (userCalls h).count .connect := by
  induction hrun with
  | start => rfl
  | @step h s s' ev out _ hc hstep ih =>
    have hm := step_moves hstep
    by_cases hcall : ∀ c currentRtc, ev ≠ .call c currentRtc
    · rw [userCalls_concat hcall, ← ih]
      cases hm with
      | called c currentRtc => exact absurd rfl (hcall c currentRtc)
      | executed a c rest hr hq => exact (run_frame W c a _).2.2
      | _ => rfl
    · push Not at hcall
      obtain ⟨c, currentRtc, rfl⟩ := hcall
      cases hm
      have hcalls : userCalls (h ++ [⟨s, .call c currentRtc, []⟩]) = userCalls h ++ [c] := by
        simp [userCalls, userCall]
      rw [call_eq, hcalls, List.count_append, ← ih, List.count_singleton]
      by_cases hconnect : c = .connect <;> simp [hconnect]

/-- Only `tryConnect` connects. -/
theorem run_isConnect {c : WolkCommand} (hc : c.isTryConnect = false) (a : Answers) (s : Wolk σ) :
    ∀ o ∈ (run W c a s).2, o.isConnect = false := by
  intro o ho
  cases c with
  | tryConnect firstTime => cases hc
  | publish =>
    simp only [run, flush_eq, List.mem_append, List.mem_map] at ho
    rcases ho with ((⟨_, -, rfl⟩ | ⟨_, -, rfl⟩) | ⟨_, -, rfl⟩) | ⟨_, -, rfl⟩ <;> rfl
  | publishActuatorStatus reference =>
    obtain ⟨b, -, rfl⟩ := List.mem_map.mp ho
    rfl
  | publishConfiguration =>
    obtain ⟨b, -, rfl⟩ := List.mem_map.mp ho
    rfl
  | disconnect connects =>
    obtain rfl := List.mem_singleton.mp ho
    rfl
  | _ => cases ho

theorem DisconnectInv.output {executed : ℕ → Prop} {disconnecting : Prop}
    (h : DisconnectInv W s executed disconnecting) (he : executed s.connects)
    (hm : Moves W s ev s' out) : ∀ o ∈ out, o.isConnect = false := by
  cases hm with
  | executed a c rest hr hq =>
    exact run_isConnect ((h.quiet he).1 c (by simp [hq])) a _
  | sentFileList rest hr =>
    intro o ho
    obtain rfl := List.mem_singleton.mp ho
    rfl
  | _ =>
    intro o ho
    cases ho

end Wolk

open Wolk

variable {σ : Type} {W : WolkConfig σ} {h : WolkHistory σ} {s : Wolk σ}

/-- Where nobody but the user pushes a `tryConnect` after the user's last `disconnect()`,
`disconnect()` is final. -/
theorem disconnect_final (hrun : (wolkMachine W).Run NoRetry h s) : DisconnectFinal h s := by
  induction hrun with
  | start =>
    intro k m l hk
    simp at hk
  | @step h s s' ev out hr hc hstep ih =>
    intro k m l hk hm
    have hnext := hr.step hc hstep
    have hquiet := (run_disconnectInv hnext).quiet
    rw [run_connects hnext] at hquiet
    have hexecuted : Executed (h ++ [⟨s, ev, out⟩])
        ((userCalls (h ++ [⟨s, ev, out⟩])).count .connect) := ⟨m, by simp [hk], hm⟩
    refine ⟨?_, (hquiet hexecuted).2.2⟩
    rcases l.eq_nil_or_concat' with rfl | ⟨q, x, rfl⟩
    · simp
    · rw [← List.cons_append, ← List.append_assoc] at hk
      obtain ⟨hh, hx⟩ := List.append_inj' hk rfl
      obtain rfl := List.head_eq_of_cons_eq hx
      have hmem : m ∈ h := by simp [hh]
      -- the command executed before this step, so the user did not call `connect()` since
      have hinv := run_disconnectInv hr
      have hle := hinv.done _ ⟨m, hmem, hm⟩
      rw [run_connects hr] at hle
      have hcount : (userCalls (h ++ [⟨s, ev, out⟩])).count .connect =
          (userCalls h).count .connect := by
        apply le_antisymm hle
        simp [userCalls]
      rw [hcount] at hm
      have hold := (ih k m q hh hm).1
      have hnew := hinv.output (by rw [run_connects hr]; exact ⟨m, hmem, hm⟩) (step_moves hstep)
      intro m' hm'
      rcases List.mem_append.mp hm' with hm' | hm'
      · exact hold m' hm'
      · obtain rfl := List.mem_singleton.mp hm'
        exact hnew

/-- The user connects and disconnects again. -/
def sampleDisconnect : List WolkEvent :=
  [.call .connect 0, .execute sampleAnswers, .call .disconnect 0, .work, .work, .work,
    .execute sampleAnswers]

theorem disconnect_final_sample : ∃ h s, (wolkMachine sampleConfig).Run NoRetry h s ∧
    (∃ m ∈ h, executedCommand m = some (.disconnect 1)) ∧ DisconnectFinal h s := by
  obtain ⟨h, s, hr, hp⟩ := (wolkMachine sampleConfig).exists_run_of_replay NoRetry sampleDisconnect
    (fun h _ => decide (∃ m ∈ h, executedCommand m = some (.disconnect 1))) (by decide +kernel)
  exact ⟨h, s, hr, of_decide_eq_true hp, disconnect_final hr⟩

/-- Something connects after a `disconnect()` command although the user did not call
`connect()` again. -/
def reconnects (h : WolkHistory σ) : Bool :=
  h.tails.any fun t =>
    match t with
    | m :: l =>
      decide (executedCommand m = some (.disconnect ((userCalls h).count .connect))) &&
        l.any fun m' => m'.output.any WolkOutput.isConnect
    | [] => false

/-- The connection attempt fails, the user disconnects, and only then it is queued again. -/
def sampleRetry : List WolkEvent :=
  [.call .connect 0, .execute { sampleAnswers with connected := false }, .call .disconnect 0,
    .work, .execute sampleAnswers, .execute sampleAnswers]

theorem retry_reconnects :
    ¬ ∀ h s, (wolkMachine sampleConfig).Run Free h s → DisconnectFinal h s := by
  intro hall
  obtain ⟨h, s, hr, hp⟩ := (wolkMachine sampleConfig).exists_run_of_replay Free sampleRetry
    (fun h _ => reconnects h) (by decide +kernel)
  obtain ⟨t, ht, hp⟩ := List.any_eq_true.mp hp
  obtain ⟨k, hk⟩ := (List.mem_tails t h).mp ht
  cases t with
  | nil => cases hp
  | cons m l =>
    obtain ⟨hm, hl⟩ := Bool.and_eq_true_iff.mp hp
    obtain ⟨m', hm', ho⟩ := List.any_eq_true.mp hl
    obtain ⟨o, ho, hconnect⟩ := List.any_eq_true.mp ho
    have hfinal := (hall h s hr k m l hk.symm (of_decide_eq_true hm)).1 m' hm' o ho
    rw [hfinal] at hconnect
    cases hconnect

end WolkConnect
