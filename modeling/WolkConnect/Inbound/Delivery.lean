import WolkConnect.Inbound.InboundPlatformMessageHandler

/-! Which listener a received message is meant for, and that the command buffer hands it to no
other one, once, in the order of arrival. -/
namespace WolkConnect
open Transition Transition.Machine

variable {ι : Type*}

abbrev InboundMoment (ι : Type*) := Moment (InboundState ι) (InboundEvent ι) (ι × Message)

/-- The listener that the moment registers for the pattern. -/
def registers (m : InboundMoment ι) (pattern : String) : Option ι :=
  match m.event with
  | .addListener listener getInboundChannelsForDevice =>
    if pattern ∈ getInboundChannelsForDevice m.state.handler.deviceKey then
      lock m.state.live listener
    else none
  | _ => none

/-- The newest registration for the pattern. -/
def registered (h : List (InboundMoment ι)) (pattern : String) : Option ι :=
  h.reverse.findSome? fun m => registers m pattern

/-- The command that the moment puts in the buffer. -/
def queued (mqttTopicMatch : String → String → Bool) (m : InboundMoment ι) :
    Option (ι × Message) :=
  match m.event with
  | .messageReceived channel payload =>
    (m.state.handler.findHandler mqttTopicMatch channel).map fun listener =>
      (listener, ⟨payload, channel⟩)
  | _ => none

/-- The command that the moment runs. -/
def dispatched (m : InboundMoment ι) : Option (ι × Message) :=
  match m.event with
  | .runCommand => m.state.handler.commandBuffer.head?
  | _ => none

/-- After `h`, the listener is registered for the first pattern, in the order of strings, of those
that match the channel. -/
def Handles (mqttTopicMatch : String → String → Bool) (h : List (InboundMoment ι))
    (channel : String) (listener : ι) : Prop :=
  ∃ pattern, registered h pattern = some listener ∧ mqttTopicMatch pattern channel = true ∧
    ∀ other, (registered h other).isSome = true → mqttTopicMatch other channel = true →
      pattern ≤ other

/-- What becomes of the messages received in `h`. -/
structure Delivery (mqttTopicMatch : String → String → Bool) (h : List (InboundMoment ι))
    (s : InboundState ι) : Prop where
  channels : ∀ pattern,
    pattern ∈ s.handler.getChannels ↔ pattern ∈ s.handler.channelHandlers
  handlers : ∀ pattern, s.handler.channelHandlers[pattern]? = registered h pattern
  matched : ∀ k m l channel payload, h = k ++ m :: l →
    m.event = .messageReceived channel payload →
      ((queued mqttTopicMatch m).isSome = true ↔
        ∃ pattern ∈ m.state.handler.getChannels, mqttTopicMatch pattern channel = true)
  routed : ∀ k m l command, h = k ++ m :: l →
    (queued mqttTopicMatch m = some command ↔
      m.event = .messageReceived command.2.channel command.2.content ∧
        Handles mqttTopicMatch k command.2.channel command.1)
  fifo : h.filterMap (queued mqttTopicMatch) =
    h.filterMap dispatched ++ s.handler.commandBuffer
  handed : ∀ m ∈ h,
    m.output = ((dispatched m).filter fun command => m.state.live command.1).toList

variable {mqttTopicMatch : String → String → Bool} {h : List (InboundMoment ι)}
  {s s' : InboundState ι}

theorem registered_concat (m : InboundMoment ι) (pattern : String) :
    registered (h ++ [m]) pattern = (registers m pattern).or (registered h pattern) := by
  unfold registered
  rw [List.reverse_concat, List.findSome?_cons]
  cases registers m pattern with
  | none => rfl
  | some listener => rfl

theorem filterMap_concat {α β : Type*} (g : α → Option β) (l : List α) (a : α) :
    (l ++ [a]).filterMap g = l.filterMap g ++ (g a).toList := by
  rw [List.filterMap_append]
  cases hg : g a with
  | none => simp [hg]
  | some b => simp [hg]

namespace InboundPlatformMessageHandler

variable {f : InboundPlatformMessageHandler ι} {channels : List String}

theorem addChannels_eq (listener : ι) : channels.foldl (addChannel listener) f =
    { f with
      channelHandlers :=
        channels.foldl (fun handlers channel => handlers.insert channel listener) f.channelHandlers
      subscriptionList := f.subscriptionList ++ channels } := by
  induction channels generalizing f with
  | nil => simp
  | cons channel channels ih => simp [ih, addChannel]

end InboundPlatformMessageHandler

/-- What one step does to the registrations, to the buffer and for the listeners. -/
structure InboundEffects (mqttTopicMatch : String → String → Bool) (m : InboundMoment ι)
    (s' : InboundState ι) : Prop where
  handlers : ∀ pattern, s'.handler.channelHandlers[pattern]? =
    (registers m pattern).or m.state.handler.channelHandlers[pattern]?
  subscribed : ∀ pattern, pattern ∈ s'.handler.subscriptionList ↔
    (registers m pattern).isSome = true ∨ pattern ∈ m.state.handler.subscriptionList
  buffer : m.state.handler.commandBuffer ++ (queued mqttTopicMatch m).toList =
    (dispatched m).toList ++ s'.handler.commandBuffer
  handed : m.output = ((dispatched m).filter fun command => m.state.live command.1).toList

open InboundPlatformMessageHandler in
theorem inboundEffects_of_addListener (listener : Option ι) (channels : String → List String) :
    InboundEffects mqttTopicMatch ⟨s, .addListener listener channels, []⟩
      ⟨s.handler.addListener s.live listener channels, s.live⟩ := by
  unfold addListener
  cases hlock : lock s.live listener with
  | none =>
    constructor <;> simp [registers, queued, dispatched, hlock]
  | some handler =>
    simp only [addChannels_eq]
    constructor
    · intro pattern
      simp only [registers, hlock, Table.getElem?_foldl_insert]
      split <;> rfl
    · intro pattern
      simp only [registers, hlock, List.mem_append]
      by_cases hin : pattern ∈ channels s.handler.deviceKey
      · simp [hin]
      · simp [hin]
    · simp [queued, dispatched]
    · rfl

open InboundPlatformMessageHandler in
theorem inboundEffects_of_messageReceived (channel payload : String) :
    InboundEffects mqttTopicMatch ⟨s, .messageReceived channel payload, []⟩
      ⟨s.handler.messageReceived mqttTopicMatch channel payload, s.live⟩ := by
  unfold messageReceived
  cases hfind : s.handler.findHandler mqttTopicMatch channel with
  | none => constructor <;> simp [registers, queued, dispatched, hfind]
  | some handler => constructor <;> simp [registers, queued, dispatched, hfind]

theorem inboundEffects_of_runCommand {command : ι × Message}
    {commandBuffer : List (ι × Message)}
    (hbuffer : s.handler.commandBuffer = command :: commandBuffer) :
    InboundEffects mqttTopicMatch ⟨s, .runCommand, handOver s.live command⟩
      ⟨{ s.handler with commandBuffer := commandBuffer }, s.live⟩ := by
  constructor
  · simp [registers]
  · simp [registers]
  · simp [queued, dispatched, hbuffer]
  · simp only [dispatched, hbuffer, List.head?_cons, handOver, lock]
    cases hlive : s.live command.1 with
    | false => simp [Option.filter, hlive]
    | true => simp [Option.filter, hlive]

theorem queued_eq_some_iff {m : InboundMoment ι} {command : ι × Message} :
    queued mqttTopicMatch m = some command ↔
      m.event = .messageReceived command.2.channel command.2.content ∧
        m.state.handler.findHandler mqttTopicMatch command.2.channel = some command.1 := by
  obtain ⟨listener, content, channel⟩ := command
  unfold queued
  cases m.event with
  | messageReceived received payload =>
    rw [Option.map_eq_some_iff]
    constructor
    · rintro ⟨handler, hfind, he⟩
      obtain ⟨rfl, rfl, rfl⟩ : handler = listener ∧ payload = content ∧ received = channel := by
        simpa using he
      exact ⟨rfl, hfind⟩
    · rintro ⟨he, hfind⟩
      obtain ⟨rfl, rfl⟩ := InboundEvent.messageReceived.inj he
      exact ⟨listener, hfind, rfl⟩
  | addListener listener channels => simp
  | runCommand => simp
  | expire listener => simp

variable [DecidableEq ι] {deviceKey : String}

theorem inboundEffects_of_step {e : InboundEvent ι} {out : List (ι × Message)}
    (hstep : (inboundMachine mqttTopicMatch deviceKey).step s e = some (s', out)) :
    InboundEffects mqttTopicMatch ⟨s, e, out⟩ s' := by
  unfold inboundMachine at hstep
  cases e with
  | addListener listener channels =>
    obtain ⟨rfl, rfl⟩ := Prod.mk.inj (Option.some.inj hstep)
    exact inboundEffects_of_addListener listener channels
  | messageReceived channel payload =>
    obtain ⟨rfl, rfl⟩ := Prod.mk.inj (Option.some.inj hstep)
    exact inboundEffects_of_messageReceived channel payload
  | runCommand =>
    simp only at hstep
    split at hstep
    · next command commandBuffer hbuffer =>
      obtain ⟨rfl, rfl⟩ := Prod.mk.inj (Option.some.inj hstep)
      exact inboundEffects_of_runCommand hbuffer
    · cases hstep
  | expire listener =>
    obtain ⟨rfl, rfl⟩ := Prod.mk.inj (Option.some.inj hstep)
    constructor <;> simp [registers, queued, dispatched]

theorem handlers_of_run (hrun : (inboundMachine mqttTopicMatch deviceKey).Run Free h s)
    (pattern : String) : s.handler.channelHandlers[pattern]? = registered h pattern := by
  induction hrun with
  | start => exact Std.TreeMap.getElem?_emptyc
  | step _ _ hstep ih =>
    rw [registered_concat, (inboundEffects_of_step hstep).handlers, ← ih]

theorem subscribed_of_run (hrun : (inboundMachine mqttTopicMatch deviceKey).Run Free h s)
    (pattern : String) :
    pattern ∈ s.handler.subscriptionList ↔ (registered h pattern).isSome = true := by
  induction hrun with
  | start => simp [inboundMachine, InboundPlatformMessageHandler.create, registered]
  | step _ _ hstep ih =>
    rw [registered_concat, (inboundEffects_of_step hstep).subscribed, ih]
    simp [Option.isSome_or]

theorem fifo_of_run (hrun : (inboundMachine mqttTopicMatch deviceKey).Run Free h s) :
    h.filterMap (queued mqttTopicMatch) =
      h.filterMap dispatched ++ s.handler.commandBuffer := by
  induction hrun with
  | start => rfl
  | @step h s s' e out _ _ hstep ih =>
    have hbuffer := (inboundEffects_of_step hstep).buffer
    rw [filterMap_concat, filterMap_concat, ih, List.append_assoc, List.append_assoc]
    exact congrArg _ hbuffer

theorem findHandler_eq_some_iff {channel : String} {listener : ι}
    (hrun : (inboundMachine mqttTopicMatch deviceKey).Run Free h s) :
    s.handler.findHandler mqttTopicMatch channel = some listener ↔
      Handles mqttTopicMatch h channel listener := by
  have hmem (other : String) :
      other ∈ s.handler.channelHandlers ↔ (registered h other).isSome = true := by
    rw [Std.TreeMap.mem_iff_isSome_getElem?, handlers_of_run hrun]
  unfold InboundPlatformMessageHandler.findHandler Handles
  rw [Option.map_eq_some_iff]
  constructor
  · rintro ⟨⟨pattern, handler⟩, hfirst, rfl⟩
    obtain ⟨hk, hmatch, hleast⟩ := Table.firstMatch_eq_some_iff.mp hfirst
    refine ⟨pattern, (handlers_of_run hrun pattern).symm.trans hk, hmatch, ?_⟩
    intro other hother hm
    exact compare_le_iff_le.mp (hleast other ((hmem other).mpr hother) hm)
  · rintro ⟨pattern, hreg, hmatch, hleast⟩
    refine ⟨(pattern, listener), Table.firstMatch_eq_some_iff.mpr ⟨?_, hmatch, ?_⟩, rfl⟩
    · exact (handlers_of_run hrun pattern).trans hreg
    · intro other hother hm
      exact compare_le_iff_le.mpr (hleast other ((hmem other).mp hother) hm)

theorem findHandler_isSome_iff {channel : String}
    (hrun : (inboundMachine mqttTopicMatch deviceKey).Run Free h s) :
    (s.handler.findHandler mqttTopicMatch channel).isSome = true ↔
      ∃ pattern ∈ s.handler.getChannels, mqttTopicMatch pattern channel = true := by
  have hentry (pattern : String) : pattern ∈ s.handler.getChannels ↔
      ∃ listener, (pattern, listener) ∈ s.handler.channelHandlers.toList := by
    unfold InboundPlatformMessageHandler.getChannels
    rw [subscribed_of_run hrun, ← handlers_of_run hrun, Option.isSome_iff_exists]
    simp only [Std.TreeMap.mem_toList_iff_getElem?_eq_some]
  unfold InboundPlatformMessageHandler.findHandler Table.firstMatch
  rw [Option.isSome_map, List.find?_isSome]
  constructor
  · rintro ⟨⟨pattern, listener⟩, hin, hmatch⟩
    exact ⟨pattern, (hentry pattern).mpr ⟨listener, hin⟩, hmatch⟩
  · rintro ⟨pattern, hin, hmatch⟩
    obtain ⟨listener, hin⟩ := (hentry pattern).mp hin
    exact ⟨(pattern, listener), hin, hmatch⟩

/-- A received message is queued for the listener that is registered, at that time, for the first
matching pattern; the commands are run in order, and the listener gets the message if it is alive
by then. -/
theorem messages_delivered (hrun : (inboundMachine mqttTopicMatch deviceKey).Run Free h s) :
    Delivery mqttTopicMatch h s where
  channels pattern := by
    unfold InboundPlatformMessageHandler.getChannels
    rw [subscribed_of_run hrun, ← handlers_of_run hrun, Std.TreeMap.mem_iff_isSome_getElem?]
  handlers := handlers_of_run hrun
  matched := by
    rintro k m l channel payload rfl hevent
    rw [← findHandler_isSome_iff hrun.moment.1]
    simp [queued, hevent]
  routed := by
    rintro k m l command rfl
    rw [queued_eq_some_iff, findHandler_eq_some_iff hrun.moment.1]
  fifo := fifo_of_run hrun
  handed := by
    intro m hm
    obtain ⟨k, l, rfl⟩ := List.append_of_mem hm
    obtain ⟨-, -, s', hstep⟩ := hrun.moment
    exact (inboundEffects_of_step hstep).handed

/-- `p/#` stands for every channel of the samples. -/
def sampleTopicMatch (pattern channel : String) : Bool := pattern == channel || pattern == "p/#"

theorem messages_delivered_sample : ∃ (h : List (InboundMoment ℕ)) (s : InboundState ℕ),
    (inboundMachine sampleTopicMatch "key").Run Free h s ∧ Delivery sampleTopicMatch h s ∧
      s.handler.getChannels = ["p/#", "p/1"] ∧ outputs h = [(0, ⟨"on", "p/1"⟩)] := by
  obtain ⟨h, s, hrun, ht⟩ := (inboundMachine sampleTopicMatch "key").exists_run_of_replay Free
    [.addListener (some 0) fun _ => ["p/#"], .addListener none fun _ => ["p/2"],
      .addListener (some 1) fun _ => ["p/1"], .messageReceived "p/1" "on", .runCommand,
      .messageReceived "p/1" "off", .expire 0, .runCommand]
    (fun h s => decide (s.handler.getChannels = ["p/#", "p/1"] ∧
      outputs h = [(0, ⟨"on", "p/1"⟩)])) (by decide +kernel)
  obtain ⟨hchannels, hout⟩ := of_decide_eq_true ht
  exact ⟨h, s, hrun, messages_delivered hrun, hchannels, hout⟩

/-- The first match in the order of strings is an expired listener, so the message is dropped,
although the listener of `p/1` is alive. -/
theorem live_listener_passed_over : ¬ ∀ (h : List (InboundMoment ℕ)) (s : InboundState ℕ),
    (inboundMachine sampleTopicMatch "key").Run Free h s →
      ∀ k m l listener message, h = k ++ m :: l → dispatched m = some (listener, message) →
        (m.output ≠ [] ↔ ∃ pattern ∈ m.state.handler.getChannels,
          sampleTopicMatch pattern message.channel = true ∧
            ∃ other, registered k pattern = some other ∧ m.state.live other = true) := by
  intro hclaim
  obtain ⟨h, s, hrun, ht⟩ := (inboundMachine sampleTopicMatch "key").exists_run_of_replay Free
    [.addListener (some 0) fun _ => ["p/#"], .addListener (some 1) fun _ => ["p/1"],
      .messageReceived "p/1" "on", .expire 0, .runCommand]
    (fun h _ => h.getLast?.any fun m => decide (dispatched m = some (0, ⟨"on", "p/1"⟩) ∧
      m.output = [] ∧ "p/1" ∈ m.state.handler.getChannels ∧
      registered h.dropLast "p/1" = some 1 ∧ m.state.live 1 = true)) (by decide +kernel)
  obtain ⟨m, hm, ht⟩ := (Option.any_eq_true _ _).mp ht
  obtain ⟨hcommand, hout, hsub, hreg, hlive⟩ := of_decide_eq_true ht
  have hh : h = h.dropLast ++ m :: [] := (List.dropLast_append_getLast? m hm).symm
  have hiff := hclaim h s hrun h.dropLast m [] 0 _ hh hcommand
  exact hiff.mpr ⟨"p/1", hsub, by decide +kernel, 1, hreg, hlive⟩ hout

end WolkConnect
