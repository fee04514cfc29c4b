import WolkConnect.File.FileHandler
import WolkConnect.Transition.Machine
import WolkConnect.Chunk.Linked

/-! One `FileHandler` from a `clear` on, fed with any packets: what it accepted is a chain of
hashes, and it holds the data of that chain. -/
namespace WolkConnect
open Transition Transition.Machine

/-- `handleData` with any packets, after `clear`. -/
def fileHandlerMachine (H : Host) (f : FileHandler) :
    Machine FileHandler H.BinaryData StatusCode where
  start := f.clear
  step f binaryData := some ((f.handleData H binaryData).2, [(f.handleData H binaryData).1])

variable {H : Host}

abbrev HandlerMoment (H : Host) := Moment FileHandler H.BinaryData StatusCode

/-- The packets for which `handleData` returned `OK`, oldest first. -/
def okPackets (h : List (HandlerMoment H)) : List H.BinaryData :=
  h.filterMap fun m => if m.output = [.ok] then some m.event else none

/-- The data is what it says, and it follows the packets accepted so far. -/
def ExtendsChain (H : Host) (bs : List H.BinaryData) (b : H.BinaryData) : Prop :=
  H.getHash b = H.hashSHA256 (H.getData b) ∧
    H.previousHash b = Linked.tip firstPreviousHash H.getHash bs

/-- The packets are a chain, and the fields are those of the chain. -/
structure HoldsChain (H : Host) (bs : List H.BinaryData) (s : FileHandler) : Prop where
  data : s.currentPacketData = bs.flatMap H.getData
  previous : s.previousPacketHash = Linked.tip [] H.getHash bs
  valid : ∀ b ∈ bs, H.getHash b = H.hashSHA256 (H.getData b)
  linked : Linked.IsLinked firstPreviousHash H.previousHash H.getHash bs

/-- The handler holds the chain of the packets it accepted; any other packet did not extend the
chain at its turn, and changed nothing. -/
structure PacketChain (h : List (HandlerMoment H)) (s : FileHandler) : Prop
    extends HoldsChain H (okPackets h) s where
  refused : ∀ k m l, h = k ++ m :: l → m.output ≠ [.ok] →
    ¬ ExtendsChain H (okPackets k) m.event ∧ (m.state.handleData H m.event).2 = m.state

variable {f s : FileHandler} {h : List (HandlerMoment H)} {b : H.BinaryData}

theorem okPackets_concat_of_ok (s : FileHandler) (b : H.BinaryData) :
    okPackets (h ++ [⟨s, b, [.ok]⟩]) = okPackets h ++ [b] := by
  simp [okPackets]

theorem okPackets_concat_of_refused {out : List StatusCode} (hout : out ≠ [.ok]) :
    okPackets (h ++ [⟨s, b, out⟩]) = okPackets h := by
  simp [okPackets, hout]

namespace HoldsChain

variable {bs : List H.BinaryData}

/-- The empty hash is that of no packet, so it marks the first one only. -/
theorem expectedPreviousHash (hs : HoldsChain H bs s) :
    s.expectedPreviousHash = Linked.tip firstPreviousHash H.getHash bs := by
  unfold FileHandler.expectedPreviousHash
  rw [hs.previous]
  have hmarker : Linked.tip [] H.getHash bs = [] ↔ bs = [] := by
    apply Linked.tip_eq_start_iff
    intro b hb
    rw [hs.valid b hb]
    exact H.hashSHA256_ne_nil _
  by_cases hnil : bs = []
  · rw [if_pos (hmarker.mpr hnil), hnil]
    rfl
  · rw [if_neg fun he => hnil (hmarker.mp he)]
    exact Linked.tip_congr [] firstPreviousHash hnil

theorem accepts_iff (hs : HoldsChain H bs s) : s.Accepts H b ↔ ExtendsChain H bs b := by
  unfold FileHandler.Accepts ExtendsChain
  rw [H.valid_iff, hs.expectedPreviousHash]

theorem concat (hs : HoldsChain H bs s) (hb : s.Accepts H b) :
    HoldsChain H (bs ++ [b]) ⟨s.currentPacketData ++ H.getData b, H.getHash b⟩ := by
  constructor
  · simp [hs.data]
  · rw [Linked.tip_concat]
  · intro c hc
    rcases List.mem_append.mp hc with hc | hc
    · exact hs.valid c hc
    · obtain rfl := List.mem_singleton.mp hc
      exact (H.valid_iff c).mp hb.1
  · exact Linked.isLinked_concat.mpr ⟨hs.linked, (hs.accepts_iff.mp hb).2⟩

end HoldsChain

/-- A step accepts its packet and appends it, or refuses it and keeps the fields. -/
theorem fileHandler_step {s' : FileHandler} {out : List StatusCode}
    (hstep : (fileHandlerMachine H f).step s b = some (s', out)) :
    (s.Accepts H b ∧ out = [.ok] ∧ s' = ⟨s.currentPacketData ++ H.getData b, H.getHash b⟩) ∨
      (¬ s.Accepts H b ∧ out ≠ [.ok] ∧ s' = s) := by
  obtain ⟨rfl, rfl⟩ := Prod.mk.inj (Option.some.inj hstep)
  by_cases hb : s.Accepts H b
  · left
    rw [FileHandler.handleData_of_accepts hb]
    exact ⟨hb, rfl, rfl⟩
  · right
    refine ⟨hb, ?_, ?_⟩
    · intro hout
      exact hb (FileHandler.handleData_ok_iff.mp (List.singleton_inj.mp hout))
    · rcases FileHandler.handleData_of_not_accepts hb with he | he
      · rw [he]
      · rw [he]

theorem holdsChain_of_run (hrun : (fileHandlerMachine H f).Run Free h s) :
    HoldsChain H (okPackets h) s := by
  induction hrun with
  | start => exact ⟨rfl, rfl, by simp [okPackets], Linked.isLinked_nil⟩
  | @step h s s' b out hr _ hstep ih =>
    rcases fileHandler_step hstep with ⟨hb, rfl, rfl⟩ | ⟨_, hout, rfl⟩
    · rw [okPackets_concat_of_ok]
      exact ih.concat hb
    · rw [okPackets_concat_of_refused hout]
      exact ih

/-- What a handler accepts after a `clear` is a chain. -/
theorem accepted_packets_chain (hrun : (fileHandlerMachine H f).Run Free h s) :
    PacketChain h s := by
  refine ⟨holdsChain_of_run hrun, ?_⟩
  rintro k m l rfl hout
  obtain ⟨hk, -, s', hstep⟩ := hrun.moment
  have hkept : (m.state.handleData H m.event).2 = s' :=
    congrArg Prod.fst (Option.some.inj hstep)
  rcases fileHandler_step hstep with ⟨_, hok, _⟩ | ⟨hb, _, hs⟩
  · exact absurd hok hout
  · rw [(holdsChain_of_run hk).accepts_iff] at hb
    exact ⟨hb, hkept.trans hs⟩

/-- Two packets that follow each other, the first of them delivered twice. -/
theorem accepted_packets_chain_sample : ∃ h s,
    (fileHandlerMachine sampleHost .empty).Run Free h s ∧ PacketChain h s ∧
      okPackets h = [sampleHost.packet firstPreviousHash [97],
        sampleHost.packet (sampleHost.hashSHA256 [97]) [98]] ∧
      s.currentPacketData = [97, 98] := by
  obtain ⟨h, s, hr, hp⟩ := (fileHandlerMachine sampleHost .empty).exists_run_of_replay Free
    [sampleHost.packet firstPreviousHash [97], sampleHost.packet firstPreviousHash [97],
      sampleHost.packet (sampleHost.hashSHA256 [97]) [98]]
    (fun h s => decide (okPackets h = [sampleHost.packet firstPreviousHash [97],
      sampleHost.packet (sampleHost.hashSHA256 [97]) [98]] ∧
      s.currentPacketData = [97, 98])) (by decide +kernel)
  exact ⟨h, s, hr, accepted_packets_chain hr, of_decide_eq_true hp⟩

end WolkConnect
