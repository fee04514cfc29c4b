import Mathlib.Data.Rat.Floor
import Mathlib.Algebra.Order.Floor.Semiring

/-! A list cut into blocks of one size, the last one shorter. -/
namespace Blocks

variable {α : Type*}

/-- The block with the given number; it is empty past the end. -/
def block (size : ℕ) (l : List α) (i : ℕ) : List α := (l.drop (i * size)).take size

/-- How many blocks cover a list of length `n`. -/
def blockCount (size n : ℕ) : ℕ := ⌈(n : ℚ) / (size : ℚ)⌉₊

theorem take_succ_mul (size : ℕ) (l : List α) (i : ℕ) :
    l.take ((i + 1) * size) = l.take (i * size) ++ block size l i := by
  rw [Nat.succ_mul, List.take_add, block]

/-- The first blocks put together are a prefix. -/
theorem flatten_blocks (size : ℕ) (l : List α) (i : ℕ) :
    ((List.range i).map (block size l)).flatten = l.take (i * size) := by
  induction i with
  | zero => simp
  | succ i ih => rw [List.range_succ, List.map_append, List.flatten_append, ih, take_succ_mul]; simp

variable {size n i : ℕ}

theorem lt_blockCount_iff (hs : 0 < size) : i < blockCount size n ↔ i * size < n := by
  have hq : (0 : ℚ) < (size : ℚ) := by exact_mod_cast hs
  rw [blockCount, Nat.lt_ceil, lt_div_iff₀ hq]
  exact_mod_cast Iff.rfl

/-- The blocks that cover a list have something of it. -/
theorem block_ne_nil (hs : 0 < size) {l : List α} (hi : i < blockCount size l.length) :
    block size l i ≠ [] := by
  rw [lt_blockCount_iff hs] at hi
  rw [block, Ne, List.take_eq_nil_iff, List.drop_eq_nil_iff]
  omega

theorem le_blockCount_mul (hs : 0 < size) : n ≤ blockCount size n * size := by
  by_contra h
  exact absurd ((lt_blockCount_iff hs).mpr (not_le.mp h)) (lt_irrefl _)

theorem blockCount_pos (hs : 0 < size) (hn : 0 < n) : 0 < blockCount size n := by
  rw [lt_blockCount_iff hs]
  omega

/-- One block is enough exactly for what fits in it. -/
theorem blockCount_eq_one (hs : 0 < size) (hn : 0 < n) (hle : n ≤ size) :
    blockCount size n = 1 := by
  have hpos := blockCount_pos hs hn
  have hone : ¬ 1 < blockCount size n := by
    rw [lt_blockCount_iff hs]
    omega
  omega

/-- All blocks put together are the list. -/
theorem take_blockCount_mul (hs : 0 < size) (l : List α) :
    l.take (blockCount size l.length * size) = l :=
  List.take_of_length_le (le_blockCount_mul hs)

/-- The blocks of a list, in order. -/
def blocks (size : ℕ) (l : List α) : List (List α) :=
  (List.range (blockCount size l.length)).map (block size l)

@[simp] theorem blocks_nil (size : ℕ) : blocks size ([] : List α) = [] := by
  simp [blocks, blockCount]

@[simp] theorem length_blocks (size : ℕ) (l : List α) :
    (blocks size l).length = blockCount size l.length := by
  simp [blocks]

theorem flatten_blocks_eq (hs : 0 < size) (l : List α) : (blocks size l).flatten = l := by
  rw [blocks, flatten_blocks, take_blockCount_mul hs]

theorem blockCount_succ (hs : 0 < size) (hn : 0 < n) :
    blockCount size n = blockCount size (n - size) + 1 := by
  have hlt (i : ℕ) : i < blockCount size n ↔ i < blockCount size (n - size) + 1 := by
    rw [lt_blockCount_iff hs]
    cases i with
    | zero => simp [hn]
    | succ i =>
      rw [Nat.add_lt_add_iff_right, lt_blockCount_iff hs, Nat.succ_mul]
      omega
  have hle := hlt (blockCount size n)
  have hge := hlt (blockCount size (n - size) + 1)
  omega

theorem block_succ (size : ℕ) (l : List α) (i : ℕ) :
    block size l (i + 1) = block size (l.drop size) i := by
  rw [block, block, List.drop_drop, Nat.succ_mul, Nat.add_comm]

/-- The first block, and the blocks of the rest. -/
theorem blocks_eq_cons (hs : 0 < size) {l : List α} (hl : l ≠ []) :
    blocks size l = l.take size :: blocks size (l.drop size) := by
  rw [blocks, blockCount_succ hs (List.length_pos_iff.mpr hl), List.range_succ_eq_map,
    List.map_cons, List.map_map, blocks, List.length_drop]
  congr 1
  · simp [block]
  · apply List.map_congr_left
    intro i _
    exact block_succ size l i

end Blocks
