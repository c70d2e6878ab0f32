import Mathlib.Data.BitVec

/-!
# The fixed-size bitset

`TiledArray::detail::Bitset<Block>` (`bitset.h`) is a run-time sized bit vector kept
in a heap array of `Block`s. Its state is three data members: the bit count `size_`,
the block count `blocks_` and the array `set_`. Every operation reads or writes
`set_` at an index computed from a bit position, and nothing in the class checks
that index against the array: an access past the end is undefined behaviour. The
model therefore reads and writes the array through `readAt`, which fails with
`Error.outOfBounds` exactly where the source would leave the array, and the
assertions of the source (`TA_ASSERT`) fail with the exception type and message
the source gives them.

The addressing is the source's, byte-based: bit `i` lives in block
`i / sizeof(Block)` at position `i % sizeof(Block)`, and the constructor allocates
`s / sizeof(Block)` blocks, one more for a remainder. Whether that is the packing
the class documents is taken up in `TiledArray.BitsetRefinement`; this module only
says what the code computes.

The three block loops of `operator=`, `operator|=` and `operator&=` are one loop
with the combining operation as a parameter (`Bitset.blockLoop`), and the copy
constructor is that loop over a fresh array. `blockLoop_eq_zipWith` is what every
later proof uses of them.
-/

namespace TiledArray

/-- `CHAR_BIT`: the number of bits of a byte. -/
def charBit : Nat := 8

/-- **An unsigned block type**, known to the bitset through `sizeof` alone. -/
structure BlockType where
  /-- `sizeof(block_type)`, in bytes. -/
  sizeof : Nat
  /-- A complete object type occupies at least one byte. -/
  sizeof_pos : 0 < sizeof

namespace BlockType

/-- The bit width `CHAR_BIT * sizeof(Block)` of a block. -/
def width (B : BlockType) : Nat := charBit * B.sizeof

/-- `unsigned long`, the default `Block`, as an LP64 platform lays it out. -/
def unsignedLong : BlockType := ⟨8, by decide⟩

/-- A block is wider than it is long in bytes: there are at least eight bits to a
byte. -/
theorem sizeof_lt_width (B : BlockType) : B.sizeof < B.width := by
  have := B.sizeof_pos
  simp only [width, charBit]
  omega

end BlockType

/-- A value of the block type. -/
abbrev Block (B : BlockType) := BitVec B.width

/-- How an operation of `bitset.h` fails: a `TA_ASSERT` throwing its exception with
its message, or an access of `set_` at an index past the end of the array, which
the source leaves undefined. -/
inductive Error where
  | rangeError (msg : String)
  | outOfRange (msg : String)
  | outOfBounds (index : Nat)
  deriving DecidableEq, Repr

/-- `xs[k]` for an array of which only `xs` exists: undefined past the end. -/
def readAt {α : Type} (xs : List α) (k : Nat) : Except Error α :=
  match xs[k]? with
  | some x => .ok x
  | none => .error (.outOfBounds k)

theorem readAt_of_lt {α : Type} {xs : List α} {k : Nat} (h : k < xs.length) :
    readAt xs k = .ok xs[k] := by
  simp [readAt, List.getElem?_eq_getElem h]

/-- **The state of a `Bitset<Block>`**: its three data members. -/
structure Bitset (B : BlockType) where
  /-- `size_`, the number of bits. -/
  size_ : Nat
  /-- `blocks_`, the number of blocks allocated. -/
  blocks_ : Nat
  /-- `set_`, the block array. -/
  set_ : List (Block B)
  deriving DecidableEq, Repr

namespace Bitset

variable {B : BlockType}

/-! ## Addressing -/

/-- `Bitset::block_index`: the block holding bit `i`. -/
def blockIndex (B : BlockType) (i : Nat) : Nat := i / B.sizeof

/-- `Bitset::bit_index`: the position of bit `i` in its block. -/
def bitIndex (B : BlockType) (i : Nat) : Nat := i % B.sizeof

/-- `Bitset::mask`: `block_type(1) << bit_index(i)`. -/
def mask (B : BlockType) (i : Nat) : Block B := BitVec.ofNat B.width 1 <<< bitIndex B i

/-- The block count the constructor computes for `s` bits:
`s / sizeof(block_type) + (s % sizeof(block_type) ? 1 : 0)`. -/
def numBlocksFor (B : BlockType) (s : Nat) : Nat :=
  s / B.sizeof + if s % B.sizeof ≠ 0 then 1 else 0

theorem mask_eq_twoPow (i : Nat) : mask B i = BitVec.twoPow B.width (bitIndex B i) := rfl

theorem bitIndex_lt_width (i : Nat) : bitIndex B i < B.width :=
  (Nat.mod_lt _ B.sizeof_pos).trans B.sizeof_lt_width

/-- **The block of a bit below the size is allocated.** -/
theorem blockIndex_lt_numBlocksFor {s i : Nat} (h : i < s) :
    blockIndex B i < numBlocksFor B s := by
  simp only [blockIndex, numBlocksFor]
  split_ifs with hs
  · exact Nat.lt_succ_of_le (Nat.div_le_div_right h.le)
  · have hdiv := Nat.div_add_mod s B.sizeof
    rw [Nat.add_zero, Nat.div_lt_iff_lt_mul B.sizeof_pos, Nat.mul_comm]
    omega

/-- **Addressing is injective**: two bits in the same place are the same bit. -/
theorem eq_of_address_eq {i j : Nat} (hb : blockIndex B i = blockIndex B j)
    (hm : bitIndex B i = bitIndex B j) : i = j := by
  rw [← Nat.div_add_mod i B.sizeof, ← Nat.div_add_mod j B.sizeof]
  exact congrArg₂ (B.sizeof * · + ·) hb hm

/-- Bit `j` of `mask i` is set exactly at `i`'s position. -/
theorem getLsbD_mask (i j : Nat) : (mask B i).getLsbD j = decide (j = bitIndex B i) := by
  simp [mask_eq_twoPow, BitVec.getLsbD_twoPow, bitIndex_lt_width, eq_comm]

/-- `mask(i) & x` converted to `bool` tests the bit of `i`'s position. -/
theorem mask_and_ne_zero (i : Nat) (x : Block B) :
    (mask B i &&& x != 0) = x.getLsbD (bitIndex B i) := by
  rw [mask_eq_twoPow, BitVec.twoPow_and]
  cases hx : x.getLsbD (bitIndex B i)
  · simp
  · have : BitVec.twoPow B.width (bitIndex B i) ≠ 0 := fun h0 => by
      simpa [bitIndex_lt_width] using congrArg (·.getLsbD (bitIndex B i)) h0
    simpa using this

/-! ## The operations -/

/-- **The block loop** `for (i = 0; i < blocks_; ++i) set_[i] = op(set_[i], other[i])`,
run for `k` iterations from index `i`. With `op` the second projection it is the
`std::copy` of `operator=` and of the copy constructor, whose writes to `set_[i]`
need the same bound as the read here. -/
def blockLoop (op : Block B → Block B → Block B) (other : List (Block B)) :
    Nat → Nat → List (Block B) → Except Error (List (Block B))
  | 0, _, s => .ok s
  | k + 1, i, s => do
    let x ← readAt s i
    let y ← readAt other i
    blockLoop op other k (i + 1) (s.set i (op x y))

/-- `Bitset(std::size_t s)`: `s` bits in `numBlocksFor B s` zero blocks. -/
def ofSize (B : BlockType) (s : Nat) : Bitset B :=
  ⟨s, numBlocksFor B s, List.replicate (numBlocksFor B s) 0⟩

/-- The copy constructor `Bitset(const Bitset& other)`: a fresh array of
`other.blocks_` blocks, filled by copying as many blocks of `other`. The fresh
array's contents are unspecified; every one of them is overwritten. -/
def copy (other : Bitset B) : Except Error (Bitset B) := do
  let s ← blockLoop (fun _ y => y) other.set_ other.blocks_ 0
    (List.replicate other.blocks_ 0)
  pure ⟨other.size_, other.blocks_, s⟩

/-- The shape the three assignment operators share:
`TA_ASSERT(size_ == other.size_, std::range_error, "The sizes must match.")`, then
the block loop over `blocks_` blocks. -/
def blockAssign (op : Block B → Block B → Block B) (b other : Bitset B) :
    Except Error (Bitset B) :=
  if b.size_ = other.size_ then do
    let s ← blockLoop op other.set_ b.blocks_ 0 b.set_
    pure { b with set_ := s }
  else .error (.rangeError "The sizes must match.")

/-- `operator=`: copies the blocks of `other` and keeps the size. The source skips
the copy when `this == &other`; on values that copy is the identity. -/
def assign (b other : Bitset B) : Except Error (Bitset B) :=
  blockAssign (fun _ y => y) b other

/-- `operator|=`. -/
def orAssign (b other : Bitset B) : Except Error (Bitset B) :=
  blockAssign (· ||| ·) b other

/-- `operator&=`. -/
def andAssign (b other : Bitset B) : Except Error (Bitset B) :=
  blockAssign (· &&& ·) b other

/-- `operator[](std::size_t i)`:
`TA_ASSERT(i < size_, std::out_of_range, "Bit i is out of range.")`, then
`mask(i) & set_[block_index(i)]` as a `bool`. -/
def index (b : Bitset B) (i : Nat) : Except Error Bool :=
  if i < b.size_ then do
    let x ← readAt b.set_ (blockIndex B i)
    pure (mask B i &&& x != 0)
  else .error (.outOfRange "Bit i is out of range.")

/-- The block `set(i, value)` writes over `x`: `x | mask(i)`, or `x & ~mask(i)`. -/
def setBlock (x : Block B) (i : Nat) (value : Bool) : Block B :=
  if value then x ||| mask B i else x &&& ~~~mask B i

/-- `set(std::size_t i, bool value)`, which checks nothing. -/
def set (b : Bitset B) (i : Nat) (value : Bool) : Except Error (Bitset B) := do
  let x ← readAt b.set_ (blockIndex B i)
  pure { b with set_ := b.set_.set (blockIndex B i) (setBlock x i value) }

/-- `size()`. -/
def size (b : Bitset B) : Nat := b.size_

/-- `num_blocks()`. -/
def numBlocks (b : Bitset B) : Nat := b.blocks_

/-- `get()`: the block array, `num_blocks()` blocks of it as the class promises. -/
def get (b : Bitset B) : List (Block B) := b.set_

/-- Bit `i` as the blocks store it: position `bit_index(i)` of block
`block_index(i)`. -/
def bit (b : Bitset B) (i : Nat) : Bool :=
  (b.set_.getD (blockIndex B i) 0).getLsbD (bitIndex B i)

/-! ## What the operations compute -/

/-- **The block loop combines the arrays blockwise.** Started at `i` on an array
whose blocks below `i` are combined already, the loop finishes the job, provided
both arrays have the `i + k` blocks it touches. -/
theorem blockLoop_eq_zipWith (op : Block B → Block B → Block B)
    {s other : List (Block B)} (hlen : s.length = other.length) :
    ∀ k i (t : List (Block B)), i + k = s.length →
      (∀ j, t[j]? = if j < i then (List.zipWith op s other)[j]? else s[j]?) →
      blockLoop op other k i t = .ok (List.zipWith op s other) := by
  intro k
  induction k with
  | zero =>
    intro i t hk ht
    refine congrArg Except.ok (List.ext_getElem? fun j => ?_)
    rw [ht]
    split_ifs with hj
    · rfl
    · simp [List.getElem?_zipWith, List.getElem?_eq_none (by omega : s.length ≤ j)]
  | succ k ih =>
    intro i t hk ht
    have hi : i < s.length := by omega
    have hti : t[i]? = some s[i] := by simp [ht, List.getElem?_eq_getElem hi]
    have htlen : i < t.length := (List.getElem?_eq_some_iff.mp hti).1
    have hoi : i < other.length := hlen ▸ hi
    simp only [blockLoop, readAt, hti, List.getElem?_eq_getElem hoi, bind, Except.bind]
    refine ih (i + 1) _ (by omega) fun j => ?_
    rw [List.getElem?_set]
    by_cases hij : i = j
    · subst hij
      simp [htlen, List.getElem?_zipWith, List.getElem?_eq_getElem hi,
        List.getElem?_eq_getElem hoi]
    · rw [if_neg hij, ht]
      by_cases hj : j < i
      · rw [if_pos hj, if_pos (by omega)]
      · rw [if_neg hj, if_neg (by omega)]

/-- The block loop over every block of two arrays of one length. -/
theorem blockLoop_full (op : Block B → Block B → Block B) {s other : List (Block B)}
    (hlen : s.length = other.length) :
    blockLoop op other s.length 0 s = .ok (List.zipWith op s other) :=
  blockLoop_eq_zipWith op hlen _ 0 s (by omega) (fun _ => by simp)

/-- Copying onto an array of the same length gives the copied array. -/
theorem zipWith_snd {s other : List (Block B)} (hlen : s.length = other.length) :
    List.zipWith (fun _ y => y) s other = other := by
  induction s generalizing other with
  | nil => cases other <;> simp_all
  | cons x s ih => cases other <;> simp_all

end Bitset

end TiledArray
