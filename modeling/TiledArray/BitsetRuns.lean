import TiledArray.Bitset

/-!
# Bitsets along every run

A bitset is only ever built by the constructor and changed by the operations of its
class, so what holds of the constructor's result and is kept by each operation holds
of every bitset a program can hold. Two facts are kept that way here.

`WellFormed`: the block count is the constructor's function of the size, and the
array has that many blocks. Every block access of `operator[]` and `set` below the
size, and every block loop between bitsets of one size, stays inside both arrays
because of it.

`Canonical`: a set bit of a block is the place of a logical bit below the size. The
bits above `sizeof(Block)` in each block, and those of the last block past the size,
are never set, so the blocks are a function of the logical bits: two bitsets of one
size that read the same are the same arrays.

The programs are the operations composed (`Prog`): a run is a tree whose leaves are
constructors, and whose nodes copy, assign, set, or- and and-assign. The size is an
index of the type, so every operand has the same size and every bit set is below
it – the domain on which the class promises anything.
-/

namespace TiledArray

namespace Bitset

variable {B : BlockType}

/-! ## The invariants -/

/-- **A well-formed bitset**: the block count is the constructor's and the array holds
that many blocks. -/
structure WellFormed (b : Bitset B) : Prop where
  blocks_eq : b.blocks_ = numBlocksFor B b.size_
  length_eq : b.set_.length = b.blocks_

/-- Position `j` of block `k` is where some logical bit below the size lives. -/
def Stores (b : Bitset B) (k j : Nat) : Prop :=
  ∃ i < b.size_, blockIndex B i = k ∧ bitIndex B i = j

/-- **Canonical blocks**: every set bit of every block stores a logical bit. -/
def Canonical (b : Bitset B) : Prop :=
  ∀ k j, (b.set_.getD k 0).getLsbD j = true → b.Stores k j

/-- **The invariant of a reachable bitset.** -/
structure Inv (b : Bitset B) extends WellFormed b : Prop where
  canonical : Canonical b

theorem WellFormed.length_eq_numBlocksFor {b : Bitset B} (h : b.WellFormed) :
    b.set_.length = numBlocksFor B b.size_ :=
  h.length_eq.trans h.blocks_eq

/-! ## What each operation does to a well-formed bitset -/

theorem ofSize_inv (s : Nat) : (ofSize B s).Inv where
  blocks_eq := rfl
  length_eq := List.length_replicate _ _
  canonical k j h := by
    rw [ofSize, List.getD_eq_getElem?_getD, List.getElem?_replicate] at h
    split at h <;> simp at h

/-- **The copy constructor copies.** -/
theorem copy_eq {b : Bitset B} (hb : b.WellFormed) : b.copy = .ok b := by
  have hlen : (List.replicate b.blocks_ (0 : Block B)).length = b.set_.length := by
    rw [List.length_replicate, hb.length_eq]
  have hloop := blockLoop_full (fun _ y => y) hlen
  rw [List.length_replicate, zipWith_snd hlen] at hloop
  simp only [copy, hloop, bind, Except.bind, pure, Except.pure]

/-- **The assignment operators combine the arrays blockwise**, between well-formed
bitsets of one size. -/
theorem blockAssign_eq (op : Block B → Block B → Block B) {a b : Bitset B}
    (ha : a.WellFormed) (hb : b.WellFormed) (hs : a.size_ = b.size_) :
    blockAssign op a b = .ok { a with set_ := List.zipWith op a.set_ b.set_ } := by
  have hlen : a.set_.length = b.set_.length := by
    rw [ha.length_eq_numBlocksFor, hb.length_eq_numBlocksFor, hs]
  have hloop := blockLoop_full op hlen
  rw [ha.length_eq] at hloop
  simp only [blockAssign, hs, if_true, hloop, bind, Except.bind, pure, Except.pure]

theorem blockAssign_of_ne (op : Block B → Block B → Block B) {a b : Bitset B}
    (hs : a.size_ ≠ b.size_) :
    blockAssign op a b = .error (.rangeError "The sizes must match.") := by
  simp [blockAssign, hs]

/-- `operator=` between well-formed bitsets of one size yields the other operand. -/
theorem assign_eq {a b : Bitset B} (ha : a.WellFormed) (hb : b.WellFormed)
    (hs : a.size_ = b.size_) : a.assign b = .ok b := by
  have hlen : a.set_.length = b.set_.length := by
    rw [ha.length_eq_numBlocksFor, hb.length_eq_numBlocksFor, hs]
  have hk : a.blocks_ = b.blocks_ := by rw [ha.blocks_eq, hb.blocks_eq, hs]
  rw [assign, blockAssign_eq _ ha hb hs, zipWith_snd hlen]
  cases a; cases b
  simp_all

/-- **`operator[]` reads the stored bit**, below the size of a well-formed bitset. -/
theorem index_eq {b : Bitset B} (hb : b.WellFormed) {i : Nat} (hi : i < b.size_) :
    b.index i = .ok (b.bit i) := by
  have hk : blockIndex B i < b.set_.length :=
    hb.length_eq_numBlocksFor ▸ blockIndex_lt_numBlocksFor hi
  simp only [index, hi, if_true, readAt_of_lt hk, bind, Except.bind, pure, Except.pure,
    mask_and_ne_zero, bit, List.getD_eq_getElem?_getD, List.getElem?_eq_getElem hk,
    Option.getD_some]

theorem getLsbD_setBlock (x : Block B) (i j : Nat) (value : Bool) :
    (setBlock x i value).getLsbD j
      = if j = bitIndex B i then value else x.getLsbD j := by
  by_cases hj : j = bitIndex B i
  · subst hj
    cases value <;> simp [setBlock, getLsbD_mask, bitIndex_lt_width]
  · cases value <;> simp [setBlock, getLsbD_mask, hj]
    exact BitVec.lt_of_getLsbD

/-- What `set(i, value)` leaves when the block of `i` is allocated. -/
def setBit (b : Bitset B) (i : Nat) (value : Bool) : Bitset B :=
  let k := blockIndex B i
  { b with set_ := b.set_.set k (setBlock (b.set_.getD k 0) i value) }

@[simp] theorem setBit_size_ (b : Bitset B) (i : Nat) (value : Bool) :
    (b.setBit i value).size_ = b.size_ := rfl

@[simp] theorem setBit_blocks_ (b : Bitset B) (i : Nat) (value : Bool) :
    (b.setBit i value).blocks_ = b.blocks_ := rfl

@[simp] theorem setBit_set_ (b : Bitset B) (i : Nat) (value : Bool) :
    (b.setBit i value).set_
      = b.set_.set (blockIndex B i) (setBlock (b.set_.getD (blockIndex B i) 0) i value) := rfl

/-- **`set` writes the bit's block**, below the size of a well-formed bitset. -/
theorem set_eq {b : Bitset B} (hb : b.WellFormed) {i : Nat} (hi : i < b.size_)
    (value : Bool) : b.set i value = .ok (b.setBit i value) := by
  have hk : blockIndex B i < b.set_.length :=
    hb.length_eq_numBlocksFor ▸ blockIndex_lt_numBlocksFor hi
  simp only [set, setBit, readAt_of_lt hk, bind, Except.bind, pure, Except.pure,
    List.getD_eq_getElem?_getD, List.getElem?_eq_getElem hk, Option.getD_some]

/-- A block of the array after `set_.set k x`. -/
theorem getD_set (l : List (Block B)) (k j : Nat) (x : Block B) :
    (l.set k x).getD j 0 = if k = j ∧ k < l.length then x else l.getD j 0 := by
  simp only [List.getD_eq_getElem?_getD, List.getElem?_set]
  by_cases hkj : k = j
  · subst hkj
    by_cases hk : k < l.length
    · simp [hk]
    · simp [hk, List.getElem?_eq_none (Nat.le_of_not_lt hk)]
  · simp [hkj]

/-- `set(i, v)` changes bit `i` alone, whenever the block of `i` is allocated. -/
theorem bit_setBit_of_lt_length {b : Bitset B} {i : Nat} (hk : blockIndex B i < b.set_.length)
    (value : Bool) (j : Nat) : (b.setBit i value).bit j = if j = i then value else b.bit j := by
  simp only [bit, setBit_set_, getD_set, hk, and_true]
  by_cases hij : j = i
  · subst hij
    simp [getLsbD_setBlock]
  · rw [if_neg hij]
    split_ifs with hb'
    · rw [getLsbD_setBlock, if_neg fun hm => hij (eq_of_address_eq hb'.symm hm), hb']
    · rfl

/-- **`set(i, v)` changes bit `i` alone**: it reads `v` there and what it read before
at every other bit. -/
theorem bit_setBit {b : Bitset B} (hb : b.WellFormed) {i : Nat} (hi : i < b.size_)
    (value : Bool) (j : Nat) : (b.setBit i value).bit j = if j = i then value else b.bit j :=
  bit_setBit_of_lt_length (hb.length_eq_numBlocksFor ▸ blockIndex_lt_numBlocksFor hi) value j

/-! ## The invariant is kept -/

/-- A blockwise combination whose set bits come from its operands keeps the blocks
canonical. -/
theorem canonical_zipWith (op : Block B → Block B → Block B)
    (hop : ∀ x y j, (op x y).getLsbD j = true → x.getLsbD j = true ∨ y.getLsbD j = true)
    {a b : Bitset B} (ha : a.Canonical) (hb : b.Canonical) (hs : a.size_ = b.size_) :
    Canonical { a with set_ := List.zipWith op a.set_ b.set_ } := by
  intro k j h
  simp only [List.getD_eq_getElem?_getD, List.getElem?_zipWith] at h
  cases hx : a.set_[k]? <;> cases hy : b.set_[k]? <;> simp only [hx, hy] at h
  · simp at h
  · simp at h
  · simp at h
  · rcases hop _ _ _ h with h' | h'
    · exact ha k j (by simpa [List.getD_eq_getElem?_getD, hx] using h')
    · exact hs ▸ hb k j (by simpa [List.getD_eq_getElem?_getD, hy] using h')

theorem Inv.blockAssign (op : Block B → Block B → Block B)
    (hop : ∀ x y j, (op x y).getLsbD j = true → x.getLsbD j = true ∨ y.getLsbD j = true)
    {a b : Bitset B} (ha : a.Inv) (hb : b.Inv) (hs : a.size_ = b.size_) :
    Inv { a with set_ := List.zipWith op a.set_ b.set_ } where
  blocks_eq := ha.blocks_eq
  length_eq := by
    simp [List.length_zipWith, ha.length_eq_numBlocksFor, hb.length_eq_numBlocksFor, hs,
      ha.blocks_eq]
  canonical := canonical_zipWith op hop ha.canonical hb.canonical hs

theorem Inv.setBit {b : Bitset B} (hb : b.Inv) {i : Nat} (hi : i < b.size_) (value : Bool) :
    (b.setBit i value).Inv where
  blocks_eq := hb.blocks_eq
  length_eq := by simp [hb.length_eq]
  canonical k j h := by
    simp only [setBit_set_, setBit_size_, getD_set] at h
    split_ifs at h with hk
    · rw [getLsbD_setBlock] at h
      split_ifs at h with hj
      · exact ⟨i, hi, hk.1, hj.symm⟩
      · exact hb.canonical k j (hk.1 ▸ h)
    · exact hb.canonical k j h

/-- **Canonical blocks are determined by the bits they store**: two bitsets of one size
that keep the invariant and read alike have the same arrays. -/
theorem set_eq_of_bit_eq {a b : Bitset B} (ha : a.Inv) (hb : b.Inv) (hs : a.size_ = b.size_)
    (h : ∀ i < a.size_, a.bit i = b.bit i) : a.set_ = b.set_ := by
  have hlen : a.set_.length = b.set_.length := by
    rw [ha.length_eq_numBlocksFor, hb.length_eq_numBlocksFor, hs]
  refine List.ext_getElem hlen fun k hka hkb => BitVec.eq_of_getLsbD_eq fun j => ?_
  have hA : a.set_[k] = a.set_.getD k 0 := by
    simp [List.getElem?_eq_getElem hka]
  have hB : b.set_[k] = b.set_.getD k 0 := by
    simp [List.getElem?_eq_getElem hkb]
  rw [hA, hB]
  by_cases hst : a.Stores k j
  · obtain ⟨i, hi, rfl, hj⟩ := hst
    rw [← hj]
    exact h i hi
  · have hst' : ¬ b.Stores k j := by rwa [Stores, ← hs]
    rw [Bool.eq_false_iff.mpr fun h' => hst (ha.canonical k j h'),
      Bool.eq_false_iff.mpr fun h' => hst' (hb.canonical k j h')]

/-! ## Programs -/

/-- **A program over bitsets of `s` bits**: the operations of the class composed. -/
inductive Prog (s : Nat) where
  /-- `Bitset(s)`. -/
  | ofSize
  /-- `Bitset(p)`, the copy constructor. -/
  | copy (p : Prog s)
  /-- `p = q`. -/
  | assign (p q : Prog s)
  /-- `p.set(i, value)`. -/
  | set (p : Prog s) (i : Fin s) (value : Bool)
  /-- `p |= q`. -/
  | orAssign (p q : Prog s)
  /-- `p &= q`. -/
  | andAssign (p q : Prog s)
  deriving DecidableEq, Repr

namespace Prog

variable {s : Nat}

/-- The bitset a program leaves, with blocks of type `B`. -/
def run (B : BlockType) : Prog s → Except Error (Bitset B)
  | ofSize => .ok (Bitset.ofSize B s)
  | copy p => do (← p.run B).copy
  | assign p q => do (← p.run B).assign (← q.run B)
  | set p i value => do (← p.run B).set i value
  | orAssign p q => do (← p.run B).orAssign (← q.run B)
  | andAssign p q => do (← p.run B).andAssign (← q.run B)

/-- **Every program runs**, to a bitset of its size that keeps the invariant. -/
theorem run_inv (p : Prog s) : ∃ b, p.run B = .ok b ∧ b.Inv ∧ b.size_ = s := by
  induction p with
  | ofSize => exact ⟨_, rfl, ofSize_inv s, rfl⟩
  | copy p ih =>
    obtain ⟨b, hb, hi, hs⟩ := ih
    exact ⟨b, by simp [run, hb, bind, Except.bind, copy_eq hi.toWellFormed], hi, hs⟩
  | assign p q ihp ihq =>
    obtain ⟨a, ha, hia, hsa⟩ := ihp
    obtain ⟨b, hb, hib, hsb⟩ := ihq
    have hab := assign_eq hia.toWellFormed hib.toWellFormed (hsa.trans hsb.symm)
    exact ⟨b, by simp [run, ha, hb, bind, Except.bind, hab], hib, hsb⟩
  | set p i value ih =>
    obtain ⟨b, hb, hi, hs⟩ := ih
    have hlt : (i : Nat) < b.size_ := hs ▸ i.isLt
    exact ⟨_, by simp [run, hb, bind, Except.bind, set_eq hi.toWellFormed hlt],
      hi.setBit hlt value, hs⟩
  | orAssign p q ihp ihq =>
    obtain ⟨a, ha, hia, hsa⟩ := ihp
    obtain ⟨b, hb, hib, hsb⟩ := ihq
    have hab := blockAssign_eq (· ||| ·) hia.toWellFormed hib.toWellFormed (hsa.trans hsb.symm)
    refine ⟨_, by simp only [run, ha, hb, bind, Except.bind]; exact hab,
      hia.blockAssign (· ||| ·) (fun x y j h => ?_) hib (hsa.trans hsb.symm), hsa⟩
    simpa [BitVec.getLsbD_or] using h
  | andAssign p q ihp ihq =>
    obtain ⟨a, ha, hia, hsa⟩ := ihp
    obtain ⟨b, hb, hib, hsb⟩ := ihq
    have hab := blockAssign_eq (· &&& ·) hia.toWellFormed hib.toWellFormed (hsa.trans hsb.symm)
    refine ⟨_, by simp only [run, ha, hb, bind, Except.bind]; exact hab,
      hia.blockAssign (· &&& ·) (fun x y j h => ?_) hib (hsa.trans hsb.symm), hsa⟩
    simp only [BitVec.getLsbD_and, Bool.and_eq_true] at h
    exact .inl h.1

end Prog

/-- **A reachable bitset**: one that some program over bitsets of one size leaves. -/
def Reachable (b : Bitset B) : Prop :=
  ∃ s, ∃ p : Prog s, p.run B = .ok b

theorem Reachable.inv {b : Bitset B} (h : b.Reachable) : b.Inv := by
  obtain ⟨s, p, hp⟩ := h
  obtain ⟨b', hb', hi, -⟩ := p.run_inv (B := B)
  exact Except.ok.inj (hp.symm.trans hb') ▸ hi

/-! ## What every run keeps -/

/-- **Bitset addressing stays in bounds.** The block and the bit position of a bit
below the size lie inside the constructor's allocation and the block's width; every
reachable bitset holds the constructor's block count; and so `operator[]` and `set`
below the size, and the loops of `operator=`, `operator|=` and `operator&=` between
reachable bitsets of one size, complete. The model fails an access at or past an
array's length, and the arrays have `num_blocks()` blocks, so a completed call
accessed only blocks `[0, num_blocks())` of each operand. -/
theorem bitset_accesses_in_bounds (B : BlockType) :
    (∀ s i, i < s → blockIndex B i < (ofSize B s).numBlocks ∧ bitIndex B i < B.width) ∧
    (∀ b : Bitset B, b.Reachable →
      b.blocks_ = numBlocksFor B b.size_ ∧ b.get.length = b.numBlocks ∧
      ∀ i < b.size, (∃ v, b.index i = .ok v) ∧ ∀ value, ∃ r, b.set i value = .ok r) ∧
    (∀ a b : Bitset B, a.Reachable → b.Reachable → a.size = b.size →
      (∃ r, a.assign b = .ok r) ∧ (∃ r, a.orAssign b = .ok r) ∧
        (∃ r, a.andAssign b = .ok r)) := by
  refine ⟨fun s i hi => ⟨blockIndex_lt_numBlocksFor hi, bitIndex_lt_width i⟩,
    fun b hb => ?_, fun a b ha hb hs => ?_⟩
  · have hw := hb.inv.toWellFormed
    exact ⟨hw.blocks_eq, hw.length_eq, fun i hi =>
      ⟨⟨_, index_eq hw hi⟩, fun value => ⟨_, set_eq hw hi value⟩⟩⟩
  · have hwa := ha.inv.toWellFormed
    have hwb := hb.inv.toWellFormed
    exact ⟨⟨_, assign_eq hwa hwb hs⟩, ⟨_, blockAssign_eq _ hwa hwb hs⟩,
      ⟨_, blockAssign_eq _ hwa hwb hs⟩⟩

/-- **The blocks of a reachable bitset are canonical.** `get()` exposes `num_blocks()`
blocks, every bit of them that stores no logical bit below the size is clear, and so
two reachable bitsets of one size whose `operator[]` agree below the size expose the
same blocks through `get()`. -/
theorem bitset_blocks_canonical (B : BlockType) :
    (∀ b : Bitset B, b.Reachable → b.get.length = b.numBlocks ∧
      ∀ k < b.numBlocks, ∀ j < B.width,
        (¬ ∃ i < b.size, blockIndex B i = k ∧ bitIndex B i = j) →
          (b.get.getD k 0).getLsbD j = false) ∧
    (∀ a b : Bitset B, a.Reachable → b.Reachable → a.size = b.size →
      (∀ i < a.size, a.index i = b.index i) → a.get = b.get) := by
  refine ⟨fun b hb => ⟨hb.inv.length_eq, fun k _ j _ hns => ?_⟩, fun a b ha hb hs h => ?_⟩
  · exact Bool.eq_false_iff.mpr fun h' => hns (hb.inv.canonical k j h')
  · have hia := ha.inv
    have hib := hb.inv
    have hs' : a.size_ = b.size_ := hs
    refine set_eq_of_bit_eq hia hib hs fun i hi => ?_
    have := h i hi
    rw [index_eq hia.toWellFormed hi, index_eq hib.toWellFormed (hs' ▸ hi)] at this
    exact Except.ok.inj this

/-! ## `set` past the size

`set` checks nothing. Its index is only bounded by the array, and the array reaches
past the size whenever `sizeof(Block)` does not divide it. -/

/-- `set` completes exactly when the bit's block is allocated. -/
theorem set_ok_iff {b : Bitset B} (i : Nat) (value : Bool) :
    (∃ r, b.set i value = .ok r) ↔ blockIndex B i < b.set_.length := by
  by_cases hk : blockIndex B i < b.set_.length
  · simp only [set, readAt_of_lt hk, hk, iff_true]
    exact ⟨_, rfl⟩
  · simp only [set, readAt, List.getElem?_eq_none (Nat.le_of_not_lt hk), hk, iff_false]
    rintro ⟨r, hr⟩
    cases hr

/-- What `set(i, value)` leaves whenever the block of `i` is allocated. -/
theorem set_eq_setBit {b : Bitset B} {i : Nat} (hk : blockIndex B i < b.set_.length)
    (value : Bool) : b.set i value = .ok (b.setBit i value) := by
  simp only [set, setBit, readAt_of_lt hk, bind, Except.bind, pure, Except.pure,
    List.getD_eq_getElem?_getD, List.getElem?_eq_getElem hk, Option.getD_some]

/-- **`set` past the size corrupts silently.** On a reachable bitset, `set(i, value)`
completes exactly when `i` lies below `num_blocks() * sizeof(Block)`, and is undefined
past it. Between the size and that bound it completes without a word: every
`operator[]` below the size reads as before, yet `set(i, true)` changes the blocks
`get()` exposes, so the blocks no longer follow from the bits. -/
theorem set_beyond_size {b : Bitset B} (hb : b.Reachable) :
    (∀ i value, (∃ r, b.set i value = .ok r) ↔ i < b.numBlocks * B.sizeof) ∧
    (∀ i, b.size ≤ i → i < b.numBlocks * B.sizeof →
      ∃ r, b.set i true = .ok r ∧ (∀ j < b.size, r.index j = b.index j) ∧
        r.get ≠ b.get) := by
  have hi := hb.inv
  have hlen : ∀ i, blockIndex B i < b.set_.length ↔ i < b.numBlocks * B.sizeof := fun i => by
    rw [hi.length_eq, blockIndex, numBlocks, Nat.div_lt_iff_lt_mul B.sizeof_pos]
  refine ⟨fun i value => (set_ok_iff i value).trans (hlen i), fun i hsi hib => ?_⟩
  have hk := (hlen i).mpr hib
  have hwf : (b.setBit i true).WellFormed := ⟨hi.blocks_eq, by simp [hi.length_eq]⟩
  refine ⟨_, set_eq_setBit hk true, fun j hj => ?_, fun hget => ?_⟩
  · rw [index_eq hwf hj, index_eq hi.toWellFormed hj,
      bit_setBit_of_lt_length hk, if_neg (by simp only [size] at hsi hj; omega)]
  · have hclear : b.bit i = false := Bool.eq_false_iff.mpr fun h' => by
      obtain ⟨j, hj, hbj, hij⟩ := hi.canonical _ _ h'
      have := eq_of_address_eq hbj hij
      simp only [size] at hsi
      omega
    have hset : (b.setBit i true).bit i = true := by
      rw [bit_setBit_of_lt_length hk, if_pos rfl]
    have hsame : (b.setBit i true).bit i = b.bit i := by
      simp only [bit]
      rw [show (b.setBit i true).set_ = b.set_ from hget]
    rw [hsame, hclear] at hset
    exact Bool.false_ne_true hset

/-- Bit 9 of a nine-bit bitset of `unsigned long` blocks lies past the size, in the
second block the constructor allocates: `set(9, true)` succeeds and changes `get()`. -/
theorem set_beyond_size_nine :
    (ofSize BlockType.unsignedLong 9).Reachable ∧ (ofSize BlockType.unsignedLong 9).size ≤ 9 ∧
      9 < (ofSize BlockType.unsignedLong 9).numBlocks * BlockType.unsignedLong.sizeof ∧
      ∃ r, (ofSize BlockType.unsignedLong 9).set 9 true = .ok r ∧
        (∀ j < (ofSize BlockType.unsignedLong 9).size,
          r.index j = (ofSize BlockType.unsignedLong 9).index j) ∧
        r.get ≠ (ofSize BlockType.unsignedLong 9).get :=
  ⟨⟨9, .ofSize, rfl⟩, by decide, by decide,
    (set_beyond_size ⟨9, .ofSize, rfl⟩).2 9 (by decide) (by decide)⟩

/-! ## Serialization -/

/-- The receiving side of a serialized bitset, as `get()` and `num_blocks()` are meant
for: construct `Bitset(s)` and copy the `num_blocks()` blocks received over its `get()`
array. -/
def receive (B : BlockType) (s : Nat) (blocks : List (Block B)) : Except Error (Bitset B) := do
  let b := ofSize B s
  let set_ ← blockLoop (fun _ y => y) blocks b.blocks_ 0 b.set_
  pure { b with set_ := set_ }

/-- **`size()` and `get()` serialize a bitset exactly.** A receiver that constructs a
bitset of the sender's size and copies the sender's blocks into it holds the
sender's bitset, and so answers every `operator[]` as the sender does. -/
theorem receive_size_get {b : Bitset B} (hb : b.Reachable) : receive B b.size b.get = .ok b := by
  obtain ⟨hk, hl⟩ := hb.inv.toWellFormed
  obtain ⟨s, k, l⟩ := b
  dsimp only at hk hl
  subst hk
  have hlen : (ofSize B s).set_.length = l.length := by simp [ofSize, hl]
  have hloop := blockLoop_full (fun _ y => y) hlen
  rw [zipWith_snd hlen] at hloop
  simp only [ofSize, List.length_replicate] at hloop
  simp only [receive, size, get, ofSize, hloop, bind, Except.bind, pure, Except.pure]

/-- Bits 3 and 8 of a nine-bit bitset, set before it is sent, come through `size()`
and `get()`: the blocks carry them, and the receiver's bitset is not `Bitset(9)`'s. -/
theorem receive_size_get_set_bits :
    ∃ b : Bitset BlockType.unsignedLong,
      (Prog.set (Prog.set (Prog.ofSize : Prog 9) 3 true) 8 true).run BlockType.unsignedLong
        = .ok b ∧ b.get ≠ (ofSize BlockType.unsignedLong 9).get ∧
      receive BlockType.unsignedLong b.size b.get = .ok b :=
  have hb : (Prog.set (Prog.set (Prog.ofSize : Prog 9) 3 true) 8 true).run
      BlockType.unsignedLong = .ok _ := rfl
  ⟨_, hb, by decide, receive_size_get ⟨9, _, hb⟩⟩

end Bitset

end TiledArray
