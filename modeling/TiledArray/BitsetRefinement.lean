import TiledArray.BitsetRuns

/-!
# The bitset as a boolean vector

What a bitset of `s` bits is for is a function `Fin s → Bool`, and every operation of
the class is an operation on such functions: the constructor is the function that is
everywhere `false`, a copy or an assignment takes the other operand's function, `set`
updates one point, and `operator|=` and `operator&=` combine pointwise. `Prog.denote`
computes a program's function from those meanings alone, knowing nothing of blocks.

`bitset_refines_bool_vector` says the blocks implement it: after any program,
`operator[]` reads the program's function at every bit below the size. The proof is the
simulation one step at a time – each operation's effect on `Bitset.bit`, from the spec
lemmas of `TiledArray.BitsetRuns` – and it rests on the addressing being injective
below the size, not on its being dense.

It is not dense. The class packs `sizeof(Block)` bits into each block where a block
holds `CHAR_BIT * sizeof(Block)`, so `get()` exposes eight times the blocks the
documented layout needs and uses an eighth of each (`bitset_layout_byte_addressed`).
The accessors cannot see this, since they agree with each other; only `get()`, which
serializes the blocks for another process, does.
-/

namespace TiledArray

namespace Bitset

variable {B : BlockType}

/-- The bits of a blockwise combination, at a bit whose block both operands have. -/
theorem bit_zipWith (op : Block B → Block B → Block B) {a b : Bitset B} {j : Nat}
    (ha : blockIndex B j < a.set_.length) (hb : blockIndex B j < b.set_.length) :
    ({ a with set_ := List.zipWith op a.set_ b.set_ } : Bitset B).bit j
      = (op (a.set_.getD (blockIndex B j) 0)
          (b.set_.getD (blockIndex B j) 0)).getLsbD (bitIndex B j) := by
  simp [bit, List.getElem?_zipWith, List.getElem?_eq_getElem ha, List.getElem?_eq_getElem hb]

/-- The constructor's bits are clear. -/
theorem bit_ofSize (s j : Nat) : (ofSize B s).bit j = false := by
  rw [bit, ofSize, List.getD_eq_getElem?_getD, List.getElem?_replicate]
  split <;> simp

namespace Prog

variable {s : Nat}

/-- **What a program means**: the boolean vector its bitset stands for. -/
def denote : Prog s → Fin s → Bool
  | ofSize => fun _ => false
  | copy p => p.denote
  | assign _ q => q.denote
  | set p i value => Function.update p.denote i value
  | orAssign p q => fun j => p.denote j || q.denote j
  | andAssign p q => fun j => p.denote j && q.denote j

/-- The bits of a blockwise assignment between two programs' bitsets, for a
combination acting on each bit by `f`. -/
theorem bit_blockAssign {p q : Prog s} {a b c : Bitset B} (ha : p.run B = .ok a)
    (hb : q.run B = .ok b) (op : Block B → Block B → Block B) (f : Bool → Bool → Bool)
    (hop : ∀ x y i, (op x y).getLsbD i = f (x.getLsbD i) (y.getLsbD i))
    (h : blockAssign op a b = .ok c) (j : Fin s) : c.bit j = f (a.bit j) (b.bit j) := by
  obtain ⟨a', ha', hia, hsa⟩ := p.run_inv (B := B)
  obtain ⟨b', hb', hib, hsb⟩ := q.run_inv (B := B)
  cases ha.symm.trans ha'
  cases hb.symm.trans hb'
  rw [blockAssign_eq op hia.toWellFormed hib.toWellFormed (hsa.trans hsb.symm)] at h
  cases h
  rw [bit_zipWith op (hia.length_eq_numBlocksFor ▸ blockIndex_lt_numBlocksFor (hsa ▸ j.isLt))
    (hib.length_eq_numBlocksFor ▸ blockIndex_lt_numBlocksFor (hsb ▸ j.isLt)), hop]
  rfl

/-- **The simulation**: the bits of the bitset a program leaves are its meaning. -/
theorem bit_run (p : Prog s) {b : Bitset B} (h : p.run B = .ok b) (j : Fin s) :
    b.bit j = p.denote j := by
  induction p generalizing b with
  | ofSize =>
    cases h
    exact bit_ofSize s j
  | copy p ih =>
    obtain ⟨a, ha, hia, -⟩ := p.run_inv (B := B)
    simp only [run, ha, bind, Except.bind, copy_eq hia.toWellFormed] at h
    cases h
    exact ih ha
  | assign p q _ ihq =>
    obtain ⟨a, ha, hia, hsa⟩ := p.run_inv (B := B)
    obtain ⟨c, hc, hic, hsc⟩ := q.run_inv (B := B)
    simp only [run, ha, hc, bind, Except.bind,
      assign_eq hia.toWellFormed hic.toWellFormed (hsa.trans hsc.symm)] at h
    cases h
    exact ihq hc
  | set p i value ih =>
    obtain ⟨a, ha, hia, hsa⟩ := p.run_inv (B := B)
    have hlt : (i : Nat) < a.size_ := hsa ▸ i.isLt
    simp only [run, ha, bind, Except.bind, set_eq hia.toWellFormed hlt] at h
    cases h
    rw [bit_setBit hia.toWellFormed hlt, denote, Function.update_apply]
    by_cases hji : j = i
    · simp [hji]
    · simp [hji, Fin.val_ne_of_ne hji, ih ha]
  | orAssign p q ihp ihq =>
    obtain ⟨a, ha, -⟩ := p.run_inv (B := B)
    obtain ⟨c, hc, -⟩ := q.run_inv (B := B)
    simp only [run, ha, hc, bind, Except.bind] at h
    rw [bit_blockAssign ha hc _ (· || ·) (fun _ _ _ => BitVec.getLsbD_or) h, ihp ha, ihq hc]
    rfl
  | andAssign p q ihp ihq =>
    obtain ⟨a, ha, -⟩ := p.run_inv (B := B)
    obtain ⟨c, hc, -⟩ := q.run_inv (B := B)
    simp only [run, ha, hc, bind, Except.bind] at h
    rw [bit_blockAssign ha hc _ (· && ·) (fun _ _ _ => BitVec.getLsbD_and) h, ihp ha, ihq hc]
    rfl

end Prog

/-- **The bitset refines a boolean vector.** Every program over bitsets of `s` bits
runs, and `operator[]` then reads at every bit below `s` the program's meaning; in
particular `set(i, v)` leaves every other bit reading as it did. -/
theorem bitset_refines_bool_vector (B : BlockType) (s : Nat) :
    (∀ p : Prog s, ∃ b, p.run B = .ok b ∧ b.size = s ∧
      ∀ i : Fin s, b.index i = .ok (p.denote i)) ∧
    (∀ (p : Prog s) (i j : Fin s) (value : Bool), j ≠ i →
      ∃ b b', p.run B = .ok b ∧ (p.set i value).run B = .ok b' ∧ b'.index j = b.index j) := by
  have hread : ∀ p : Prog s, ∃ b, p.run B = .ok b ∧ b.size = s ∧
      ∀ i : Fin s, b.index i = .ok (p.denote i) := fun p => by
    obtain ⟨b, hb, hi, hs⟩ := p.run_inv (B := B)
    exact ⟨b, hb, hs, fun i => by rw [index_eq hi.toWellFormed (hs ▸ i.isLt), p.bit_run hb]⟩
  refine ⟨hread, fun p i j value hji => ?_⟩
  obtain ⟨b, hb, -, hbi⟩ := hread p
  obtain ⟨b', hb', -, hbi'⟩ := hread (p.set i value)
  refine ⟨b, b', hb, hb', ?_⟩
  rw [hbi, hbi', Prog.denote, Function.update_noteq hji]

/-- **The bitset a program leaves is determined by its meaning.** Two programs over
bitsets of `s` bits leave the same bitset – size, block count and blocks – exactly
when they mean the same boolean vector. The blocks are a canonical representation,
so whether two compositions of the operations agree is decided on the abstract
model. -/
theorem Prog.run_eq_iff_denote_eq (B : BlockType) {s : Nat} (p q : Prog s) :
    p.run B = q.run B ↔ p.denote = q.denote := by
  obtain ⟨a, ha, hia, hsa⟩ := p.run_inv (B := B)
  obtain ⟨b, hb, hib, hsb⟩ := q.run_inv (B := B)
  rw [ha, hb]
  constructor
  · intro h
    cases h
    funext j
    rw [← p.bit_run ha j, ← q.bit_run hb j]
  · intro h
    have hset : a.set_ = b.set_ := set_eq_of_bit_eq hia hib (hsa.trans hsb.symm) fun i hi => by
      rw [p.bit_run ha ⟨i, hsa ▸ hi⟩, q.bit_run hb ⟨i, hsa ▸ hi⟩, h]
    obtain ⟨sa, ka, la⟩ := a
    obtain ⟨sb, kb, lb⟩ := b
    obtain ⟨hka, -⟩ := hia.toWellFormed
    obtain ⟨hkb, -⟩ := hib.toWellFormed
    dsimp only at hsa hsb hset hka hkb
    subst hsa hsb hset hka hkb
    rfl

/-- **The layout is byte-addressed, not dense.** With 64-bit `unsigned long` blocks,
`Bitset(9)` allocates two blocks where nine bits need one, and after `set(8, true)` bit 8
is bit 0 of block 1, where the dense layout puts it at bit 8 of block 0. -/
theorem bitset_layout_byte_addressed :
    (ofSize BlockType.unsignedLong 9).numBlocks = 2 ∧
    (9 + BlockType.unsignedLong.width - 1) / BlockType.unsignedLong.width = 1 ∧
    ∃ b, (Prog.set (Prog.ofSize : Prog 9) 8 true).run BlockType.unsignedLong = .ok b ∧
      b.index 8 = .ok true ∧
      (b.get.getD (8 / BlockType.unsignedLong.width) 0).getLsbD
        (8 % BlockType.unsignedLong.width) = false ∧
      (b.get.getD 1 0).getLsbD 0 = true :=
  ⟨by decide, by decide, _, rfl, rfl, rfl, rfl⟩

end Bitset

end TiledArray
