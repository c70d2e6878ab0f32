import Mathlib.Data.List.Basic

/-!
# Printing a tensor

`tensor.h` writes a tensor to a stream in one of two ways. A contiguous tensor, whose
elements lie in its buffer in order, is written element by element: its range, then
` { `, then each `t[i]` followed by a blank, then `}`. Any other tensor – a view of a
block of a larger tensor, say – is written by runs: `inner_size(t)` consecutive
elements lie consecutively in the buffer. So the outer loop steps through the tensor
`inner_size` elements at a time, and the lambda `tensor_print_range` writes one run,
starting from the buffer position `t.range().ordinal(i)` of its first element.

The stream is modelled as the list of what was inserted into it, in order. Writing a
value inserts the text its own `operator<<` gives (`out`). The range's text, its
volume, `inner_size(t)`, `ordinal` and the buffer come from other headers and are the
fields of `StridedTensor`. Element `i` of the tensor is `data[ordinal(i)]`, as
`TensorInterface::operator[]` reads it.

The outer loop advances by `inner_size(t)`, so nothing in `tensor.h` bounds it. It is
modelled with fuel (`StridedTensor.chunkLoop`), and `StridedTensor.printStrided_eq`
says that fuel past the number of runs always suffices. That lemma is the whole story
of the second printer: it writes `⌈volume / inner_size⌉` whole runs. When `inner_size`
describes the layout – it divides the volume, and each run is consecutive in the
buffer – that is exactly what the first printer writes
(`printStrided_eq_printContiguous`). Otherwise the last run overshoots the tensor or,
for an `inner_size` of zero, the loop never ends (`printStrided_of_not_dvd`).
-/

namespace TiledArray

variable {α : Type}

/-! ## Writing elements -/

/-- What a stream receives for elements written one by one as `os << x << " "`. -/
def fields (out : α → String) (xs : List α) : List String :=
  xs.flatMap fun x => [out x, " "]

@[simp] theorem fields_nil (out : α → String) : fields out [] = [] := rfl

@[simp] theorem fields_append (out : α → String) (xs ys : List α) :
    fields out (xs ++ ys) = fields out xs ++ fields out ys :=
  List.flatMap_append _ _ _

/-- **The element loop** `for (i = 0; i < n; ++i) os << x[i] << " "`, run for `k`
iterations from `i`. Both printers write their elements with it: the first over
`t[i]`, the lambda of the second over one run of the buffer. -/
def elementLoop (out : α → String) (x : Nat → α) : Nat → Nat → List String → List String
  | 0, _, os => os
  | k + 1, i, os => elementLoop out x k (i + 1) (os ++ [out (x i), " "])

/-- The element loop writes `x[i], …, x[i + k - 1]`. -/
theorem elementLoop_eq (out : α → String) (x : Nat → α) :
    ∀ k i os, elementLoop out x k i os = os ++ fields out ((List.range' i k).map x)
  | 0, _, _ => by simp [elementLoop]
  | k + 1, i, os => by
    rw [elementLoop, elementLoop_eq out x k, List.range'_succ]
    simp [fields]

/-- **`operator<<` for a contiguous tensor**: `os << t.range() << " { "`, then
`os << t[i] << " "` for each of its `volume` elements, then `os << "}"`. -/
def printContiguous (out : α → String) (range : String) (volume : Nat) (elem : Nat → α) :
    List String :=
  elementLoop out elem volume 0 [range, " \x7b "] ++ ["\x7d"]

theorem printContiguous_eq (out : α → String) (range : String) (volume : Nat)
    (elem : Nat → α) :
    printContiguous out range volume elem
      = [range, " \x7b "] ++ fields out ((List.range volume).map elem) ++ ["\x7d"] := by
  rw [printContiguous, elementLoop_eq, List.range_eq_range']

/-! ## The printer by runs -/

/-- **A tensor as the second `operator<<` reads it.** -/
structure StridedTensor (α : Type) where
  /-- What `os << t.range()` writes. -/
  range : String
  /-- `t.range().volume()`. -/
  volume : Nat
  /-- `inner_size(t)`: how many consecutive elements lie consecutively in the buffer. -/
  innerSize : Nat
  /-- `t.range().ordinal(i)`: the buffer position of element `i`. -/
  ordinal : Nat → Nat
  /-- The buffer `t.data()` points into, by position. -/
  data : Nat → α

namespace StridedTensor

/-- Element `i` of the tensor, `t[i] = data[ordinal(i)]`. -/
def elem (t : StridedTensor α) (i : Nat) : α := t.data (t.ordinal i)

/-- The lambda `tensor_print_range(t_data)`: `os << t_data[i] << " "` for every
`i < inner_size(t)`, with `t_data` the buffer position `tData`. -/
def printRun (out : α → String) (t : StridedTensor α) (tData : Nat) (os : List String) :
    List String :=
  elementLoop out (fun i => t.data (tData + i)) t.innerSize 0 os

/-- **The outer loop**
`for (i = 0; i < volume; i += stride) tensor_print_range(t.data() + t.range().ordinal(i))`,
for at most `fuel` tests of its condition: `none` if the fuel runs out first. -/
def chunkLoop (out : α → String) (t : StridedTensor α) :
    Nat → Nat → List String → Option (List String)
  | 0, _, _ => none
  | fuel + 1, i, os =>
    if i < t.volume then t.chunkLoop out fuel (i + t.innerSize) (t.printRun out (t.ordinal i) os)
    else some os

/-- **`operator<<` for a tensor that is not contiguous**: `os << t.range() << " { "`,
the outer loop with `stride = inner_size(t)`, then `os << "}"`; `none` if `fuel` tests
of the loop's condition do not reach its end. -/
def printStrided (out : α → String) (t : StridedTensor α) (fuel : Nat) :
    Option (List String) :=
  (t.chunkLoop out fuel 0 [t.range, " \x7b "]).map (· ++ ["\x7d"])

/-- Run `c` as the lambda reads it: the `inner_size` buffer entries from the position
of element `c * inner_size`. -/
def run (t : StridedTensor α) (c : Nat) : List α :=
  (List.range t.innerSize).map fun k => t.data (t.ordinal (c * t.innerSize) + k)

/-- The number of runs the outer loop starts: `⌈volume / inner_size⌉`. -/
def numRuns (t : StridedTensor α) : Nat := (t.volume + t.innerSize - 1) / t.innerSize

theorem printRun_eq (out : α → String) (t : StridedTensor α) (c : Nat) (os : List String) :
    t.printRun out (t.ordinal (c * t.innerSize)) os = os ++ fields out (t.run c) := by
  rw [printRun, elementLoop_eq, ← List.range_eq_range']
  rfl

/-- The loop starts run `c` exactly when `c` is below the number of runs. -/
theorem mul_lt_volume_iff {t : StridedTensor α} (hs : 0 < t.innerSize) (c : Nat) :
    c * t.innerSize < t.volume ↔ c < t.numRuns := by
  show _ ↔ c + 1 ≤ (t.volume + t.innerSize - 1) / t.innerSize
  rw [Nat.le_div_iff_mul_le hs, Nat.add_mul, Nat.one_mul]
  omega

/-- **The outer loop writes the remaining runs**, from run `c` on, given fuel for
each of them and for the final test. -/
theorem chunkLoop_eq (out : α → String) {t : StridedTensor α} (hs : 0 < t.innerSize) :
    ∀ fuel c os, c ≤ t.numRuns → t.numRuns < c + fuel →
      t.chunkLoop out fuel (c * t.innerSize) os
        = some (os ++ fields out ((List.range' c (t.numRuns - c)).flatMap t.run))
  | 0, _, _, hc, hf => absurd hf (by omega)
  | fuel + 1, c, os, hc, hf => by
    rw [chunkLoop]
    split_ifs with hlt
    · have hc' : c < t.numRuns := (mul_lt_volume_iff hs c).mp hlt
      have hnext : c * t.innerSize + t.innerSize = (c + 1) * t.innerSize := by
        rw [Nat.add_mul, Nat.one_mul]
      have hlen : t.numRuns - c = t.numRuns - (c + 1) + 1 := by omega
      rw [hnext, printRun_eq, chunkLoop_eq out hs fuel (c + 1) _ hc' (by omega), hlen,
        List.range'_succ, List.flatMap_cons, fields_append, List.append_assoc]
    · have hc' : t.numRuns ≤ c := by
        simpa [mul_lt_volume_iff hs c] using hlt
      simp [Nat.le_antisymm hc hc']

/-- **What the second printer writes**: given fuel past the number of runs, the range,
then `⌈volume / inner_size⌉` whole runs of `inner_size` buffer entries, then the
brace. -/
theorem printStrided_eq (out : α → String) {t : StridedTensor α} (hs : 0 < t.innerSize)
    {fuel : Nat} (hf : t.numRuns < fuel) :
    t.printStrided out fuel
      = some ([t.range, " \x7b "] ++ fields out ((List.range t.numRuns).flatMap t.run)
          ++ ["\x7d"]) := by
  have h := chunkLoop_eq out hs fuel 0 [t.range, " \x7b "] (Nat.zero_le _) (by omega)
  rw [Nat.zero_mul, Nat.sub_zero, ← List.range_eq_range'] at h
  rw [printStrided, h]
  rfl

/-! ## The two printers agree -/

/-- **`inner_size` describes the layout**: it divides the volume, and the run of
`inner_size` elements from every multiple of it lies consecutively in the buffer. -/
structure RunsContiguous (t : StridedTensor α) : Prop where
  innerSize_dvd : t.innerSize ∣ t.volume
  ordinal_add : ∀ c k, c * t.innerSize < t.volume → k < t.innerSize →
    t.ordinal (c * t.innerSize + k) = t.ordinal (c * t.innerSize) + k

/-- Run `c` of a tensor laid out by runs is its elements `c * inner_size, …`. -/
theorem run_eq_elems {t : StridedTensor α} (ht : t.RunsContiguous) {c : Nat}
    (hc : c * t.innerSize < t.volume) :
    t.run c = (List.range' (c * t.innerSize) t.innerSize).map t.elem := by
  rw [run, List.range'_eq_map_range, List.map_map]
  refine List.map_congr_left fun k hk => ?_
  simp only [Function.comp, elem, ht.ordinal_add c k hc (List.mem_range.mp hk)]

/-- The first `m` runs of a tensor laid out by runs are its first `m * inner_size`
elements. -/
theorem flatMap_run_eq {t : StridedTensor α} (ht : t.RunsContiguous) :
    ∀ m, m * t.innerSize ≤ t.volume →
      (List.range m).flatMap t.run = (List.range (m * t.innerSize)).map t.elem
  | 0, _ => by simp
  | m + 1, hm => by
    have hlt : m * t.innerSize < t.volume ∨ t.innerSize = 0 := by
      rw [Nat.add_mul, Nat.one_mul] at hm
      omega
    rcases hlt with hlt | h0
    · have hsplit := List.range'_append 0 (m * t.innerSize) t.innerSize 1
      rw [Nat.zero_add, Nat.one_mul] at hsplit
      rw [List.range_succ, List.flatMap_append, flatMap_run_eq ht m (by omega),
        List.flatMap_cons, List.flatMap_nil, List.append_nil, run_eq_elems ht hlt,
        List.range_eq_range', List.range_eq_range', ← List.map_append, hsplit, Nat.add_mul,
        Nat.one_mul, Nat.add_comm t.innerSize]
    · simp [run, h0]

/-- **The printer by runs writes what the element-wise printer writes.** For a tensor
whose `inner_size` describes its layout, and fuel past its volume, the second
`operator<<` of `tensor.h` writes exactly what the first writes for the elements
`t[i] = data[ordinal(i)]`: the runs add up to the tensor, in order. -/
theorem printStrided_eq_printContiguous (out : α → String) {t : StridedTensor α}
    (ht : t.RunsContiguous) {fuel : Nat} (hf : t.volume < fuel) :
    t.printStrided out fuel = some (printContiguous out t.range t.volume t.elem) := by
  rw [printContiguous_eq]
  rcases Nat.eq_zero_or_pos t.innerSize with h0 | hs
  · have hv : t.volume = 0 := Nat.eq_zero_of_zero_dvd (h0 ▸ ht.innerSize_dvd)
    obtain ⟨fuel, rfl⟩ : ∃ f, fuel = f + 1 := ⟨fuel - 1, by omega⟩
    simp [printStrided, chunkLoop, hv]
  · obtain ⟨m, hm⟩ := ht.innerSize_dvd
    have hruns : t.numRuns = m := by
      rw [numRuns, hm, Nat.mul_comm]
      exact Nat.div_eq_of_lt_le (by omega) (by rw [Nat.add_mul]; omega)
    have hvol : t.volume = m * t.innerSize := by rw [hm, Nat.mul_comm]
    have hle : m ≤ t.volume := hvol ▸ Nat.le_mul_of_pos_right m hs
    rw [printStrided_eq out hs (by omega), hruns,
      flatMap_run_eq ht m hvol.ge, ← hvol]

/-- The `2 × 2` block at the origin of a row-major `2 × 3` matrix, whose rows are runs
of two consecutive entries three apart, is laid out by runs, and both printers write
the same text for it. -/
theorem printStrided_eq_printContiguous_block :
    (⟨"[0,0] [2,2)", 4, 2, fun i => i / 2 * 3 + i % 2, id⟩
      : StridedTensor Nat).RunsContiguous ∧
    (⟨"[0,0] [2,2)", 4, 2, fun i => i / 2 * 3 + i % 2, id⟩ : StridedTensor Nat).printStrided
        toString 5
      = some (printContiguous toString "[0,0] [2,2)" 4
          (⟨"[0,0] [2,2)", 4, 2, fun i => i / 2 * 3 + i % 2, id⟩ : StridedTensor Nat).elem) :=
  have ht : (⟨"[0,0] [2,2)", 4, 2, fun i => i / 2 * 3 + i % 2, id⟩
      : StridedTensor Nat).RunsContiguous :=
    ⟨by decide, fun c k hc hk => by simp only at hc hk ⊢; omega⟩
  ⟨ht, printStrided_eq_printContiguous toString ht (by decide)⟩

/-! ## When `inner_size` does not describe the layout -/

/-- With `inner_size` zero the loop never leaves the first element. -/
theorem chunkLoop_of_innerSize_zero (out : α → String) {t : StridedTensor α}
    (h0 : t.innerSize = 0) (hv : 0 < t.volume) : ∀ fuel os, t.chunkLoop out fuel 0 os = none
  | 0, _ => rfl
  | fuel + 1, os => by
    rw [chunkLoop, if_pos hv, h0]
    exact chunkLoop_of_innerSize_zero out h0 hv fuel _

theorem length_flatMap_run (t : StridedTensor α) :
    ∀ m, ((List.range m).flatMap t.run).length = m * t.innerSize
  | 0 => by simp
  | m + 1 => by
    rw [List.range_succ, List.flatMap_append, List.length_append, length_flatMap_run t m]
    simp [run, Nat.add_mul]

/-- **When `inner_size` does not divide the volume.** An `inner_size` of zero never
moves the loop past the first element of a non-empty tensor, so the printer never
ends. A positive one that does not divide the volume makes the last run overshoot:
the printer writes more buffer entries than the tensor has elements. -/
theorem printStrided_of_not_dvd (out : α → String) (t : StridedTensor α) :
    (t.innerSize = 0 → 0 < t.volume → ∀ fuel, t.printStrided out fuel = none) ∧
    (0 < t.innerSize → ¬ t.innerSize ∣ t.volume → ∀ fuel, t.numRuns < fuel →
      ∃ xs, t.printStrided out fuel = some ([t.range, " \x7b "] ++ fields out xs ++ ["\x7d"]) ∧
        xs.length = t.numRuns * t.innerSize ∧ t.volume < xs.length) := by
  refine ⟨fun h0 hv fuel => ?_, fun hs hdvd fuel hf => ⟨_, printStrided_eq out hs hf,
    length_flatMap_run t _, ?_⟩⟩
  · rw [printStrided, chunkLoop_of_innerSize_zero out h0 hv]
    rfl
  · have hcover : t.volume ≤ t.numRuns * t.innerSize :=
      Nat.le_of_not_lt fun h => Nat.lt_irrefl _ ((mul_lt_volume_iff hs _).mp h)
    have hne : t.volume ≠ t.numRuns * t.innerSize := fun h => hdvd ⟨t.numRuns, by
      rw [h, Nat.mul_comm]⟩
    rw [length_flatMap_run]
    omega

end StridedTensor

end TiledArray
