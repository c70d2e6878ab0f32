import Mathlib.Order.Basic

/-!
# The LAPACK call of the rank-local SVD

`rank_local::svd` (`math/linalg/rank-local.cpp`) decomposes a column-major matrix `A`
through one call of `lapack::gesvd`, after sizing the outputs itself: `S` to
`min(m, n)` values, and `U` and `VT`, when the caller passes them, to the shapes it
then announces to LAPACK through their leading dimensions. LAPACK writes into the
buffers what the jobs ask for and checks none of their sizes, so whether the call is
sound is a relation between the jobs and the shapes, and nothing else.

A matrix is known here by its shape: `resize`, `rows()` and `data()` are all the
routine uses of it, and the buffer of a column-major `rows × cols` matrix is
`rows * cols` elements with leading dimension `rows`. The numerical contents, and
what `gesvd` computes from them, are not modelled.

The routine asks for all of `U` and all of `VT` (`Job::AllVec`), which `gesvd` writes
as `m × m` and `n × n` arrays, but resizes `U` to `m × n` and `VT` to `n × m`.
`svd_meetsContract_iff` says exactly when the call is sound: only when `A` is square,
or neither factor is asked for, and `A` has a row and a column.
-/

namespace TiledArray

namespace RankLocal

/-- `lapack::Job`, as far as `svd` uses it. -/
inductive Job where
  | noVec
  | allVec
  deriving DecidableEq, Repr

/-- A column-major `Matrix<T>`, by its shape. -/
structure Matrix where
  rows : Nat
  cols : Nat
  deriving DecidableEq, Repr

/-- `M.resize(rows, cols)`. -/
def Matrix.resize (_M : Matrix) (rows cols : Nat) : Matrix := ⟨rows, cols⟩

/-- **The arguments of `lapack::gesvd(jobu, jobvt, m, n, a, lda, s, u, ldu, vt, ldvt)`**:
each matrix argument by the matrix whose `data()` it is, `none` for `nullptr`, and
`s` by the length of `S`. -/
structure GesvdCall where
  jobu : Job
  jobvt : Job
  m : Nat
  n : Nat
  a : Matrix
  lda : Nat
  s : Nat
  u : Option Matrix
  ldu : Nat
  vt : Option Matrix
  ldvt : Nat
  deriving DecidableEq, Repr

/-- **`rank_local::svd(A, S, U, VT)`**: the call of `gesvd` it makes, with `S`, `U` and
`VT` as it has sized them. -/
def svd (A : Matrix) (U VT : Option Matrix) : GesvdCall :=
  let m := A.rows
  let n := A.cols
  let lda := A.rows
  let s := Nat.min m n
  let (jobu, u, ldu) : Job × Option Matrix × Nat := match U with
    | none => (.noVec, none, m)
    | some U => let U := U.resize m n; (.allVec, some U, U.rows)
  let (jobvt, vt, ldvt) : Job × Option Matrix × Nat := match VT with
    | none => (.noVec, none, n)
    | some VT => let VT := VT.resize n m; (.allVec, some VT, VT.rows)
  ⟨jobu, jobvt, m, n, A, lda, s, u, ldu, vt, ldvt⟩

/-- **What `gesvd` asks of its arguments** for the jobs a call selects: `lda ≥ max(1, m)`;
`s` holding `min(m, n)` values; `ldu ≥ 1` and `ldvt ≥ 1` whatever the jobs; for
`jobu = AllVec` an `m × m` array `U` with `ldu ≥ m`; and for `jobvt = AllVec` an
`n × n` array `VT` with `ldvt ≥ n`. -/
def GesvdCall.MeetsContract (c : GesvdCall) : Prop :=
  Nat.max 1 c.m ≤ c.lda ∧ c.s = Nat.min c.m c.n ∧ 1 ≤ c.ldu ∧ 1 ≤ c.ldvt ∧
    (c.jobu = .allVec → c.u = some ⟨c.m, c.m⟩ ∧ c.m ≤ c.ldu) ∧
    (c.jobvt = .allVec → c.vt = some ⟨c.n, c.n⟩ ∧ c.n ≤ c.ldvt)

instance (c : GesvdCall) : Decidable c.MeetsContract :=
  inferInstanceAs (Decidable (_ ∧ _))

/-- **A tall matrix overflows `U`.** For a `2 × 1` matrix with `U` passed, `svd` asks
`gesvd` for all of `U` – a `2 × 2` array – in a buffer it has sized `2 × 1`. -/
theorem svd_tall_overflows_u :
    (svd ⟨2, 1⟩ (some ⟨0, 0⟩) none).jobu = .allVec ∧
      (svd ⟨2, 1⟩ (some ⟨0, 0⟩) none).u = some ⟨2, 1⟩ ∧
      ¬ (svd ⟨2, 1⟩ (some ⟨0, 0⟩) none).MeetsContract :=
  ⟨rfl, rfl, by decide⟩

/-! ## The other routines

The other routines of `rank-local.cpp` pass square dimensions taken from `A.rows()`,
and every array argument's leading dimension is a row count. What each call needs of
its arrays is the same three things, stated once as `ArrayArg.Fits`: LAPACK accepts
the leading dimension, the leading dimension is the buffer's own, so that LAPACK
reads the matrix the caller means, and the buffer has the columns LAPACK touches. -/

/-- An array argument of a LAPACK call: LAPACK touches a `rows × cols` column-major
array with leading dimension `ld` at the `data()` of `buf`. -/
structure ArrayArg where
  buf : Matrix
  ld : Nat
  rows : Nat
  cols : Nat

/-- **An array argument that fits its buffer.** -/
def ArrayArg.Fits (x : ArrayArg) : Prop :=
  Nat.max 1 x.rows ≤ x.ld ∧ x.ld = x.buf.rows ∧ x.cols ≤ x.buf.cols

/-- A call of a LAPACK routine from `rank-local.cpp`, with the dimensions and
leading dimensions it passes, each array by the matrix whose `data()` it is, and each
vector by its length. Modes (`uplo`, `diag`, `jobz`, `itype`, `transpose`) decide what
LAPACK computes, not where it looks, and are left out. -/
inductive LapackCall where
  /-- `potrf(uplo, n, a, lda)`. -/
  | potrf (n : Nat) (a : Matrix) (lda : Nat)
  /-- `trtri(uplo, diag, n, a, lda)`. -/
  | trtri (n : Nat) (a : Matrix) (lda : Nat)
  /-- `posv(uplo, n, nrhs, a, lda, b, ldb)`. -/
  | posv (n nrhs : Nat) (a : Matrix) (lda : Nat) (b : Matrix) (ldb : Nat)
  /-- `trtrs(uplo, transpose, diag, n, nrhs, a, lda, b, ldb)`. -/
  | trtrs (n nrhs : Nat) (a : Matrix) (lda : Nat) (b : Matrix) (ldb : Nat)
  /-- `syev(jobz, uplo, n, a, lda, w)`. -/
  | syev (n : Nat) (a : Matrix) (lda : Nat) (w : Nat)
  /-- `sygv(itype, jobz, uplo, n, a, lda, b, ldb, w)`. -/
  | sygv (n : Nat) (a : Matrix) (lda : Nat) (b : Matrix) (ldb : Nat) (w : Nat)
  /-- `gesv(n, nrhs, a, lda, ipiv, b, ldb)`. -/
  | gesv (n nrhs : Nat) (a : Matrix) (lda : Nat) (ipiv : Nat) (b : Matrix) (ldb : Nat)
  /-- `getrf(m, n, a, lda, ipiv)`. -/
  | getrf (m n : Nat) (a : Matrix) (lda : Nat) (ipiv : Nat)
  /-- `getri(n, a, lda, ipiv)`. -/
  | getri (n : Nat) (a : Matrix) (lda : Nat) (ipiv : Nat)

/-- **What a call needs of its arguments**: each array fits its buffer, and each
vector has the entries the routine writes – `n` eigenvalues, `min(m, n)` or `n`
pivots. -/
def LapackCall.Sound : LapackCall → Prop
  | potrf n a lda => ArrayArg.Fits ⟨a, lda, n, n⟩
  | trtri n a lda => ArrayArg.Fits ⟨a, lda, n, n⟩
  | posv n nrhs a lda b ldb => ArrayArg.Fits ⟨a, lda, n, n⟩ ∧ ArrayArg.Fits ⟨b, ldb, n, nrhs⟩
  | trtrs n nrhs a lda b ldb => ArrayArg.Fits ⟨a, lda, n, n⟩ ∧ ArrayArg.Fits ⟨b, ldb, n, nrhs⟩
  | syev n a lda w => ArrayArg.Fits ⟨a, lda, n, n⟩ ∧ n ≤ w
  | sygv n a lda b ldb w =>
    ArrayArg.Fits ⟨a, lda, n, n⟩ ∧ ArrayArg.Fits ⟨b, ldb, n, n⟩ ∧ n ≤ w
  | gesv n nrhs a lda ipiv b ldb =>
    ArrayArg.Fits ⟨a, lda, n, n⟩ ∧ n ≤ ipiv ∧ ArrayArg.Fits ⟨b, ldb, n, nrhs⟩
  | getrf m n a lda ipiv => ArrayArg.Fits ⟨a, lda, m, n⟩ ∧ Nat.min m n ≤ ipiv
  | getri n a lda ipiv => ArrayArg.Fits ⟨a, lda, n, n⟩ ∧ n ≤ ipiv

/-- `rank_local::cholesky(A)`. -/
def cholesky (A : Matrix) : LapackCall := .potrf A.rows A A.rows

/-- `rank_local::cholesky_linv(A)`. -/
def choleskyLinv (A : Matrix) : LapackCall := .trtri A.rows A A.rows

/-- `rank_local::cholesky_solve(A, X)`: the leading dimension of `X` passed is
`A.rows()`. -/
def choleskySolve (A X : Matrix) : LapackCall := .posv A.rows X.cols A A.rows X A.rows

/-- `rank_local::cholesky_lsolve(transpose, A, X)`: as `cholesky_solve`, `ldb = A.rows()`. -/
def choleskyLsolve (A X : Matrix) : LapackCall := .trtrs A.rows X.cols A A.rows X A.rows

/-- `rank_local::heig(A, W)`, after `W.resize(n)`. -/
def heig (A : Matrix) : LapackCall := .syev A.rows A A.rows A.rows

/-- `rank_local::heig(A, B, W)`, the generalized problem, after `W.resize(n)`. -/
def heigGen (A B : Matrix) : LapackCall := .sygv A.rows A A.rows B B.rows A.rows

/-- `rank_local::lu_solve(A, B)`, with `ipiv` of `n` entries and `ldb = B.rows()`. -/
def luSolve (A B : Matrix) : LapackCall := .gesv A.rows B.cols A A.rows A.rows B B.rows

/-- `rank_local::lu_inv(A)`: `getrf` then `getri`, sharing `ipiv` of `n` entries. -/
def luInv (A : Matrix) : List LapackCall :=
  [.getrf A.rows A.rows A A.rows A.rows, .getri A.rows A A.rows A.rows]

/-- An `n × n` array over the matrix `A` with leading dimension `A.rows()` fits exactly
when `A` has a row and at least as many columns. -/
@[simp] theorem fits_square_rows (A : Matrix) :
    ArrayArg.Fits ⟨A, A.rows, A.rows, A.rows⟩ ↔ 1 ≤ A.rows ∧ A.rows ≤ A.cols := by
  simp [ArrayArg.Fits, Nat.max_le]

/-- **The factorizations of one matrix are sound on the matrices they are for.**
`cholesky`, `cholesky_linv`, `heig` and both calls of `lu_inv` meet their routines'
needs exactly when `A` has a row and no fewer columns than rows. -/
theorem factorizations_sound_iff (A : Matrix) :
    ((cholesky A).Sound ↔ 1 ≤ A.rows ∧ A.rows ≤ A.cols) ∧
    ((choleskyLinv A).Sound ↔ 1 ≤ A.rows ∧ A.rows ≤ A.cols) ∧
    ((heig A).Sound ↔ 1 ≤ A.rows ∧ A.rows ≤ A.cols) ∧
    ((∀ c ∈ luInv A, c.Sound) ↔ 1 ≤ A.rows ∧ A.rows ≤ A.cols) := by
  simp [cholesky, choleskyLinv, heig, luInv, LapackCall.Sound]

/-- **What the solvers need of the right-hand side.** Beyond a factorizable `A`, the
Cholesky solvers need `X` to have exactly `A.rows()` rows, since they pass `A.rows()`
as its leading dimension; `lu_solve`, which passes `B.rows()`, needs only as many;
and the generalized `heig` needs `B` to hold an `n × n` array. -/
theorem solvers_sound_iff (A B : Matrix) :
    ((choleskySolve A B).Sound ↔ 1 ≤ A.rows ∧ A.rows ≤ A.cols ∧ A.rows = B.rows) ∧
    ((choleskyLsolve A B).Sound ↔ 1 ≤ A.rows ∧ A.rows ≤ A.cols ∧ A.rows = B.rows) ∧
    ((luSolve A B).Sound ↔ 1 ≤ A.rows ∧ A.rows ≤ A.cols ∧ A.rows ≤ B.rows) ∧
    ((heigGen A B).Sound ↔
      1 ≤ A.rows ∧ A.rows ≤ A.cols ∧ A.rows ≤ B.rows ∧ A.rows ≤ B.cols) := by
  refine ⟨?_, ?_, ?_, ?_⟩ <;>
    simp [choleskySolve, choleskyLsolve, luSolve, heigGen, LapackCall.Sound, ArrayArg.Fits,
      Nat.max_le] <;> omega

end RankLocal

end TiledArray
