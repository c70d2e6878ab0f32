import Mathlib.Logic.Function.Basic

/-!
# The tile addition functors

`tile_interface/add.h` lets an expression evaluator add tiles of two representations
into a tile of a third without any of them knowing of the others. Its free functions
`add` and `add_to` forward to the tile's own members `left.add(right)` and
`result.add_to(arg)`, with an optional scaling factor and an optional permutation of
the result, and four functor templates – `Add`, `ScalAdd`, `AddTo`, `ScalAddTo` –
choose between two specializations each: a *direct* one, when the native result is
already `Result`, and a *cast* one, which converts it with `Cast<Result, N>`.

The native members are parameters here, each with its own result type, since they
belong to the tile types and not to this header; so is `Permutation`, which the
dispatch only passes on. A functor that changes its left operand in place returns the
new left operand with its result.

`Add`, `ScalAdd` and `AddTo` call the native member with all their arguments. The
two specializations of `ScalAddTo` do not: the primary template has no factor
argument at all, and the cast specialization takes one and calls the unscaled
`add_to(left, right)`. `ScalAddTo.cast_eq_addTo` says what follows – the functor is
`AddTo`, whatever the factor – and `scalAddTo_drops_factor` runs it on three numbers.
-/

namespace TiledArray

namespace TileInterface

variable {Result Left Right Scalar Perm N NP : Type}

/-! ## Out-of-place addition -/

/-- **`tile_interface::Add<Result, Left, Right>`**: its two call operators. -/
structure Add (Result Left Right Perm : Type) where
  /-- `operator()(left, right)`. -/
  call : Left → Right → Result
  /-- `operator()(left, right, perm)`. -/
  callPerm : Left → Right → Perm → Result

/-- The primary template, for native results that are `Result`:
`add(left, right)` and `add(left, right, perm)` as they are. -/
def Add.direct (add : Left → Right → Result) (addPerm : Left → Right → Perm → Result) :
    Add Result Left Right Perm :=
  ⟨add, addPerm⟩

/-- The specialization for native results `N` and `NP` not both `Result`: each call
casts the native result. -/
def Add.cast (add : Left → Right → N) (addPerm : Left → Right → Perm → NP)
    (castN : N → Result) (castNP : NP → Result) : Add Result Left Right Perm :=
  ⟨fun left right => castN (add left right),
    fun left right perm => castNP (addPerm left right perm)⟩

/-- **`tile_interface::ScalAdd<Result, Left, Right, Scalar>`**: its two call
operators, with the scaling factor. -/
structure ScalAdd (Result Left Right Scalar Perm : Type) where
  /-- `operator()(left, right, factor)`. -/
  call : Left → Right → Scalar → Result
  /-- `operator()(left, right, factor, perm)`. -/
  callPerm : Left → Right → Scalar → Perm → Result

/-- The primary template: `add(left, right, factor)` and
`add(left, right, factor, perm)` as they are. -/
def ScalAdd.direct (add : Left → Right → Scalar → Result)
    (addPerm : Left → Right → Scalar → Perm → Result) : ScalAdd Result Left Right Scalar Perm :=
  ⟨add, addPerm⟩

/-- The cast specialization of `ScalAdd`. -/
def ScalAdd.cast (add : Left → Right → Scalar → N)
    (addPerm : Left → Right → Scalar → Perm → NP) (castN : N → Result)
    (castNP : NP → Result) : ScalAdd Result Left Right Scalar Perm :=
  ⟨fun left right factor => castN (add left right factor),
    fun left right factor perm => castNP (addPerm left right factor perm)⟩

/-! ## In-place addition -/

/-- **`tile_interface::AddTo<Result, Left, Right>`**: `operator()(left, right)`, which
changes `left`; it gives the new `left` and the call's result. -/
structure AddTo (Result Left Right : Type) where
  /-- `operator()(left, right)`. -/
  call : Left → Right → Left × Result

/-- The primary template: `return add_to(left, right)`, a reference to `left` after
the native `left.add_to(right)`. -/
def AddTo.direct (addTo : Left → Right → Left) : AddTo Left Left Right :=
  ⟨fun left right => (addTo left right, addTo left right)⟩

/-- The cast specialization: `add_to(left, right); return cast(left);`. -/
def AddTo.cast (addTo : Left → Right → Left) (castL : Left → Result) :
    AddTo Result Left Right :=
  ⟨fun left right => (addTo left right, castL (addTo left right))⟩

/-- **`tile_interface::ScalAddTo<Result, Left, Right, Scalar>`, primary template.**
Its only call operator is `operator()(left, right)`, and it returns
`add_to(left, right)`: there is no factor to scale by. -/
def ScalAddTo.direct (addTo : Left → Right → Left) : Left → Right → Left × Left :=
  fun left right => (addTo left right, addTo left right)

/-- **`ScalAddTo`'s cast specialization.** `operator()(left, right, factor)` casts with
`Cast<Result, result_of_add_to_t<Left, Right, Scalar>>`, so the scaled member
`addToScal` must exist, but it calls `add_to(left, right)`, and `factor` is unused. -/
def ScalAddTo.cast (addTo : Left → Right → Left) (_addToScal : Left → Right → Scalar → Left)
    (castL : Left → Result) : Left → Right → Scalar → Left × Result :=
  fun left right _factor => (addTo left right, castL (addTo left right))

/-- **`ScalAddTo` is `AddTo`.** Both specializations leave `left` as the unscaled
`add_to(left, right)` leaves it and return what `AddTo` returns, for every factor:
the scaled member is never called. -/
theorem ScalAddTo.cast_eq_addTo (addTo : Left → Right → Left)
    (addToScal : Left → Right → Scalar → Left) (castL : Left → Result) (left : Left)
    (right : Right) (factor : Scalar) :
    ScalAddTo.cast addTo addToScal castL left right factor
        = (AddTo.cast addTo castL).call left right ∧
      ScalAddTo.direct addTo left right = (AddTo.direct addTo).call left right :=
  ⟨rfl, rfl⟩

/-- **`ScalAddTo` drops its factor.** With tiles of naturals whose members add and
scale as `add.h` documents them – `add_to(result, arg)` is `result + arg` and
`add_to(result, arg, factor)` is `(result + arg) * factor` – and `Result` the
integers, `ScalAddTo()(1, 2, 3)` leaves `left` at `3` and returns `3`, where the
scaled member gives `9`. -/
theorem scalAddTo_drops_factor :
    ScalAddTo.cast (Nat.add) (fun r a f => (r + a) * f) (fun n : Nat => (n : Int)) 1 2 3
      = (3, 3) ∧ (fun r a f : Nat => (r + a) * f) 1 2 3 = 9 :=
  ⟨rfl, rfl⟩

end TileInterface

end TiledArray
