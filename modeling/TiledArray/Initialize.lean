import Mathlib.Data.List.Basic
import Mathlib.Tactic.SplitIfs

/-!
# Initialization and finalization

`initialize.h` keeps the lifecycle of TiledArray in three static flags – whether
TiledArray initialized MADWorld itself, whether TiledArray is initialized, and
whether it was ever finalized – and drives the MADNESS runtime from them:
`TiledArray::initialize` starts MADWorld unless it is running already, and
`TiledArray::finalize` stops it when TiledArray started it.

The flags live across calls, so the model is a state, `Lifecycle`, threaded through
`EStateM`: a `throw` keeps the state as it stands at the throw, as a C++ exception
keeps the statics, and the caller carries on from there. Beside the flags the state
holds what `initialize.h` sees of MADNESS – whether it is initialized and the
communicator of its default World – TiledArray's default World, and the list of
lifecycle calls made into MADNESS, which is what the properties below are about.

MADNESS is an external runtime, and `get_default_world`, `set_default_world` and
`reset_default_world` are declared outside `initialize.h`. They are modelled by what
their names and the comments of `initialize.h` say, the lifecycle calls of MADNESS
returning normally: `madness::initialize(argc, argv, comm, quiet)` starts MADWorld
with a default World over `comm` and returns it, `madness::finalize()` stops it, and
`is_default(comm)` compares `comm` with the default World's communicator.
`set_default_world` installs a World and `reset_default_world` removes it.
`get_default_world` gives the World TiledArray installed, or else MADNESS's default
World, and when there is neither, `madness::World::get_default()` fails its assertion
and throws. So the fence `get_default_world().gop.fence()` that opens `finalize`
throws once no World runs – after a first `finalize` has stopped MADWorld, say – and
otherwise returns and changes nothing this model keeps. Neither does
`print_meminfo_disable()`.

One assumption is the model's own. When MADWorld was started before TiledArray,
`initialize` dereferences `madness::World::find_instance(comm)`, a pointer that is
null when no World runs over `comm`. Which Worlds a program created is not part of
the lifecycle, and `findInstance` assumes the one over `comm` exists: what is said
below of a process that started MADWorld itself is said of a program that created
the Worlds it passes to `initialize`.
-/

namespace TiledArray

/-- An MPI intracommunicator, known by its identity. -/
structure Intracomm where
  id : Nat
  deriving DecidableEq, Repr

/-- `SafeMPI::COMM_WORLD`. -/
def commWorld : Intracomm := ⟨0⟩

/-- A `madness::World`, known by the communicator it runs over. -/
structure World where
  comm : Intracomm
  deriving DecidableEq, Repr

/-- A call into the lifecycle of MADNESS. -/
inductive MadnessCall where
  /-- `madness::initialize` over `comm`. -/
  | initializeWith (comm : Intracomm)
  /-- `madness::finalize`. -/
  | finalize
  deriving DecidableEq, Repr

/-- An exception thrown out of a lifecycle call, known by its message: a
`TiledArray::Exception` of `initialize`, or MADNESS's own when an assertion of it
fails. -/
structure Exception where
  msg : String
  deriving DecidableEq, Repr

/-- **The lifecycle state** `initialize.h` reads and writes. -/
structure Lifecycle where
  /-- `detail::initialized_madworld_accessor()`: TiledArray initialized MADWorld. -/
  initializedMadworld : Bool
  /-- `detail::initialized_accessor()`, read by `initialized()`. -/
  initialized : Bool
  /-- `detail::finalized_accessor()`, read by `finalized()`. -/
  finalized : Bool
  /-- `madness::initialized()`. -/
  madnessInitialized : Bool
  /-- The communicator of MADWorld's default World. -/
  madnessDefaultComm : Intracomm
  /-- TiledArray's default World. -/
  defaultWorld : Option World
  /-- The lifecycle calls made into MADNESS so far, oldest first. -/
  madnessCalls : List MadnessCall
  deriving DecidableEq, Repr

namespace Lifecycle

/-- A process in which nothing has run yet: MADWorld is not initialized. -/
def start : Lifecycle :=
  ⟨false, false, false, false, commWorld, none, []⟩

/-- A process whose own code started MADWorld over `comm` before calling TiledArray. -/
def startedOver (comm : Intracomm) : Lifecycle :=
  ⟨false, false, false, true, comm, none, []⟩

end Lifecycle

/-- The lifecycle functions: stateful, and throwing `TiledArray::Exception`. -/
abbrev LifecycleM := EStateM Exception Lifecycle

/-- `madness::initialize(argc, argv, comm, quiet)`. -/
def madnessInitialize (comm : Intracomm) : LifecycleM World :=
  modifyGet fun s => (⟨comm⟩, { s with
    madnessInitialized := true, madnessDefaultComm := comm,
    madnessCalls := s.madnessCalls ++ [.initializeWith comm] })

/-- `madness::finalize()`. -/
def madnessFinalize : LifecycleM Unit :=
  modify fun s => { s with
    madnessInitialized := false, madnessCalls := s.madnessCalls ++ [.finalize] }

/-- The message of `initialize`'s first check. -/
def reinitializeMsg : String :=
  "TiledArray finalized MADWorld already, cannot re-initialize MADWorld again"

/-- The message of the check on a MADWorld started before TiledArray. -/
def foreignWorldMsg : String :=
  "MADWorld initialized before TiledArray::initialize(argc, argv, comm), but not initialized with comm"

/-- The message for a second `initialize`. -/
def alreadyInitializedMsg : String := "TiledArray already initialized"

/-- The exception `madness::World::get_default()` throws, from
`MADNESS_ASSERT(default_world)`, when MADNESS holds no default World. Its text is
MADNESS's; only that it is thrown matters here. -/
def noDefaultWorldMsg : String := "MADNESS ASSERTION FAILED"

/-- `*madness::World::find_instance(comm)`: the World over `comm`. `find_instance`
returns a null pointer when no World runs over `comm`, and the dereference is then
undefined; the model assumes the program created that World. -/
def findInstance (comm : Intracomm) : LifecycleM World := pure ⟨comm⟩

/-- `TiledArray::get_default_world()`: the World `set_default_world` installed, or else
MADNESS's default World, `madness::World::get_default()`, which throws when MADWorld
is not running. -/
def getDefaultWorld : LifecycleM World := do
  match (← get).defaultWorld with
  | some w => return w
  | none =>
    if (← get).madnessInitialized then return ⟨(← get).madnessDefaultComm⟩
    else throw ⟨noDefaultWorldMsg⟩

/-- **`TiledArray::initialize(argc, argv, comm, quiet)`.** The check on a MADWorld
started before TiledArray throws when `madness::World::is_default(comm)` holds, as
the source has it. -/
def initializeTiledArray (comm : Intracomm) : LifecycleM World := do
  let s ← get
  if s.initializedMadworld && s.finalized then
    throw ⟨reinitializeMsg⟩
  if !(← get).initialized then
    if !(← get).madnessInitialized then
      modify fun s => { s with initializedMadworld := true }
    else if (← get).madnessDefaultComm = comm then
      throw ⟨foreignWorldMsg⟩
    let defaultWorld ←
      if (← get).initializedMadworld then madnessInitialize comm else findInstance comm
    modify fun s => { s with defaultWorld := some defaultWorld }
    modify fun s => { s with initialized := true }
    return defaultWorld
  else
    throw ⟨alreadyInitializedMsg⟩

/-- **`TiledArray::finalize()`.** It opens with `get_default_world().gop.fence()`, whose
fence returns and changes nothing here. -/
def finalizeTiledArray : LifecycleM Unit := do
  let _ ← getDefaultWorld
  if (← get).initializedMadworld then
    madnessFinalize
  modify fun s => { s with defaultWorld := none }
  modify fun s => { s with initialized := false }
  modify fun s => { s with finalized := true }

/-- A call a program makes into TiledArray's lifecycle. -/
inductive Call where
  /-- `TiledArray::initialize(argc, argv, comm)`. -/
  | initializeWith (comm : Intracomm)
  /-- `TiledArray::finalize()`. -/
  | finalize
  deriving DecidableEq, Repr

/-- The state after a call, whether it returned or threw. -/
def Call.after (s : Lifecycle) : Call → Lifecycle
  | .initializeWith comm =>
    match (initializeTiledArray comm).run s with
    | .ok _ s' => s'
    | .error _ s' => s'
  | .finalize =>
    match finalizeTiledArray.run s with
    | .ok _ s' => s'
    | .error _ s' => s'

/-- The state after a sequence of calls. -/
def runCalls (s : Lifecycle) : List Call → Lifecycle
  | [] => s
  | c :: cs => runCalls (c.after s) cs

/-- **What every call keeps holds after every run.** -/
theorem runCalls_invariant (P : Lifecycle → Prop)
    (hP : ∀ (s : Lifecycle) (c : Call), P s → P (c.after s)) :
    ∀ cs s, P s → P (runCalls s cs)
  | [], _, h => h
  | c :: cs, s, h => runCalls_invariant P hP cs _ (hP s c h)

/-! ## Running a lifecycle function

One equation for each step a lifecycle function takes, so that each function's run is
read off its source in order, one check at a time. -/

section Run

variable {ε σ α β : Type}

theorem run_bind (x : EStateM ε σ α) (f : α → EStateM ε σ β) (s : σ) :
    (x >>= f).run s = match x.run s with
      | .ok a s' => (f a).run s'
      | .error e s' => .error e s' := rfl

theorem run_get (s : σ) : (get : EStateM ε σ σ).run s = .ok s s := rfl

theorem run_throw (e : ε) (s : σ) : (throw e : EStateM ε σ α).run s = .error e s := rfl

theorem run_pure (a : α) (s : σ) : (pure a : EStateM ε σ α).run s = .ok a s := rfl

theorem run_modify (f : σ → σ) (s : σ) :
    (modify f : EStateM ε σ PUnit).run s = .ok ⟨⟩ (f s) := rfl

theorem run_modifyGet (f : σ → α × σ) (s : σ) :
    (modifyGet f : EStateM ε σ α).run s = .ok (f s).1 (f s).2 := rfl

theorem run_ite (c : Prop) [Decidable c] (x y : EStateM ε σ α) (s : σ) :
    (if c then x else y).run s = if c then x.run s else y.run s := by
  split <;> rfl

end Run

/-! ## What one call does -/

/-- **What `initialize` does, from any state**, check by check in the order of the
source: each check that fails throws with the state as it was; past them, MADWorld
is started unless it runs already, and the World over `comm` is installed and
returned. From a state where TiledArray started MADWorld and is not initialized,
`madness::initialize` would be called again; the first check rules that state out
once TiledArray has been finalized. -/
theorem initializeTiledArray_run (s : Lifecycle) (comm : Intracomm) :
    (initializeTiledArray comm).run s =
      if s.initializedMadworld && s.finalized then .error ⟨reinitializeMsg⟩ s
      else if s.initialized then .error ⟨alreadyInitializedMsg⟩ s
      else if !s.madnessInitialized then .ok ⟨comm⟩ { s with
        initializedMadworld := true, madnessInitialized := true, madnessDefaultComm := comm,
        madnessCalls := s.madnessCalls ++ [.initializeWith comm], defaultWorld := some ⟨comm⟩,
        initialized := true }
      else if s.madnessDefaultComm = comm then .error ⟨foreignWorldMsg⟩ s
      else if s.initializedMadworld then .ok ⟨comm⟩ { s with
        madnessInitialized := true, madnessDefaultComm := comm,
        madnessCalls := s.madnessCalls ++ [.initializeWith comm], defaultWorld := some ⟨comm⟩,
        initialized := true }
      else .ok ⟨comm⟩ { s with defaultWorld := some ⟨comm⟩, initialized := true } := by
  simp only [initializeTiledArray, run_bind, run_get, run_ite, run_throw, run_pure, run_modify,
    run_modifyGet, madnessInitialize, findInstance, if_true]
  cases s.initialized <;> rfl

theorem getDefaultWorld_run (s : Lifecycle) :
    getDefaultWorld.run s = match s.defaultWorld with
      | some w => .ok w s
      | none => if s.madnessInitialized then .ok ⟨s.madnessDefaultComm⟩ s
        else .error ⟨noDefaultWorldMsg⟩ s := by
  cases h : s.defaultWorld <;>
    simp only [getDefaultWorld, run_bind, run_get, h, run_ite, run_throw, run_pure]

/-- **What `finalize` does**: its fence throws, with the state as it was, when neither
TiledArray nor MADNESS holds a default World. Otherwise it stops MADWorld when
TiledArray started it, resets the default World, and marks TiledArray finalized. -/
theorem finalizeTiledArray_run (s : Lifecycle) :
    finalizeTiledArray.run s =
      if s.defaultWorld.isNone && !s.madnessInitialized then .error ⟨noDefaultWorldMsg⟩ s
      else if s.initializedMadworld then .ok () { s with
        madnessInitialized := false, madnessCalls := s.madnessCalls ++ [.finalize],
        defaultWorld := none, initialized := false, finalized := true }
      else .ok () { s with defaultWorld := none, initialized := false, finalized := true } := by
  obtain ⟨_, _, _, mi, _, dw, _⟩ := s
  simp only [finalizeTiledArray, run_bind, getDefaultWorld_run, run_get, run_ite, run_modify,
    run_pure, madnessFinalize]
  cases dw <;> cases mi <;> rfl

theorem Call.after_initializeWith (s : Lifecycle) (comm : Intracomm) :
    (Call.initializeWith comm).after s =
      if s.initializedMadworld && s.finalized then s
      else if s.initialized then s
      else if !s.madnessInitialized then { s with
        initializedMadworld := true, madnessInitialized := true, madnessDefaultComm := comm,
        madnessCalls := s.madnessCalls ++ [.initializeWith comm], defaultWorld := some ⟨comm⟩,
        initialized := true }
      else if s.madnessDefaultComm = comm then s
      else if s.initializedMadworld then { s with
        madnessInitialized := true, madnessDefaultComm := comm,
        madnessCalls := s.madnessCalls ++ [.initializeWith comm], defaultWorld := some ⟨comm⟩,
        initialized := true }
      else { s with defaultWorld := some ⟨comm⟩, initialized := true } := by
  simp only [Call.after, initializeTiledArray_run]
  split_ifs <;> rfl

theorem Call.after_finalize (s : Lifecycle) :
    Call.finalize.after s =
      if s.defaultWorld.isNone && !s.madnessInitialized then s
      else if s.initializedMadworld then { s with
        madnessInitialized := false, madnessCalls := s.madnessCalls ++ [.finalize],
        defaultWorld := none, initialized := false, finalized := true }
      else { s with defaultWorld := none, initialized := false, finalized := true } := by
  simp only [Call.after, finalizeTiledArray_run]
  split_ifs <;> rfl

/-- **The guard on a MADWorld started before TiledArray is inverted.** With MADWorld
running over `COMM_WORLD` and TiledArray not initialized, `initialize` over
`COMM_WORLD` throws that MADWorld was "not initialized with comm", while over another
communicator it returns. -/
theorem initializeTiledArray_rejects_default_comm :
    (initializeTiledArray commWorld).run (Lifecycle.startedOver commWorld)
      = .error ⟨foreignWorldMsg⟩ (Lifecycle.startedOver commWorld) ∧
    (initializeTiledArray ⟨1⟩).run (Lifecycle.startedOver commWorld)
      = .ok ⟨⟨1⟩⟩ ⟨false, true, false, true, commWorld, some ⟨⟨1⟩⟩, []⟩ :=
  ⟨rfl, rfl⟩

/-! ## Along a run from a fresh process

Started where MADWorld is not running, and driven only through TiledArray's own
calls, the state keeps `Lifecycle.Tracked`: MADWorld runs exactly while TiledArray is
initialized, TiledArray's default World is MADWorld's default one, and what MADNESS
has been asked is nothing, one `madness::initialize`, or that and one
`madness::finalize`. A `finalize` from a state where TiledArray is not initialized
finds no World for its fence and throws. -/

namespace Lifecycle

/-- **The invariant of a run from a fresh process.** -/
structure Tracked (s : Lifecycle) : Prop where
  madnessInitialized_eq : s.madnessInitialized = (s.initializedMadworld && s.initialized)
  initializedMadworld_of_initialized : s.initialized = true → s.initializedMadworld = true
  finalized_of_stopped :
    s.initializedMadworld = true → s.initialized = false → s.finalized = true
  defaultWorld_eq : s.defaultWorld = if s.initialized then some ⟨s.madnessDefaultComm⟩ else none
  calls : s.initializedMadworld = false ∧ s.madnessCalls = [] ∨
    s.initializedMadworld = true ∧
      ∃ c, s.madnessCalls = .initializeWith c :: if s.initialized then [] else [.finalize]

theorem start_tracked : start.Tracked :=
  ⟨rfl, fun h => h, fun h => absurd h Bool.false_ne_true, rfl, .inl ⟨rfl, rfl⟩⟩

/-- In a tracked state whose TiledArray is not initialized, no World runs at all. -/
theorem Tracked.no_world {s : Lifecycle} (hs : s.Tracked) (hi : s.initialized = false) :
    s.defaultWorld = none ∧ s.madnessInitialized = false := by
  rw [hs.defaultWorld_eq, hs.madnessInitialized_eq, hi]
  simp

end Lifecycle

/-- `initialize` keeps the invariant: from a tracked state it either throws, or
starts MADWorld from scratch. -/
theorem Lifecycle.Tracked.after_initializeWith {s : Lifecycle} (hs : s.Tracked)
    (comm : Intracomm) : (Call.initializeWith comm).after s |>.Tracked := by
  rw [Call.after_initializeWith]
  split_ifs with h₁ h₂ h₃
  · exact hs
  · exact hs
  · have hm : s.initializedMadworld = false := by
      cases hm : s.initializedMadworld
      · rfl
      · simp [hm, hs.finalized_of_stopped hm (by simpa using h₂)] at h₁
    rcases hs.calls with ⟨-, hc⟩ | ⟨hm', -⟩
    · exact ⟨by simp, by simp, by simp, by simp, .inr ⟨rfl, comm, by simp [hc]⟩⟩
    · simp [hm] at hm'
  all_goals
    have hmi := (hs.no_world (by simpa using h₂)).2
    simp [hmi] at h₃

/-- `finalize` keeps the invariant: from a tracked state it throws at its fence, or
stops the MADWorld TiledArray started, adding one `madness::finalize`. -/
theorem Lifecycle.Tracked.after_finalize {s : Lifecycle} (hs : s.Tracked) :
    Call.finalize.after s |>.Tracked := by
  rw [Call.after_finalize]
  split_ifs with h₁ h₂
  · exact hs
  all_goals
    have hi : s.initialized = true := by
      cases hi : s.initialized
      · simp [hs.no_world hi] at h₁
      · rfl
  · rcases hs.calls with ⟨hm, -⟩ | ⟨-, c, hc⟩
    · simp [hm] at h₂
    · exact ⟨by simp, by simp, fun _ _ => rfl, rfl, .inr ⟨h₂, c, by simp [hc, hi]⟩⟩
  · exact absurd (hs.initializedMadworld_of_initialized hi) h₂

/-- Every call keeps the invariant. -/
theorem Lifecycle.Tracked.after {s : Lifecycle} (hs : s.Tracked) :
    ∀ c : Call, (c.after s).Tracked
  | .initializeWith comm => hs.after_initializeWith comm
  | .finalize => hs.after_finalize

/-- Once TiledArray has stopped a MADWorld it started, the two flags saying so stay set
whatever is called next. -/
theorem runCalls_keeps_finalized_madworld {s : Lifecycle} (hm : s.initializedMadworld = true)
    (hf : s.finalized = true) (cs : List Call) :
    (runCalls s cs).initializedMadworld = true ∧ (runCalls s cs).finalized = true :=
  runCalls_invariant (fun s => s.initializedMadworld = true ∧ s.finalized = true)
    (fun s c ⟨hm, hf⟩ => by
      cases c with
      | initializeWith comm => simp [Call.after_initializeWith, hm, hf]
      | finalize =>
        rw [Call.after_finalize]
        split_ifs <;> simp [hm, hf])
    cs s ⟨hm, hf⟩

/-- **A MADWorld TiledArray started and stopped stays stopped.** From a state in
which TiledArray has finalized a MADWorld it initialized, after any further calls,
`initialize` throws and leaves the state as it was. -/
theorem finalized_madworld_terminal (s : Lifecycle) (hm : s.initializedMadworld = true)
    (hf : s.finalized = true) (cs : List Call) (comm : Intracomm) :
    (initializeTiledArray comm).run (runCalls s cs) = .error ⟨reinitializeMsg⟩ (runCalls s cs) := by
  have hkeep := runCalls_keeps_finalized_madworld hm hf cs
  simp [initializeTiledArray_run, hkeep.1, hkeep.2]

/-- After `initialize` and `finalize` from a fresh process, and then another
`finalize`, which throws at its fence, `initialize` still throws. -/
theorem finalized_madworld_terminal_after_finalize :
    (runCalls Lifecycle.start [.initializeWith commWorld, .finalize]).initializedMadworld = true ∧
    (runCalls Lifecycle.start [.initializeWith commWorld, .finalize]).finalized = true ∧
    (initializeTiledArray commWorld).run
        (runCalls (runCalls Lifecycle.start [.initializeWith commWorld, .finalize]) [.finalize])
      = .error ⟨reinitializeMsg⟩
        (runCalls (runCalls Lifecycle.start [.initializeWith commWorld, .finalize]) [.finalize]) :=
  ⟨rfl, rfl, finalized_madworld_terminal _ rfl rfl [.finalize] commWorld⟩

/-! ## Along a run in a process that started MADWorld itself -/

/-- The invariant of a run whose MADWorld the program started before TiledArray:
TiledArray never takes it over, it keeps running, and MADNESS is never called. -/
def Lifecycle.UserStarted (s : Lifecycle) : Prop :=
  s.initializedMadworld = false ∧ s.madnessInitialized = true ∧ s.madnessCalls = []

theorem Lifecycle.UserStarted.after {s : Lifecycle} (hs : s.UserStarted) (c : Call) :
    (c.after s).UserStarted := by
  obtain ⟨hm, hi, hc⟩ := hs
  cases c with
  | initializeWith comm =>
    rw [Call.after_initializeWith]
    split_ifs <;> simp_all [Lifecycle.UserStarted]
  | finalize => simp [Call.after_finalize, Lifecycle.UserStarted, hm, hi, hc]

/-- **TiledArray leaves a MADWorld it did not start alone.** In a process that
started MADWorld over some communicator before calling TiledArray, no sequence of
`initialize` and `finalize` calls makes TiledArray call `madness::initialize` or
`madness::finalize`, as the comment of `finalize` promises. -/
theorem madness_untouched_when_user_started (comm : Intracomm) (cs : List Call) :
    (runCalls (Lifecycle.startedOver comm) cs).madnessCalls = [] := by
  exact (runCalls_invariant Lifecycle.UserStarted (fun _ c hs => hs.after c) cs _
    ⟨rfl, rfl, rfl⟩).2.2

/-! ## What a program gets back from `initialize`

`initialize` returns the default World by reference; a call that throws returns
nothing. Over a run, what the program gets back is the number of `initialize` calls
that returned, and the World TiledArray then holds as its default. -/

/-- Whether a call of `initialize` returned, rather than threw. -/
def Call.initializeReturned (s : Lifecycle) : Call → Bool
  | .initializeWith comm =>
    match (initializeTiledArray comm).run s with
    | .ok _ _ => true
    | .error _ _ => false
  | .finalize => false

/-- The number of calls of `initialize` in a run that returned. -/
def initializeReturns : Lifecycle → List Call → Nat
  | _, [] => 0
  | s, c :: cs => (if c.initializeReturned s then 1 else 0) + initializeReturns (c.after s) cs

/-- From a tracked state, `initialize` returns exactly when TiledArray has not started
MADWorld before, and afterwards it has. -/
theorem Lifecycle.Tracked.initialize_outcome {s : Lifecycle} (hs : s.Tracked)
    (comm : Intracomm) :
    (Call.initializeWith comm).initializeReturned s = !s.initializedMadworld ∧
      ((Call.initializeWith comm).after s).initializedMadworld = true := by
  simp only [Call.initializeReturned, Call.after_initializeWith, initializeTiledArray_run]
  cases hm : s.initializedMadworld
  · have hi : s.initialized = false := by
      cases h : s.initialized
      · rfl
      · simpa [hm] using hs.initializedMadworld_of_initialized h
    simp [hi, (hs.no_world hi).2]
  · cases hi : s.initialized
    · simp [hs.finalized_of_stopped hm hi, hm]
    · by_cases hf : s.finalized <;> simp [hf, hm, hi]

/-- `TiledArray::finalize` leaves the flag saying TiledArray started MADWorld alone. -/
theorem Call.after_finalize_initializedMadworld (s : Lifecycle) :
    (Call.finalize.after s).initializedMadworld = s.initializedMadworld := by
  rw [Call.after_finalize]
  split_ifs <;> rfl

/-- Along a tracked run, `initialize` returns at most once more if TiledArray has not
started MADWorld yet, and never once it has. -/
theorem initializeReturns_le {s : Lifecycle} (hs : s.Tracked) :
    ∀ cs, initializeReturns s cs ≤ if s.initializedMadworld then 0 else 1
  | [] => Nat.zero_le _
  | .finalize :: cs => by
    have h := initializeReturns_le (hs.after .finalize) cs
    rw [Call.after_finalize_initializedMadworld] at h
    simpa [initializeReturns, Call.initializeReturned] using h
  | .initializeWith comm :: cs => by
    obtain ⟨hret, hafter⟩ := hs.initialize_outcome comm
    have h := initializeReturns_le (hs.after (.initializeWith comm)) cs
    rw [hafter, if_pos rfl] at h
    rw [initializeReturns, hret]
    cases s.initializedMadworld <;> simp <;> omega

/-- **`initialize` returns at most once.** In every sequence of `TiledArray::initialize`
and `TiledArray::finalize` calls from a process where MADWorld is not running, at
most one `initialize` returns a World; every other one throws. This is the first half
of the `@warning` of `initialize.h`, that TiledArray can be initialized only once when
it initializes MADWorld. -/
theorem initialize_returns_at_most_once (cs : List Call) :
    initializeReturns Lifecycle.start cs ≤ 1 :=
  initializeReturns_le Lifecycle.start_tracked cs

/-- **A program that started MADWorld never gets MADWorld's default World.** In a
process whose own code started MADWorld over `comm`, after any sequence of calls,
whenever TiledArray is initialized its default World runs over a communicator other
than `comm`: the check of `initialize` lets through only communicators that are not
MADWorld's default, and TiledArray installs `find_instance` of that one. -/
theorem user_started_default_world_not_madworld (comm : Intracomm) (cs : List Call)
    (h : (runCalls (Lifecycle.startedOver comm) cs).initialized = true) :
    ∃ w, (runCalls (Lifecycle.startedOver comm) cs).defaultWorld = some w ∧
      w.comm ≠ comm := by
  have hrun := runCalls_invariant
    (fun s => s.UserStarted ∧ s.madnessDefaultComm = comm ∧
      (s.initialized = true → ∃ w, s.defaultWorld = some w ∧ w.comm ≠ comm))
    (fun s c ⟨hs, hc, hw⟩ => ⟨hs.after c, ?_⟩) cs (Lifecycle.startedOver comm)
    ⟨⟨rfl, rfl, rfl⟩, rfl, fun h => (Bool.false_ne_true h).elim⟩
  · exact hrun.2.2 h
  · obtain ⟨hm, hi, -⟩ := hs
    cases c with
    | finalize => simp [Call.after_finalize, hm, hi, hc]
    | initializeWith c' =>
      rw [Call.after_initializeWith]
      split_ifs with h₁ h₂ h₃ h₄ <;> simp_all
      exact fun h => h₄ h.symm

/-- In a process that started MADWorld over `COMM_WORLD`, `initialize` over another
communicator returns, and the World it installs is not MADWorld's default one. -/
theorem user_started_default_world_not_madworld_other :
    (runCalls (Lifecycle.startedOver commWorld) [.initializeWith ⟨1⟩]).initialized = true ∧
    ∃ w, (runCalls (Lifecycle.startedOver commWorld) [.initializeWith ⟨1⟩]).defaultWorld
      = some w ∧ w.comm ≠ commWorld :=
  ⟨rfl, user_started_default_world_not_madworld commWorld [.initializeWith ⟨1⟩] rfl⟩

end TiledArray
