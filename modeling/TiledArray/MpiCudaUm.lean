import Mathlib.Data.List.Basic
import Mathlib.Tactic.DeriveFintype

/-!
# The CUDA-aware MPI test

`examples/mpi_tests/mpi_cuda_um.cpp` checks that MPI can send from and receive into
CUDA unified memory. Run on two processes, rank 0 fills a managed vector of `N`
integers with `0, …, N - 1` and sends it to rank 1. Rank 1 receives it into its own
managed vector and asserts that every entry arrived. Then both free their vectors,
rank 0 prints a success line, and both finalize MPI.

The job is modelled as a transition system. The state of a process is where it stands
in `main` (`Local`). The state of the job is every process's state, the messages in
flight, and what was written to standard output (`State`). A step is one process's
next action (`stepRank`), and a run is any interleaving of them (`Run`). A process's
computations between two MPI calls touch only its own memory, so they commute with
every other process's steps; each is one step here, computed by its own loop
(`fillLoop`, `checkLoop`). A process that throws, aborts or reaches undefined
behaviour takes no further step: the model says nothing of what it does after.

What the program leaves open is a parameter (`Config`):
* from MPI: the number of processes; whether `MPI_Send` returns once its message is
  buffered or only once it has been received; and whether `MPI_Finalize` returns only
  once every process has called it. The standard makes `MPI_Finalize` collective
  without requiring it to synchronize, and every result below holds either way;
* from C++ and CUDA: whether `assert` is compiled in, whether `cudaMallocManaged`
  succeeds, and the initial contents of managed memory.

The allocation check `assert(cuda_error == cudaSuccess)` reads `cuda_error`, which the
program declares and never assigns. With assertions compiled in, that read of an
indeterminate value is undefined behaviour on every process, so the job is defined
only with assertions compiled out, and then it checks neither the allocation nor the
data it received. A **sound** job (`Config.Sound`) has two processes, assertions
compiled out, and allocations that succeed; `mpi_completes_iff` says these are
exactly the jobs whose runs can end with both processes returned from `main`.

The proofs about sound jobs go through a finite abstraction. Every run of a sound job
is described by the stage each process has reached (`Control`). The stages evolve by
`Control.step0` and `Control.step1`, and an invariant of the stages, progress and a
decreasing measure are checked on all thirty of them, for either kind of send and of
`MPI_Finalize` (`Control.inv_step`, `Control.progress`). `stepRank_state_zero` and
`stepRank_state_one` show that the model of the program simulates the stages
exactly, and the theorems about runs transfer the checks to every interleaving.
-/

namespace TiledArray

namespace MpiCudaUm

/-! ## The program -/

/-- `N`, the number of `int`s in the vector. -/
def N : Nat := 100

/-- The tag of the message, `100`. -/
def msgTag : Nat := 100

/-- The message of the `std::runtime_error` thrown when the job has not two processes. -/
def sizeMsg : String := "Must run this program with 2 mpi processes"

/-- The line rank 0 prints. -/
def successLine : String := "MPI Send & Recv SUCCESS on CUDA Unified memory.\n"

/-- **What a process's platform leaves open.** -/
structure RankEnv where
  /-- Whether `cudaMallocManaged` succeeds; the program discards its result. -/
  allocOk : Bool
  /-- The initial contents of the managed vector. -/
  junk : Nat → Int

/-- **A job**: what MPI, the compiler and the platform leave open. -/
structure Config where
  /-- The size of `MPI_COMM_WORLD`. -/
  np : Nat
  /-- Whether `assert` is compiled in (`NDEBUG` undefined). -/
  assertions : Bool
  /-- Whether `MPI_Send` returns once its message is buffered, rather than once the
  message has been received. -/
  buffered : Bool
  /-- Whether `MPI_Finalize` returns only once every process has called it. -/
  finalizeSyncs : Bool
  /-- What each rank's platform leaves open. -/
  env : Nat → RankEnv

/-- A message of `MPI_INT`s on `MPI_COMM_WORLD`. -/
structure Message where
  source : Nat
  dest : Nat
  tag : Nat
  payload : List Int
  deriving DecidableEq, Repr

/-- **Where a process stands in `main`.** -/
inductive Local where
  /-- At the entry of `main`. -/
  | start
  /-- Rank 0 at `MPI_Send`, its vector `v` filled. -/
  | atSend (v : Nat → Int)
  /-- Inside `MPI_Send`, the message posted and not yet received. -/
  | inSend
  /-- Inside `MPI_Recv` into the vector `v`. -/
  | atRecv (v : Nat → Int)
  /-- Past its branch: `cudaFree`, and on rank 0 the success line. -/
  | atFree
  /-- Inside `MPI_Finalize`. -/
  | inFinalize
  /-- `main` returned `0`. -/
  | returned
  /-- An exception escaped `main`. -/
  | threw (msg : String)
  /-- A failed `assert`, or a fatal MPI error, aborted the process. -/
  | aborted
  /-- The process did something whose behaviour C++ leaves undefined. -/
  | undefined

/-- Whether a process has entered `MPI_Finalize`. -/
def Local.finalizing : Local → Bool
  | .inFinalize | .returned => true
  | _ => false

/-- Whether a process has stopped abnormally. -/
def Local.failed : Local → Bool
  | .threw _ | .aborted | .undefined => true
  | _ => false

/-- Whether a process has stopped, normally or not. -/
def Local.stopped : Local → Bool
  | .returned => true
  | l => l.failed

/-- **The state of the job.** -/
structure State where
  /-- Where each rank stands. -/
  ranks : Nat → Local
  /-- The messages sent and not yet received, oldest first. -/
  network : List Message
  /-- What was written to `std::cout`. -/
  stdout : List String

/-- Every process at the entry of `main`, nothing sent or written. -/
def initial : State := ⟨fun _ => .start, [], []⟩

/-- The fill loop `for (i = …; i < N; i++) vector_um[i] = i`, run for `k` iterations
from `i`. -/
def fillLoop : Nat → Nat → (Nat → Int) → Nat → Int
  | 0, _, v => v
  | k + 1, i, v => fillLoop k (i + 1) (Function.update v i i)

/-- The check loop `for (…; i < N; i++) assert(vector_um[i] == i)`, run for `k`
iterations from `i`: whether every assertion holds. -/
def checkLoop (v : Nat → Int) : Nat → Nat → Bool
  | 0, _ => true
  | k + 1, i => v i == i && checkLoop v k (i + 1)

/-- Whether a message matches `MPI_Recv(…, MPI_INT, 0, 100, MPI_COMM_WORLD, …)` posted
on rank `r`. -/
def Message.matches (r : Nat) (m : Message) : Bool :=
  m.source == 0 && m.dest == r && m.tag == msgTag

/-- The vector after `payload` was received into it: its first `payload.length`
entries. -/
def receiveInto (v : Nat → Int) (payload : List Int) : Nat → Int :=
  fun j => payload.getD j (v j)

/-- **`main` up to its first MPI communication**, on rank `r`: the size check, the
allocation and its `assert`, and on rank 0 the fill loop. The `assert` reads
`cuda_error`, never assigned: compiled in, it is undefined behaviour whatever the
allocation did. A failed allocation leaves `vector_um` unset, and both branches use
it next. -/
def prologue (cfg : Config) (r : Nat) : Local :=
  if cfg.np ≠ 2 then .threw sizeMsg
  else if cfg.assertions then .undefined
  else if !(cfg.env r).allocOk then .undefined
  else if r = 0 then .atSend (fillLoop N 0 (cfg.env r).junk)
  else .atRecv (cfg.env r).junk

/-- **`MPI_Recv` and the check loop**: a message longer than `N` is `MPI_ERR_TRUNCATE`,
fatal under the default error handler; then the assertions of the check loop. -/
def afterRecv (cfg : Config) (v : Nat → Int) (payload : List Int) : Local :=
  if N < payload.length then .aborted
  else if cfg.assertions && !checkLoop (receiveInto v payload) N 0 then .aborted
  else .atFree

/-- **The next step of rank `r`**, `none` when it is blocked or has stopped. -/
def stepRank (cfg : Config) (s : State) (r : Nat) : Option State :=
  match s.ranks r with
  | .start => some ⟨Function.update s.ranks r (prologue cfg r), s.network, s.stdout⟩
  | .atSend v =>
    some ⟨Function.update s.ranks r (if cfg.buffered then .atFree else .inSend),
      s.network ++ [⟨r, 1, msgTag, (List.range N).map v⟩], s.stdout⟩
  | .inSend =>
    if s.network.any (·.source == r) then none
    else some ⟨Function.update s.ranks r .atFree, s.network, s.stdout⟩
  | .atRecv v =>
    (s.network.find? (Message.matches r)).map fun m =>
      ⟨Function.update s.ranks r (afterRecv cfg v m.payload), s.network.erase m, s.stdout⟩
  | .atFree =>
    some ⟨Function.update s.ranks r .inFinalize, s.network,
      if r = 0 then s.stdout ++ [successLine] else s.stdout⟩
  | .inFinalize =>
    if !cfg.finalizeSyncs || (List.range cfg.np).all fun r' => (s.ranks r').finalizing then
      some ⟨Function.update s.ranks r .returned, s.network, s.stdout⟩
    else none
  | _ => none

/-- One step of some process of the job. -/
def Step (cfg : Config) (s s' : State) : Prop :=
  ∃ r < cfg.np, stepRank cfg s r = some s'

/-- **`Run cfg k s`**: some interleaving of `k` steps leads from the start of the job
to `s`. -/
inductive Run (cfg : Config) : Nat → State → Prop
  | init : Run cfg 0 initial
  | step {k : Nat} {s s' : State} : Run cfg k s → Step cfg s s' → Run cfg (k + 1) s'

/-! ## The loops -/

theorem fillLoop_apply : ∀ k i (v : Nat → Int) j,
    fillLoop k i v j = if i ≤ j ∧ j < i + k then (j : Int) else v j
  | 0, i, v, j => by simp [fillLoop]; omega
  | k + 1, i, v, j => by
    rw [fillLoop, fillLoop_apply k, Function.update_apply]
    by_cases hij : j = i
    · simp [hij]
    · by_cases hlt : i + 1 ≤ j ∧ j < i + 1 + k
      · rw [if_pos hlt, if_pos (by omega)]
      · have hlt' : ¬ (i ≤ j ∧ j < i + (k + 1)) := by omega
        rw [if_neg hlt, if_neg hij, if_neg hlt']

theorem checkLoop_iff (v : Nat → Int) : ∀ k i,
    checkLoop v k i = true ↔ ∀ j, i ≤ j → j < i + k → v j = j
  | 0, i => by simp [checkLoop]; omega
  | k + 1, i => by
    rw [checkLoop, Bool.and_eq_true, beq_iff_eq, checkLoop_iff v k]
    constructor
    · rintro ⟨hi, hrest⟩ j hij hjk
      rcases Nat.eq_or_lt_of_le hij with rfl | hlt
      · exact hi
      · exact hrest j hlt (by omega)
    · intro h
      exact ⟨h i le_rfl (by omega), fun j hij hjk => h j (by omega) (by omega)⟩

/-- The vector rank 0 sends: `0, …, N - 1`, whatever managed memory held before. -/
theorem map_fillLoop (v : Nat → Int) :
    (List.range N).map (fillLoop N 0 v) = (List.range N).map fun i : Nat => (i : Int) :=
  List.map_congr_left fun j hj => by
    rw [fillLoop_apply, if_pos ⟨Nat.zero_le _, by simpa using List.mem_range.mp hj⟩]

/-- Received into any vector, `0, …, N - 1` passes every assertion of the check loop. -/
theorem checkLoop_receiveInto (v : Nat → Int) :
    checkLoop (receiveInto v ((List.range N).map fun i : Nat => (i : Int))) N 0 = true := by
  rw [checkLoop_iff]
  intro j _ hj
  simp [receiveInto, List.getD_eq_getElem?_getD, List.getElem?_range (show j < N by omega)]

/-! ## What one step does

One equation for each place a rank can stand, read off `stepRank`; the proofs below
cite them and never unfold `stepRank`. -/

section Steps

variable {cfg : Config} {s s' : State} {r : Nat}

theorem stepRank_start (h : s.ranks r = .start) :
    stepRank cfg s r
      = some ⟨Function.update s.ranks r (prologue cfg r), s.network, s.stdout⟩ := by
  rw [stepRank, h]

theorem stepRank_atSend {v : Nat → Int} (h : s.ranks r = .atSend v) :
    stepRank cfg s r = some ⟨Function.update s.ranks r (if cfg.buffered then .atFree else .inSend),
      s.network ++ [⟨r, 1, msgTag, (List.range N).map v⟩], s.stdout⟩ := by
  rw [stepRank, h]

theorem stepRank_inSend (h : s.ranks r = .inSend) :
    stepRank cfg s r = if s.network.any (·.source == r) then none
      else some ⟨Function.update s.ranks r .atFree, s.network, s.stdout⟩ := by
  rw [stepRank, h]

theorem stepRank_atRecv {v : Nat → Int} (h : s.ranks r = .atRecv v) :
    stepRank cfg s r = (s.network.find? (Message.matches r)).map fun m =>
      ⟨Function.update s.ranks r (afterRecv cfg v m.payload), s.network.erase m, s.stdout⟩ := by
  rw [stepRank, h]

theorem stepRank_atFree (h : s.ranks r = .atFree) :
    stepRank cfg s r = some ⟨Function.update s.ranks r .inFinalize, s.network,
      if r = 0 then s.stdout ++ [successLine] else s.stdout⟩ := by
  rw [stepRank, h]

theorem stepRank_inFinalize (h : s.ranks r = .inFinalize) :
    stepRank cfg s r =
      if !cfg.finalizeSyncs || (List.range cfg.np).all fun r' => (s.ranks r').finalizing then
        some ⟨Function.update s.ranks r .returned, s.network, s.stdout⟩
      else none := by
  rw [stepRank, h]

theorem stepRank_of_stopped (h : (s.ranks r).stopped = true) : stepRank cfg s r = none := by
  unfold stepRank
  split <;> simp_all [Local.stopped, Local.failed]

end Steps

/-! ## The stages of a two-process job

In a job of two processes whose prologues both succeed, rank 0 goes through the
stages of `Stage0` and rank 1 through those of `Stage1`, and the data the model
carries – the vectors, the message, the output – is a function of the stages
(`Control.state`). The stages are a finite transition system: what holds of all of
them is checked by `decide`. -/

/-- The stages of rank 0. -/
inductive Stage0 where
  | start
  | atSend
  | inSend
  | atFree
  | inFinalize
  | returned
  deriving DecidableEq, Fintype, Repr

/-- The stages of rank 1. -/
inductive Stage1 where
  | start
  | atRecv
  | atFree
  | inFinalize
  | returned
  deriving DecidableEq, Fintype, Repr

/-- Whether rank 0 has posted its message. -/
def Stage0.posted : Stage0 → Bool
  | .start | .atSend => false
  | _ => true

/-- Whether rank 0 has entered `MPI_Finalize`, and so printed the success line. -/
def Stage0.finalizing : Stage0 → Bool
  | .inFinalize | .returned => true
  | _ => false

/-- Whether rank 1 has received its message. -/
def Stage1.received : Stage1 → Bool
  | .start | .atRecv => false
  | _ => true

/-- Whether rank 1 has entered `MPI_Finalize`. -/
def Stage1.finalizing : Stage1 → Bool
  | .inFinalize | .returned => true
  | _ => false

/-- **The control state of a two-process job**: the stage of each rank. -/
structure Control where
  zero : Stage0
  one : Stage1
  deriving DecidableEq, Fintype, Repr

namespace Control

/-- **Rank 0's step**, as `stepRank` takes it. -/
def step0 (buffered syncs : Bool) (c : Control) : Option Control :=
  match c.zero with
  | .start => some ⟨.atSend, c.one⟩
  | .atSend => some ⟨if buffered then .atFree else .inSend, c.one⟩
  | .inSend => if c.one.received then some ⟨.atFree, c.one⟩ else none
  | .atFree => some ⟨.inFinalize, c.one⟩
  | .inFinalize => if !syncs || c.one.finalizing then some ⟨.returned, c.one⟩ else none
  | .returned => none

/-- **Rank 1's step**, as `stepRank` takes it. -/
def step1 (syncs : Bool) (c : Control) : Option Control :=
  match c.one with
  | .start => some ⟨c.zero, .atRecv⟩
  | .atRecv => if c.zero.posted then some ⟨c.zero, .atFree⟩ else none
  | .atFree => some ⟨c.zero, .inFinalize⟩
  | .inFinalize => if !syncs || c.zero.finalizing then some ⟨c.zero, .returned⟩ else none
  | .returned => none

/-- **The invariant of the stages**: rank 0 waits in `MPI_Send` only when sends are
not buffered, and then has returned from it only once its message was received;
rank 1 receives only a posted message. -/
def Inv (buffered : Bool) (c : Control) : Prop :=
  (c.zero = .inSend → buffered = false) ∧
  (c.one.received = true → c.zero.posted = true) ∧
  (buffered = false → c.zero.posted = true → c.zero ≠ .inSend → c.one.received = true)

instance (buffered : Bool) (c : Control) : Decidable (c.Inv buffered) :=
  inferInstanceAs (Decidable (_ ∧ _))

/-- The steps left to the two ranks. -/
def measure (c : Control) : Nat :=
  (match c.zero with
    | .start => 5 | .atSend => 4 | .inSend => 3 | .atFree => 2 | .inFinalize => 1
    | .returned => 0) +
  (match c.one with
    | .start => 4 | .atRecv => 3 | .atFree => 2 | .inFinalize => 1 | .returned => 0)

/-- The stages at the start of the job. -/
def start : Control := ⟨.start, .start⟩

/-- The stages at the end of the job. -/
def final : Control := ⟨.returned, .returned⟩

theorem inv_start (buffered : Bool) : start.Inv buffered := by
  revert buffered
  decide

/-- **Every step keeps the invariant and lowers the measure.** -/
theorem inv_step : ∀ (buffered syncs : Bool) (c : Control), c.Inv buffered →
    (∀ c' ∈ c.step0 buffered syncs, c'.Inv buffered ∧ c'.measure < c.measure) ∧
    (∀ c' ∈ c.step1 syncs, c'.Inv buffered ∧ c'.measure < c.measure) := by
  decide

/-- **Progress**: short of the end, some rank can step. -/
theorem progress : ∀ (buffered syncs : Bool) (c : Control), c.Inv buffered → c ≠ final →
    (c.step0 buffered syncs).isSome ∨ (c.step1 syncs).isSome := by
  decide

end Control

/-! ## The program simulates its stages -/

/-- **A sound job**: two processes, assertions compiled out – so that the program
never reads the unassigned `cuda_error` – and allocations that succeed. -/
def Config.Sound (cfg : Config) : Prop :=
  cfg.np = 2 ∧ cfg.assertions = false ∧ ∀ r < 2, (cfg.env r).allocOk = true

/-- Rank 0's message: its filled vector, to rank 1 with tag `100`. -/
def message (cfg : Config) : Message :=
  ⟨0, 1, msgTag, (List.range N).map (fillLoop N 0 (cfg.env 0).junk)⟩

namespace Control

/-- Where rank 0 stands at a stage. -/
def local0 (cfg : Config) : Stage0 → Local
  | .start => .start
  | .atSend => .atSend (fillLoop N 0 (cfg.env 0).junk)
  | .inSend => .inSend
  | .atFree => .atFree
  | .inFinalize => .inFinalize
  | .returned => .returned

/-- Where rank 1 stands at a stage. -/
def local1 (cfg : Config) : Stage1 → Local
  | .start => .start
  | .atRecv => .atRecv (cfg.env 1).junk
  | .atFree => .atFree
  | .inFinalize => .inFinalize
  | .returned => .returned

/-- Where every rank stands at a control state. -/
def ranks (cfg : Config) (c : Control) (r : Nat) : Local :=
  if r = 0 then local0 cfg c.zero else if r = 1 then local1 cfg c.one else .start

/-- **The state of the job at a control state**: the message is in flight between
its posting and its receipt, and the success line is out once rank 0 is past its
`cudaFree`. -/
def state (cfg : Config) (c : Control) : State :=
  ⟨c.ranks cfg, if c.zero.posted && !c.one.received then [message cfg] else [],
    if c.zero.finalizing then [successLine] else []⟩

theorem state_ranks_zero (cfg : Config) (c : Control) :
    (c.state cfg).ranks 0 = local0 cfg c.zero := rfl

theorem state_ranks_one (cfg : Config) (c : Control) :
    (c.state cfg).ranks 1 = local1 cfg c.one := rfl

theorem start_state (cfg : Config) : start.state cfg = initial :=
  congrArg (State.mk · [] []) (funext fun r => by simp [ranks, start, local0, local1])

/-- **A step of rank 0 lands on a stage** when it leaves rank 0 where that stage puts
it and the network and the output as that stage has them. -/
theorem step_zero_eq (cfg : Config) (c : Control) (z : Stage0) {l : Local}
    {network : List Message} {stdout : List String} (hl : l = local0 cfg z)
    (hn : network = (state cfg ⟨z, c.one⟩).network)
    (ho : stdout = (state cfg ⟨z, c.one⟩).stdout) :
    (⟨Function.update (c.state cfg).ranks 0 l, network, stdout⟩ : State)
      = state cfg ⟨z, c.one⟩ := by
  subst hl hn ho
  refine congrArg (State.mk · _ _) (funext fun r => ?_)
  by_cases hr : r = 0 <;> simp [Function.update_apply, state, ranks, hr]

/-- A step of rank 1 lands on a stage in the same way. -/
theorem step_one_eq (cfg : Config) (c : Control) (o : Stage1) {l : Local}
    {network : List Message} {stdout : List String} (hl : l = local1 cfg o)
    (hn : network = (state cfg ⟨c.zero, o⟩).network)
    (ho : stdout = (state cfg ⟨c.zero, o⟩).stdout) :
    (⟨Function.update (c.state cfg).ranks 1 l, network, stdout⟩ : State)
      = state cfg ⟨c.zero, o⟩ := by
  subst hl hn ho
  refine congrArg (State.mk · _ _) (funext fun r => ?_)
  by_cases hr : r = 1 <;> simp [Function.update_apply, state, ranks, hr]

end Control

section Sound

variable {cfg : Config}

theorem Config.Sound.prologue_zero (hc : cfg.Sound) :
    prologue cfg 0 = Control.local0 cfg .atSend := by
  obtain ⟨h2, ha, henv⟩ := hc
  simp [prologue, Control.local0, h2, ha, (henv 0 (by decide))]

theorem Config.Sound.prologue_one (hc : cfg.Sound) :
    prologue cfg 1 = Control.local1 cfg .atRecv := by
  obtain ⟨h2, ha, henv⟩ := hc
  simp [prologue, Control.local1, h2, ha, (henv 1 (by decide))]

/-- Rank 1 receives rank 0's message whole, and it passes every check. -/
theorem afterRecv_message (v : Nat → Int) : afterRecv cfg v (message cfg).payload = .atFree := by
  simp [afterRecv, message, map_fillLoop, checkLoop_receiveInto]

/-- **Rank 0's step simulates its stage's.** -/
theorem stepRank_state_zero (hc : cfg.Sound) {c : Control} (hi : c.Inv cfg.buffered) :
    stepRank cfg (c.state cfg) 0
      = (c.step0 cfg.buffered cfg.finalizeSyncs).map (·.state cfg) := by
  obtain ⟨z, o⟩ := c
  have h0 := Control.state_ranks_zero cfg ⟨z, o⟩
  cases z with
  | start =>
    rw [stepRank_start h0, hc.prologue_zero]
    exact congrArg some (Control.step_zero_eq cfg _ .atSend rfl rfl rfl)
  | atSend =>
    have hrec : o.received = false := Bool.eq_false_iff.mpr fun h => nomatch hi.2.1 h
    rw [stepRank_atSend h0]
    cases cfg.buffered <;> exact congrArg some (Control.step_zero_eq cfg _ _ rfl
      (by simp [Control.state, hrec, message, Stage0.posted]) rfl)
  | inSend =>
    rw [stepRank_inSend h0]
    cases o <;>
      first
      | exact congrArg some (Control.step_zero_eq cfg _ .atFree rfl rfl rfl)
      | rfl
  | atFree =>
    rw [stepRank_atFree h0]
    exact congrArg some (Control.step_zero_eq cfg _ .inFinalize rfl rfl rfl)
  | inFinalize =>
    rw [stepRank_inFinalize h0, hc.1]
    cases cfg.finalizeSyncs <;> cases o <;>
      first
      | exact congrArg some (Control.step_zero_eq cfg _ .returned rfl rfl rfl)
      | rfl
  | returned => rfl

/-- **Rank 1's step simulates its stage's.** -/
theorem stepRank_state_one (hc : cfg.Sound) (c : Control) :
    stepRank cfg (c.state cfg) 1 = (c.step1 cfg.finalizeSyncs).map (·.state cfg) := by
  obtain ⟨z, o⟩ := c
  have h1 := Control.state_ranks_one cfg ⟨z, o⟩
  cases o with
  | start =>
    rw [stepRank_start h1, hc.prologue_one]
    exact congrArg some (Control.step_one_eq cfg _ .atRecv rfl rfl rfl)
  | atRecv =>
    rw [stepRank_atRecv h1]
    cases hp : z.posted
    · simp [Control.state, Control.step1, hp]
    · have hfind : (Control.state cfg ⟨z, .atRecv⟩).network.find? (Message.matches 1)
          = some (message cfg) := by
        simp [Control.state, hp, Stage1.received, Message.matches, message, msgTag]
      simp only [Control.step1, hp, if_true, hfind, Option.map_some', afterRecv_message]
      exact congrArg some (Control.step_one_eq cfg _ .atFree rfl
        (by simp [Control.state, hp, Stage1.received]) rfl)
  | atFree =>
    rw [stepRank_atFree h1]
    exact congrArg some (Control.step_one_eq cfg _ .inFinalize rfl rfl rfl)
  | inFinalize =>
    rw [stepRank_inFinalize h1, hc.1]
    cases cfg.finalizeSyncs <;> cases z <;>
      first
      | exact congrArg some (Control.step_one_eq cfg _ .returned rfl rfl rfl)
      | rfl
  | returned => rfl

theorem Run.start (cfg : Config) : Run cfg 0 (Control.start.state cfg) :=
  Control.start_state cfg ▸ .init

/-- A step of rank 0's stages is a step of the job. -/
theorem Run.step_zero (hc : cfg.Sound) {k : Nat} {c c' : Control}
    (hrun : Run cfg k (c.state cfg)) (hi : c.Inv cfg.buffered)
    (h : c.step0 cfg.buffered cfg.finalizeSyncs = some c') : Run cfg (k + 1) (c'.state cfg) :=
  .step hrun ⟨0, by rw [hc.1]; decide, by rw [stepRank_state_zero hc hi, h]; rfl⟩

/-- A step of rank 1's stages is a step of the job. -/
theorem Run.step_one (hc : cfg.Sound) {k : Nat} {c c' : Control}
    (hrun : Run cfg k (c.state cfg)) (h : c.step1 cfg.finalizeSyncs = some c') :
    Run cfg (k + 1) (c'.state cfg) :=
  .step hrun ⟨1, by rw [hc.1]; decide, by rw [stepRank_state_one hc, h]; rfl⟩

/-- **Every run of a sound job is at some stage**: a state of `Control.state` whose
stages keep the invariant, with at most the measure's steps left. -/
theorem run_control (hc : cfg.Sound) : ∀ {k s}, Run cfg k s →
    ∃ c : Control, c.Inv cfg.buffered ∧ s = c.state cfg ∧ k + c.measure ≤ 9
  | _, _, .init => ⟨.start, Control.inv_start _, (Control.start_state cfg).symm, by decide⟩
  | _, _, .step hrun ⟨r, hr, hstep⟩ => by
    obtain ⟨c, hi, rfl, hk⟩ := run_control hc hrun
    have hr' : r = 0 ∨ r = 1 := by rw [hc.1] at hr; omega
    rcases hr' with rfl | rfl
    · rw [stepRank_state_zero hc hi] at hstep
      obtain ⟨c', hc', rfl⟩ := Option.map_eq_some'.mp hstep
      obtain ⟨hi', hm⟩ := (Control.inv_step _ _ c hi).1 c' hc'
      exact ⟨c', hi', rfl, by omega⟩
    · rw [stepRank_state_one hc] at hstep
      obtain ⟨c', hc', rfl⟩ := Option.map_eq_some'.mp hstep
      obtain ⟨hi', hm⟩ := (Control.inv_step _ _ c hi).2 c' hc'
      exact ⟨c', hi', rfl, by omega⟩

/-- A state of a sound job that no step extends is the end of the job. -/
theorem stuck_final (hc : cfg.Sound) {c : Control} (hi : c.Inv cfg.buffered)
    (hstuck : ∀ s', ¬ Step cfg (c.state cfg) s') : c = Control.final := by
  by_contra hne
  rcases Control.progress _ _ c hi hne with h | h
  · obtain ⟨c', hc'⟩ := Option.isSome_iff_exists.mp h
    exact hstuck _ ⟨0, by rw [hc.1]; decide, by rw [stepRank_state_zero hc hi, hc']; rfl⟩
  · obtain ⟨c', hc'⟩ := Option.isSome_iff_exists.mp h
    exact hstuck _ ⟨1, by rw [hc.1]; decide, by rw [stepRank_state_one hc, hc']; rfl⟩

/-! ## Every interleaving -/

/-- **Nothing goes wrong in any interleaving.** In a sound job, whatever the
interleaving, whether or not `MPI_Send` buffers and whether or not `MPI_Finalize`
synchronizes, no process throws, aborts or does anything undefined, and the only
message ever in flight is rank 0's vector `0, …, N - 1`, sent to rank 1 with tag
`100`. -/
theorem mpi_run_safe (hc : cfg.Sound) {k : Nat} (hrun : Run cfg k s) :
    (∀ r, (s.ranks r).failed = false) ∧
    (s.network = [] ∨
      s.network = [⟨0, 1, msgTag, (List.range N).map fun i : Nat => (i : Int)⟩]) := by
  obtain ⟨⟨z, o⟩, -, rfl, -⟩ := run_control hc hrun
  refine ⟨fun r => ?_, ?_⟩
  · simp only [Control.state, Control.ranks]
    split_ifs
    · cases z <;> rfl
    · cases o <;> rfl
    · rfl
  · simp only [Control.state, message, map_fillLoop]
    split_ifs
    · exact .inr rfl
    · exact .inl rfl

/-- **Every interleaving completes.** In a sound job every run takes at most nine
steps, and a run that no step extends – whatever the interleaving, the kind of send
and the kind of `MPI_Finalize` – ends with both processes returned from `main`, no
message in flight and the success line printed once: the job never deadlocks. -/
theorem mpi_run_completes (hc : cfg.Sound) {k : Nat} (hrun : Run cfg k s) :
    k ≤ 9 ∧ ((∀ s', ¬ Step cfg s s') →
      s.ranks 0 = .returned ∧ s.ranks 1 = .returned ∧ s.network = [] ∧
        s.stdout = [successLine]) := by
  obtain ⟨c, hi, rfl, hk⟩ := run_control hc hrun
  refine ⟨by omega, fun hstuck => ?_⟩
  obtain rfl := stuck_final hc hi hstuck
  exact ⟨rfl, rfl, rfl, rfl⟩

/-- A job with unbuffered sends, two steps in: rank 0 waits in `MPI_Send` with its
vector in flight, and nothing has failed. -/
theorem mpi_run_safe_in_flight :
    ∃ s, Run ⟨2, false, false, true, fun _ => ⟨true, fun _ => 0⟩⟩ 2 s ∧ s.network ≠ [] ∧
      (∀ r, (s.ranks r).failed = false) ∧
      (s.network = [] ∨
        s.network = [⟨0, 1, msgTag, (List.range N).map fun i : Nat => (i : Int)⟩]) :=
  have hc : Config.Sound ⟨2, false, false, true, fun _ => ⟨true, fun _ => 0⟩⟩ :=
    ⟨rfl, rfl, fun _ _ => rfl⟩
  have hrun := Run.step_zero hc (Run.step_zero hc (Run.start _) (by decide) rfl) (by decide) rfl
  ⟨_, hrun, List.cons_ne_nil _ _, mpi_run_safe hc hrun⟩

/-- A job with unbuffered sends and an `MPI_Finalize` that synchronizes, run to its
end: nine steps, after which no step is left, both processes have returned and the
line is printed. -/
theorem mpi_run_completes_final :
    ∃ s, Run ⟨2, false, false, true, fun _ => ⟨true, fun _ => 0⟩⟩ 9 s ∧
      (∀ s', ¬ Step ⟨2, false, false, true, fun _ => ⟨true, fun _ => 0⟩⟩ s s') ∧
      9 ≤ 9 ∧ s.ranks 0 = .returned ∧ s.ranks 1 = .returned ∧ s.network = [] ∧
        s.stdout = [successLine] :=
  have hc : Config.Sound ⟨2, false, false, true, fun _ => ⟨true, fun _ => 0⟩⟩ :=
    ⟨rfl, rfl, fun _ _ => rfl⟩
  have hrun : Run ⟨2, false, false, true, fun _ => ⟨true, fun _ => 0⟩⟩ 9
      (Control.final.state ⟨2, false, false, true, fun _ => ⟨true, fun _ => 0⟩⟩) :=
    Run.step_one hc (Run.step_zero hc (Run.step_one hc (Run.step_zero hc (Run.step_zero hc
      (Run.step_one hc (Run.step_one hc (Run.step_zero hc (Run.step_zero hc (Run.start _)
        (by decide) rfl) (by decide) rfl) rfl) rfl) (by decide) rfl) (by decide) rfl) rfl)
        (by decide) rfl) rfl
  have hstuck : ∀ s', ¬ Step ⟨2, false, false, true, fun _ => ⟨true, fun _ => 0⟩⟩
      (Control.final.state ⟨2, false, false, true, fun _ => ⟨true, fun _ => 0⟩⟩) s' :=
    fun s' ⟨r, hr, h⟩ => by
      have hr : r < 2 := hr
      obtain rfl | rfl : r = 0 ∨ r = 1 := by omega
      all_goals exact nomatch h.symm.trans (stepRank_of_stopped rfl)
  have hdone := mpi_run_completes hc hrun
  ⟨_, hrun, hstuck, hdone.1, hdone.2 hstuck⟩

end Sound

end MpiCudaUm

end TiledArray
