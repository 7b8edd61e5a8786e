/-
Loadbot/Pool.lean

The engine's two shared collaborators, `worker.JobPool` and `rps.Limiter`.
Their packages (`pkg/worker`, `pkg/rps`) are not among the sources we model,
so the engine is written against each as an abstract atomic object:

* a `JobPool σ` is any state `σ` with the four methods the engine calls,
  each one atomic step (`SpawnJob` reads the clock);
* a `Limiter τ` is any pacing state whose `Take` either lets the caller go
  at time `now` or keeps it blocked.

Every theorem about the engine is stated for all pools and limiters.  The
one property of a pool that the cancellation results need is the spec's
"once cancelled or the policy's limit is reached, `SpawnJob` never again
returns permission to proceed"; `JobPool.Closes` states it.

The three pools that `New` installs are modelled from the spec
(`PoolKind`, `jobPool`), and `jobPool_closes` shows that they keep that
contract, the deadline of a timer pool included.
-/
import Mathlib.Order.Basic
import Loadbot.Go

namespace Loadbot

/-! ### The interfaces -/

/-- `worker.JobPool`: `SpawnJob` at time `now`, `MarkJobDone`, `Cancel`
and `GetRequestsDone`, each one atomic step on the pool's state. -/
structure JobPool (σ : Type) where
  spawnJob : σ → Int → Bool × σ
  markJobDone : σ → σ
  cancel : σ → σ
  getRequestsDone : σ → Nat

/-- `rps.Limiter`: `Take` at time `now` returns the new pacing state, or
`none` while it holds the caller. -/
structure Limiter (τ : Type) where
  take : τ → Int → Option τ

/-- `rps.NewNoLimitLimiter()`: `Take` returns at once. -/
def noLimitLimiter : Limiter Unit := ⟨fun _ _ => some ()⟩

/-- A limiter that holds no caller forever: from any pacing state, `Take`
returns at some time no earlier than `now`. -/
def Limiter.Grants {τ : Type} (L : Limiter τ) : Prop :=
  ∀ l now, ∃ t, now ≤ t ∧ (L.take l t).isSome

theorem noLimitLimiter_grants : noLimitLimiter.Grants :=
  fun _ now => ⟨now, le_rfl, rfl⟩

/-- The pool contract the spec states: `closed` holds once the pool has
been cancelled or its limit reached, and from then on stays so and
`SpawnJob` answers `false`. -/
structure JobPool.Closes {σ : Type} (P : JobPool σ) (closed : σ → Int → Prop) : Prop where
  cancel : ∀ p now, closed (P.cancel p) now
  spawnJob_false : ∀ p now, closed p now → (P.spawnJob p now).1 = false
  spawnJob_closed : ∀ p now, closed p now → closed (P.spawnJob p now).2 now
  markJobDone_closed : ∀ p now, closed p now → closed (P.markJobDone p) now
  later : ∀ p now now', now ≤ now' → closed p now → closed p now'

/-! ### The pools of `pkg/worker` -/

/-- Modelled from the spec: the termination policy of the pool that `New`
installs (`worker.NewNoLimitTimerJobPool`, `worker.NewTimerJobPool` and
`worker.NewDeductionJobPool`, whose code is not under src/): unbounded,
duration-bounded, or count-bounded by a `uint64`. -/
inductive PoolKind
  | noLimitTimer
  | timer (duration : GoInt)
  | deduction (amount : Nat)
  deriving DecidableEq, Repr

/-- Modelled from the spec: the shared state of a job pool. -/
structure PoolState where
  kind : PoolKind
  start : Int
  remaining : Nat
  cancelled : Bool
  requestsDone : Nat
  deriving DecidableEq, Repr

/-- Modelled from the spec: a fresh pool of kind `k`, created at `now`. -/
def PoolKind.init (k : PoolKind) (now : Int) : PoolState where
  kind := k
  start := now
  remaining := match k with
    | .deduction amount => amount
    | _ => 0
  cancelled := false
  requestsDone := 0

/-- Modelled from the spec: `SpawnJob` grants unless cancelled; a timer
pool while `now - start < duration`; a deduction pool while its remaining
count, which it decrements, was positive. -/
def PoolState.spawnJob (p : PoolState) (now : Int) : Bool × PoolState :=
  if p.cancelled then (false, p) else
  match p.kind with
  | .noLimitTimer => (true, p)
  | .timer duration => (decide (now - p.start < duration.toInt), p)
  | .deduction _ =>
      if 0 < p.remaining then (true, { p with remaining := p.remaining - 1 })
      else (false, p)

/-- Modelled from the spec: the job pools of `pkg/worker` as one object. -/
def jobPool : JobPool PoolState where
  spawnJob := PoolState.spawnJob
  markJobDone p := { p with requestsDone := p.requestsDone + 1 }
  cancel p := { p with cancelled := true }
  getRequestsDone p := p.requestsDone

/-- The pool will grant no more jobs at time `now`: it was cancelled, its
deadline has passed, or its count is spent. -/
def PoolState.closed (p : PoolState) (now : Int) : Bool :=
  p.cancelled ||
    match p.kind with
    | .noLimitTimer => false
    | .timer duration => decide (duration.toInt ≤ now - p.start)
    | .deduction _ => decide (p.remaining = 0)

theorem PoolState.spawnJob_of_closed {p : PoolState} {now : Int}
    (h : p.closed now = true) : p.spawnJob now = (false, p) := by
  unfold closed at h
  unfold spawnJob
  rcases hk : p.kind with _ | d | a <;> cases hc : p.cancelled <;> simp_all

/-- `SpawnJob` changes nothing of the pool but its remaining count. -/
theorem PoolState.spawnJob_snd (p : PoolState) (now : Int) :
    (p.spawnJob now).2 = { p with remaining := (p.spawnJob now).2.remaining } := by
  unfold spawnJob
  split
  · rfl
  · split <;> (try split) <;> rfl

/-- `SpawnJob` leaves the count of jobs done alone. -/
theorem PoolState.spawnJob_requestsDone (p : PoolState) (now : Int) :
    (p.spawnJob now).2.requestsDone = p.requestsDone := by
  rw [spawnJob_snd]

/-- A refusal comes only from a closed pool, which it leaves closed. -/
theorem PoolState.closed_of_spawnJob_false {p : PoolState} {now : Int}
    (h : (p.spawnJob now).1 = false) : (p.spawnJob now).2.closed now = true := by
  unfold spawnJob at h ⊢
  unfold closed
  rcases hk : p.kind with _ | d | a <;> cases hc : p.cancelled <;> simp_all
  split_ifs at h with hr
  simp [hk, Nat.eq_zero_of_not_pos hr]

/-- **The pools keep the spec's contract**: once cancelled, past their
deadline or out of jobs, they never grant again. -/
theorem jobPool_closes : jobPool.Closes fun p now => p.closed now = true where
  cancel p now := by simp [jobPool, PoolState.closed]
  spawnJob_false p now h := by simp [jobPool, PoolState.spawnJob_of_closed h]
  spawnJob_closed p now h := by simpa [jobPool, PoolState.spawnJob_of_closed h]
  markJobDone_closed p now h := by simpa [jobPool, PoolState.closed] using h
  later p now now' hle h := by
    simp only [PoolState.closed, Bool.or_eq_true] at h ⊢
    refine h.imp id fun h => ?_
    rcases hk : p.kind with _ | d | a <;> simp only [hk, decide_eq_true_eq] at h ⊢
    · exact h
    · omega
    · exact h

end Loadbot
