/-
Loadbot/Cancel.lean

What the engine does once its pool stops granting jobs: after `cancel`, past
a timer pool's deadline, or with a count-bounded pool spent.

`worker` tests the pool only at the top of its loop.  A worker that got
`SpawnJob() = true` before the stop goes on through `Take` and
`performSingleOperation` whatever happens meanwhile: nothing between them
reads the pool (`perform_after_cancel` is such a run).  What the code does
guarantee is that the stop ends the granting of jobs: from a state whose
pool is closed, no `SpawnJob` answers `true` again, and each worker starts
at most one more database operation, and one only if it already held a
granted job (`perform_after_close`).

The interrupt goroutine reads `interruptChan` once, so however many
interrupts arrive, `ml.cancel()` runs at most once (`cancel_at_most_once`).
-/
import Loadbot.Barrier

namespace Loadbot

/-- A job granted and not yet handed to the database: the one operation a
worker can still start once the pool is closed. -/
def WorkerPc.pending : WorkerPc → Nat
  | .take | .perform => 1
  | _ => 0

section Closed

variable {N : Nat} {σ τ : Type} (P : JobPool σ) (L : Limiter τ)

variable {closed : σ → Int → Prop} (hP : P.Closes closed)
include hP

/-- **One step after the pool has closed**: the pool stays closed, no job
is granted, and a worker starts an operation only by spending a job it
already held. -/
theorem closed_next {s s₁ : Engine N σ τ} {e : Event N} (hc : closed s.pool s.now)
    (h : step P L s e = some s₁) :
    closed s₁.pool s₁.now ∧ s₁.granted = s.granted ∧
      ∀ w, (if e = .perform w then 1 else 0) + (s₁.workers w).pending ≤ (s.workers w).pending := by
  cases Engine.Step.of_step P L h with
  | grant _ hr => simp [hP.spawnJob_false _ _ hc] at hr
  | @refuse w' hw _ =>
    refine ⟨hP.spawnJob_closed _ _ hc, rfl, fun w => ?_⟩
    by_cases hw' : w = w' <;> simp [hw', Function.update_noteq, WorkerPc.pending, hw]
  | @perform w' hw =>
    refine ⟨hc, rfl, fun w => ?_⟩
    by_cases hw' : w = w'
    · simp [hw', WorkerPc.pending, hw]
    · simp [hw', Ne.symm hw', Function.update_noteq]
  | @markJobDone w' hw =>
    refine ⟨hP.markJobDone_closed _ _ hc, rfl, fun w => ?_⟩
    by_cases hw' : w = w' <;> simp [hw', Function.update_noteq, WorkerPc.pending, hw]
  | @take w' _ hw _ | @done w' _ hw _ =>
    refine ⟨hc, rfl, fun w => ?_⟩
    by_cases hw' : w = w' <;> simp [hw', Function.update_noteq, WorkerPc.pending, hw]
  | @startWorker i _ hi =>
    refine ⟨hc, rfl, fun w => ?_⟩
    by_cases hw' : w = ⟨i, hi⟩ <;> simp [hw', Function.update_noteq, WorkerPc.pending]
  | cancel _ => exact ⟨hP.cancel _ _, rfl, fun w => by simp⟩
  | tick ht => exact ⟨hP.later _ _ _ ht hc, rfl, fun w => by simp⟩
  | _ => exact ⟨hc, rfl, fun w => by simp⟩

/-- **Along any run from a closed pool**, no job is granted, and each worker
starts at most as many operations as the granted jobs it held at the start. -/
theorem performs_le_pending {s s' : Engine N σ τ} {es : List (Event N)}
    (hc : closed s.pool s.now) (h : run P L s es = some s') (w : Fin N) :
    es.count (.perform w) ≤ (s.workers w).pending ∧ s'.granted = s.granted := by
  induction es generalizing s with
  | nil => cases h; simp
  | cons e es ih =>
    obtain ⟨s₁, h₁, h₂⟩ := run_cons_eq_some P L h
    obtain ⟨hc₁, hg₁, hw₁⟩ := closed_next P L hP hc h₁
    obtain ⟨ih₁, ih₂⟩ := ih hc₁ h₂
    refine ⟨?_, ih₂.trans hg₁⟩
    have hw := hw₁ w
    rw [List.count_cons]
    by_cases he : e = .perform w <;> simp only [he, if_true, if_false, beq_self_eq_true,
      beq_iff_eq] at hw ⊢ <;> omega

end Closed

/-! ### The pools of `New` -/

/-- **After cancel, past the deadline, or with the count spent**: whatever
pool `New` installed and whatever the schedule, no further job is granted,
and each worker starts at most one more database operation, and that one
only if it already held a granted job (waiting in `Take` or at
`performSingleOperation`) when the pool closed. -/
theorem perform_after_close {τ : Type} (L : Limiter τ) {N : Nat} {s s' : Engine N PoolState τ}
    {es : List (Event N)} (hc : s.pool.closed s.now = true) (h : run jobPool L s es = some s')
    (w : Fin N) :
    es.count (.perform w) ≤ (s.workers w).pending ∧ s'.granted = s.granted :=
  performs_le_pending jobPool L jobPool_closes hc h w

/-- A worker granted a job just before the stop, still in `Take`, goes on
to the database: after `cancel` of an unbounded pool, and after the
deadline of a timer pool. -/
theorem perform_after_cancel :
    (∃ s s', run jobPool noLimitLimiter (Engine.init 1 ⟨1⟩ (PoolKind.noLimitTimer.init 0) () 0)
        [.notify, .startWorker, .startWorker, .spawnJob 0, .signal, .receive, .cancel] = some s ∧
      s.pool.cancelled = true ∧ s.workers 0 = .take ∧
      run jobPool noLimitLimiter s [.take 0, .perform 0] = some s') ∧
    (∃ s s', run jobPool noLimitLimiter (Engine.init 1 ⟨1⟩ ((PoolKind.timer 10).init 0) () 0)
        [.notify, .startWorker, .startWorker, .spawnJob 0, .tick 10] = some s ∧
      s.pool.closed s.now = true ∧ s.workers 0 = .take ∧
      run jobPool noLimitLimiter s [.take 0, .perform 0] = some s') :=
  ⟨⟨_, _, rfl, rfl, rfl, rfl⟩, ⟨_, _, rfl, rfl, rfl, rfl⟩⟩

/-- The run of `perform_after_cancel` meets the bound: one operation, from
the job the worker held. -/
theorem perform_after_close_once :
    ∃ s s', run jobPool noLimitLimiter (Engine.init 1 ⟨1⟩ (PoolKind.noLimitTimer.init 0) () 0)
        [.notify, .startWorker, .startWorker, .spawnJob 0, .signal, .receive, .cancel] = some s ∧
      run jobPool noLimitLimiter s [.take 0, .perform 0] = some s' ∧
      ([.take 0, .perform 0] : List (Event 1)).count (.perform 0) = 1 ∧
      ([.take 0, .perform 0] : List (Event 1)).count (.perform 0) ≤ (s.workers 0).pending ∧
      s'.granted = s.granted := by
  refine ⟨_, _, rfl, rfl, rfl, ?_⟩
  refine perform_after_close noLimitLimiter ?_ ?_ 0 <;> rfl

/-! ### The interrupt goroutine -/

/-- The `cancel` calls the interrupt goroutine can still make. -/
def InterruptPc.cancels : InterruptPc → Nat
  | .receive | .cancel => 1
  | .off | .exited => 0

/-- The `cancel` calls still possible: by the goroutine `signal.Notify` is
about to start, or by the one it started. -/
def Engine.cancelsLeft {N : Nat} {σ τ : Type} (s : Engine N σ τ) : Nat :=
  (if s.torment = .notify then 1 else 0) + s.interrupt.cancels

section Interrupt

variable {N : Nat} {σ τ : Type} (P : JobPool σ) (L : Limiter τ)

/-- A `cancel` spends the one call left, and no step adds one. -/
theorem cancelsLeft_next {s s₁ : Engine N σ τ} {e : Event N} (h : step P L s e = some s₁) :
    s₁.cancelsLeft + (if e = .cancel then 1 else 0) ≤ s.cancelsLeft := by
  unfold Engine.cancelsLeft
  cases Engine.Step.of_step P L h with
  | notify ht => simp [InterruptPc.cancels, ht]
  | startWorker ht _ | started ht _ | wait ht _ | report ht => simp [ht]
  | receive hi _ | cancel hi => simp [InterruptPc.cancels, hi]
  | _ => simp

/-- Along a run, the `cancel` calls made and those still possible never
exceed those possible at the start. -/
theorem cancels_le {s s' : Engine N σ τ} {es : List (Event N)} (h : run P L s es = some s') :
    es.count .cancel + s'.cancelsLeft ≤ s.cancelsLeft := by
  induction es generalizing s with
  | nil => cases h; simp
  | cons e es ih =>
    obtain ⟨s₁, h₁, h₂⟩ := run_cons_eq_some P L h
    have hstep := cancelsLeft_next P L h₁
    have hrest := ih h₂
    rw [List.count_cons]
    by_cases he : e = .cancel <;> simp only [he, if_true, if_false, beq_self_eq_true,
      beq_iff_eq] at hstep ⊢ <;> omega

/-- **`ml.cancel()` runs at most once**, however many interrupts arrive,
whatever the pool and the schedule. -/
theorem cancel_at_most_once (N : Nat) (wg : WaitGroup) (pool : σ) (rateLimiter : τ) (now : Int)
    {es : List (Event N)} {s' : Engine N σ τ}
    (h : run P L (Engine.init N wg pool rateLimiter now) es = some s') :
    es.count .cancel ≤ 1 := by
  have h0 : (Engine.init N wg pool rateLimiter now).cancelsLeft = 1 := rfl
  have := cancels_le P L h
  omega

end Interrupt

/-- Three interrupts, one `cancel`. -/
theorem cancel_once_of_interrupts :
    ∃ s', run jobPool noLimitLimiter (Engine.init 1 ⟨1⟩ (PoolKind.noLimitTimer.init 0) () 0)
        [.notify, .signal, .receive, .signal, .cancel, .signal] = some s' ∧
      ([.notify, .signal, .receive, .signal, .cancel, .signal] : List (Event 1)).count .cancel ≤ 1 := by
  refine ⟨_, rfl, ?_⟩
  exact cancel_at_most_once jobPool noLimitLimiter 1 ⟨1⟩ (PoolKind.noLimitTimer.init 0) () 0 rfl

end Loadbot
