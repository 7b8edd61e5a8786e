/-
Loadbot/Lifecycle.lean

The lifecycle the spec gives a workload run, `Idle → Running →
(Cancelling) → Drained`, and that the engine of `Torment` follows it.

`Phase.Next` is the spec's machine: the start leaves `Idle`, a cancel or the
pool's limit moves `Running` to `Cancelling`, and the release of the wait
barrier moves `Cancelling` to `Drained`, which is terminal.  `Engine.phase`
reads the phase off an engine state: `Drained` once `Wait` has returned,
`Idle` before `Torment` has started anything, then `Cancelling` or
`Running` as the pool is closed or not.

Every step of the engine from a state `New` hands to `Torment` keeps the
phase or takes one transition of the spec's machine; the one exception is
`Torment`'s first statement into a pool already closed, which takes `start`
and `close` at once (`lifecycle_refines`).  So `Drained` is entered only
from `Cancelling`, by the return of `Wait`, and never left.  The one step
that needs an argument is the release: `Wait` returns only once every
worker has exited, and a worker exits only after a `SpawnJob` refusal,
which the pools of `New` give only when closed (`Engine.Settled`).

The same fact bounds a time-boxed run from below: a timer pool not
cancelled closes only at its deadline, so `Wait` returns only once the
whole duration has passed (`timer_drains_after_duration`).
-/
import Loadbot.Accounting
import Loadbot.Cancel

namespace Loadbot

/-! ### The spec's lifecycle -/

/-- Modelled from the spec: the states of a workload run. -/
inductive Phase
  | idle
  | running
  | cancelling
  | drained
  deriving DecidableEq, Repr

/-- Modelled from the spec: the transitions of a workload run. -/
inductive Phase.Next : Phase → Phase → Prop
  | start : Phase.Next .idle .running
  | close : Phase.Next .running .cancelling
  | release : Phase.Next .cancelling .drained

/-- The phase of the run an engine state is in. -/
def Engine.phase {N : Nat} {τ : Type} (s : Engine N PoolState τ) : Phase :=
  if s.torment.drained then .drained
  else if s.torment = .notify then .idle
  else if s.pool.closed s.now then .cancelling
  else .running

section PhaseOf

variable {N : Nat} {τ : Type} (s : Engine N PoolState τ)

theorem Engine.phase_of_drained (hd : s.torment.drained = true) : s.phase = .drained := by
  simp [Engine.phase, hd]

theorem Engine.phase_of_notify (hn : s.torment = .notify) : s.phase = .idle := by
  simp [Engine.phase, hn, TormentPc.drained]

/-- Between the start and the release, the phase is the pool's. -/
theorem Engine.phase_of_started (hd : s.torment.drained = false) (hn : s.torment ≠ .notify) :
    s.phase = if s.pool.closed s.now then .cancelling else .running := by
  simp [Engine.phase, hd, hn]

end PhaseOf

/-- Only the pool closing moves a started run, by one `close`. -/
theorem Phase.next_of_closed {c c₁ : Bool} (h : c = true → c₁ = true) :
    (if c₁ then Phase.cancelling else .running) = (if c then .cancelling else .running) ∨
      Phase.Next (if c then .cancelling else .running) (if c₁ then .cancelling else .running) := by
  cases c <;> cases c₁
  · exact .inl rfl
  · exact .inr .close
  · exact absurd (h rfl) (by decide)
  · exact .inl rfl

/-! ### Workers leave only a closed pool -/

section Settled

variable {N : Nat} {τ : Type} (L : Limiter τ)

/-- Once a worker is out of its loop, the pool is closed. -/
def Engine.Settled (s : Engine N PoolState τ) : Prop :=
  ∀ w, (s.workers w).left → s.pool.closed s.now = true

theorem Engine.Settled.init (N : Nat) (wg : WaitGroup) (pool : PoolState) (rateLimiter : τ)
    (now : Int) : (Engine.init N wg pool rateLimiter now).Settled := fun _ h => by
  simp [Engine.init, WorkerPc.left] at h

/-- **Every step keeps the pool closed behind the workers that left**: a
worker leaves only on a refusal, which comes from a closed pool. -/
theorem Engine.Settled.next {s s₁ : Engine N PoolState τ} {e : Event N} (hs : s.Settled)
    (h : step jobPool L s e = some s₁) : s₁.Settled := by
  have keep : (∃ w, (s.workers w).left) → s₁.pool.closed s₁.now = true := fun ⟨w, hw⟩ =>
    (closed_next jobPool L jobPool_closes (hs w hw) h).1
  intro w hw
  cases Engine.Step.of_step jobPool L h with
  | @refuse w' _ hr =>
    -- the refusal closes, or finds closed, the pool
    by_cases hw' : w = w'
    · exact PoolState.closed_of_spawnJob_false hr
    · exact keep ⟨w, by simpa [Function.update_noteq hw'] using hw⟩
  | @done w' _ hw' _ => exact keep ⟨w', by simp [hw', WorkerPc.left]⟩
  | grant _ _ | startWorker _ _ | take _ _ | perform _ | markJobDone _ =>
    exact keep (left_of_update ⟨w, hw⟩ rfl)
  | _ => exact keep ⟨w, hw⟩

/-- **One step moves the phase along the spec's machine**: it keeps the
phase, or takes one transition, the release only by `Wait`, or starts
straight into a pool already closed. -/
theorem phase_next {s s₁ : Engine N PoolState τ} {e : Event N} (hN : 0 < N) (hb : s.Barrier)
    (hs : s.Settled) (h : step jobPool L s e = some s₁) :
    s₁.phase = s.phase ∨ (Phase.Next s.phase s₁.phase ∧ (s₁.phase = .drained → e = .wait)) ∨
      (e = .notify ∧ Phase.Next s.phase .running ∧ Phase.Next .running s₁.phase) := by
  have hc : s.pool.closed s.now = true → s₁.pool.closed s₁.now = true :=
    fun hc => (closed_next jobPool L jobPool_closes hc h).1
  -- between the start and the release only the pool moves the phase
  have hopen : s.torment.drained = false → s.torment ≠ .notify → s₁.torment.drained = false →
      s₁.torment ≠ .notify →
      s₁.phase = s.phase ∨ (Phase.Next s.phase s₁.phase ∧ (s₁.phase = .drained → e = .wait)) :=
    fun hd hn hd₁ hn₁ => by
      rw [s.phase_of_started hd hn, s₁.phase_of_started hd₁ hn₁]
      exact (Phase.next_of_closed hc).imp_right fun hn => ⟨hn, by split <;> simp⟩
  rcases torment_next jobPool L h with ht | ⟨ht, ht₁, rfl⟩ | ⟨i, ht, ht₁⟩ | ⟨ht, h0, ht₁, rfl⟩ |
    ⟨ht, ht₁, -⟩
  · -- `Torment` did not move: only the pool may close
    by_cases hd : s.torment.drained
    · exact .inl (by rw [s.phase_of_drained hd, s₁.phase_of_drained (ht ▸ hd)])
    by_cases hn : s.torment = .notify
    · exact .inl (by rw [s.phase_of_notify hn, s₁.phase_of_notify (ht ▸ hn)])
    exact (hopen (by simpa using hd) hn (by simpa [ht] using hd) (ht ▸ hn)).imp_right .inl
  · -- the start, into an open or a closed pool
    rw [s.phase_of_notify ht,
      s₁.phase_of_started (by simp [ht₁, TormentPc.drained]) (by simp [ht₁])]
    split
    · exact .inr (.inr ⟨rfl, .start, .close⟩)
    · exact .inr (.inl ⟨.start, by simp⟩)
  · -- `Torment` starts a worker, or ends its loop
    refine (hopen (by simp [ht, TormentPc.drained]) (by simp [ht]) ?_ ?_).imp_right .inl <;>
      rcases ht₁ with h | h <;> simp [h, TormentPc.drained]
  · -- the release: every worker has exited, so the pool is closed
    have hx := exited_of_sum_live (hb.wg ▸ h0) ⟨0, hN⟩
    have hcl := hs ⟨0, hN⟩ (by simp [hx, WorkerPc.left])
    rw [s.phase_of_started (by simp [ht, TormentPc.drained]) (by simp [ht]), hcl,
      s₁.phase_of_drained (by simp [ht₁, TormentPc.drained])]
    exact .inr (.inl ⟨.release, fun _ => rfl⟩)
  · -- the report
    exact .inl (by rw [s.phase_of_drained (by simp [ht, TormentPc.drained]),
      s₁.phase_of_drained (by simp [ht₁, TormentPc.drained])])

end Settled

/-- From the state `New` hands to `Torment`, every reachable state keeps the
barrier and the settled pool. -/
theorem lifecycle_of_reachable {τ : Type} (L : Limiter τ) {N : Nat} (hN : N < 2 ^ 31)
    (pool : PoolState) (rateLimiter : τ) (now : Int) {s : Engine N PoolState τ}
    (hs : Reachable jobPool L (Engine.init N ⟨N⟩ pool rateLimiter now) s) :
    s.Barrier ∧ s.Settled :=
  let ⟨_, hrun⟩ := hs
  @run_invariant _ _ _ jobPool L (fun s => s.Barrier ∧ s.Settled)
    (fun _ _ _ hi hst => ⟨hi.1.next jobPool L hst, hi.2.next L hst⟩) _ _ _ hrun
    ⟨Engine.Barrier.init N hN pool rateLimiter now, Engine.Settled.init N _ pool rateLimiter now⟩

/-- **The engine refines the spec's lifecycle.**  With `1 ≤ N < 2^31`
workers, whatever the pool, the limiter and the schedule, a run starts in
`Idle`, and every step from a reachable state keeps the phase or takes one
transition of `Idle → Running → Cancelling → Drained`, or, as `Torment`'s
first statement into a pool already closed, `start` and `close` at once.
So `Drained` is entered only from `Cancelling`, by the return of `Wait`,
and never left. -/
theorem lifecycle_refines {τ : Type} (L : Limiter τ) {N : Nat} (hN : 0 < N) (hN' : N < 2 ^ 31)
    (pool : PoolState) (rateLimiter : τ) (now : Int) {s : Engine N PoolState τ}
    (hs : Reachable jobPool L (Engine.init N ⟨N⟩ pool rateLimiter now) s) :
    (Engine.init N ⟨N⟩ pool rateLimiter now).phase = .idle ∧
      ∀ e s₁, step jobPool L s e = some s₁ →
        s₁.phase = s.phase ∨ (Phase.Next s.phase s₁.phase ∧ (s₁.phase = .drained → e = .wait)) ∨
          (e = .notify ∧ Phase.Next s.phase .running ∧ Phase.Next .running s₁.phase) := by
  obtain ⟨hb, hst⟩ := lifecycle_of_reachable L hN' pool rateLimiter now hs
  exact ⟨Engine.phase_of_notify _ rfl, fun _ _ h => phase_next L hN hb hst h⟩

/-- A count-bounded run of one job, cancelled after its job was done: the
worker's return leaves the run `Cancelling`, and `Wait` then releases it. -/
theorem lifecycle_refines_one_job :
    ∃ s, run jobPool noLimitLimiter (Engine.init 1 ⟨1⟩ ((PoolKind.deduction 2).init 0) () 0)
        [.notify, .startWorker, .startWorker, .spawnJob 0, .take 0, .perform 0, .markJobDone 0,
          .signal, .receive, .cancel, .spawnJob 0, .done 0] = some s ∧
      s.phase = .cancelling ∧
      ((Engine.init 1 ⟨1⟩ ((PoolKind.deduction 2).init 0) () 0 : Engine 1 PoolState Unit).phase =
          .idle ∧
        ∀ e s₁, step jobPool noLimitLimiter s e = some s₁ →
          s₁.phase = s.phase ∨ (Phase.Next s.phase s₁.phase ∧ (s₁.phase = .drained → e = .wait)) ∨
            (e = .notify ∧ Phase.Next s.phase .running ∧ Phase.Next .running s₁.phase)) := by
  have hs : run jobPool noLimitLimiter (Engine.init 1 ⟨1⟩ ((PoolKind.deduction 2).init 0) () 0)
      [.notify, .startWorker, .startWorker, .spawnJob 0, .take 0, .perform 0, .markJobDone 0,
        .signal, .receive, .cancel, .spawnJob 0, .done 0] = some _ := rfl
  exact ⟨_, hs, rfl, lifecycle_refines noLimitLimiter (by decide) (by decide)
    ((PoolKind.deduction 2).init 0) () 0 ⟨_, hs⟩⟩

/-! ### A time-boxed run is never cut short -/

section Timer

variable {N : Nat} {τ : Type} (L : Limiter τ)

/-- Every step keeps the pool's kind and the time it was created. -/
theorem pool_kind_start_next {s s₁ : Engine N PoolState τ} {e : Event N}
    (h : step jobPool L s e = some s₁) :
    s₁.pool.kind = s.pool.kind ∧ s₁.pool.start = s.pool.start := by
  rcases pool_next jobPool L h with ⟨hp, -⟩ | ⟨hp, -⟩ | ⟨-, -, hp, -⟩ | ⟨hp, -⟩ <;> rw [hp]
  · exact ⟨rfl, rfl⟩
  · -- `SpawnJob` moves only the remaining count
    have h2 := PoolState.spawnJob_snd s.pool s.now
    have hk := congrArg PoolState.kind h2
    have hs := congrArg PoolState.start h2
    exact ⟨hk, hs⟩
  · exact ⟨rfl, rfl⟩
  · exact ⟨rfl, rfl⟩

/-- **A time-boxed run is never cut short.**  With `1 ≤ N < 2^31` workers and a
duration-bounded pool created at `created`, whatever the limiter and the
schedule: once `Wait` has returned with the pool not cancelled, the whole
duration has passed since the pool was created. -/
theorem timer_drains_after_duration (hN : 0 < N) (hN' : N < 2 ^ 31) (duration : GoInt)
    (rateLimiter : τ)
    (created now : Int) {s : Engine N PoolState τ}
    (hs : Reachable jobPool L
      (Engine.init N ⟨N⟩ ((PoolKind.timer duration).init created) rateLimiter now) s)
    (hd : s.torment.drained = true) (hc : s.pool.cancelled = false) :
    duration.toInt ≤ s.now - created := by
  obtain ⟨hb, hst⟩ := lifecycle_of_reachable L hN' _ rateLimiter now hs
  obtain ⟨hk, h0⟩ : s.pool.kind = .timer duration ∧ s.pool.start = created :=
    let ⟨_, hrun⟩ := hs
    @run_invariant _ _ _ jobPool L (fun s => s.pool.kind = .timer duration ∧ s.pool.start = created)
      (fun _ _ _ hi hst => (pool_kind_start_next L hst).imp (·.trans hi.1) (·.trans hi.2))
      _ _ _ hrun ⟨rfl, rfl⟩
  -- every worker has returned, each after a refusal, so the pool is closed
  have hcl := hst ⟨0, hN⟩ (by simp [hb.drained hd, WorkerPc.left])
  simpa [PoolState.closed, hc, hk, h0] using hcl

end Timer

/-- A pool of 10 time units: its one worker is refused at 10, and `Wait`
returns then. -/
theorem timer_drains_at_deadline :
    ∃ s, run jobPool noLimitLimiter (Engine.init 1 ⟨1⟩ ((PoolKind.timer 10).init 0) () 0)
        [.notify, .startWorker, .startWorker, .tick 10, .spawnJob 0, .done 0, .wait] = some s ∧
      s.torment.drained = true ∧ s.pool.cancelled = false ∧ (10 : GoInt).toInt ≤ s.now - 0 := by
  have hs : run jobPool noLimitLimiter (Engine.init 1 ⟨1⟩ ((PoolKind.timer 10).init 0) () 0)
      [.notify, .startWorker, .startWorker, .tick 10, .spawnJob 0, .done 0, .wait] = some _ := rfl
  exact ⟨_, hs, rfl, rfl,
    timer_drains_after_duration noLimitLimiter (by decide) (by decide) 10 () 0 0 ⟨_, hs⟩ rfl rfl⟩

end Loadbot
