/-
Loadbot/Accounting.lean

What `Torment` reports, for the pools `New` installs (`worker.NewNoLimitTimerJobPool`,
`worker.NewTimerJobPool`, `worker.NewDeductionJobPool`, modelled from the
spec in `Loadbot.Pool`).

For every pool, `Engine.Tallied` ties the pool's count to the engine's
history: `GetRequestsDone` is the number of `MarkJobDone` calls, and
`Torment` prints that number.  With the barrier of `Loadbot.Barrier` it
gives exact-once accounting (`torment_reports_granted`): the total printed
is the number of jobs `SpawnJob` granted, none lost and none counted twice.

For the count-bounded pool of `duration = 0` and `ops > 0`,
`Engine.Counted K` adds that the jobs granted and the jobs remaining add up
to `K`, and that once any worker has left its loop the count was spent or
the pool cancelled.  That gives the spec's count law
(`deduction_requests_done`): for any `1 ≤ N < 2^31` workers and any
interleaving, never more than `K` jobs are granted or done, and when `Wait`
returns without a cancel, exactly `K` were, and `Torment` reports `K`.

Counting the `performSingleOperation` calls of a run as well: each puts
its worker at `MarkJobDone`, which moves it to the tally, so the
operations performed are the jobs marked done plus the workers between the
two (`performed_run`).  The total `Torment` prints is then the number of
operations the database received (`torment_reports_performed`).
-/
import Loadbot.Barrier

namespace Loadbot

/-- The worker has left its loop: `SpawnJob` answered `false`. -/
def WorkerPc.left : WorkerPc → Bool
  | .done | .exited => true
  | _ => false

/-- Moving one worker to a statement inside the loop makes no worker leave it. -/
theorem left_of_update {N : Nat} {f : Fin N → WorkerPc} {w : Fin N} {b : WorkerPc}
    (h : ∃ w', (Function.update f w b w').left) (hb : b.left = false) : ∃ w', (f w').left := by
  obtain ⟨w', hw'⟩ := h
  by_cases hw : w' = w
  · subst hw; simp [hb] at hw'
  · exact ⟨w', by simpa [Function.update_noteq hw] using hw'⟩

section Counted

variable {N : Nat} {τ : Type} (L : Limiter τ)

/-! ### Every pool: the count `Torment` reports -/

/-- `GetRequestsDone` counts the `MarkJobDone` calls, and `Torment` reports
that count. -/
structure Engine.Tallied (s : Engine N PoolState τ) : Prop where
  done : s.pool.requestsDone = s.marked
  report : ∀ r el, s.torment = .finished r el → r = s.marked

theorem Engine.Tallied.init (N : Nat) (wg : WaitGroup) (k : PoolKind) (rateLimiter : τ)
    (created now : Int) : (Engine.init N wg (k.init created) rateLimiter now).Tallied where
  done := rfl
  report _ _ h := by cases h

/-- **Every step keeps the tally**, whatever the pool's kind: only
`MarkJobDone` moves the count, and once `Torment` has reported no worker is
left to move it. -/
theorem Engine.Tallied.next {s s₁ : Engine N PoolState τ} {e : Event N} (hb : s.Barrier)
    (ht : s.Tallied) (h : step jobPool L s e = some s₁) : s₁.Tallied := by
  refine ⟨?_, fun r el hf => ?_⟩
  · rcases pool_next jobPool L h with ⟨hp, hm⟩ | ⟨hp, hm⟩ | ⟨w, -, hp, hm⟩ | ⟨hp, hm⟩ <;>
      simp [hp, hm, jobPool, PoolState.spawnJob_requestsDone, ht.done]
  rcases torment_next jobPool L h with ht₁ | ⟨-, ht₁, -⟩ | ⟨i, -, ht₁ | ht₁⟩ | ⟨-, -, ht₁, -⟩ |
    ⟨-, ht₁, -, hm⟩ <;> rw [ht₁] at hf
  · -- `Torment` had returned: every worker has exited, none marks a job
    have hx := hb.drained (by simp [hf, TormentPc.drained])
    rw [ht.report r el hf]
    rcases pool_next jobPool L h with ⟨-, hm⟩ | ⟨-, hm⟩ | ⟨w, hw, -⟩ | ⟨-, hm⟩
    · exact hm.symm
    · exact hm.symm
    · simp [hx w] at hw
    · exact hm.symm
  -- `Torment` moved: only the report ends at `finished`, and it reads the count
  all_goals try cases hf
  rw [hm]
  exact ht.done

/-- A job is done only after it was granted. -/
theorem Engine.Barrier.marked_le {σ : Type} {s : Engine N σ τ} (hs : s.Barrier) :
    s.marked ≤ s.granted := by
  have h := hs.granted
  have : 0 ≤ ∑ w, (s.workers w).holding :=
    Finset.sum_nonneg fun w _ => by cases s.workers w <;> decide
  omega

theorem tallied_of_reachable (hN : N < 2 ^ 31) (k : PoolKind) (rateLimiter : τ)
    (created now : Int) {s : Engine N PoolState τ}
    (h : Reachable jobPool L (Engine.init N ⟨N⟩ (k.init created) rateLimiter now) s) :
    s.Barrier ∧ s.Tallied :=
  let ⟨_, hrun⟩ := h
  @run_invariant _ _ _ jobPool L (fun s => s.Barrier ∧ s.Tallied)
    (fun _ _ _ hi hst => ⟨hi.1.next jobPool L hst, hi.2.next L hi.1 hst⟩) _ _ _ hrun
    ⟨Engine.Barrier.init N hN _ rateLimiter now, Engine.Tallied.init N _ k rateLimiter created now⟩

/-- Once `Torment` has printed its total, it is the number of jobs granted. -/
theorem Engine.Tallied.report_granted {s : Engine N PoolState τ} (hb : s.Barrier)
    (ht : s.Tallied) {r : Nat} {el : Int} (hf : s.torment = .finished r el) : r = s.granted := by
  rw [ht.report r el hf, hb.marked_eq (hb.drained (by simp [hf, TormentPc.drained]))]

/-- **`Torment` reports every job done, once.**  With `N < 2^31` workers,
whatever pool `New` installed and whatever the schedule: `GetRequestsDone`
is the number of `MarkJobDone` calls, which never exceeds the jobs granted,
and the total `Torment` prints is exactly the number of jobs granted. -/
theorem torment_reports_granted {N : Nat} (hN : N < 2 ^ 31) (k : PoolKind) (rateLimiter : τ)
    (now : Int) {s : Engine N PoolState τ}
    (h : Reachable jobPool L (Engine.init N ⟨N⟩ (k.init now) rateLimiter now) s) :
    s.pool.requestsDone = s.marked ∧ s.marked ≤ s.granted ∧
      ∀ r el, s.torment = .finished r el → r = s.granted := by
  obtain ⟨hb, ht⟩ := tallied_of_reachable L hN k rateLimiter now now h
  exact ⟨ht.done, hb.marked_le, fun _ _ hf => ht.report_granted hb hf⟩

/-- An unbounded pool, cancelled after one job: `Torment` reports one. -/
theorem torment_reports_granted_cancelled :
    ∃ s, run jobPool noLimitLimiter (Engine.init 1 ⟨1⟩ (PoolKind.noLimitTimer.init 0) () 0)
        [.notify, .startWorker, .startWorker, .spawnJob 0, .take 0, .perform 0, .markJobDone 0,
          .signal, .receive, .cancel, .spawnJob 0, .done 0, .wait, .report] = some s ∧
      s.torment = .finished 1 0 ∧
      (s.pool.requestsDone = s.marked ∧ s.marked ≤ s.granted ∧
        ∀ r el, s.torment = .finished r el → r = s.granted) := by
  have hs : run jobPool noLimitLimiter (Engine.init 1 ⟨1⟩ (PoolKind.noLimitTimer.init 0) () 0)
      [.notify, .startWorker, .startWorker, .spawnJob 0, .take 0, .perform 0, .markJobDone 0,
        .signal, .receive, .cancel, .spawnJob 0, .done 0, .wait, .report] = some _ := rfl
  exact ⟨_, hs, rfl, torment_reports_granted noLimitLimiter (by decide) .noLimitTimer () 0 ⟨_, hs⟩⟩

/-! ### A count-bounded pool: the count is `K` -/

/-- The accounting invariant of a count-bounded pool of `K` jobs: the jobs
granted and the jobs remaining add up to `K`, and once a worker has left
its loop the count is spent or the pool cancelled. -/
structure Engine.Counted (K : Nat) (s : Engine N PoolState τ) : Prop where
  kind : s.pool.kind = .deduction K
  granted : s.granted + s.pool.remaining = K
  spent : (∃ w, (s.workers w).left) → s.pool.remaining = 0 ∨ s.pool.cancelled = true

theorem Engine.Counted.init (N K : Nat) (rateLimiter : τ) (now : Int) :
    (Engine.init N ⟨N⟩ ((PoolKind.deduction K).init now) rateLimiter now).Counted K where
  kind := rfl
  granted := by simp [Engine.init, PoolKind.init]
  spent := by simp [Engine.init, WorkerPc.left]

/-- `SpawnJob` of a count-bounded pool: a grant takes one job, a refusal
means the count is spent or the pool cancelled. -/
theorem deduction_spawnJob {K : Nat} {p : PoolState} (hk : p.kind = .deduction K) (now : Int) :
    ((p.spawnJob now).1 = true ∧ (p.spawnJob now).2 = { p with remaining := p.remaining - 1 } ∧
        0 < p.remaining) ∨
      ((p.spawnJob now).1 = false ∧ (p.spawnJob now).2 = p ∧
        (p.remaining = 0 ∨ p.cancelled = true)) := by
  unfold PoolState.spawnJob
  rw [hk]
  cases hc : p.cancelled
  · by_cases hr : 0 < p.remaining
    · simp [hr]
    · simp [hr]; omega
  · simp

/-- **Every step keeps the accounting.** -/
theorem Engine.Counted.next {K : Nat} {s s' : Engine N PoolState τ} {e : Event N}
    (hc : s.Counted K) (h : step jobPool L s e = some s') : s'.Counted K := by
  have keep := hc.spent
  cases Engine.Step.of_step jobPool L h with
  | grant _ hr =>
    rcases deduction_spawnJob hc.kind s.now with ⟨-, h2, hpos⟩ | ⟨h1, -⟩
    · have hg := hc.granted
      refine ⟨?_, ?_, fun hl => .inr ?_⟩ <;> simp only [jobPool, h2, Engine.setWorker_granted]
      · exact hc.kind
      · omega
      · exact (keep (left_of_update hl rfl)).resolve_left (by omega)
    · simp [jobPool, h1] at hr
  | refuse _ hr =>
    rcases deduction_spawnJob hc.kind s.now with ⟨h1, -⟩ | ⟨-, h2, hsp⟩
    · simp [jobPool, h1] at hr
    · refine ⟨?_, ?_, fun _ => ?_⟩ <;> simp only [jobPool, h2, Engine.setWorker_granted]
      exacts [hc.kind, hc.granted, hsp]
  | @done w _ hw _ => exact ⟨hc.kind, hc.granted, fun _ => keep ⟨w, by simp [hw, WorkerPc.left]⟩⟩
  | cancel _ => exact ⟨hc.kind, hc.granted, fun _ => .inr rfl⟩
  | startWorker _ _ | take _ _ | perform _ | markJobDone _ =>
    exact ⟨hc.kind, hc.granted, fun hl => keep (left_of_update hl rfl)⟩
  | _ => exact ⟨hc.1, hc.2, hc.3⟩

theorem counted_of_reachable {K : Nat} (rateLimiter : τ) (now : Int) {s : Engine N PoolState τ}
    (h : Reachable jobPool L (Engine.init N ⟨N⟩ ((PoolKind.deduction K).init now) rateLimiter now) s) :
    s.Counted K :=
  let ⟨_, hrun⟩ := h
  run_invariant jobPool L (fun _ _ _ hs hst => hs.next L hst) hrun
    (Engine.Counted.init N K rateLimiter now)

/-- Once `Wait` has returned with the pool never cancelled, `K` jobs were
done: every worker left on a refusal, and a pool not cancelled refuses only
with the count spent. -/
theorem Engine.Counted.done_eq {N K : Nat} (hN : 0 < N) {s : Engine N PoolState τ}
    (hb : s.Barrier) (ht : s.Tallied) (hc : s.Counted K) (hd : s.torment.drained)
    (hcan : s.pool.cancelled = false) : s.pool.requestsDone = K := by
  have hx := hb.drained hd
  have hr := (hc.spent ⟨⟨0, hN⟩, by simp [hx, WorkerPc.left]⟩).resolve_right (by simp [hcan])
  have := hc.granted
  rw [ht.done, hb.marked_eq hx]
  omega

/-- Once `Torment` has printed its total with the pool never cancelled, it
is the count `K`. -/
theorem Engine.Counted.report_eq {N K : Nat} (hN : 0 < N) {s : Engine N PoolState τ}
    (hb : s.Barrier) (ht : s.Tallied) (hc : s.Counted K) {r : Nat} {el : Int}
    (hf : s.torment = .finished r el) (hcan : s.pool.cancelled = false) : r = K := by
  rw [ht.report r el hf, ← ht.done]
  exact hc.done_eq hN hb ht (by simp [hf, TormentPc.drained]) hcan

/-- **The count law of a count-bounded pool.**  For any `1 ≤ N < 2^31`
workers and any interleaving: no more than `K` jobs are granted, none is
done without being granted; and when `Wait` returns with the pool not
cancelled, exactly `K` jobs were done, which is what `Torment` reports. -/
theorem deduction_requests_done {N : Nat} (hN : 0 < N) (hN' : N < 2 ^ 31) (K : Nat)
    (rateLimiter : τ) (now : Int) {s : Engine N PoolState τ}
    (h : Reachable jobPool L (Engine.init N ⟨N⟩ ((PoolKind.deduction K).init now) rateLimiter now) s) :
    s.pool.requestsDone ≤ s.granted ∧ s.granted ≤ K ∧
      (s.torment.drained → s.pool.cancelled = false → s.pool.requestsDone = K) ∧
      (∀ r el, s.torment = .finished r el → s.pool.cancelled = false → r = K) := by
  have hc := counted_of_reachable L rateLimiter now h
  obtain ⟨hb, ht⟩ := tallied_of_reachable L hN' (.deduction K) rateLimiter now now h
  exact ⟨ht.done ▸ hb.marked_le, by have := hc.granted; omega,
    fun hd hcan => hc.done_eq hN hb ht hd hcan, fun _ _ hf hcan => hc.report_eq hN hb ht hf hcan⟩

/-- Two workers share a pool of two jobs, interleaved: `Torment` reports two. -/
theorem deduction_requests_done_two :
    ∃ s, run jobPool noLimitLimiter (Engine.init 2 ⟨2⟩ ((PoolKind.deduction 2).init 0) () 0)
        [.notify, .startWorker, .startWorker, .startWorker, .spawnJob 0, .spawnJob 1, .take 0,
          .take 1, .perform 1, .perform 0, .markJobDone 0, .markJobDone 1, .spawnJob 1,
          .spawnJob 0, .done 0, .done 1, .wait, .report] = some s ∧
      s.pool.requestsDone ≤ s.granted ∧ s.granted ≤ 2 ∧
      (s.torment.drained → s.pool.cancelled = false → s.pool.requestsDone = 2) ∧
      (∀ r el, s.torment = .finished r el → s.pool.cancelled = false → r = 2) := by
  have hs : run jobPool noLimitLimiter (Engine.init 2 ⟨2⟩ ((PoolKind.deduction 2).init 0) () 0)
      [.notify, .startWorker, .startWorker, .startWorker, .spawnJob 0, .spawnJob 1, .take 0,
        .take 1, .perform 1, .perform 0, .markJobDone 0, .markJobDone 1, .spawnJob 1,
        .spawnJob 0, .done 0, .done 1, .wait, .report] = some _ := rfl
  exact ⟨_, hs, deduction_requests_done noLimitLimiter (by decide) (by decide) 2 () 0 ⟨_, hs⟩⟩

end Counted

/-! ### What reached the database -/

/-- The operation a worker has performed and not yet marked done. -/
def WorkerPc.performed : WorkerPc → Nat
  | .markJobDone => 1
  | _ => 0

/-- A call of `performSingleOperation`, the one database operation of a job. -/
def Event.isPerform {N : Nat} : Event N → Bool
  | .perform _ => true
  | _ => false

section Performed

variable {N : Nat} {σ τ : Type} (P : JobPool σ) (L : Limiter τ)

/-- A worker step, counted in operations: one worker moves from `a` to `b`. -/
theorem performed_move {s s' : Engine N σ τ} {w : Fin N} {a b : WorkerPc} {c : Nat}
    (hw : s.workers w = a) (hwk : s'.workers = Function.update s.workers w b)
    (hm : c + s.marked + a.performed = s'.marked + b.performed) :
    c + s.marked + ∑ k, (s.workers k).performed = s'.marked + ∑ k, (s'.workers k).performed := by
  have := sum_update_add WorkerPc.performed s.workers w b
  rw [hwk]
  rw [hw] at this
  omega

/-- **Every step keeps the count of operations**: `performSingleOperation`
puts its worker at `MarkJobDone`, and `MarkJobDone` moves it to the tally. -/
theorem performed_next {s s₁ : Engine N σ τ} {e : Event N} (hb : s.Barrier)
    (h : step P L s e = some s₁) :
    (if e.isPerform then 1 else 0) + s.marked + ∑ w, (s.workers w).performed =
      s₁.marked + ∑ w, (s₁.workers w).performed := by
  cases Engine.Step.of_step P L h with
  | grant hw _ | refuse hw _ | take hw _ | perform hw | markJobDone hw | done hw _ =>
    exact performed_move hw rfl (by simp [WorkerPc.performed, Event.isPerform] <;> omega)
  | startWorker ht hi =>
    -- the worker `Torment` starts was idle
    exact performed_move (hb.idle _ (by simp [ht, TormentPc.launched])) rfl
      (by simp [WorkerPc.performed, Event.isPerform])
  | _ => simp [Event.isPerform]

/-- Along a run, the operations performed are the `MarkJobDone` calls and
the workers between the two. -/
theorem performed_run {s s' : Engine N σ τ} {es : List (Event N)} (hb : s.Barrier)
    (h : run P L s es = some s') :
    (es.filter Event.isPerform).length + s.marked + ∑ w, (s.workers w).performed =
      s'.marked + ∑ w, (s'.workers w).performed := by
  induction es generalizing s with
  | nil => cases h; simp
  | cons e es ih =>
    obtain ⟨s₁, h₁, h₂⟩ := run_cons_eq_some P L h
    have hstep := performed_next P L hb h₁
    have hrest := ih (hb.next P L h₁) h₂
    cases he : e.isPerform <;>
      simp only [List.filter_cons, he, if_true, if_false, Bool.false_eq_true,
        List.length_cons] at hstep ⊢ <;> omega

/-- A worker holding a performed operation holds its granted job. -/
theorem Engine.Barrier.performed_le {s : Engine N σ τ} (hs : s.Barrier) :
    s.marked + ∑ w, (s.workers w).performed ≤ s.granted := by
  have h := hs.granted
  have : ∑ w, ((s.workers w).performed : Int) ≤ ∑ w, (s.workers w).holding :=
    Finset.sum_le_sum fun w _ => by cases s.workers w <;> decide
  push_cast [← Nat.cast_sum] at this
  omega

end Performed

/-- **Every database operation belongs to one granted job, and `Torment`
prints how many there were.**  With `N < 2^31` workers, whatever pool
`New` installed and whatever the schedule, along every run from the state
`New` hands to `Torment`: the `performSingleOperation` calls are at least
`GetRequestsDone` and at most the jobs granted, and once `Torment` has
printed its total, that total is the number of operations performed. -/
theorem torment_reports_performed {τ : Type} (L : Limiter τ) {N : Nat} (hN : N < 2 ^ 31)
    (k : PoolKind) (rateLimiter : τ) (now : Int) {es : List (Event N)}
    {s' : Engine N PoolState τ}
    (h : run jobPool L (Engine.init N ⟨N⟩ (k.init now) rateLimiter now) es = some s') :
    s'.pool.requestsDone ≤ (es.filter Event.isPerform).length ∧
      (es.filter Event.isPerform).length ≤ s'.granted ∧
      ∀ r el, s'.torment = .finished r el → (es.filter Event.isPerform).length = r := by
  have hp := performed_run jobPool L (Engine.Barrier.init N hN _ rateLimiter now) h
  have h0 : (Engine.init N ⟨N⟩ (k.init now) rateLimiter now).marked +
      ∑ w, ((Engine.init N ⟨N⟩ (k.init now) rateLimiter now).workers w).performed = 0 := by
    simp [Engine.init, WorkerPc.performed]
  obtain ⟨hb, ht⟩ := tallied_of_reachable L hN k rateLimiter now now ⟨es, h⟩
  have := hb.performed_le
  refine ⟨by rw [ht.done]; omega, by omega, fun r el hf => ?_⟩
  -- every worker has returned: none holds a performed operation
  have hx := hb.drained (by simp [hf, TormentPc.drained])
  have hS : ∑ w, (s'.workers w).performed = 0 := by simp [hx, WorkerPc.performed]
  rw [ht.report r el hf]
  omega

/-- One worker, a pool of two jobs: two operations, and `Torment` prints two. -/
theorem torment_reports_performed_two :
    ∃ s, run jobPool noLimitLimiter (Engine.init 1 ⟨1⟩ ((PoolKind.deduction 2).init 0) () 0)
        [.notify, .startWorker, .startWorker, .spawnJob 0, .take 0, .perform 0, .markJobDone 0,
          .spawnJob 0, .take 0, .perform 0, .markJobDone 0, .spawnJob 0, .done 0, .wait,
          .report] = some s ∧
      s.torment = .finished 2 0 ∧
      (s.pool.requestsDone ≤ (([.notify, .startWorker, .startWorker, .spawnJob 0, .take 0,
          .perform 0, .markJobDone 0, .spawnJob 0, .take 0, .perform 0, .markJobDone 0,
          .spawnJob 0, .done 0, .wait, .report] : List (Event 1)).filter Event.isPerform).length ∧
        (([.notify, .startWorker, .startWorker, .spawnJob 0, .take 0, .perform 0, .markJobDone 0,
          .spawnJob 0, .take 0, .perform 0, .markJobDone 0, .spawnJob 0, .done 0, .wait,
          .report] : List (Event 1)).filter Event.isPerform).length ≤ s.granted ∧
        ∀ r el, s.torment = .finished r el → (([.notify, .startWorker, .startWorker, .spawnJob 0,
          .take 0, .perform 0, .markJobDone 0, .spawnJob 0, .take 0, .perform 0, .markJobDone 0,
          .spawnJob 0, .done 0, .wait, .report] : List (Event 1)).filter Event.isPerform).length =
            r) := by
  have hs : run jobPool noLimitLimiter (Engine.init 1 ⟨1⟩ ((PoolKind.deduction 2).init 0) () 0)
      [.notify, .startWorker, .startWorker, .spawnJob 0, .take 0, .perform 0, .markJobDone 0,
        .spawnJob 0, .take 0, .perform 0, .markJobDone 0, .spawnJob 0, .done 0, .wait,
        .report] = some _ := rfl
  exact ⟨_, hs, rfl, torment_reports_performed noLimitLimiter (by decide) (.deduction 2) () 0 hs⟩

end Loadbot
