/-
Loadbot/Barrier.lean

The wait barrier of `Torment` and the accounting of granted jobs, over every
interleaving of the `N` workers, every pool and every limiter.

The invariant `Engine.Barrier` reads the shared counters as sums of what
each worker contributes:

    wg.counter       = Σ w, live w       (`New` added one per worker; `Done` takes it back)
    granted - marked = Σ w, holding w    (a job is held from `SpawnJob` to `MarkJobDone`)

The counter is the runtime's 32-bit one, so the invariant is kept only for
`N < 2^31` workers (`Engine.Barrier.bound`).  Every step keeps it
(`Engine.Barrier.next`), so every reachable state has it
(`barrier_of_reachable`).  From it: the counter is `N` minus the number of
exited workers and never negative, `Done` never panics, `Wait` returns only
once every worker has exited, and then `MarkJobDone` has run exactly once
per granted job (`torment_barrier`).  Past the bound the barrier fails:
`New` with `2^32` workers leaves the counter at zero, and `Wait` returns
before any worker has run (`wait_of_zero`, `torment_barrier_wraps`).
-/
import Mathlib.Algebra.Order.BigOperators.Group.Finset
import Mathlib.Algebra.Order.Ring.Int
import Loadbot.Engine

namespace Loadbot

/-! ### Contributions of one worker -/

/-- A worker's share of the `WaitGroup` counter. -/
def WorkerPc.live : WorkerPc → Int
  | .exited => 0
  | _ => 1

/-- A worker holds a granted job from `SpawnJob() = true` to `MarkJobDone`. -/
def WorkerPc.holding : WorkerPc → Int
  | .take | .perform | .markJobDone => 1
  | _ => 0

/-- The workers `Torment` has started, as a prefix of `Fin N`. -/
def TormentPc.launched (N : Nat) : TormentPc → Nat
  | .notify => 0
  | .starting i => i
  | _ => N

/-- `Wait` has returned. -/
def TormentPc.drained : TormentPc → Bool
  | .report | .finished _ _ => true
  | _ => false

section Barrier

variable {N : Nat} {σ τ : Type} (P : JobPool σ) (L : Limiter τ)

/-- The number of workers that have returned. -/
def Engine.exitedCount (s : Engine N σ τ) : Nat :=
  (Finset.univ.filter fun w => s.workers w = .exited).card

theorem live_nonneg (pc : WorkerPc) : 0 ≤ pc.live := by
  cases pc <;> decide

theorem sum_live (f : Fin N → WorkerPc) :
    ∑ w, (f w).live = N - ((Finset.univ.filter fun w => f w = .exited).card : Int) := by
  have h : ∀ w, (f w).live = 1 - if f w = .exited then 1 else 0 := fun w => by
    cases f w <;> rfl
  simp only [h, Finset.sum_sub_distrib, Finset.card_filter, Nat.cast_sum, Nat.cast_ite]
  simp

/-- The counter reaches zero only when every worker has returned. -/
theorem exited_of_sum_live {f : Fin N → WorkerPc} (h : ∑ w, (f w).live = 0) (w : Fin N) :
    f w = .exited := by
  have hn : ∀ k ∈ Finset.univ, 0 ≤ (f k).live := fun k _ => live_nonneg (f k)
  have := (Finset.sum_eq_zero_iff_of_nonneg hn).mp h w (Finset.mem_univ w)
  revert this
  cases f w <;> decide

/-- The barrier invariant, for a worker count that fits the `int32` counter. -/
structure Engine.Barrier (s : Engine N σ τ) : Prop where
  bound : N < 2 ^ 31
  panic : s.panic = none
  wg : s.wg.counter = ∑ w, (s.workers w).live
  granted : (s.granted : Int) = s.marked + ∑ w, (s.workers w).holding
  idle : ∀ w : Fin N, s.torment.launched N ≤ w → s.workers w = .idle
  drained : s.torment.drained → ∀ w, s.workers w = .exited

theorem Engine.Barrier.init (N : Nat) (hN : N < 2 ^ 31) (pool : σ) (rateLimiter : τ)
    (now : Int) : (Engine.init N ⟨N⟩ pool rateLimiter now).Barrier where
  bound := hN
  panic := rfl
  wg := by simp [Engine.init, WorkerPc.live]
  granted := by simp [Engine.init, WorkerPc.holding]
  idle _ _ := rfl
  drained h := by simp [Engine.init, TormentPc.drained] at h

/-! ### Every step keeps the barrier -/

/-- A worker step: one started, not yet returned worker moves to `b`, and
the counters move by the change of its contributions. -/
theorem Engine.Barrier.move {s s' : Engine N σ τ} (hs : s.Barrier) {w : Fin N} {b : WorkerPc}
    (hw : s.workers w ≠ .idle) (hx : s.workers w ≠ .exited)
    (hwk : s'.workers = Function.update s.workers w b) (ht : s'.torment = s.torment)
    (hp : s'.panic = none) (hwg : s'.wg.counter = s.wg.counter + (b.live - (s.workers w).live))
    (hgr : (s'.granted : Int) - s'.marked =
      s.granted - s.marked + (b.holding - (s.workers w).holding)) : s'.Barrier where
  bound := hs.bound
  panic := hp
  wg := by rw [hwk, sum_update_workers, hwg, hs.wg]
  granted := by rw [hwk, sum_update_workers]; have := hs.granted; omega
  idle w' hw' := by
    rw [ht] at hw'
    have hne : w' ≠ w := fun h => hw (h ▸ hs.idle w' hw')
    rw [hwk, Function.update_noteq hne, hs.idle w' hw']
  drained h := absurd (hs.drained (ht ▸ h) w) hx

/-- A step of the environment or of `Torment` that leaves the workers and the
counters alone. -/
theorem Engine.Barrier.frame {s s' : Engine N σ τ} (hs : s.Barrier)
    (hwk : s'.workers = s.workers) (hwg : s'.wg = s.wg) (hg : s'.granted = s.granted)
    (hm : s'.marked = s.marked) (hp : s'.panic = none)
    (hl : ∀ w : Fin N, s'.torment.launched N ≤ w → s.torment.launched N ≤ w)
    (hd : s'.torment.drained → ∀ w, s.workers w = .exited) : s'.Barrier where
  bound := hs.bound
  panic := hp
  wg := by rw [hwk, hwg, hs.wg]
  granted := by rw [hwk, hg, hm, hs.granted]
  idle w hw := by rw [hwk]; exact hs.idle w (hl w hw)
  drained h := by rw [hwk]; exact hd h

/-- `go ml.worker()`: `Torment` starts the next idle worker. -/
theorem Engine.Barrier.launch {s : Engine N σ τ} (hs : s.Barrier) {i : Nat} (hi : i < N)
    (ht : s.torment = .starting i) :
    ({ s.setWorker ⟨i, hi⟩ .spawnJob with torment := .starting (i + 1) } : Engine N σ τ).Barrier := by
  have hidle : s.workers ⟨i, hi⟩ = .idle := hs.idle _ (by simp [ht, TormentPc.launched])
  refine ⟨hs.bound, hs.panic, ?_, ?_, fun w hw => ?_, fun h => by simp [TormentPc.drained] at h⟩
  · simp only [Engine.setWorker_wg, Engine.setWorker_workers, sum_update_workers, hidle, hs.wg]
    simp [WorkerPc.live]
  · simp only [Engine.setWorker_granted, Engine.setWorker_marked, Engine.setWorker_workers,
      sum_update_workers, hidle, hs.granted]
    simp [WorkerPc.holding]
  · have hne : w ≠ ⟨i, hi⟩ := fun h => by simp [h, TormentPc.launched] at hw
    simp only [Engine.setWorker_workers, Function.update_noteq hne]
    exact hs.idle w (by simp [ht, TormentPc.launched] at hw ⊢; omega)

/-- A worker at its deferred `Done` finds the counter positive and below
`2^31`: `Done` does not panic. -/
theorem Engine.Barrier.done_ok {s : Engine N σ τ} (hs : s.Barrier) {w : Fin N}
    (hpc : s.workers w = .done) : s.wg.done = .ok ⟨s.wg.counter - 1⟩ := by
  have hpos : 0 < s.wg.counter := hs.wg ▸ lt_of_lt_of_le (by simp [hpc, WorkerPc.live])
    (Finset.single_le_sum (fun k _ => live_nonneg (s.workers k)) (Finset.mem_univ w))
  have hle : s.wg.counter ≤ N := by rw [hs.wg, sum_live]; omega
  exact WaitGroup.done_of_pos hpos (by have := hs.bound; omega)

/-- **Every step keeps the barrier.** -/
theorem Engine.Barrier.next {s s' : Engine N σ τ} {e : Event N} (hs : s.Barrier)
    (h : step P L s e = some s') : s'.Barrier := by
  have keep : ∀ w, s.torment.drained → s.workers w = .exited := fun w hd => hs.drained hd w
  cases Engine.Step.of_step P L h with
  | notify ht =>
    exact hs.frame rfl rfl rfl rfl hs.panic (by simp [TormentPc.launched, ht])
      (by simp [TormentPc.drained])
  | startWorker ht hi => exact hs.launch hi ht
  | started ht hi =>
    exact hs.frame rfl rfl rfl rfl hs.panic (fun w hw => by simp [TormentPc.launched] at hw; omega)
      (by simp [TormentPc.drained])
  | wait ht h0 =>
    exact hs.frame rfl rfl rfl rfl hs.panic (by simp [TormentPc.launched, ht])
      fun _ => exited_of_sum_live (hs.wg ▸ h0)
  | report ht =>
    exact hs.frame rfl rfl rfl rfl hs.panic (by simp [TormentPc.launched, ht])
      fun _ w => keep w (by simp [TormentPc.drained, ht])
  | grant hw _ | refuse hw _ | take hw _ | perform hw | markJobDone hw =>
    exact hs.move (by simp [hw]) (by simp [hw]) rfl rfl hs.panic
      (by simp [hw, WorkerPc.live]) (by simp [hw, WorkerPc.holding]; try omega)
  | done hw hd =>
    rw [hs.done_ok hw] at hd
    cases hd
    exact hs.move (by simp [hw]) (by simp [hw]) rfl rfl hs.panic
      (by simp [hw, WorkerPc.live, sub_eq_add_neg]) (by simp [hw, WorkerPc.holding])
  | donePanic hw hd => simp [hs.done_ok hw] at hd
  | kill _ | signal _ | receive _ _ | cancel _ | tick _ =>
    exact hs.frame rfl rfl rfl rfl hs.panic (fun _ => id) fun hd w => keep w hd

/-! ### Every reachable state -/

theorem barrier_of_reachable {s₀ s : Engine N σ τ} (h₀ : s₀.Barrier)
    (h : Reachable P L s₀ s) : s.Barrier :=
  let ⟨_, hrun⟩ := h
  run_invariant P L (fun _ _ _ hs hst => hs.next P L hst) hrun h₀

/-- With every worker returned, each granted job was marked done once. -/
theorem Engine.Barrier.marked_eq {s : Engine N σ τ} (hs : s.Barrier)
    (hx : ∀ w, s.workers w = .exited) : s.marked = s.granted := by
  have h := hs.granted
  simp only [hx, WorkerPc.holding, Finset.sum_const_zero, add_zero] at h
  exact_mod_cast h.symm

/-- `Wait` can return only when every worker has returned. -/
theorem Engine.Barrier.exited_of_wait {s : Engine N σ τ} (hs : s.Barrier)
    (h : (step P L s .wait).isSome) (w : Fin N) : s.workers w = .exited := by
  obtain ⟨s', h'⟩ := Option.isSome_iff_exists.mp h
  cases Engine.Step.of_step P L h' with
  | wait _ h0 => exact exited_of_sum_live (hs.wg ▸ h0) w

/-- **The wait barrier of `Torment`.**  In every interleaving of the
`N < 2^31` workers with the interrupt handler, for every pool and limiter,
starting from the counter `New` sets: the counter is `N` minus the workers that have
returned and never negative (no `Done` panics); `Wait` returns only once
all `N` have returned; and then, and ever after, `MarkJobDone` has run
exactly as often as `SpawnJob` granted a job. -/
theorem torment_barrier (P : JobPool σ) (L : Limiter τ) (N : Nat) (hN : N < 2 ^ 31) (pool : σ)
    (rateLimiter : τ) (now : Int) {s : Engine N σ τ}
    (h : Reachable P L (Engine.init N ⟨N⟩ pool rateLimiter now) s) :
    s.wg.counter = N - s.exitedCount ∧ 0 ≤ s.wg.counter ∧ s.panic = none ∧
      ((step P L s .wait).isSome → (∀ w, s.workers w = .exited) ∧ s.marked = s.granted) ∧
      (s.torment.drained → (∀ w, s.workers w = .exited) ∧ s.marked = s.granted) := by
  have hs := barrier_of_reachable P L (Engine.Barrier.init N hN pool rateLimiter now) h
  refine ⟨by rw [hs.wg, sum_live]; rfl, hs.wg ▸ Finset.sum_nonneg fun w _ => live_nonneg _,
    hs.panic, fun hw => ?_, fun hd => ⟨hs.drained hd, hs.marked_eq (hs.drained hd)⟩⟩
  have hx := hs.exited_of_wait P L hw
  exact ⟨hx, hs.marked_eq hx⟩

/-- One worker, a count-bounded pool of one job: the run drains, and the job
granted is marked done once. -/
theorem torment_barrier_one_job :
    ∃ s, run jobPool noLimitLimiter (Engine.init 1 ⟨1⟩ ((PoolKind.deduction 1).init 0) () 0)
        [.notify, .startWorker, .startWorker, .spawnJob 0, .take 0, .perform 0, .markJobDone 0,
          .spawnJob 0, .done 0, .wait] = some s ∧
      s.torment = .report ∧ s.granted = 1 ∧ s.marked = s.granted := by
  refine ⟨_, rfl, rfl, rfl, ?_⟩
  exact ((torment_barrier jobPool noLimitLimiter 1 (by decide) ((PoolKind.deduction 1).init 0) () 0
    ⟨[.notify, .startWorker, .startWorker, .spawnJob 0, .take 0, .perform 0, .markJobDone 0,
      .spawnJob 0, .done 0, .wait], rfl⟩).2.2.2.2 rfl).2

/-! ### Past `2^31` workers -/

/-- `Torment`'s loop `go ml.worker()`, `k` times from index `i`: each start
sends an idle worker into its loop and touches neither the counter nor a
worker already started. -/
theorem run_startWorker {s : Engine N σ τ} {i : Nat} (k : Nat) (hp : s.panic = none)
    (hk : s.killed = false) (ht : s.torment = .starting i) (hik : i + k ≤ N) :
    ∃ s', run P L s (List.replicate k .startWorker) = some s' ∧
      s'.torment = .starting (i + k) ∧ s'.wg = s.wg ∧ s'.panic = none ∧ s'.killed = false ∧
      ∀ w, s.workers w ≠ .exited → s'.workers w ≠ .exited := by
  induction k generalizing s i with
  | zero => exact ⟨s, rfl, ht, rfl, hp, hk, fun _ => id⟩
  | succ k ih =>
    have hi : i < N := by omega
    have h₁ := step_of_rule P L hp hk (.startWorker ht hi)
    obtain ⟨s', h₂, ht', hwg, hp', hk', hx⟩ :=
      @ih { s.setWorker ⟨i, hi⟩ .spawnJob with torment := .starting (i + 1) } (i + 1) hp hk rfl
        (by omega)
    refine ⟨s', by rw [List.replicate_succ, run_cons, h₁]; exact h₂, by rw [ht']; congr 1; omega,
      hwg, hp', hk', fun w hw => hx w ?_⟩
    by_cases hwi : w = ⟨i, hi⟩
    · simp [hwi]
    · simpa [Function.update_noteq hwi] using hw

/-- A `WaitGroup` that starts at zero releases `Wait` at once: `Torment`
starts its `N` workers and passes `Wait` before any of them has returned. -/
theorem wait_of_zero (P : JobPool σ) (L : Limiter τ) (N : Nat) (pool : σ) (rateLimiter : τ)
    (now : Int) :
    ∃ s, Reachable P L (Engine.init N ⟨0⟩ pool rateLimiter now) s ∧
      (step P L s .wait).isSome ∧ s.wg.counter = 0 ∧ ∀ w, s.workers w ≠ .exited := by
  have h₁ := step_of_rule P L rfl rfl
    (.notify rfl : Engine.Step P L (Engine.init N ⟨0⟩ pool rateLimiter now) .notify _)
  obtain ⟨s₂, h₂, ht, hwg, hp, hk, hx⟩ := @run_startWorker _ _ _ P L
    { Engine.init N ⟨0⟩ pool rateLimiter now with
      torment := .starting 0, interrupt := .receive } 0 N rfl rfl rfl (le_of_eq (Nat.zero_add _))
  have h₃ := step_of_rule P L hp hk (.started ht (by omega))
  have h0 : s₂.wg.counter = 0 := by rw [hwg]; rfl
  refine ⟨{ s₂ with torment := .wait, start := s₂.now },
    ⟨.notify :: (List.replicate N .startWorker ++ [.startWorker]), ?_⟩, ?_, h0,
    fun w => hx w (by simp [Engine.init])⟩
  · rw [run_cons, h₁, Option.some_bind, run_append, h₂, Option.some_bind, run_cons, h₃]
    rfl
  · exact Option.isSome_iff_exists.mpr ⟨_, step_of_rule P L hp hk (.wait rfl h0)⟩

/-- `wg.Add` wraps at 32 bits: `New` with `2^32` workers returns with the
counter at zero, and `Torment` then starts every worker and passes `Wait`
before any of them has returned. -/
theorem torment_barrier_wraps :
    ∃ ml, new 0 4294967296 0 0 () = .ok (ml, none) ∧ ml.concurrentConnections.toInt = 2 ^ 32 ∧
      ml.wg = ⟨0⟩ ∧ ∃ s, Reachable jobPool noLimitLimiter
        (Engine.init (2 ^ 32) ml.wg (ml.pool.init 0) () 0) s ∧
        (step jobPool noLimitLimiter s .wait).isSome ∧ s.wg.counter = 0 ∧
        ∀ w, s.workers w ≠ .exited :=
  ⟨_, rfl, rfl, rfl, wait_of_zero jobPool noLimitLimiter (2 ^ 32) _ () 0⟩

end Barrier

end Loadbot
