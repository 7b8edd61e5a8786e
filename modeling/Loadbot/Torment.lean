/-
Loadbot/Torment.lean

`Torment` as the CLI runs it: on the `mongoload` that `New` returned, with
an interrupt free to arrive at any point.

An interrupt that comes before `signal.Notify` meets the default action of
`SIGINT` and ends the process.  From `signal.Notify` on the interrupt
goroutine stands ready, and once it has returned the pool is cancelled
(`Engine.Armed`).  So from every state a schedule reaches, the events of
one interrupt after `signal.Notify` (the signal, its receipt,
`ml.cancel()`) close the pool, and the drain of `Loadbot.Drain` then runs
`Torment` to its end: the wait barrier releases whenever the interrupt
comes (`interrupt_drains`).

`new_then_torment` puts the modules together: whenever `New` is given
`0 ≤ conns < 2^31`, the engine `Torment` starts from its result has at
least one worker and a `WaitGroup` at that count, so the barrier and the
tally hold along every schedule of it.
-/
import Loadbot.Drain
import Loadbot.Lifecycle

namespace Loadbot

/-! ### The interrupt goroutine stands ready -/

/-- The events that carry one interrupt to `ml.cancel()` from where the
interrupt goroutine stands, after `signal.Notify`; none once it has
returned. -/
def InterruptPc.events {N : Nat} : InterruptPc → List (Event N)
  | .off => [.notify, .signal, .receive, .cancel]
  | .receive => [.signal, .receive, .cancel]
  | .cancel => [.cancel]
  | .exited => []

section Armed

variable {N : Nat} {σ τ : Type} (P : JobPool σ) (L : Limiter τ)
variable {closed : σ → Int → Prop} (hP : P.Closes closed)

/-- The interrupt goroutine is off only before `signal.Notify`, and once it
has returned the pool is closed. -/
structure Engine.Armed (closed : σ → Int → Prop) (s : Engine N σ τ) : Prop where
  off : s.interrupt = .off → s.torment = .notify
  exited : s.interrupt = .exited → closed s.pool s.now

theorem Engine.Armed.init (N : Nat) (wg : WaitGroup) (pool : σ) (rateLimiter : τ) (now : Int) :
    (Engine.init N wg pool rateLimiter now).Armed closed where
  off _ := rfl
  exited h := by cases h

include hP

/-- **Every step keeps the interrupt goroutine armed**: only `signal.Notify`
starts it and only `ml.cancel()` ends it, and a closed pool stays closed. -/
theorem Engine.Armed.next {s s₁ : Engine N σ τ} {e : Event N} (hs : s.Armed closed)
    (h : step P L s e = some s₁) : s₁.Armed closed := by
  have keep : s.interrupt = .exited → closed s₁.pool s₁.now := fun hx =>
    (closed_next P L hP (hs.exited hx) h).1
  cases Engine.Step.of_step P L h with
  | notify _ | receive _ _ => exact ⟨(nomatch ·), (nomatch ·)⟩
  | cancel _ => exact ⟨(nomatch ·), fun _ => hP.cancel _ _⟩
  | startWorker ht _ | started ht _ | wait ht _ | report ht =>
    exact ⟨fun hi => by simp [hs.off hi] at ht, keep⟩
  | _ => exact ⟨hs.off, keep⟩

/-- From an armed state of a live process, the events of one interrupt run
and close the pool, and the process lives on. -/
theorem interrupt_closes {s : Engine N σ τ} (hp : s.panic = none) (hk : s.killed = false)
    (hs : s.Armed closed) :
    ∃ s₁, run P L s s.interrupt.events = some s₁ ∧ closed s₁.pool s₁.now ∧ s₁.killed = false := by
  cases hi : s.interrupt with
  | off =>
    refine ⟨{ s with torment := .starting 0, interrupt := .exited, signalled := false,
                     pool := P.cancel s.pool }, ?_, hP.cancel _ _, hk⟩
    simp [InterruptPc.events, run, step, Engine.exec, hp, hk, hi, hs.off hi]
  | receive =>
    refine ⟨{ s with interrupt := .exited, signalled := false, pool := P.cancel s.pool },
      ?_, hP.cancel _ _, hk⟩
    simp [InterruptPc.events, run, step, Engine.exec, hp, hk, hi]
  | cancel =>
    exact ⟨{ s with interrupt := .exited, pool := P.cancel s.pool },
      by simp [InterruptPc.events, run, step, Engine.exec, hp, hk, hi], hP.cancel _ _, hk⟩
  | exited => exact ⟨s, rfl, hs.exited hi, hk⟩

end Armed

/-! ### An interrupt at any point -/

/-- **Whenever the interrupt comes, `Torment` returns, or the process
ends.**  With `N < 2^31` workers, from every state a schedule reaches in a
live process, whatever the pool: an interrupt before `signal.Notify` ends
the process, and nothing runs after it; after `signal.Notify` (which
`Torment` may run first), the events of one interrupt close the pool, and
then, with a limiter that holds no caller forever, some schedule runs
`Torment` to its end. -/
theorem interrupt_drains {τ : Type} (L : Limiter τ) (hL : L.Grants) {N : Nat} (hN : N < 2 ^ 31)
    (pool : PoolState) (rateLimiter : τ) (now : Int) {s : Engine N PoolState τ}
    (hs : Reachable jobPool L (Engine.init N ⟨N⟩ pool rateLimiter now) s) (hk : s.killed = false) :
    (s.interrupt = .off →
      ∃ s₁, step jobPool L s .signal = some s₁ ∧ ∀ e, step jobPool L s₁ e = none) ∧
    ∃ es s' r el, run jobPool L s (s.interrupt.events ++ es) = some s' ∧
      s'.torment = .finished r el := by
  obtain ⟨es₀, h₀⟩ := hs
  have hb := barrier_of_reachable jobPool L (Engine.Barrier.init N hN pool rateLimiter now)
    ⟨es₀, h₀⟩
  refine ⟨fun hi => ⟨_, step_of_rule jobPool L hb.panic hk (.kill hi), fun _ => by simp [step]⟩,
    ?_⟩
  have ha := run_invariant jobPool L (fun _ _ _ hs hst => hs.next jobPool L jobPool_closes hst) h₀
    (Engine.Armed.init N ⟨N⟩ pool rateLimiter now)
  obtain ⟨s₁, h₁, hc, hk₁⟩ := interrupt_closes jobPool L jobPool_closes hb.panic hk ha
  -- the interrupted state is reached from the start too
  have hr : Reachable jobPool L (Engine.init N ⟨N⟩ pool rateLimiter now) s₁ :=
    ⟨es₀ ++ s.interrupt.events, by rw [run_append, h₀]; exact h₁⟩
  obtain ⟨es, s', r, el, h₂, hf⟩ := drain jobPool L jobPool_closes hL _ (Nat.lt_succ_self _)
    (barrier_of_reachable jobPool L (Engine.Barrier.init N hN pool rateLimiter now) hr)
    (started_of_reachable jobPool L _ _ _ _ hr) hk₁ hc
  exact ⟨es, s', r, el, by rw [run_append, h₁]; exact h₂, hf⟩

/-- Interrupted at the start of `Torment`: before `signal.Notify` the
process ends; after it, an unbounded run of one worker drains. -/
theorem interrupt_drains_at_start :
    noLimitLimiter.Grants ∧ 1 < 2 ^ 31 ∧
      (∃ s₁, step jobPool noLimitLimiter (Engine.init 1 ⟨1⟩ (PoolKind.noLimitTimer.init 0) () 0)
          .signal = some s₁ ∧ ∀ e, step jobPool noLimitLimiter s₁ e = none) ∧
      ∃ es s' r el, run jobPool noLimitLimiter
        (Engine.init 1 ⟨1⟩ (PoolKind.noLimitTimer.init 0) () 0)
        ([.notify, .signal, .receive, .cancel] ++ es) = some s' ∧ s'.torment = .finished r el := by
  have h := @interrupt_drains _ noLimitLimiter noLimitLimiter_grants 1 (by decide)
    (PoolKind.noLimitTimer.init 0) () 0 _ ⟨[], rfl⟩ rfl
  exact ⟨noLimitLimiter_grants, by decide, h.1 rfl, h.2⟩

/-! ### `New`, then `Torment` -/

section NewThenTorment

variable {δ : Type}

/-- The engine at `ml.Torment()`: the workers, the `WaitGroup` and the pool
of `ml`, the pool created at `created`, `Torment` called at `now`. -/
def Mongoload.torment {τ : Type} (ml : Mongoload δ) (rateLimiter : τ) (created now : Int) :
    Engine ml.concurrentConnections.toInt.toNat PoolState τ :=
  Engine.init _ ml.wg (ml.pool.init created) rateLimiter now

/-- An engine whose `WaitGroup` holds its worker count starts `Torment`
with the counter at the number of workers, as the engine modules assume. -/
theorem Mongoload.torment_eq {τ : Type} {ml : Mongoload δ}
    (h : ml.wg.counter = ml.concurrentConnections.toInt) (h0 : 0 ≤ ml.concurrentConnections.toInt)
    (rateLimiter : τ) (created now : Int) :
    ml.torment rateLimiter created now =
      Engine.init _ ⟨ml.concurrentConnections.toInt.toNat⟩ (ml.pool.init created) rateLimiter
        now := by
  have : (ml.concurrentConnections.toInt.toNat : Int) = ml.wg.counter := by
    rw [h, Int.toNat_of_nonneg h0]
  rw [Mongoload.torment, this]

/-- **`New`, then `Torment`.**  Whenever `New` is given `0 ≤ conns < 2^31`,
it returns an engine of at least one worker, and along every schedule of
`Torment` on it, whatever the limiter and the clock: the process never
panics, the `WaitGroup` counter is the workers not yet returned, and the
total `Torment` prints is the number of jobs granted. -/
theorem new_then_torment (ops conns rateLimit duration : GoInt) (database : δ)
    (h0 : 0 ≤ conns.toInt) (h1 : conns.toInt < 2 ^ 31) :
    ∃ ml, new ops conns rateLimit duration database = .ok (ml, none) ∧
      1 ≤ ml.concurrentConnections.toInt.toNat ∧
      ∀ {τ : Type} (L : Limiter τ) (rateLimiter : τ) (created now : Int) s,
        Reachable jobPool L (ml.torment rateLimiter created now) s →
          s.panic = none ∧ s.wg.counter = ml.concurrentConnections.toInt - s.exitedCount ∧
          (∀ r el, s.torment = .finished r el → r = s.granted) := by
  have hc : 0 ≤ toInt32 conns.toInt := by rw [toInt32_of_lt (by omega) h1]; exact h0
  obtain ⟨ml, hnew, hcfg⟩ := new_of_nonneg ops conns rateLimit duration database hc
  obtain ⟨hpos, hlt, hwg⟩ := hcfg.counter_eq h0 h1
  have hN : ((ml.concurrentConnections.toInt.toNat : Nat) : Int) = ml.concurrentConnections.toInt :=
    Int.toNat_of_nonneg (by omega)
  refine ⟨ml, hnew, by omega, fun L rateLimiter created now s hs => ?_⟩
  rw [Mongoload.torment_eq hwg (by omega)] at hs
  obtain ⟨hb, ht⟩ := tallied_of_reachable L (by omega) ml.pool rateLimiter created now hs
  exact ⟨hb.panic, by rw [hb.wg, sum_live, hN]; rfl, fun _ _ hf => ht.report_granted hb hf⟩

/-- `New` with every argument zero: an unbounded pool and the default of
100 workers. -/
theorem new_then_torment_defaults :
    0 ≤ (0 : GoInt).toInt ∧ (0 : GoInt).toInt < 2 ^ 31 ∧
      ∃ ml, new 0 0 0 0 () = .ok (ml, none) ∧ 1 ≤ ml.concurrentConnections.toInt.toNat ∧
        ∀ {τ : Type} (L : Limiter τ) (rateLimiter : τ) (created now : Int) s,
          Reachable jobPool L (ml.torment rateLimiter created now) s →
            s.panic = none ∧ s.wg.counter = ml.concurrentConnections.toInt - s.exitedCount ∧
            (∀ r el, s.torment = .finished r el → r = s.granted) :=
  ⟨by decide, by decide, new_then_torment 0 0 0 0 () (by decide) (by decide)⟩

end NewThenTorment

end Loadbot
