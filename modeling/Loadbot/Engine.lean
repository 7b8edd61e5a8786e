/-
Loadbot/Engine.lean

The engine of src/unnamed/part_001 as a transition system: `Torment`, the
`N` goroutines running `worker` that it starts, and the interrupt goroutine
that calls `cancel`, interleaved one atomic step at a time.

    func (ml *mongoload) worker() {
        defer ml.wg.Done()
        for ml.pool.SpawnJob() {
            ml.rateLimiter.Take()
            ml.performSingleOperation()
            ml.pool.MarkJobDone()
        }
    }

Each goroutine has a program counter; an `Event` names the statement one
goroutine executes (or the clock moving, or the OS delivering `os.Interrupt`),
and `step` executes it, or answers `none` where it cannot run: at another
statement, blocked in `Take` or `Wait`, or once the process has ended: by a
panic, or by an `os.Interrupt` delivered before `signal.Notify`, whose
default action exits.
The pool and the limiter are the abstract objects of `Loadbot.Pool`, so
every run of every pool and limiter is a run here.

Two history counters record what the code does not store: `granted`, the
`SpawnJob` calls that answered `true`, and `marked`, the `MarkJobDone`
calls.  The database call of `performSingleOperation` leaves no trace in
the engine's state: its result is discarded by `worker`.

`Engine.exec` is the executable semantics; `Engine.Step` states the same
transitions as named rules, one per statement and outcome, and
`exec_iff_step` shows the two agree.  Every invariant of the later modules
is proved by cases on the rules, and run induction (`run_invariant`) lifts
it to every reachable state.
-/
import Mathlib.Algebra.BigOperators.Fin
import Loadbot.New

namespace Loadbot

/-! ### Goroutines -/

/-- Where a `worker` goroutine stands: `idle` until `Torment` starts it, then
at the statement of the same name (`take` blocked while the limiter holds
it), at the deferred `ml.wg.Done()` once the loop has ended, and `exited`
once it has returned. -/
inductive WorkerPc
  | idle | spawnJob | take | perform | markJobDone | done | exited
  deriving DecidableEq, Repr

/-- Where `Torment` stands: at `signal.Notify` and the start of the interrupt
goroutine, in its loop `go ml.worker()` at index `i`, at `ml.wg.Wait()`, at
`GetRequestsDone` and the summary, and returned having printed
`requestsDone` operations in `elapsed`. -/
inductive TormentPc
  | notify
  | starting (i : Nat)
  | wait
  | report
  | finished (requestsDone : Nat) (elapsed : Int)
  deriving DecidableEq, Repr

/-- Where the interrupt goroutine of `Torment` stands: `off` before
`signal.Notify`, blocked in `<-interruptChan`, at `ml.cancel()`, and
returned. -/
inductive InterruptPc
  | off | receive | cancel | exited
  deriving DecidableEq, Repr

/-- The engine during `Torment` with `N` workers, pool state `σ` and limiter
state `τ`.  `signalled` is the one slot of `interruptChan`; `panic` is the
message of a runtime panic, and `killed` an `os.Interrupt` that came before
`signal.Notify`, whose default action ends the process. -/
structure Engine (N : Nat) (σ τ : Type) where
  pool : σ
  rateLimiter : τ
  wg : WaitGroup
  now : Int
  start : Int
  torment : TormentPc
  workers : Fin N → WorkerPc
  interrupt : InterruptPc
  signalled : Bool
  panic : Option String
  killed : Bool
  granted : Nat
  marked : Nat

/-- The engine `New` hands to `Torment`: `wg.Add(N)` done, nothing started. -/
def Engine.init {σ τ : Type} (N : Nat) (wg : WaitGroup) (pool : σ) (rateLimiter : τ)
    (now : Int) : Engine N σ τ where
  pool := pool
  rateLimiter := rateLimiter
  wg := wg
  now := now
  start := 0
  torment := .notify
  workers := fun _ => .idle
  interrupt := .off
  signalled := false
  panic := none
  killed := false
  granted := 0
  marked := 0

/-- One statement of one goroutine, or a move of the environment. -/
inductive Event (N : Nat)
  | notify
  | startWorker
  | wait
  | report
  | spawnJob (w : Fin N)
  | take (w : Fin N)
  | perform (w : Fin N)
  | markJobDone (w : Fin N)
  | done (w : Fin N)
  | signal
  | receive
  | cancel
  | tick (now : Int)
  deriving DecidableEq, Repr

/-! ### Steps -/

section Step

variable {N : Nat} {σ τ : Type} (P : JobPool σ) (L : Limiter τ)

/-- Move worker `w` to `pc`. -/
@[simps]
def Engine.setWorker (s : Engine N σ τ) (w : Fin N) (pc : WorkerPc) : Engine N σ τ :=
  { s with workers := Function.update s.workers w pc }

/-- Execute one event in a live process. -/
def Engine.exec (s : Engine N σ τ) : Event N → Option (Engine N σ τ)
  | .notify =>
      if s.torment = .notify then some { s with torment := .starting 0, interrupt := .receive }
      else none
  | .startWorker =>
      match s.torment with
      | .starting i =>
          if h : i < N then some { s.setWorker ⟨i, h⟩ .spawnJob with torment := .starting (i + 1) }
          else some { s with torment := .wait, start := s.now }
      | _ => none
  | .wait =>
      if s.torment = .wait ∧ s.wg.counter = 0 then some { s with torment := .report } else none
  | .report =>
      if s.torment = .report then
        some { s with torment := .finished (P.getRequestsDone s.pool) (s.now - s.start) }
      else none
  | .spawnJob w =>
      if s.workers w = .spawnJob then
        let r := P.spawnJob s.pool s.now
        if r.1 then some { s.setWorker w .take with pool := r.2, granted := s.granted + 1 }
        else some { s.setWorker w .done with pool := r.2 }
      else none
  | .take w =>
      if s.workers w = .take then
        (L.take s.rateLimiter s.now).map fun l => { s.setWorker w .perform with rateLimiter := l }
      else none
  | .perform w =>
      if s.workers w = .perform then some (s.setWorker w .markJobDone) else none
  | .markJobDone w =>
      if s.workers w = .markJobDone then
        some { s.setWorker w .spawnJob with pool := P.markJobDone s.pool, marked := s.marked + 1 }
      else none
  | .done w =>
      if s.workers w = .done then
        match s.wg.done with
        | .ok wg => some { s.setWorker w .exited with wg }
        | .error e => some { s with panic := some e }
      else none
  | .signal =>
      if s.interrupt = .off then some { s with killed := true }
      else some { s with signalled := true }
  | .receive =>
      if s.interrupt = .receive ∧ s.signalled then
        some { s with interrupt := .cancel, signalled := false }
      else none
  | .cancel =>
      if s.interrupt = .cancel then some { s with pool := P.cancel s.pool, interrupt := .exited }
      else none
  | .tick t => if s.now ≤ t then some { s with now := t } else none

/-- One step of the engine: nothing runs once the process has ended. -/
def step (s : Engine N σ τ) (e : Event N) : Option (Engine N σ τ) :=
  if s.panic.isSome || s.killed then none else s.exec P L e

/-- Run a schedule of events; `none` if one of them cannot run. -/
def run (s : Engine N σ τ) : List (Event N) → Option (Engine N σ τ)
  | [] => some s
  | e :: es => (step P L s e).bind fun s' => run s' es

@[simp] theorem run_nil (s : Engine N σ τ) : run P L s [] = some s := rfl

theorem run_cons (s : Engine N σ τ) (e : Event N) (es : List (Event N)) :
    run P L s (e :: es) = (step P L s e).bind fun s' => run P L s' es := rfl

/-- A run that succeeds is a first step that succeeds and a run after it. -/
theorem run_cons_eq_some {s s' : Engine N σ τ} {e : Event N} {es : List (Event N)}
    (h : run P L s (e :: es) = some s') :
    ∃ s₁, step P L s e = some s₁ ∧ run P L s₁ es = some s' := by
  rw [run_cons] at h
  cases h₁ : step P L s e with
  | none => rw [h₁] at h; cases h
  | some s₁ => rw [h₁] at h; exact ⟨s₁, rfl, h⟩

theorem run_append (s : Engine N σ τ) (es₁ es₂ : List (Event N)) :
    run P L s (es₁ ++ es₂) = (run P L s es₁).bind fun s' => run P L s' es₂ := by
  induction es₁ generalizing s with
  | nil => rfl
  | cons e es ih => simp only [List.cons_append, run_cons, ih, Option.bind_assoc]

/-- **Run induction**: what every step keeps holds along every run. -/
theorem run_invariant {I : Engine N σ τ → Prop}
    (hstep : ∀ s e s', I s → step P L s e = some s' → I s') :
    ∀ {es : List (Event N)} {s s' : Engine N σ τ}, run P L s es = some s' → I s → I s'
  | [], s, s', h, hs => by cases h; exact hs
  | _ :: _, _, _, h, hs =>
      let ⟨_, h₁, h₂⟩ := run_cons_eq_some P L h
      run_invariant hstep h₂ (hstep _ _ _ hs h₁)

/-- The states some schedule reaches from `s₀`. -/
def Reachable (s₀ s : Engine N σ τ) : Prop := ∃ es, run P L s₀ es = some s

/-! ### The rules of a step -/

/-- The engine's transitions, one rule per statement and outcome, each with
the condition under which `Engine.exec` takes it (`exec_iff_step`).  A rule
is named after the statement it runs; `started` ends `Torment`'s loop,
`grant` and `refuse` are the two answers of `SpawnJob`, `donePanic` is a
`Done` that panics, `kill` an `os.Interrupt` before `signal.Notify` and
`signal` one after it, and `tick` the clock moving. -/
inductive Engine.Step : Engine N σ τ → Event N → Engine N σ τ → Prop
  | notify {s : Engine N σ τ} (ht : s.torment = .notify) :
      Engine.Step s .notify { s with torment := .starting 0, interrupt := .receive }
  | startWorker {s : Engine N σ τ} {i : Nat} (ht : s.torment = .starting i) (hi : i < N) :
      Engine.Step s .startWorker
        { s.setWorker ⟨i, hi⟩ .spawnJob with torment := .starting (i + 1) }
  | started {s : Engine N σ τ} {i : Nat} (ht : s.torment = .starting i) (hi : ¬i < N) :
      Engine.Step s .startWorker { s with torment := .wait, start := s.now }
  | wait {s : Engine N σ τ} (ht : s.torment = .wait) (h0 : s.wg.counter = 0) :
      Engine.Step s .wait { s with torment := .report }
  | report {s : Engine N σ τ} (ht : s.torment = .report) :
      Engine.Step s .report
        { s with torment := .finished (P.getRequestsDone s.pool) (s.now - s.start) }
  | grant {s : Engine N σ τ} {w : Fin N} (hw : s.workers w = .spawnJob)
      (hr : (P.spawnJob s.pool s.now).1 = true) :
      Engine.Step s (.spawnJob w)
        { s.setWorker w .take with pool := (P.spawnJob s.pool s.now).2, granted := s.granted + 1 }
  | refuse {s : Engine N σ τ} {w : Fin N} (hw : s.workers w = .spawnJob)
      (hr : (P.spawnJob s.pool s.now).1 = false) :
      Engine.Step s (.spawnJob w) { s.setWorker w .done with pool := (P.spawnJob s.pool s.now).2 }
  | take {s : Engine N σ τ} {w : Fin N} {l : τ} (hw : s.workers w = .take)
      (hl : L.take s.rateLimiter s.now = some l) :
      Engine.Step s (.take w) { s.setWorker w .perform with rateLimiter := l }
  | perform {s : Engine N σ τ} {w : Fin N} (hw : s.workers w = .perform) :
      Engine.Step s (.perform w) (s.setWorker w .markJobDone)
  | markJobDone {s : Engine N σ τ} {w : Fin N} (hw : s.workers w = .markJobDone) :
      Engine.Step s (.markJobDone w)
        { s.setWorker w .spawnJob with pool := P.markJobDone s.pool, marked := s.marked + 1 }
  | done {s : Engine N σ τ} {w : Fin N} {wg : WaitGroup} (hw : s.workers w = .done)
      (hd : s.wg.done = .ok wg) :
      Engine.Step s (.done w) { s.setWorker w .exited with wg }
  | donePanic {s : Engine N σ τ} {w : Fin N} {msg : String} (hw : s.workers w = .done)
      (hd : s.wg.done = .error msg) :
      Engine.Step s (.done w) { s with panic := some msg }
  | kill {s : Engine N σ τ} (hi : s.interrupt = .off) :
      Engine.Step s .signal { s with killed := true }
  | signal {s : Engine N σ τ} (hi : s.interrupt ≠ .off) :
      Engine.Step s .signal { s with signalled := true }
  | receive {s : Engine N σ τ} (hi : s.interrupt = .receive) (hs : s.signalled = true) :
      Engine.Step s .receive { s with interrupt := .cancel, signalled := false }
  | cancel {s : Engine N σ τ} (hi : s.interrupt = .cancel) :
      Engine.Step s .cancel { s with pool := P.cancel s.pool, interrupt := .exited }
  | tick {s : Engine N σ τ} {t : Int} (ht : s.now ≤ t) :
      Engine.Step s (.tick t) { s with now := t }

/-- **`Engine.exec` is the rules**: it runs an event exactly as one of the
rules says. -/
theorem exec_iff_step {s s' : Engine N σ τ} {e : Event N} :
    s.exec P L e = some s' ↔ Engine.Step P L s e s' := by
  constructor
  · intro h
    cases e <;> simp only [Engine.exec] at h
    case notify =>
      split at h <;> cases h
      exact .notify ‹_›
    case startWorker =>
      split at h <;> try split at h
      all_goals cases h
      · exact .startWorker ‹_› ‹_›
      · exact .started ‹_› ‹_›
    case wait =>
      split at h <;> cases h
      exact .wait ‹_ ∧ _›.1 ‹_ ∧ _›.2
    case report =>
      split at h <;> cases h
      exact .report ‹_›
    case spawnJob =>
      split at h
      · split at h <;> cases h
        · exact .grant ‹_› ‹_›
        · exact .refuse ‹_› (Bool.eq_false_iff.mpr ‹_›)
      · cases h
    case take =>
      split at h
      · obtain ⟨l, hl, rfl⟩ := Option.map_eq_some'.mp h
        exact .take ‹_› hl
      · cases h
    case perform =>
      split at h <;> cases h
      exact .perform ‹_›
    case markJobDone =>
      split at h <;> cases h
      exact .markJobDone ‹_›
    case done =>
      split at h
      · split at h <;> cases h
        · exact .done ‹_› ‹_›
        · exact .donePanic ‹_› ‹_›
      · cases h
    case signal =>
      split at h <;> cases h
      · exact .kill ‹_›
      · exact .signal ‹_›
    case receive =>
      split at h <;> cases h
      exact .receive ‹_ ∧ _›.1 ‹_ ∧ _›.2
    case cancel =>
      split at h <;> cases h
      exact .cancel ‹_›
    case tick =>
      split at h <;> cases h
      exact .tick ‹_›
  · intro h
    cases h <;> simp_all [Engine.exec]

/-- A step of a live process follows the rules. -/
theorem Engine.Step.of_step {s s' : Engine N σ τ} {e : Event N} (h : step P L s e = some s') :
    Engine.Step P L s e s' := by
  unfold step at h
  split at h
  · cases h
  · exact (exec_iff_step P L).mp h

/-- In a live process every rule can fire. -/
theorem step_of_rule {s s' : Engine N σ τ} {e : Event N} (hp : s.panic = none)
    (hk : s.killed = false) (h : Engine.Step P L s e s') : step P L s e = some s' := by
  simp only [step, hp, hk, Option.isSome_none, Bool.or_false, Bool.false_eq_true, if_false]
  exact (exec_iff_step P L).mpr h

/-- What one step can do to `Torment`'s program counter: start, start a
worker, return from `Wait` with the counter at zero, or report what the
pool counts, leaving the pool and the tally alone. -/
theorem torment_next {s s₁ : Engine N σ τ} {e : Event N} (h : step P L s e = some s₁) :
    s₁.torment = s.torment ∨
      (s.torment = .notify ∧ s₁.torment = .starting 0 ∧ e = .notify) ∨
      (∃ i, s.torment = .starting i ∧ (s₁.torment = .starting (i + 1) ∨ s₁.torment = .wait)) ∨
      (s.torment = .wait ∧ s.wg.counter = 0 ∧ s₁.torment = .report ∧ e = .wait) ∨
      (s.torment = .report ∧ s₁.torment = .finished (P.getRequestsDone s.pool) (s.now - s.start) ∧
        s₁.pool = s.pool ∧ s₁.marked = s.marked) := by
  cases Engine.Step.of_step P L h with
  | notify ht => exact .inr (.inl ⟨ht, rfl, rfl⟩)
  | startWorker ht _ => exact .inr (.inr (.inl ⟨_, ht, .inl rfl⟩))
  | started ht _ => exact .inr (.inr (.inl ⟨_, ht, .inr rfl⟩))
  | wait ht h0 => exact .inr (.inr (.inr (.inl ⟨ht, h0, rfl, rfl⟩)))
  | report ht => exact .inr (.inr (.inr (.inr ⟨ht, rfl, rfl, rfl⟩)))
  | _ => exact .inl rfl

/-- What one step can do to the pool and the tally of `MarkJobDone` calls:
`SpawnJob`, a `MarkJobDone` by a worker there, or `Cancel`. -/
theorem pool_next {s s₁ : Engine N σ τ} {e : Event N} (h : step P L s e = some s₁) :
    (s₁.pool = s.pool ∧ s₁.marked = s.marked) ∨
      (s₁.pool = (P.spawnJob s.pool s.now).2 ∧ s₁.marked = s.marked) ∨
      (∃ w, s.workers w = .markJobDone ∧ s₁.pool = P.markJobDone s.pool ∧
        s₁.marked = s.marked + 1) ∨
      (s₁.pool = P.cancel s.pool ∧ s₁.marked = s.marked) := by
  cases Engine.Step.of_step P L h with
  | grant _ _ | refuse _ _ => exact .inr (.inl ⟨rfl, rfl⟩)
  | markJobDone hw => exact .inr (.inr (.inl ⟨_, hw, rfl, rfl⟩))
  | cancel => exact .inr (.inr (.inr ⟨rfl, rfl⟩))
  | _ => exact .inl ⟨rfl, rfl⟩

end Step

/-! ### Counting workers -/

section Count

variable {N : Nat} {σ τ : Type}

/-- **How a sum over the workers changes when one worker moves.** -/
theorem sum_update_add {M : Type} [AddCommMonoid M] (g : WorkerPc → M) (f : Fin N → WorkerPc)
    (w : Fin N) (pc : WorkerPc) :
    ∑ k, g (Function.update f w pc k) + g (f w) = ∑ k, g (f k) + g pc := by
  have hupd : ∑ k, g (Function.update f w pc k) = ∑ k, Function.update (g ∘ f) w (g pc) k := by
    rw [← Function.comp_update]; rfl
  rw [hupd, Finset.sum_update_of_mem (Finset.mem_univ w),
    Finset.sum_eq_add_sum_diff_singleton (Finset.mem_univ w) (fun k => g (f k))]
  simp only [Function.comp]
  ac_rfl

theorem sum_update_workers (g : WorkerPc → Int) (f : Fin N → WorkerPc) (w : Fin N)
    (pc : WorkerPc) :
    ∑ k, g (Function.update f w pc k) = ∑ k, g (f k) + (g pc - g (f w)) := by
  have := sum_update_add g f w pc
  omega

end Count

end Loadbot
