/-
Loadbot/Drain.lean

The drain of `Torment`: once its pool is closed, by `cancel`, past a timer
pool's deadline or with a count-bounded pool spent, the engine runs down.

Each goroutine has a number of statements left (`Engine.stepsLeft`): a
worker that can no longer be granted a job runs at most through
`Take`, `performSingleOperation`, `MarkJobDone`, one refused `SpawnJob` and
the deferred `Done`; `Torment` starts the workers it has not started,
`Wait`s and reports.  Every statement spends one (`stepsLeft_next`), so no
schedule, however it interleaves interrupts and the clock, runs more than
`6 * N + 8` statements after the close (`program_steps_le`).

Nor can the engine get stuck: until `Torment` returns, some goroutine can
run (`progress`), provided only that the limiter does not hold a caller
forever (`Limiter.Grants`) and that no interrupt before `signal.Notify`
has ended the process; the drain runs no interrupt, so the process stays
alive (`killed_next`).  Together they give `drain_after_close`: the
wait barrier of `Torment` always releases after the pool closes.

The argument holds for any measure the program's statements spend and any
invariant the steps keep (`program_steps_le_of`, `drain_of`).  A
count-bounded pool is the other case: a grant adds three statements but
takes one of the `K` jobs, so the statements left plus four per job the
pool still holds (`Engine.budget`) fall at every statement, open pool or
not.  No run of a count-bounded pool executes more than `4 * K + 4 * N + 8`
statements, and one with no interrupt ends with `Torment` reporting `K`
(`deduction_terminates`).
-/
import Loadbot.Accounting
import Loadbot.Cancel

namespace Loadbot

/-! ### Statements left -/

/-- Statements a worker has still to run once the pool grants no more jobs. -/
def WorkerPc.steps : WorkerPc → Nat
  | .idle | .markJobDone => 3
  | .spawnJob => 2
  | .take => 5
  | .perform => 4
  | .done => 1
  | .exited => 0

/-- Statements `Torment` has still to run; `notify` also starts the
interrupt goroutine. -/
def TormentPc.steps (N : Nat) : TormentPc → Nat
  | .notify => N + 6
  | .starting i => N - i + 3
  | .wait => 2
  | .report => 1
  | .finished _ _ => 0

/-- Statements the interrupt goroutine has still to run. -/
def InterruptPc.steps : InterruptPc → Nat
  | .off | .receive => 2
  | .cancel => 1
  | .exited => 0

/-- The statements of the program still to run once the pool is closed. -/
def Engine.stepsLeft {N : Nat} {σ τ : Type} (s : Engine N σ τ) : Nat :=
  ∑ w, (s.workers w).steps + s.torment.steps N + s.interrupt.steps

/-- A statement of the program, not a move of its environment. -/
def Event.isProgram {N : Nat} : Event N → Bool
  | .signal | .tick _ => false
  | _ => true

theorem WorkerPc.steps_le (pc : WorkerPc) : pc.steps ≤ 5 := by
  cases pc <;> decide

theorem TormentPc.steps_le (N : Nat) (pc : TormentPc) : pc.steps N ≤ N + 6 := by
  cases pc <;> simp only [TormentPc.steps] <;> omega

theorem InterruptPc.steps_le (pc : InterruptPc) : pc.steps ≤ 2 := by
  cases pc <;> decide

theorem Engine.stepsLeft_le {N : Nat} {σ τ : Type} (s : Engine N σ τ) :
    s.stepsLeft ≤ 6 * N + 8 := by
  have hw : ∑ w, (s.workers w).steps ≤ ∑ _w : Fin N, 5 :=
    Finset.sum_le_sum fun w _ => (s.workers w).steps_le
  have := s.torment.steps_le N
  have := s.interrupt.steps_le
  simp only [Finset.sum_const, Finset.card_univ, Fintype.card_fin, smul_eq_mul] at hw
  unfold Engine.stepsLeft
  omega

/-- One worker moving from `a` to `b`. -/
theorem steps_update {N : Nat} {f : Fin N → WorkerPc} {w : Fin N} {a : WorkerPc} (b : WorkerPc)
    (ha : f w = a) : ∑ k, (Function.update f w b k).steps + a.steps = ∑ k, (f k).steps + b.steps :=
  ha ▸ sum_update_add _ f w b

/-- A worker's statement that grants no job spends one of the statements
left. -/
theorem stepsLeft_move {N : Nat} {σ τ : Type} {s s' : Engine N σ τ} {w : Fin N} {a b : WorkerPc}
    (hw : s.workers w = a) (hwk : s'.workers = Function.update s.workers w b)
    (ht : s'.torment = s.torment) (hi : s'.interrupt = s.interrupt)
    (hg : s'.granted = s.granted) (hab : b.steps < a.steps) :
    s'.stepsLeft + 4 * s.granted + 1 ≤ s.stepsLeft + 4 * s'.granted := by
  have := steps_update b hw
  unfold Engine.stepsLeft
  rw [hwk, ht, hi, hg]
  omega

/-! ### Started workers -/

section Started

variable {N : Nat} {σ τ : Type} (P : JobPool σ) (L : Limiter τ)

/-- Every worker `Torment` has started has left `idle`. -/
def Engine.Started (s : Engine N σ τ) : Prop :=
  ∀ w : Fin N, (w : Nat) < s.torment.launched N → s.workers w ≠ .idle

theorem Engine.Started.init (N : Nat) (wg : WaitGroup) (pool : σ) (rateLimiter : τ) (now : Int) :
    (Engine.init N wg pool rateLimiter now).Started := fun _ h => by
  simp [Engine.init, TormentPc.launched] at h

/-- A worker step: one worker moves to a statement other than `idle`. -/
theorem Engine.Started.move {s s' : Engine N σ τ} (hs : s.Started) (w : Fin N) {b : WorkerPc}
    (hwk : s'.workers = Function.update s.workers w b) (ht : s'.torment = s.torment)
    (hb : b ≠ .idle) : s'.Started := fun w' hw' => by
  rw [ht] at hw'
  by_cases h : w' = w
  · simpa [hwk, h] using hb
  · rw [hwk, Function.update_noteq h]
    exact hs w' hw'

/-- A step that moves no worker and starts none. -/
theorem Engine.Started.frame {s s' : Engine N σ τ} (hs : s.Started)
    (hwk : s'.workers = s.workers) (hl : s'.torment.launched N ≤ s.torment.launched N) :
    s'.Started := fun w hw => hwk ▸ hs w (by omega)

/-- **Every step keeps the started workers started.** -/
theorem Engine.Started.next {s s' : Engine N σ τ} {e : Event N} (hs : s.Started)
    (h : step P L s e = some s') : s'.Started := by
  cases Engine.Step.of_step P L h with
  | @startWorker i ht hi =>
    -- `go ml.worker()` for worker `i`
    intro w hw
    simp only [Engine.setWorker_workers, TormentPc.launched] at hw ⊢
    by_cases hwi : w = ⟨i, hi⟩
    · subst hwi; simp
    · rw [Function.update_noteq hwi]
      have : (w : Nat) ≠ i := fun h => hwi (Fin.ext h)
      exact hs w (by rw [ht, TormentPc.launched]; omega)
  | started ht hi => exact hs.frame rfl (by simp only [ht, TormentPc.launched]; omega)
  | notify ht | wait ht _ | report ht => exact hs.frame rfl (by simp [TormentPc.launched, ht])
  | @grant w _ _ | @refuse w _ _ | @take w _ _ _ | @perform w _ | @markJobDone w _
  | @done w _ _ _ => exact hs.move w rfl rfl (by decide)
  | _ => exact hs.frame rfl le_rfl

theorem started_of_reachable {s : Engine N σ τ} (wg : WaitGroup) (pool : σ) (rateLimiter : τ)
    (now : Int) (h : Reachable P L (Engine.init N wg pool rateLimiter now) s) : s.Started :=
  let ⟨_, hrun⟩ := h
  run_invariant P L (fun _ _ _ hs hst => hs.next P L hst) hrun (Engine.Started.init N wg _ _ _)

end Started

/-! ### Every statement spends one -/

/-- An event of the interrupt: the OS delivering it, its receipt, `ml.cancel()`. -/
def Event.isInterrupt {N : Nat} : Event N → Bool
  | .signal | .receive | .cancel => true
  | _ => false

section Uninterrupted

variable {N : Nat} {σ τ : Type} (P : JobPool σ) (L : Limiter τ)

/-- What no step but the interrupt's changes, a run with no interrupt keeps. -/
theorem run_keeps {α : Type} (f : Engine N σ τ → α)
    (hf : ∀ {s s₁ : Engine N σ τ} {e : Event N}, step P L s e = some s₁ →
      e.isInterrupt = false → f s₁ = f s)
    {s s' : Engine N σ τ} {es : List (Event N)} (h : run P L s es = some s')
    (he : ∀ e ∈ es, e.isInterrupt = false) : f s' = f s := by
  induction es generalizing s with
  | nil => cases h; rfl
  | cons e es ih =>
    obtain ⟨s₁, h₁, h₂⟩ := run_cons_eq_some P L h
    rw [ih h₂ fun e' he' => he e' (List.mem_cons_of_mem _ he'),
      hf h₁ (he e (List.mem_cons_self _ _))]

/-- Only an interrupt ends the process by a signal. -/
theorem killed_next {s s₁ : Engine N σ τ} {e : Event N} (h : step P L s e = some s₁)
    (he : e.isInterrupt = false) : s₁.killed = s.killed := by
  cases Engine.Step.of_step P L h with
  | kill _ => cases he
  | _ => rfl

end Uninterrupted

section Spend

variable {N : Nat} {σ τ : Type} (P : JobPool σ) (L : Limiter τ)

/-- **Every statement spends one of the statements left, a grant excepted**:
a grant sends its worker through `Take`, `performSingleOperation` and
`MarkJobDone` again, three statements more, against the one job it takes. -/
theorem stepsLeft_step {s s₁ : Engine N σ τ} {e : Event N} (hb : s.Barrier)
    (h : step P L s e = some s₁) :
    s₁.stepsLeft + 4 * s.granted + (if e.isProgram then 1 else 0) ≤
      s.stepsLeft + 4 * s₁.granted := by
  cases Engine.Step.of_step P L h with
  | grant hw _ =>
    have := steps_update WorkerPc.take hw
    unfold Engine.stepsLeft
    simp only [Engine.setWorker_workers, Engine.setWorker_torment, Engine.setWorker_interrupt,
      WorkerPc.steps, Event.isProgram, if_true] at this ⊢
    omega
  | refuse hw _ | take hw _ | perform hw | markJobDone hw | done hw _ =>
    exact stepsLeft_move hw rfl rfl rfl rfl (by decide)
  | donePanic hw hd => simp [hb.done_ok hw] at hd
  | @startWorker i ht hi =>
    -- `Torment` starts worker `i`, idle until then
    have := steps_update WorkerPc.spawnJob (hb.idle ⟨i, hi⟩ (by simp [ht, TormentPc.launched]))
    unfold Engine.stepsLeft
    simp only [Engine.setWorker_workers, Engine.setWorker_interrupt, Engine.setWorker_granted,
      WorkerPc.steps, TormentPc.steps, Event.isProgram, if_true, ht] at this ⊢
    omega
  | started ht _ =>
    unfold Engine.stepsLeft
    simp only [TormentPc.steps, Event.isProgram, if_true, ht]
    omega
  | notify ht | wait ht _ | report ht | receive ht _ | cancel ht =>
    have := s.interrupt.steps_le
    unfold Engine.stepsLeft
    simp only [TormentPc.steps, InterruptPc.steps, Event.isProgram, if_true, ht]
    omega
  | kill _ | signal _ | tick _ => simp only [Event.isProgram, if_false]; exact le_rfl

end Spend

/-! ### Running down, for any measure the program spends -/

section Measure

variable {N : Nat} {σ τ : Type} (P : JobPool σ) (L : Limiter τ)
variable (μ : Engine N σ τ → Nat) (Q : Engine N σ τ → Prop)
variable (hQ : ∀ {s s₁ : Engine N σ τ} {e : Event N}, Q s → step P L s e = some s₁ → Q s₁)
variable (hμ : ∀ {s s₁ : Engine N σ τ} {e : Event N}, s.Barrier → Q s →
  step P L s e = some s₁ → μ s₁ + (if e.isProgram then 1 else 0) ≤ μ s)
include hQ hμ

/-- **Along any run** the program runs at most the measure it had. -/
theorem program_steps_le_of {s s' : Engine N σ τ} {es : List (Event N)} (hb : s.Barrier)
    (hq : Q s) (h : run P L s es = some s') :
    (es.filter Event.isProgram).length + μ s' ≤ μ s := by
  induction es generalizing s with
  | nil => cases h; simp
  | cons e es ih =>
    obtain ⟨s₁, h₁, h₂⟩ := run_cons_eq_some P L h
    have hstep := hμ hb hq h₁
    have hrest := ih (hb.next P L h₁) (hQ hq h₁) h₂
    cases he : e.isProgram <;>
      simp only [List.filter_cons, he, if_true, if_false, Bool.false_eq_true,
        List.length_cons] at hstep ⊢ <;> omega

omit hQ in
/-- A statement of the program, not of the interrupt, that can run spends
the measure. -/
theorem progress_of_rule {s s₁ : Engine N σ τ} {e : Event N} (hb : s.Barrier)
    (hk : s.killed = false) (hq : Q s) (h : Engine.Step P L s e s₁) (he : e.isProgram = true)
    (hi : e.isInterrupt = false) :
    ∃ es s₂, run P L s es = some s₂ ∧ (∀ e ∈ es, e.isInterrupt = false) ∧ μ s₂ < μ s := by
  have h₁ := step_of_rule P L hb.panic hk h
  have := hμ hb hq h₁
  rw [he, if_pos rfl] at this
  exact ⟨[e], s₁, by rw [run_cons, h₁]; rfl, by simpa using hi, by omega⟩

/-- **No deadlock**: until `Torment` returns, `Torment` or some worker of a
live process can run a statement, once the clock has moved if it waits in
`Take`. -/
theorem progress (hL : L.Grants) {s : Engine N σ τ} (hb : s.Barrier) (hs : s.Started)
    (hk : s.killed = false) (hq : Q s) (hf : ∀ r el, s.torment ≠ .finished r el) :
    ∃ es s₁, run P L s es = some s₁ ∧ (∀ e ∈ es, e.isInterrupt = false) ∧ μ s₁ < μ s := by
  have go := fun {e s₁} (h : Engine.Step P L s e s₁) =>
    progress_of_rule P L μ Q hμ hb hk hq h
  cases ht : s.torment with
  | notify => exact go (.notify ht) rfl rfl
  | starting i =>
    by_cases hi : i < N
    · exact go (.startWorker ht hi) rfl rfl
    · exact go (.started ht hi) rfl rfl
  | report => exact go (.report ht) rfl rfl
  | finished r el => exact absurd ht (hf r el)
  | wait =>
    by_cases h0 : s.wg.counter = 0
    · exact go (.wait ht h0) rfl rfl
    -- `Wait` blocks: some worker has not returned, and it was started
    obtain ⟨w, hw⟩ : ∃ w, s.workers w ≠ .exited :=
      not_forall.mp fun hall => h0 (by rw [hb.wg]; simp [hall, WorkerPc.live])
    cases hpc : s.workers w with
    | idle => exact absurd hpc (hs w (by simp [ht, TormentPc.launched]))
    | exited => exact absurd hpc hw
    | spawnJob =>
      cases hr : (P.spawnJob s.pool s.now).1
      · exact go (.refuse hpc hr) rfl rfl
      · exact go (.grant hpc hr) rfl rfl
    | perform => exact go (.perform hpc) rfl rfl
    | markJobDone => exact go (.markJobDone hpc) rfl rfl
    | done => exact go (.done hpc (hb.done_ok hpc)) rfl rfl
    | take =>
      -- the clock moves to a time at which `Take` returns
      obtain ⟨t, hle, htake⟩ := hL s.rateLimiter s.now
      obtain ⟨l, hl⟩ := Option.isSome_iff_exists.mp htake
      have h₁ := step_of_rule P L hb.panic hk (.tick hle : Engine.Step P L s (.tick t) _)
      have htick := hμ hb hq h₁
      obtain ⟨es, s₂, h₂, hi, hlt⟩ := progress_of_rule P L μ Q hμ (hb.next P L h₁) hk
        (hQ hq h₁) (.take hpc hl) rfl rfl
      refine ⟨.tick t :: es, s₂, by rw [run_cons, h₁]; exact h₂, ?_, ?_⟩
      · simpa [Event.isInterrupt] using hi
      · simp only [Event.isProgram] at htick
        omega

/-- **The drain**: from a live process, some schedule with no interrupt
runs `Torment` to its end. -/
theorem drain_of (hL : L.Grants) (n : Nat) :
    ∀ {s : Engine N σ τ}, μ s < n → s.Barrier → s.Started → s.killed = false → Q s →
      ∃ es s' r el, run P L s es = some s' ∧ (∀ e ∈ es, e.isInterrupt = false) ∧
        s'.torment = .finished r el := by
  induction n with
  | zero => exact fun hn => absurd hn (Nat.not_lt_zero _)
  | succ n ih =>
    intro s hn hb hs hk hq
    by_cases hf : ∃ r el, s.torment = .finished r el
    · obtain ⟨r, el, h⟩ := hf
      exact ⟨[], s, r, el, rfl, by simp, h⟩
    push_neg at hf
    obtain ⟨es₁, s₁, h₁, hi₁, hlt⟩ := progress P L μ Q hQ hμ hL hb hs hk hq hf
    obtain ⟨hb₁, hs₁, hq₁⟩ :=
      @run_invariant _ _ _ P L (fun s => s.Barrier ∧ s.Started ∧ Q s)
        (fun _ _ _ hi hst => ⟨hi.1.next P L hst, hi.2.1.next P L hst, hQ hi.2.2 hst⟩) _ _ _
        h₁ ⟨hb, hs, hq⟩
    have hk₁ : s₁.killed = false := (run_keeps P L Engine.killed (killed_next P L) h₁ hi₁).trans hk
    obtain ⟨es₂, s', r, el, h₂, hi₂, hfin⟩ := ih (by omega) hb₁ hs₁ hk₁ hq₁
    refine ⟨es₁ ++ es₂, s', r, el, by rw [run_append, h₁]; exact h₂, fun e he => ?_, hfin⟩
    rcases List.mem_append.mp he with he | he
    exacts [hi₁ e he, hi₂ e he]

end Measure

/-! ### Running down after the close -/

section Drain

variable {N : Nat} {σ τ : Type} (P : JobPool σ) (L : Limiter τ)
variable {closed : σ → Int → Prop} (hP : P.Closes closed)
include hP

/-- **Every statement spends one of the statements left** once the pool is
closed: it grants no job any more. -/
theorem stepsLeft_next {s s₁ : Engine N σ τ} {e : Event N} (hb : s.Barrier)
    (hc : closed s.pool s.now) (h : step P L s e = some s₁) :
    s₁.stepsLeft + (if e.isProgram then 1 else 0) ≤ s.stepsLeft := by
  have := stepsLeft_step P L hb h
  have := (closed_next P L hP hc h).2.1
  omega

/-- **Along any run from a closed pool** the program runs at most the
statements it had left. -/
theorem program_steps_le {s s' : Engine N σ τ} {es : List (Event N)} (hb : s.Barrier)
    (hc : closed s.pool s.now) (h : run P L s es = some s') :
    (es.filter Event.isProgram).length + s'.stepsLeft ≤ s.stepsLeft :=
  program_steps_le_of P L Engine.stepsLeft (fun s => closed s.pool s.now)
    (fun hc h => (closed_next P L hP hc h).1) (fun hb hc h => stepsLeft_next P L hP hb hc h)
    hb hc h

/-- **The drain after the close**: some schedule runs `Torment` to its end. -/
theorem drain (hL : L.Grants) (n : Nat) {s : Engine N σ τ} (hn : s.stepsLeft < n)
    (hb : s.Barrier) (hs : s.Started) (hk : s.killed = false) (hc : closed s.pool s.now) :
    ∃ es s' r el, run P L s es = some s' ∧ s'.torment = .finished r el :=
  let ⟨es, s', r, el, h, _, hf⟩ := drain_of P L Engine.stepsLeft (fun s => closed s.pool s.now)
    (fun hc h => (closed_next P L hP hc h).1) (fun hb hc h => stepsLeft_next P L hP hb hc h)
    hL n hn hb hs hk hc
  ⟨es, s', r, el, h, hf⟩

end Drain

/-! ### The pools of `New` -/

/-- **After cancel, past the deadline, or with the count spent, `Torment`
returns.**  Whatever pool `New` installed, from every reachable state whose
pool is closed, with `N < 2^31` workers: no schedule runs more than
`6 * N + 8` further statements of the program, and, with a limiter that
holds no caller forever and a process no early interrupt has ended, some
schedule runs `Torment` to its end. -/
theorem drain_after_close {τ : Type} (L : Limiter τ) {N : Nat} (hN : N < 2 ^ 31)
    (pool : PoolState) (rateLimiter : τ) (now : Int) {s : Engine N PoolState τ}
    (hs : Reachable jobPool L (Engine.init N ⟨N⟩ pool rateLimiter now) s)
    (hc : s.pool.closed s.now = true) :
    (∀ es s', run jobPool L s es = some s' → (es.filter Event.isProgram).length ≤ 6 * N + 8) ∧
      (L.Grants → s.killed = false →
        ∃ es s' r el, run jobPool L s es = some s' ∧ s'.torment = .finished r el) := by
  have hb := barrier_of_reachable jobPool L (Engine.Barrier.init N hN pool rateLimiter now) hs
  refine ⟨fun es s' h => ?_, fun hL hk => ?_⟩
  · have := program_steps_le jobPool L jobPool_closes hb hc h
    have := s.stepsLeft_le
    omega
  · exact drain jobPool L jobPool_closes hL _ (Nat.lt_succ_self _) hb
      (started_of_reachable jobPool L _ _ _ _ hs) hk hc

/-- Cancelled right after its one worker was granted a job, the engine
drains. -/
theorem drain_after_cancel_one :
    ∃ s, run jobPool noLimitLimiter (Engine.init 1 ⟨1⟩ (PoolKind.noLimitTimer.init 0) () 0)
        [.notify, .startWorker, .startWorker, .spawnJob 0, .signal, .receive, .cancel] = some s ∧
      s.pool.closed s.now = true ∧
      (∀ es s', run jobPool noLimitLimiter s es = some s' →
        (es.filter Event.isProgram).length ≤ 6 * 1 + 8) ∧
      (noLimitLimiter.Grants → s.killed = false →
        ∃ es s' r el, run jobPool noLimitLimiter s es = some s' ∧ s'.torment = .finished r el) := by
  refine ⟨_, rfl, rfl, ?_⟩
  exact drain_after_close noLimitLimiter (by decide) (PoolKind.noLimitTimer.init 0) () 0
    ⟨[.notify, .startWorker, .startWorker, .spawnJob 0, .signal, .receive, .cancel], rfl⟩ rfl


/-! ### A count-bounded pool runs down on its own -/

section Counted

variable {N : Nat} {τ : Type} (L : Limiter τ)

/-- The statements left, and four for each job a count-bounded pool still
holds. -/
def Engine.budget (s : Engine N PoolState τ) : Nat := s.stepsLeft + 4 * s.pool.remaining

/-- **With a count-bounded pool every statement spends one of the budget**:
a grant adds three statements and takes one of the jobs. -/
theorem budget_next {K : Nat} {s s₁ : Engine N PoolState τ} {e : Event N} (hb : s.Barrier)
    (hc : s.Counted K) (h : step jobPool L s e = some s₁) :
    s₁.budget + (if e.isProgram then 1 else 0) ≤ s.budget := by
  have := stepsLeft_step jobPool L hb h
  have := hc.granted
  have := (hc.next L h).granted
  unfold Engine.budget
  omega

theorem Engine.stepsLeft_init {σ : Type} (N : Nat) (wg : WaitGroup) (pool : σ) (rateLimiter : τ)
    (now : Int) : (Engine.init N wg pool rateLimiter now).stepsLeft = 4 * N + 8 := by
  simp only [Engine.stepsLeft, Engine.init, WorkerPc.steps, TormentPc.steps, InterruptPc.steps,
    Finset.sum_const, Finset.card_univ, Fintype.card_fin, smul_eq_mul]
  omega

/-- Without the interrupt's statements nothing cancels the pool. -/
theorem cancelled_next {s s₁ : Engine N PoolState τ} {e : Event N}
    (h : step jobPool L s e = some s₁) (he : e.isInterrupt = false) :
    s₁.pool.cancelled = s.pool.cancelled := by
  cases Engine.Step.of_step jobPool L h with
  | cancel _ => cases he
  | grant _ _ | refuse _ _ =>
    have := congrArg PoolState.cancelled (PoolState.spawnJob_snd s.pool s.now)
    exact this
  | _ => rfl

/-- **A count-bounded run terminates on its own.**  With `K` jobs, whatever
the limiter and however the workers, `Torment`, the interrupt and the clock
interleave, no run from the state `New` hands to `Torment` executes more
than `4 * K + 4 * N + 8` statements of the program.  And with
`1 ≤ N < 2^31` workers and a limiter that holds no caller forever, from
every state reached in which no early interrupt has ended the process, some
schedule with no interrupt runs `Torment` to its end, which then reports
exactly `K` jobs unless the pool had been cancelled. -/
theorem deduction_terminates (N K : Nat) (hN : 0 < N) (hN' : N < 2 ^ 31) (rateLimiter : τ)
    (now : Int) :
    (∀ es s', run jobPool L (Engine.init N ⟨N⟩ ((PoolKind.deduction K).init now) rateLimiter now)
        es = some s' → (es.filter Event.isProgram).length ≤ 4 * K + 4 * N + 8) ∧
      (L.Grants → ∀ s, Reachable jobPool L
          (Engine.init N ⟨N⟩ ((PoolKind.deduction K).init now) rateLimiter now) s →
        s.killed = false →
        ∃ es s' r el, run jobPool L s es = some s' ∧ (∀ e ∈ es, e.isInterrupt = false) ∧
          s'.torment = .finished r el ∧ (s.pool.cancelled = false → r = K)) := by
  have hQ : ∀ {s s₁ : Engine N PoolState τ} {e : Event N}, s.Counted K →
      step jobPool L s e = some s₁ → s₁.Counted K := fun hc h => hc.next L h
  have hμ : ∀ {s s₁ : Engine N PoolState τ} {e : Event N}, s.Barrier → s.Counted K →
      step jobPool L s e = some s₁ → s₁.budget + (if e.isProgram then 1 else 0) ≤ s.budget :=
    fun hb hc h => budget_next L hb hc h
  refine ⟨fun es s' h => ?_, fun hL s hs hk => ?_⟩
  · have := program_steps_le_of jobPool L Engine.budget (Engine.Counted K) hQ hμ
      (Engine.Barrier.init N hN' _ rateLimiter now) (Engine.Counted.init N K rateLimiter now) h
    unfold Engine.budget at this
    rw [Engine.stepsLeft_init] at this
    simp only [Engine.init, PoolKind.init] at this
    omega
  obtain ⟨es₀, h₀⟩ := hs
  obtain ⟨es, s', r, el, h, hi, hf⟩ := drain_of jobPool L Engine.budget (Engine.Counted K) hQ hμ
    hL _ (Nat.lt_succ_self _)
    (barrier_of_reachable jobPool L (Engine.Barrier.init N hN' _ rateLimiter now) ⟨es₀, h₀⟩)
    (started_of_reachable jobPool L _ _ _ _ ⟨es₀, h₀⟩) hk
    (counted_of_reachable L rateLimiter now ⟨es₀, h₀⟩)
  refine ⟨es, s', r, el, h, hi, hf, fun hcan => ?_⟩
  -- the end state is reached from the start too, with the pool never cancelled
  have hr : Reachable jobPool L (Engine.init N ⟨N⟩ ((PoolKind.deduction K).init now) rateLimiter now) s' :=
    ⟨es₀ ++ es, by rw [run_append, h₀]; exact h⟩
  obtain ⟨hb', ht'⟩ := tallied_of_reachable L hN' (.deduction K) rateLimiter now now hr
  exact (counted_of_reachable L rateLimiter now hr).report_eq hN hb' ht' hf
    ((run_keeps jobPool L (fun s => s.pool.cancelled) (cancelled_next L) h hi).trans hcan)

end Counted

/-- One worker and two jobs, with the limiter that never holds. -/
theorem deduction_terminates_two :
    0 < 1 ∧ 1 < 2 ^ 31 ∧
      ((∀ es s', run jobPool noLimitLimiter
          (Engine.init 1 ⟨1⟩ ((PoolKind.deduction 2).init 0) () 0) es = some s' →
          (es.filter Event.isProgram).length ≤ 4 * 2 + 4 * 1 + 8) ∧
        (noLimitLimiter.Grants → ∀ s, Reachable jobPool noLimitLimiter
            (Engine.init 1 ⟨1⟩ ((PoolKind.deduction 2).init 0) () 0) s → s.killed = false →
          ∃ es s' r el, run jobPool noLimitLimiter s es = some s' ∧
            (∀ e ∈ es, e.isInterrupt = false) ∧ s'.torment = .finished r el ∧
            (s.pool.cancelled = false → r = 2))) :=
  ⟨by decide, by decide, deduction_terminates noLimitLimiter 1 2 (by decide) (by decide) () 0⟩

end Loadbot
