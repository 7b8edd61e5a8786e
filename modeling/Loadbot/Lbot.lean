/-
Loadbot/Lbot.lean

`Lbot.Run` and `Lbot.Cancel` of src/lbot/proto/config_grpc.pb.go: the
agent's start request runs the configured jobs one after another, its stop
request cancels the workers in the shared slice `l.workers`.  The two run
in different goroutines and share `l.workers` with no lock, so the model
interleaves them statement by statement.

    for _, job := range l.config.Jobs {          for _, worker := range l.workers {
        worker, error := driver.NewWorker(..)        worker.Cancel()
        l.workers = append(l.workers, worker)    }
        if error != nil { panic(..) }            l.workers = nil
        defer worker.Close()
        worker.InitIntervalReportingSummary()
        worker.Work()
        worker.Summary()
        worker.ExtendCopySavedFieldsToDataPool()
    }

Workers are named by the index of their job.  `range` evaluates
`l.workers` once, so `Cancel` walks a snapshot.  `driver.Worker` is not
among the sources: its `Work` is modelled from the spec, returning once its
pool stops, which for a job with neither duration nor operation count means
once `Cancel` was called on it.

Before that loop `Run` builds its data pools, one per schema, in a map
keyed by the schema's name, and each job looks its pool up by name:

    for _, sh := range l.config.Schemas { dataPools[sh.Name] = schema.NewDataPool(sh) }
    ...
    dataPool := dataPools[job.Schema]

Main results: a job gets the pool of the last schema declared under its
schema's name, and nil when there is none (`dataPools_lookup`); `Cancel`
calls `Cancel` exactly on the snapshot and nothing else, while `Run` never
waits on it and goes on to the next job (`lbot_cancel_spec`); so a stop
request does not end the run (`lbot_run_after_cancel`).

Over whole runs, with the statements stated once as rules (`Lbot.Step`):
a job with neither duration nor operation count returns from `Work` only
once its worker was cancelled, and the snapshot `Cancel` takes holds no job
past the one in `Work`, all before it having returned.  So one stop request
releases at most one unbounded job, and `Run` returns only if at most one
job is unbounded (`lbot_stop_ends_one_unbounded`).
-/
import Mathlib.Data.List.Infix

namespace Loadbot

/-! ### Data pools -/

/-- `dataPools` after `Run`'s loop over `l.config.Schemas`, a pool named by
the schema it was made from; `none` is Go's nil for a missing key. -/
def dataPools {σ : Type} (name : σ → String) (schemas : List σ) : String → Option σ :=
  schemas.foldl (fun pools sh => Function.update pools (name sh) (some sh)) fun _ => none

/-- The loop's invariant: each key holds the last schema of that name seen,
over what the map held before. -/
theorem foldl_dataPools {σ : Type} (name : σ → String) (schemas : List σ)
    (pools : String → Option σ) (n : String) :
    schemas.foldl (fun pools sh => Function.update pools (name sh) (some sh)) pools n =
      ((schemas.filter fun sh => name sh = n).getLast?).or (pools n) := by
  induction schemas generalizing pools with
  | nil => rfl
  | cons sh rest ih =>
    rw [List.foldl_cons, ih]
    by_cases hn : name sh = n
    · subst hn
      rw [Function.update_same, List.filter_cons_of_pos (by simp), List.getLast?_cons]
      cases (rest.filter fun x => name x = name sh).getLast? <;> rfl
    · simp [Function.update_noteq (Ne.symm hn), hn]

/-- **A job gets the pool of the last schema declared under its schema's
name**: a schema declared again under one name silently replaces the
earlier one, and a job whose schema name matches none gets a nil pool,
with no error. -/
theorem dataPools_lookup {σ : Type} (name : σ → String) (schemas : List σ) (n : String) :
    dataPools name schemas n = (schemas.filter fun sh => name sh = n).getLast? := by
  simp [dataPools, foldl_dataPools]

/-- Modelled from the spec: what `Run` and `driver.Worker.Work` see of a job
of `l.config.Jobs`: whether it is bounded by a duration or an operation
count, so that its `Work` returns without a `Cancel`. -/
structure Job where
  bounded : Bool
  deriving DecidableEq, Repr

/-- Where `Run` stands, at the job of index `k`: at the head of
`for _, job := range l.config.Jobs` with job `k` next, at the `append` once
`driver.NewWorker` has returned, at `if error != nil` (with
`defer worker.Close()` and `InitIntervalReportingSummary`), in
`worker.Work()`, at `worker.Summary()`, at
`worker.ExtendCopySavedFieldsToDataPool()` and the deferred `Close`, and
returned. -/
inductive RunPc
  | loop (k : Nat)
  | append (k : Nat)
  | check (k : Nat)
  | work (k : Nat)
  | summary (k : Nat)
  | extend (k : Nat)
  | finished
  deriving DecidableEq, Repr

/-- Where `Cancel` stands: not called, in its `range` loop with `rest` of
the snapshot still to cancel, at `l.workers = nil`, and returned. -/
inductive CancelPc
  | idle
  | loop (rest : List Nat)
  | clear
  | returned
  deriving DecidableEq, Repr

/-- The shared state: `l.workers`, both goroutines, the error `NewWorker`
returned for the current job, the workers `Cancel` was called on (in
order), and whether the process has panicked. -/
structure Lbot where
  workers : List Nat
  runAt : RunPc
  err : Bool
  cancelAt : CancelPc
  cancelled : List Nat
  panic : Bool
  deriving DecidableEq, Repr

/-- `Run` just called, `Cancel` not yet. -/
def Lbot.init : Lbot :=
  { workers := [], runAt := .loop 0, err := false, cancelAt := .idle, cancelled := [], panic := false }

/-- One statement of `Run` or `Cancel`, named after it: `newWorker` is
`driver.NewWorker` returning with an error or without, `finish` the end of
`Run`'s `range`, `workEnd` the return of `worker.Work()`, `cancel` the call
of `Cancel` with its `range` reading `l.workers`, `cancelWorker` one
iteration of that loop or its end, and `clear` is
`l.workers = nil; return nil`. -/
inductive LbotEvent
  | newWorker (err : Bool)
  | finish
  | append
  | check
  | workEnd
  | summary
  | extend
  | cancel
  | cancelWorker
  | clear
  deriving DecidableEq, Repr

section Step

variable (jobs : List Job)

/-- Modelled from the spec: `Work` of job `k` can return once its pool stops:
at any time for a bounded job, after `Cancel` for an unbounded one. -/
def Lbot.workDone (l : Lbot) (k : Nat) : Bool :=
  (jobs.getD k ⟨false⟩).bounded || l.cancelled.contains k

/-- Execute one statement in a live process. -/
def Lbot.exec (l : Lbot) : LbotEvent → Option Lbot
  | .newWorker err =>
      match l.runAt with
      | .loop k => if k < jobs.length then some { l with runAt := .append k, err } else none
      | _ => none
  | .finish =>
      match l.runAt with
      | .loop k => if jobs.length ≤ k then some { l with runAt := .finished } else none
      | _ => none
  | .append =>
      match l.runAt with
      | .append k => some { l with workers := l.workers ++ [k], runAt := .check k }
      | _ => none
  | .check =>
      match l.runAt with
      | .check k => if l.err then some { l with panic := true } else some { l with runAt := .work k }
      | _ => none
  | .workEnd =>
      match l.runAt with
      | .work k => if l.workDone jobs k then some { l with runAt := .summary k } else none
      | _ => none
  | .summary =>
      match l.runAt with
      | .summary k => some { l with runAt := .extend k }
      | _ => none
  | .extend =>
      match l.runAt with
      | .extend k => some { l with runAt := .loop (k + 1) }
      | _ => none
  | .cancel => if l.cancelAt = .idle then some { l with cancelAt := .loop l.workers } else none
  | .cancelWorker =>
      match l.cancelAt with
      | .loop (w :: rest) => some { l with cancelled := l.cancelled ++ [w], cancelAt := .loop rest }
      | .loop [] => some { l with cancelAt := .clear }
      | _ => none
  | .clear => if l.cancelAt = .clear then some { l with workers := [], cancelAt := .returned } else none

/-- One step: nothing runs after a panic. -/
def Lbot.step (l : Lbot) (e : LbotEvent) : Option Lbot :=
  if l.panic then none else l.exec jobs e

/-- Interleave a schedule; `none` if a statement of it cannot run. -/
def Lbot.interleave (l : Lbot) : List LbotEvent → Option Lbot
  | [] => some l
  | e :: es => (l.step jobs e).bind fun l' => l'.interleave es

theorem Lbot.interleave_cons_eq_some {l l' : Lbot} {e : LbotEvent} {es : List LbotEvent}
    (h : l.interleave jobs (e :: es) = some l') :
    ∃ l₁, l.step jobs e = some l₁ ∧ l₁.interleave jobs es = some l' := by
  simp only [Lbot.interleave, Option.bind_eq_some] at h
  exact h

/-! ### `Run` and `Cancel` leave each other's state alone -/

/-- The statements of `Run`. -/
def LbotEvent.ofRun : LbotEvent → Bool
  | .cancel | .cancelWorker | .clear => false
  | _ => true

theorem Lbot.exec_of_step {l l' : Lbot} {e : LbotEvent} (h : l.step jobs e = some l') :
    l.exec jobs e = some l' := by
  unfold Lbot.step at h
  split at h
  · cases h
  · exact h

/-- `Run` never touches `Cancel`'s state. -/
theorem Lbot.exec_ofRun {l l' : Lbot} {e : LbotEvent} (h : l.exec jobs e = some l')
    (he : e.ofRun = true) : l'.cancelAt = l.cancelAt ∧ l'.cancelled = l.cancelled := by
  cases e <;> simp only [LbotEvent.ofRun, Bool.false_eq_true] at he <;>
    simp only [Lbot.exec] at h <;> split at h <;> (try split at h) <;> cases h <;> exact ⟨rfl, rfl⟩

/-- What a call of `Cancel` has done since `range` took the snapshot `snap`
of `l.workers`: `Cancel` was called on a prefix `pre` of it, after the
workers `base` cancelled before; on all of it once the loop is over. -/
def Lbot.CancelledFrom (base snap : List Nat) (l : Lbot) : Prop :=
  ∃ pre, l.cancelled = base ++ pre ∧
    match l.cancelAt with
    | .idle => False
    | .loop rest => pre ++ rest = snap
    | .clear | .returned => pre = snap

theorem Lbot.CancelledFrom.next {base snap : List Nat} {l l' : Lbot} {e : LbotEvent}
    (hl : l.CancelledFrom base snap) (h : l.step jobs e = some l') :
    l'.CancelledFrom base snap := by
  replace h := l.exec_of_step jobs h
  obtain ⟨pre, hpre, hm⟩ := hl
  cases e with
  | cancel =>
    simp only [Lbot.exec] at h
    split at h <;> cases h
    simp_all
  | cancelWorker =>
    simp only [Lbot.exec] at h
    split at h <;> cases h
    · rename_i w rest hat
      rw [hat] at hm
      exact ⟨pre ++ [w], by simp [hpre], by simpa using hm⟩
    · rename_i hat
      rw [hat] at hm
      exact ⟨pre, hpre, by simpa using hm⟩
  | clear =>
    simp only [Lbot.exec] at h
    split at h <;> cases h
    exact ⟨pre, hpre, by simp_all⟩
  | _ =>
    obtain ⟨hc, hcs⟩ := l.exec_ofRun jobs h rfl
    exact ⟨pre, hcs ▸ hpre, hc ▸ hm⟩

theorem Lbot.CancelledFrom.interleave {base snap : List Nat} {l l' : Lbot}
    {es : List LbotEvent} (hl : l.CancelledFrom base snap) (h : l.interleave jobs es = some l') :
    l'.CancelledFrom base snap := by
  induction es generalizing l with
  | nil => cases h; exact hl
  | cons e es ih =>
    obtain ⟨l₁, h₁, h₂⟩ := l.interleave_cons_eq_some jobs h
    exact ih (hl.next jobs h₁) h₂

end Step

section OneStop

variable (jobs : List Job)

/-- The statements of `Run` and `Cancel` as rules, one per statement and
outcome: `check` is `if error != nil` finding no error and `checkPanic` its
`panic("Worker initialization error")`; `workEnd` needs the job's pool
stopped (`Lbot.workDone`); `cancelWorker` calls `worker.Cancel()` on the
next worker of the snapshot, and `cancelEnd` ends that loop. -/
inductive Lbot.Step : Lbot → LbotEvent → Lbot → Prop
  | newWorker {l : Lbot} {k : Nat} {err : Bool} (hr : l.runAt = .loop k) (hk : k < jobs.length) :
      Lbot.Step l (.newWorker err) { l with runAt := .append k, err }
  | finish {l : Lbot} {k : Nat} (hr : l.runAt = .loop k) (hk : jobs.length ≤ k) :
      Lbot.Step l .finish { l with runAt := .finished }
  | append {l : Lbot} {k : Nat} (hr : l.runAt = .append k) :
      Lbot.Step l .append { l with workers := l.workers ++ [k], runAt := .check k }
  | check {l : Lbot} {k : Nat} (hr : l.runAt = .check k) (he : l.err = false) :
      Lbot.Step l .check { l with runAt := .work k }
  | checkPanic {l : Lbot} {k : Nat} (hr : l.runAt = .check k) (he : l.err = true) :
      Lbot.Step l .check { l with panic := true }
  | workEnd {l : Lbot} {k : Nat} (hr : l.runAt = .work k) (hd : l.workDone jobs k = true) :
      Lbot.Step l .workEnd { l with runAt := .summary k }
  | summary {l : Lbot} {k : Nat} (hr : l.runAt = .summary k) :
      Lbot.Step l .summary { l with runAt := .extend k }
  | extend {l : Lbot} {k : Nat} (hr : l.runAt = .extend k) :
      Lbot.Step l .extend { l with runAt := .loop (k + 1) }
  | cancel {l : Lbot} (hc : l.cancelAt = .idle) :
      Lbot.Step l .cancel { l with cancelAt := .loop l.workers }
  | cancelWorker {l : Lbot} {w : Nat} {rest : List Nat} (hc : l.cancelAt = .loop (w :: rest)) :
      Lbot.Step l .cancelWorker { l with cancelled := l.cancelled ++ [w], cancelAt := .loop rest }
  | cancelEnd {l : Lbot} (hc : l.cancelAt = .loop []) :
      Lbot.Step l .cancelWorker { l with cancelAt := .clear }
  | clear {l : Lbot} (hc : l.cancelAt = .clear) :
      Lbot.Step l .clear { l with workers := [], cancelAt := .returned }

/-- A step of a live process follows the rules. -/
theorem Lbot.Step.of_step {l l' : Lbot} {e : LbotEvent} (h : l.step jobs e = some l') :
    Lbot.Step jobs l e l' := by
  replace h := l.exec_of_step jobs h
  cases e <;> simp only [Lbot.exec] at h
  case newWorker =>
    split at h <;> try split at h
    all_goals cases h
    exact .newWorker ‹_› ‹_›
  case finish =>
    split at h <;> try split at h
    all_goals cases h
    exact .finish ‹_› ‹_›
  case append =>
    split at h <;> cases h
    exact .append ‹_›
  case check =>
    split at h <;> try split at h
    all_goals cases h
    · exact .checkPanic ‹_› ‹_›
    · exact .check ‹_› (Bool.eq_false_iff.mpr ‹_›)
  case workEnd =>
    split at h <;> try split at h
    all_goals cases h
    exact .workEnd ‹_› ‹_›
  case summary =>
    split at h <;> cases h
    exact .summary ‹_›
  case extend =>
    split at h <;> cases h
    exact .extend ‹_›
  case cancel =>
    split at h <;> cases h
    exact .cancel ‹_›
  case cancelWorker =>
    split at h <;> cases h
    · exact .cancelWorker ‹_›
    · exact .cancelEnd ‹_›
  case clear =>
    split at h <;> cases h
    exact .clear ‹_›

/-- The jobs `Run` has called `NewWorker` for; all of them once its loop
is over. -/
def RunPc.started (n : Nat) : RunPc → Nat
  | .loop k => k
  | .append k | .check k | .work k | .summary k | .extend k => k + 1
  | .finished => n

/-- The jobs whose `Work` has returned. -/
def RunPc.worked (n : Nat) : RunPc → Nat
  | .loop k | .append k | .check k | .work k => k
  | .summary k | .extend k => k + 1
  | .finished => n

theorem RunPc.started_le_worked (n : Nat) (pc : RunPc) : pc.started n ≤ pc.worked n + 1 := by
  cases pc <;> simp [RunPc.started, RunPc.worked]

/-- The workers `Cancel`'s loop has still to call `Cancel` on. -/
def CancelPc.pending : CancelPc → List Nat
  | .loop rest => rest
  | _ => []

/-- What one call of `Cancel` can release.  `stop` is the payload: the
workers `Cancel` has called `Cancel` on or will call it on all lie at or
before one job `p`, and every job before `p` is bounded.  The other fields
make it inductive: `Run` starts no job past the list, `l.workers` holds
only jobs it has started, an unbounded job's `Work` has returned only once
its worker was cancelled, and nothing is cancelled before `Cancel` is
called. -/
structure Lbot.OneStop (l : Lbot) : Prop where
  started_le : l.runAt.started jobs.length ≤ jobs.length
  workers : ∀ x ∈ l.workers, x < l.runAt.started jobs.length
  worked : ∀ j < l.runAt.worked jobs.length, (jobs.getD j ⟨false⟩).bounded = false →
    j ∈ l.cancelled
  idle : l.cancelAt = .idle → l.cancelled = []
  stop : l.cancelAt ≠ .idle → ∃ p, (∀ x ∈ l.cancelled ++ l.cancelAt.pending, x ≤ p) ∧
    ∀ j < p, (jobs.getD j ⟨false⟩).bounded = true

theorem Lbot.OneStop.init : Lbot.init.OneStop jobs where
  started_le := Nat.zero_le _
  workers _ h := by cases h
  worked _ h := absurd h (Nat.not_lt_zero _)
  idle _ := rfl
  stop h := absurd rfl h

/-- **Every statement of `Run` or `Cancel` keeps the invariant.** -/
theorem Lbot.OneStop.next {l l' : Lbot} {e : LbotEvent} (hl : l.OneStop jobs)
    (h : l.step jobs e = some l') : l'.OneStop jobs := by
  have hs := hl.started_le
  have hw : ∀ x ∈ l.workers, x < l.runAt.started jobs.length := hl.workers
  cases Lbot.Step.of_step jobs h with
  | newWorker hr hk =>
    rw [hr] at hw
    exact ⟨hk, fun x hx => Nat.lt_succ_of_lt (hw x hx), fun j hj => hl.worked j (by rwa [hr]),
      hl.idle, hl.stop⟩
  | finish hr hk =>
    rw [hr] at hs hw
    exact ⟨le_rfl, fun x hx => Nat.lt_of_lt_of_le (hw x hx) hs,
      fun j hj => hl.worked j (by rw [hr]; exact Nat.lt_of_lt_of_le hj hk), hl.idle, hl.stop⟩
  | append hr =>
    rw [hr] at hs hw
    refine ⟨hs, fun x hx => ?_, fun j hj => hl.worked j (by rwa [hr]), hl.idle, hl.stop⟩
    rcases List.mem_append.mp hx with hx | hx
    · exact hw x hx
    · rw [List.mem_singleton.mp hx]
      exact Nat.lt_succ_self _
  | check hr _ | summary hr | extend hr =>
    rw [hr] at hs hw
    exact ⟨hs, hw, fun j hj => hl.worked j (by rwa [hr]), hl.idle, hl.stop⟩
  | checkPanic _ _ => exact ⟨hs, hw, hl.worked, hl.idle, hl.stop⟩
  | @workEnd k hr hd =>
    rw [hr] at hs hw
    refine ⟨hs, hw, fun j hj hu => ?_, hl.idle, hl.stop⟩
    rcases Nat.lt_succ_iff_lt_or_eq.mp hj with hj | rfl
    · exact hl.worked j (by rwa [hr]) hu
    · -- the job whose `Work` just returned: unbounded, so cancelled
      rw [Lbot.workDone, hu, Bool.false_or] at hd
      simpa using hd
  | cancel hc =>
    have h0 := hl.idle hc
    refine ⟨hs, hw, hl.worked, (nomatch ·), fun _ => ⟨l.runAt.worked jobs.length,
      fun x hx => ?_, fun j hj => ?_⟩⟩
    · -- the snapshot holds the workers `Run` has started, up to the job in `Work`
      have := hw x (by simpa [h0, CancelPc.pending] using hx)
      have := l.runAt.started_le_worked jobs.length
      omega
    · -- no unbounded job was worked before anything was cancelled
      by_contra hb
      have := hl.worked j hj (by simpa using hb)
      simp [h0] at this
  | cancelWorker hc =>
    refine ⟨hs, hw, fun j hj hu => List.mem_append_left _ (hl.worked j hj hu), (nomatch ·),
      fun _ => ?_⟩
    obtain ⟨p, hp, hb⟩ := hl.stop (by simp [hc])
    exact ⟨p, fun x hx => hp x (by simp [hc, CancelPc.pending] at hx ⊢; tauto), hb⟩
  | cancelEnd hc | clear hc =>
    refine ⟨hs, ?_, hl.worked, (nomatch ·), fun _ => ?_⟩
    · first | exact hw | exact fun x hx => by cases hx
    obtain ⟨p, hp, hb⟩ := hl.stop (by simp [hc])
    exact ⟨p, fun x hx => hp x (by simpa [hc, CancelPc.pending] using hx), hb⟩

theorem Lbot.OneStop.interleave {l l' : Lbot} {es : List LbotEvent} (hl : l.OneStop jobs)
    (h : l.interleave jobs es = some l') : l'.OneStop jobs := by
  induction es generalizing l with
  | nil => cases h; exact hl
  | cons e es ih =>
    obtain ⟨l₁, h₁, h₂⟩ := l.interleave_cons_eq_some jobs h
    exact ih (hl.next jobs h₁) h₂

/-- **No two unbounded jobs are both worked**: both would be cancelled, so
both in the snapshot, which ends at a job with every earlier job bounded. -/
theorem Lbot.OneStop.unbounded {l : Lbot} (hl : l.OneStop jobs) {i j : Nat} (hij : i < j)
    (hj : j < l.runAt.worked jobs.length) (hi : (jobs.getD i ⟨false⟩).bounded = false) :
    (jobs.getD j ⟨false⟩).bounded = true := by
  by_contra hu
  have hjc := hl.worked j hj (by simpa using hu)
  obtain ⟨p, hp, hb⟩ := hl.stop fun h => by simp [hl.idle h] at hjc
  have := hp j (List.mem_append_left _ hjc)
  exact Bool.false_ne_true (hi.symm.trans (hb i (by omega)))

end OneStop

/-- At most one of the first `m` elements satisfies `p` when no two of
them do. -/
theorem length_filter_take_le_one {α : Type} (p : α → Bool) (d : α) (xs : List α) (m : Nat)
    (h : ∀ i j, i < j → j < m → p (xs.getD i d) = true → p (xs.getD j d) = false) :
    ((xs.take m).filter p).length ≤ 1 := by
  induction xs generalizing m with
  | nil => simp
  | cons a t ih =>
    cases m with
    | zero => simp
    | succ m =>
      rw [List.take_succ_cons, List.filter_cons]
      split
      · -- `a` is the one: none after it satisfies `p`
        have hnil : (t.take m).filter p = [] := List.filter_eq_nil_iff.mpr fun x hx => by
          obtain ⟨j, hj, rfl⟩ := List.mem_iff_getElem.mp hx
          rw [List.length_take] at hj
          have := h 0 (j + 1) (by omega) (by omega) ‹_›
          rw [List.getD_cons_succ, List.getD_eq_getElem?_getD,
            List.getElem?_eq_getElem (by omega)] at this
          simpa using this
        simp [hnil]
      · exact ih m fun i j hij hjm hi => h (i + 1) (j + 1) (by omega) (by omega) hi

/-- **One stop request releases at most one unbounded job.**  In every
interleaving of `Run` with one call of `Cancel`, `Work` has returned for at
most one job with neither duration nor operation count; so `Run` returns
only if at most one of its jobs is unbounded. -/
theorem lbot_stop_ends_one_unbounded (jobs : List Job) {es : List LbotEvent} {l : Lbot}
    (h : Lbot.init.interleave jobs es = some l) :
    ((jobs.take (l.runAt.worked jobs.length)).filter fun job => !job.bounded).length ≤ 1 ∧
      (l.runAt = .finished → (jobs.filter fun job => !job.bounded).length ≤ 1) := by
  have hl := (Lbot.OneStop.init jobs).interleave jobs h
  have hone := length_filter_take_le_one (fun job => !job.bounded) ⟨false⟩ jobs _
    fun i j hij hj hi => by simpa using hl.unbounded jobs hij hj (by simpa using hi)
  refine ⟨hone, fun hf => ?_⟩
  rw [hf] at hone
  simpa [RunPc.worked] using hone

/-- A stop request during the unbounded middle job of three releases it,
and `Run` returns. -/
theorem lbot_stop_ends_middle_job :
    ∃ l, Lbot.init.interleave [⟨true⟩, ⟨false⟩, ⟨true⟩]
        [.newWorker false, .append, .check, .workEnd, .summary, .extend,
          .newWorker false, .append, .check, .cancel, .cancelWorker, .cancelWorker,
          .cancelWorker, .clear, .workEnd, .summary, .extend,
          .newWorker false, .append, .check, .workEnd, .summary, .extend, .finish] = some l ∧
      l.runAt = .finished ∧
      ((([⟨true⟩, ⟨false⟩, ⟨true⟩] : List Job).take
          (l.runAt.worked 3)).filter fun job => !job.bounded).length ≤ 1 ∧
        (l.runAt = .finished →
          (([⟨true⟩, ⟨false⟩, ⟨true⟩] : List Job).filter fun job => !job.bounded).length ≤ 1) := by
  have hs : Lbot.init.interleave [⟨true⟩, ⟨false⟩, ⟨true⟩]
      [.newWorker false, .append, .check, .workEnd, .summary, .extend,
        .newWorker false, .append, .check, .cancel, .cancelWorker, .cancelWorker,
        .cancelWorker, .clear, .workEnd, .summary, .extend,
        .newWorker false, .append, .check, .workEnd, .summary, .extend, .finish] = some _ := rfl
  exact ⟨_, hs, rfl, lbot_stop_ends_one_unbounded _ hs⟩

end Loadbot
