/-
Loadbot/New.lean

`New` of src/unnamed/part_001, the constructor of the `mongoload` engine.
It picks one termination policy from `duration` and `ops`, one limiter from
`rateLimit`, defaults `conns` to 100 and adds the worker count to the
`WaitGroup`.  It checks none of its arguments: the `error` it returns is
always `nil`.

Main result (`new_spec`): `New` never returns an error; it panics in
`wg.Add` exactly when `int32(conns)` is negative; otherwise the engine it
returns is `Configured`: a timer pool whenever `duration != 0` (`ops` is then
dropped), the unbounded pool when both are zero, and else a count-bounded
pool of `uint64(int64(ops))`, which is `ops` when positive and `2^64 + ops`
when negative, and the `WaitGroup` counter at `int32` of the worker count.
Only for `0 ≤ conns < 2^31` is that at least one worker with the counter
equal to the worker count: `conns = 2^32` returns with the counter at zero.
-/
import Loadbot.Pool

namespace Loadbot

/-! ### The engine record -/

/-- The limiter `New` installs: `rps.NewNoLimitLimiter()` or
`rps.NewSimpleLimiter(rateLimit)`. -/
inductive LimiterKind
  | noLimit
  | simple (rateLimit : GoInt)
  deriving DecidableEq, Repr

/-- The `mongoload` struct as `New` fills it in.  `db` is the injected
`database.DbClient`; the `start` time is left to `Torment` (see
`Loadbot.Engine`). -/
structure Mongoload (δ : Type) where
  db : δ
  wg : WaitGroup
  concurrentConnections : GoInt
  rateLimit : GoInt
  operationsAmount : GoInt
  duration : GoInt
  rateLimiter : LimiterKind
  pool : PoolKind

/-- The policy branch of `New`: the `duration` and `operationsAmount` it
stores and the pool it installs. -/
def newPolicy (ops duration : GoInt) : GoInt × GoInt × PoolKind :=
  if duration = 0 ∧ ops = 0 then (0, 0, .noLimitTimer)
  else if duration ≠ 0 then (duration, 0, .timer duration)
  else (0, ops, .deduction ops.toUint64)

/-- `New(ops, conns, rateLimit, duration, database)`.  A panic is `.error`;
a return is `.ok (load, err)`, Go's `error` being an `Option String`. -/
def new {δ : Type} (ops conns rateLimit duration : GoInt) (database : δ) :
    Except String (Mongoload δ × Option String) :=
  let (duration, operationsAmount, pool) := newPolicy ops duration
  let rateLimiter := if rateLimit = 0 then LimiterKind.noLimit else .simple rateLimit
  let conns := if conns = 0 then 100 else conns
  match WaitGroup.zero.add conns.toInt with
  | .error e => .error e
  | .ok wg =>
      .ok ({ db := database, wg, concurrentConnections := conns, rateLimit,
             operationsAmount, duration, rateLimiter, pool }, none)

/-! ### What `New` returns -/

variable {δ : Type}

/-- The engine `New` returns for the given arguments, when it returns. -/
structure Configured (ops conns rateLimit duration : GoInt) (ml : Mongoload δ) : Prop where
  unbounded : duration = 0 → ops = 0 → ml.pool = .noLimitTimer
  timer : duration ≠ 0 → ml.pool = .timer duration
  count_pos : duration = 0 → 0 < ops.toInt →
    ∃ b : Nat, ml.pool = .deduction b ∧ (b : Int) = ops.toInt
  count_neg : duration = 0 → ops.toInt < 0 →
    ∃ b : Nat, ml.pool = .deduction b ∧ (b : Int) = 2 ^ 64 + ops.toInt
  limiter : ml.rateLimiter = if rateLimit = 0 then .noLimit else .simple rateLimit
  conns : ml.concurrentConnections = if conns = 0 then 100 else conns
  wg : ml.wg.counter = toInt32 ml.concurrentConnections.toInt

theorem toInt_ne_zero {x : GoInt} (h : x.toInt ≠ 0) : x ≠ 0 := by
  rintro rfl
  exact h rfl

theorem newPolicy_pool (ops duration : GoInt) :
    (duration = 0 → ops = 0 → (newPolicy ops duration).2.2 = .noLimitTimer) ∧
    (duration ≠ 0 → (newPolicy ops duration).2.2 = .timer duration) ∧
    (duration = 0 → ops ≠ 0 → (newPolicy ops duration).2.2 = .deduction ops.toUint64) := by
  refine ⟨fun hd ho => ?_, fun hd => ?_, fun hd ho => ?_⟩ <;> simp_all [newPolicy]

/-- The default keeps `int32` of the worker count: `int32(0)` is zero. -/
theorem toInt32_conns_default (conns : GoInt) :
    (0 ≤ toInt32 conns.toInt ↔ 0 ≤ toInt32 (if conns = 0 then (100 : GoInt) else conns).toInt) := by
  split
  · subst conns
    decide
  · rfl

/-- `New` panics exactly in `wg.Add`, and exactly when `int32(conns) < 0`. -/
theorem new_of_neg (ops conns rateLimit duration : GoInt) (database : δ)
    (h : toInt32 conns.toInt < 0) :
    new ops conns rateLimit duration database = .error "sync: negative WaitGroup counter" := by
  have hwg := WaitGroup.zero_add_of_neg (not_le.mp ((toInt32_conns_default conns).not.mp h.not_le))
  dsimp only [new]
  rw [hwg]

theorem new_of_nonneg (ops conns rateLimit duration : GoInt) (database : δ)
    (h : 0 ≤ toInt32 conns.toInt) :
    ∃ ml, new ops conns rateLimit duration database = .ok (ml, none) ∧
      Configured ops conns rateLimit duration ml := by
  have hwg := WaitGroup.zero_add_of_nonneg ((toInt32_conns_default conns).mp h)
  have ⟨hu, ht, hd⟩ := newPolicy_pool ops duration
  dsimp only [new]
  rw [hwg]
  exact ⟨_, rfl, hu, ht,
    fun h0 hp => ⟨_, hd h0 (toInt_ne_zero (by omega)), GoInt.toUint64_of_pos hp⟩,
    fun h0 hn => ⟨_, hd h0 (toInt_ne_zero (by omega)), GoInt.toUint64_of_neg hn⟩,
    rfl, rfl, rfl⟩

/-- Whatever `New` returns comes with no error and is `Configured`. -/
theorem new_ok {ops conns rateLimit duration : GoInt} {database : δ} {ml : Mongoload δ}
    {err : Option String} (h : new ops conns rateLimit duration database = .ok (ml, err)) :
    err = none ∧ Configured ops conns rateLimit duration ml := by
  rcases lt_or_le (toInt32 conns.toInt) 0 with hc | hc
  · rw [new_of_neg _ _ _ _ database hc] at h
    cases h
  · obtain ⟨ml', hok, hcfg⟩ := new_of_nonneg ops conns rateLimit duration database hc
    rw [hok] at h
    cases h
    exact ⟨rfl, hcfg⟩

/-- For `0 ≤ conns < 2^31` the engine has at least one worker, fewer than
`2^31`, and the `WaitGroup` counter at the worker count. -/
theorem Configured.counter_eq {ops conns rateLimit duration : GoInt} {ml : Mongoload δ}
    (h : Configured ops conns rateLimit duration ml) (h0 : 0 ≤ conns.toInt)
    (h1 : conns.toInt < 2 ^ 31) :
    1 ≤ ml.concurrentConnections.toInt ∧ ml.concurrentConnections.toInt < 2 ^ 31 ∧
      ml.wg.counter = ml.concurrentConnections.toInt := by
  have hc : 1 ≤ ml.concurrentConnections.toInt ∧ ml.concurrentConnections.toInt < 2 ^ 31 := by
    rw [h.conns]
    split
    · decide
    · have : conns.toInt ≠ 0 := fun h0 => ‹¬conns = 0› (BitVec.toInt_inj.mp (by simpa using h0))
      omega
  exact ⟨hc.1, hc.2, by rw [h.wg, toInt32_of_lt (by omega) hc.2]⟩

/-- **`New` validates nothing.**  It never returns an error; it panics in
`wg.Add` exactly when `int32(conns) < 0`; for every other input it returns
an engine `Configured` from its arguments, whose `WaitGroup` counter is the
worker count, at least one, when `0 ≤ conns < 2^31`. -/
theorem new_spec (ops conns rateLimit duration : GoInt) (database : δ) :
    (∀ ml err, new ops conns rateLimit duration database = .ok (ml, err) → err = none) ∧
    (toInt32 conns.toInt < 0 →
      new ops conns rateLimit duration database = .error "sync: negative WaitGroup counter") ∧
    (0 ≤ toInt32 conns.toInt → ∃ ml, new ops conns rateLimit duration database = .ok (ml, none) ∧
      Configured ops conns rateLimit duration ml) ∧
    (0 ≤ conns.toInt → conns.toInt < 2 ^ 31 →
      ∀ ml err, new ops conns rateLimit duration database = .ok (ml, err) →
        1 ≤ ml.concurrentConnections.toInt ∧ ml.wg.counter = ml.concurrentConnections.toInt) := by
  refine ⟨fun _ _ h => (new_ok h).1, new_of_neg _ _ _ _ database,
    new_of_nonneg _ _ _ _ database, fun h0 h1 _ _ h => ?_⟩
  obtain ⟨hpos, -, hwg⟩ := (new_ok h).2.counter_eq h0 h1
  exact ⟨hpos, hwg⟩

/-- `New` returns no error for a duration given together with an operation
count (and drops the count), wraps a negative count through `uint64`, and
panics on a negative worker count; `wg.Add` wraps at 32 bits, so it panics
on `2^31` workers and returns on `2^32` with the counter at zero. -/
theorem new_accepts_invalid_arguments :
    (∃ ml, new 1 1 0 1 () = .ok (ml, none) ∧ ml.pool = .timer 1) ∧
    (∃ ml, new (-1) 1 0 0 () = .ok (ml, none) ∧ ml.pool = .deduction (2 ^ 64 - 1)) ∧
    new 0 (-1) 0 0 () = .error "sync: negative WaitGroup counter" ∧
    new 0 2147483648 0 0 () = .error "sync: negative WaitGroup counter" ∧
    (∃ ml, new 0 4294967296 0 0 () = .ok (ml, none) ∧
      ml.concurrentConnections.toInt = 2 ^ 32 ∧ ml.wg.counter = 0) :=
  ⟨⟨_, rfl, rfl⟩, ⟨_, rfl, rfl⟩, rfl, rfl, ⟨_, rfl, rfl, rfl⟩⟩

end Loadbot
