/-
Loadbot/Go.lean

The pieces of the Go runtime that the load driver calls, as the language
and `sync` documentation state them.

* `GoInt` is Go's `int`, `int64` and `time.Duration` on a 64-bit target: a
  64-bit two's-complement word.  The conversion `int64(x)` keeps the word and
  `uint64(x)` reads the same bits unsigned (`GoInt.toUint64`), so a negative
  value wraps to `2^64 + x`.
* `WaitGroup` is `sync.WaitGroup` as the runtime implements it: a 32-bit
  counter that `Add` moves modulo `2^32` and reads back signed
  (`toInt32`), panicking when that reading is negative; `Wait` returns once
  it is zero.  So `Add(2^31)` on a zero counter panics, `Add(2^32)` leaves
  it at zero, and only a counter kept below `2^31` moves as the integers do
  (`WaitGroup.add_of_lt`).

A panic is the `error` side of an `Except String`, carrying Go's message.
-/
import Mathlib.Tactic.Ring

namespace Loadbot

/-! ### Machine integers -/

/-- Go's `int` (and `int64`, `time.Duration`) on a 64-bit target. -/
abbrev GoInt := BitVec 64

/-- `uint64(x)` for a signed word `x`: the same 64 bits, read unsigned. -/
def GoInt.toUint64 (x : GoInt) : Nat := x.toNat

/-- A positive word converts to `uint64` without a wrap. -/
theorem GoInt.toUint64_of_pos {x : GoInt} (h : 0 < x.toInt) :
    (x.toUint64 : Int) = x.toInt := by
  have := x.isLt
  rw [GoInt.toUint64, BitVec.toInt_eq_toNat_cond] at *
  split <;> omega

/-- A negative word wraps through `uint64` to `2^64 + x`. -/
theorem GoInt.toUint64_of_neg {x : GoInt} (h : x.toInt < 0) :
    (x.toUint64 : Int) = 2 ^ 64 + x.toInt := by
  rw [GoInt.toUint64, BitVec.toInt_eq_toNat_cond] at *
  split <;> omega

/-- `int32(x)`: the low 32 bits of `x`, read signed. -/
def toInt32 (x : Int) : Int := x.bmod (2 ^ 32)

/-- A value that fits 32 bits reads back unchanged. -/
theorem toInt32_of_lt {x : Int} (h0 : -2 ^ 31 ≤ x) (h1 : x < 2 ^ 31) : toInt32 x = x := by
  rw [toInt32, Int.bmod_def]
  push_cast
  split <;> omega

/-! ### `sync.WaitGroup` -/

/-- `sync.WaitGroup`: the counter of goroutines still to call `Done`, as
`Add` last read it back. -/
structure WaitGroup where
  counter : Int
  deriving DecidableEq, Repr

/-- The zero `WaitGroup` that `new(mongoload)` holds. -/
def WaitGroup.zero : WaitGroup := ⟨0⟩

/-- `wg.Add(delta)`.  The runtime keeps the counter in the high half of one
64-bit word: `state := wg.state.Add(uint64(delta) << 32)` adds `delta`
modulo `2^32` there, and `v := int32(state >> 32)` reads the counter back;
a negative `v` panics.  The waiter count in the low half decides only whom
a return to zero wakes (the engine's `Wait` returns once the counter reads
zero) and the misuse panics of an `Add` racing `Wait`, which the load
driver never makes. -/
def WaitGroup.add (wg : WaitGroup) (delta : Int) : Except String WaitGroup :=
  let v := toInt32 (wg.counter + delta)
  if v < 0 then .error "sync: negative WaitGroup counter" else .ok ⟨v⟩

/-- `wg.Done()`, which is `wg.Add(-1)`. -/
def WaitGroup.done (wg : WaitGroup) : Except String WaitGroup := wg.add (-1)

/-- An `Add` that keeps the counter within `int32` moves it by `delta`. -/
theorem WaitGroup.add_of_lt {wg : WaitGroup} {delta : Int} (h0 : 0 ≤ wg.counter + delta)
    (h1 : wg.counter + delta < 2 ^ 31) : wg.add delta = .ok ⟨wg.counter + delta⟩ := by
  simp [WaitGroup.add, toInt32_of_lt (by omega) h1, not_lt.mpr h0]

/-- `Add` on the zero `WaitGroup`, the one call `New` makes, panics exactly
when `int32(delta)` is negative. -/
theorem WaitGroup.zero_add_of_nonneg {delta : Int} (h : 0 ≤ toInt32 delta) :
    WaitGroup.zero.add delta = .ok ⟨toInt32 delta⟩ := by
  simp [WaitGroup.add, WaitGroup.zero, not_lt.mpr h]

theorem WaitGroup.zero_add_of_neg {delta : Int} (h : toInt32 delta < 0) :
    WaitGroup.zero.add delta = .error "sync: negative WaitGroup counter" := by
  simp [WaitGroup.add, WaitGroup.zero, h]

/-- `Done` on a positive counter decrements it and does not panic. -/
theorem WaitGroup.done_of_pos {wg : WaitGroup} (h : 0 < wg.counter) (h' : wg.counter ≤ 2 ^ 31) :
    wg.done = .ok ⟨wg.counter - 1⟩ :=
  WaitGroup.add_of_lt (by omega) (by omega)

end Loadbot
