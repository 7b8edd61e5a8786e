/-
Loadbot/Driver.lean

The job handlers of src/unnamed/part_000 (package `driver`): `NewJobHandler`
picks one of four handlers by the job's type, and `Handle` of each makes one
call of the database client with data from the job's data provider.

    switch cfg.Type {
    case string(config.Write):     return JobHandler(&WriteHandler{..})
    case string(config.Read):      return JobHandler(&ReadHandler{..})
    case string(config.Update):    return JobHandler(&UpdateHandler{..})
    case string(config.BulkWrite): return JobHandler(&BulkWriteHandler{..})
    default:                       panic("Invalid job type: " + cfg.Type)
    }

The values of the `config` constants are not under src/: `JobTypes` holds
them.  `database.Client` and `schema.DataProvider` are interfaces: a
provider is a state that each `Get…` call advances, and the client answers
each call with `(bool, error)`.

The spec lemmas of the two functions: with four distinct type names,
`NewJobHandler` builds each handler for its own name and panics on every
other type with a message naming it (`newJobHandler_spec`); `Handle` makes
exactly one client call, of its handler's shape, and returns the client's
answer unchanged (`handle_eq`).
-/
import Mathlib.Data.List.Nodup

namespace Loadbot

/-! ### Dispatch -/

/-- The type names `config.Write`, `config.Read`, `config.Update` and
`config.BulkWrite`. -/
structure JobTypes where
  write : String
  read : String
  update : String
  bulkWrite : String
  deriving DecidableEq, Repr

/-- The handlers `NewJobHandler` builds; all four share the `BaseHandler` of
the job's client and data provider. -/
inductive JobHandler
  | write
  | read
  | update
  | bulkWrite
  deriving DecidableEq, Repr

/-- `NewJobHandler`: the `switch` on `cfg.Type`, its cases tried in order;
`.error` is the panic. -/
def newJobHandler (types : JobTypes) (type : String) : Except String JobHandler :=
  if type = types.write then .ok .write
  else if type = types.read then .ok .read
  else if type = types.update then .ok .update
  else if type = types.bulkWrite then .ok .bulkWrite
  else .error ("Invalid job type: " ++ type)

/-- The type name a handler is built for. -/
def JobTypes.name (types : JobTypes) : JobHandler → String
  | .write => types.write
  | .read => types.read
  | .update => types.update
  | .bulkWrite => types.bulkWrite

/-- No two handlers share a type name. -/
def JobTypes.Distinct (types : JobTypes) : Prop :=
  [types.write, types.read, types.update, types.bulkWrite].Nodup

instance (types : JobTypes) : Decidable types.Distinct :=
  inferInstanceAs (Decidable [types.write, types.read, types.update, types.bulkWrite].Nodup)

/-- `NewJobHandler` is the dispatch the type names describe: each
handler is built for its own name, and any other type panics at
construction with a message that names it. -/
theorem newJobHandler_spec (types : JobTypes) (hd : types.Distinct) :
    (∀ h, newJobHandler types (types.name h) = .ok h) ∧
      ∀ type, (∀ h, type ≠ types.name h) →
        newJobHandler types type = .error ("Invalid job type: " ++ type) := by
  simp only [JobTypes.Distinct, List.nodup_cons, List.mem_cons, List.mem_singleton,
    List.not_mem_nil, not_or, or_false, List.nodup_nil, and_true] at hd
  obtain ⟨⟨hwr, hwu, hwb⟩, ⟨hru, hrb⟩, hub⟩ := hd
  refine ⟨fun h => ?_, fun type hne => ?_⟩
  · cases h <;> simp [newJobHandler, JobTypes.name, Ne.symm, *]
  · have := hne .write; have := hne .read; have := hne .update; have := hne .bulkWrite
    simp_all [newJobHandler, JobTypes.name]

/-! ### One call per `Handle` -/

/-- `schema.DataProvider`: each call returns data and advances the
provider's state `ρ`. -/
structure DataProvider (ρ α : Type) where
  getSingleItem : ρ → α × ρ
  getBatch : ρ → Nat → List α × ρ
  getFilter : ρ → α × ρ

/-- A call of `database.Client`, with the data the handler passes. -/
inductive ClientCall (α : Type)
  | insertOne (item : α)
  | insertMany (items : List α)
  | readOne (filter : α)
  | updateOne (filter item : α)
  deriving DecidableEq, Repr

/-- The handler whose `Handle` makes a call of this shape. -/
def ClientCall.handler {α : Type} : ClientCall α → JobHandler
  | .insertOne _ => .write
  | .insertMany _ => .bulkWrite
  | .readOne _ => .read
  | .updateOne _ _ => .update

/-- `Handle`: the client's answer `(bool, error)` to the one call it makes,
and the provider's state after the `Get…` calls for its arguments, made in
Go's left-to-right order. -/
def JobHandler.handle {ρ α : Type} (h : JobHandler) (client : ClientCall α → Bool × Option String)
    (provider : DataProvider ρ α) (p : ρ) : (Bool × Option String) × ρ :=
  match h with
  | .write =>
      let (item, p) := provider.getSingleItem p
      (client (.insertOne item), p)
  | .bulkWrite =>
      let (items, p) := provider.getBatch p 100
      (client (.insertMany items), p)
  | .read =>
      let (filter, p) := provider.getFilter p
      (client (.readOne filter), p)
  | .update =>
      let (filter, p) := provider.getFilter p
      let (item, p) := provider.getSingleItem p
      (client (.updateOne filter item), p)

/-- `Handle` returns the client's answer to one call of its handler's shape,
a batch being one `GetBatch(100)`. -/
theorem handle_eq {ρ α : Type} (h : JobHandler) (client : ClientCall α → Bool × Option String)
    (provider : DataProvider ρ α) (p : ρ) :
    ∃ c p', h.handle client provider p = (client c, p') ∧ c.handler = h ∧
      ∀ items, c = .insertMany items → items = (provider.getBatch p 100).1 := by
  cases h <;> refine ⟨_, _, rfl, rfl, fun items hc => ?_⟩ <;> cases hc
  rfl

end Loadbot
