import TradingPool.Failure
import TradingPool.Event

/-! Plans: what to ask of the ledger, the address oracle and the random source, and what to do with each
answer. A plan decides everything from the answers it gets, so that it can be run against any world and
the questions it asked can be counted. The ledger may answer by a failure, and what to do then is up to
the plan as well. -/
namespace TradingPool

inductive Query where
  | account (address : Key)
  | owned (program : Key)
  /-- What an account of a length must hold to be kept. -/
  | balance (length : UInt64)
  /-- An address for the seeds with a bump after them. -/
  | find (seeds : List Bytes) (program : Key)
  /-- The address of the seeds as they are. -/
  | create (seeds : List Bytes) (program : Key)
  | draw
  | note (event : Event)
  deriving DecidableEq, Repr

abbrev Query.Answer : Query → Type
  | .account _ => Except String (Option Bytes)
  | .owned _ => Except String (List (Key × Bytes))
  | .balance _ => Except String UInt64
  | .find .. => Option (Key × UInt8)
  | .create .. => Option Key
  | .draw => Block 32
  | .note _ => Unit

inductive Plan (α : Type) where
  | done (outcome : Except Failure α)
  | ask (query : Query) (next : query.Answer → Plan α)

namespace Plan

def bind {α β : Type} : Plan α → (α → Plan β) → Plan β
  | .done (.ok a), f => f a
  | .done (.error failure), _ => .done (.error failure)
  | .ask query next, f => .ask query fun answer => (next answer).bind f

instance : Monad Plan where
  pure a := .done (.ok a)
  bind := bind

theorem bindDone {α : Type} (plan : Plan α) : plan.bind (fun a => .done (.ok a)) = plan := by
  induction plan with
  | done outcome => cases outcome <;> rfl
  | ask query next ih => exact congrArg (Plan.ask query) (funext ih)

theorem bindAssoc {α β γ : Type} (plan : Plan α) (f : α → Plan β) (g : β → Plan γ) :
    (plan.bind f).bind g = plan.bind fun a => (f a).bind g := by
  induction plan with
  | done outcome => cases outcome <;> rfl
  | ask query next ih => exact congrArg (Plan.ask query) (funext ih)

instance : LawfulMonad Plan :=
  LawfulMonad.mk' Plan bindDone (fun _ _ => rfl) bindAssoc

def ofExcept {α : Type} (outcome : Except Failure α) : Plan α := .done outcome

def fail {α : Type} (failure : Failure) : Plan α := .done (.error failure)

def ofOption {α : Type} (value : Option α) (absent : Failure) : Plan α :=
  match value with
  | some a => .done (.ok a)
  | none => .done (.error absent)

def query (q : Query) : Plan q.Answer := .ask q fun answer => .done (.ok answer)

def orLedger {α : Type} (answer : Except String α) : Plan α := ofExcept (answer.mapError .ledger)

def account (address : Key) : Plan (Option Bytes) := do orLedger (← query (.account address))
def owned (program : Key) : Plan (List (Key × Bytes)) := do orLedger (← query (.owned program))
def balance (length : UInt64) : Plan UInt64 := do orLedger (← query (.balance length))
def find (seeds : List Bytes) (program : Key) : Plan (Option (Key × UInt8)) :=
  query (.find seeds program)
def create (seeds : List Bytes) (program : Key) : Plan (Option Key) := query (.create seeds program)
def draw : Plan (Block 32) := query .draw
def note (event : Event) : Plan Unit := query (.note event)

def existing (address : Key) (absent : Failure) : Plan Bytes := do ofOption (← account address) absent

def accountExists (address : Key) : Plan Bool := do return (← account address).isSome

end Plan

end TradingPool
