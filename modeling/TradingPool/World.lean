import TradingPool.Plan
import TradingPool.Ledger
import TradingPool.Address
import TradingPool.Rent

/-! Running plans. A world answers the queries, those to the ledger also by a failure; the trace of a run
says how many reads and draws were made, which addresses were asked for, and what was logged. -/
namespace TradingPool

inductive Call where
  | find (seeds : List Bytes) (program : Key)
  | create (seeds : List Bytes) (program : Key)
  deriving DecidableEq, Repr

structure Trace where
  reads : Nat := 0
  calls : Array Call := #[]
  draws : Nat := 0
  events : Array Event := #[]
  deriving DecidableEq, Repr

structure World where
  account : Key → Option Bytes
  /-- The length of an account is a 64-bit number. -/
  sized : ∀ {address data}, account address = some data → data.length < UInt64.size
  owned : Key → List (Key × Bytes)
  /-- What the n-th read of a run fails with, counted from 1. -/
  fault : Nat → Option String
  /-- To ask for a balance is no read. -/
  balance : UInt64 → Except String UInt64
  /-- The oracle may answer by the calls made before. -/
  find : Array Call → List Bytes → Key → Option (Key × UInt8)
  create : Array Call → List Bytes → Key → Option Key
  /-- The n-th draw of a run, counted from 0. -/
  draw : Nat → Block 32

namespace World

def read {α : Type} (world : World) (trace : Trace) (value : α) : Except String α × Trace :=
  let trace := { trace with reads := trace.reads + 1 }
  match world.fault trace.reads with
  | some text => (.error text, trace)
  | none => (.ok value, trace)

def answer (world : World) (trace : Trace) : (query : Query) → query.Answer × Trace
  | .account address => world.read trace (world.account address)
  | .owned program => world.read trace (world.owned program)
  | .balance length => (world.balance length, trace)
  | .find seeds program =>
    (world.find trace.calls seeds program, { trace with calls := trace.calls.push (.find seeds program) })
  | .create seeds program =>
    (world.create trace.calls seeds program, { trace with calls := trace.calls.push (.create seeds program) })
  | .draw => (world.draw trace.draws, { trace with draws := trace.draws + 1 })
  | .note event => ((), { trace with events := trace.events.push event })

def ofLedger (ledger : Ledger) : World where
  account := ledger.data?
  sized := Ledger.sizedData
  owned := ledger.owned
  fault _ := none
  balance length := .ok (Rent.minimumBalance length.toNat)
  find _ := Address.find?
  create _ := Address.create?
  draw _ := .zero 32

def failingAt (world : World) (read : Nat) (text : String) : World :=
  { world with fault := fun n => if n = read then some text else world.fault n }

def offline (world : World) (text : String) : World := { world with fault := fun _ => some text }

def withoutFinding (world : World) : World := { world with find := fun _ _ _ => none }

def withoutCreating (world : World) : World := { world with create := fun _ _ _ => none }

def drawing (world : World) (draws : List (Block 32)) : World :=
  { world with draw := fun n => draws.getD (n % draws.length) (.zero 32) }

def drawingBytes (world : World) (stream : Bytes) : World :=
  { world with
    draw := fun n =>
      ⟨(List.range 32).map fun i => stream.getD ((32 * n + i) % stream.length) 0, by simp⟩ }

end World

namespace Call

def isFind : Call → Bool
  | .find .. => true
  | .create .. => false

end Call

namespace World

/-- The oracle that answers each find and each create with the next item of its list. -/
def scripted (world : World) (finds : List (Option (Key × UInt8))) (creates : List (Option Key)) :
    World :=
  { world with
    find := fun calls _ _ => (finds.drop (calls.countP Call.isFind)).head?.join
    create := fun calls _ _ => (creates.drop (calls.countP fun c => !c.isFind)).head?.join }

end World

namespace Plan

def run {α : Type} (world : World) : Plan α → Trace → Except Failure α × Trace
  | .done outcome, trace => (outcome, trace)
  | .ask query next, trace =>
    let (answer, later) := world.answer trace query
    (next answer).run world later

/-- The second plan goes on from the trace of the first, and is not run if the first fails. -/
theorem runBind {α β : Type} (world : World) (plan : Plan α) (f : α → Plan β) (trace : Trace) :
    (plan.bind f).run world trace =
      match plan.run world trace with
      | (.ok a, trace) => (f a).run world trace
      | (.error failure, trace) => (.error failure, trace) := by
  induction plan generalizing trace with
  | done outcome => cases outcome <;> rfl
  | ask query next ih => exact ih _ _

def outcome {α : Type} (plan : Plan α) (world : World) : Except Failure α := (plan.run world {}).1

def trace {α : Type} (plan : Plan α) (world : World) : Trace := (plan.run world {}).2

end Plan

end TradingPool
