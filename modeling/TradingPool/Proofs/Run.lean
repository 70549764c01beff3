import TradingPool.World

/-! Runs that end well. A plan yields a value from a trace when none of its reads fails and none of its
steps refuses; a sequence of plans yields what its parts yield one after the other. -/
namespace TradingPool

def Trace.afterRead (trace : Trace) : Trace := { trace with reads := trace.reads + 1 }
def Trace.afterCall (trace : Trace) (call : Call) : Trace := { trace with calls := trace.calls.push call }
def Trace.afterDraw (trace : Trace) : Trace := { trace with draws := trace.draws + 1 }
def Trace.afterNote (trace : Trace) (event : Event) : Trace := { trace with events := trace.events.push event }

variable {α β : Type} {world : World} {trace later : Trace}

/- For runs on given worlds: what is seen of an answer shows that there is one. -/
theorem Failure.answered {outcome : Except Failure α} {view : α → β} {seen : β}
    (run : outcome.toOption.map view = some seen) : ∃ answer, outcome = .ok answer ∧ view answer = seen := by
  cases outcome with
  | error failure => cases run
  | ok answer => exact ⟨answer, rfl, Option.some.inj run⟩

namespace World

theorem readSound {value : α} (sound : world.fault (trace.reads + 1) = none) :
    world.read trace value = (.ok value, trace.afterRead) := by
  simp only [read, sound, Trace.afterRead]

theorem readFailed {value : α} {text : String} (failed : world.fault (trace.reads + 1) = some text) :
    world.read trace value = (.error text, trace.afterRead) := by
  simp only [read, failed, Trace.afterRead]

end World

namespace Plan

def Yields (world : World) (trace : Trace) (plan : Plan α) (value : α) (later : Trace) : Prop :=
  plan.run world trace = (.ok value, later)

theorem outcomeYields {plan : Plan α} {value : α} :
    plan.outcome world = .ok value ↔ ∃ later, Yields world {} plan value later := by
  unfold outcome Yields
  constructor
  · intro h
    exact ⟨(plan.run world {}).2, by rw [← h]⟩
  · intro h
    obtain ⟨later, h⟩ := h
    rw [h]

@[simp] theorem yieldsBind {plan : Plan α} {next : α → Plan β} {b : β} :
    Yields world trace (plan >>= next) b later ↔
      ∃ a mid, Yields world trace plan a mid ∧ Yields world mid (next a) b later := by
  change (plan.bind next).run world trace = _ ↔ _
  unfold Yields
  rw [runBind]
  constructor
  · intro h
    split at h
    · rename_i a mid first
      exact ⟨a, mid, first, h⟩
    · cases h
  · intro h
    obtain ⟨a, mid, first, rest⟩ := h
    rw [first]
    exact rest

@[simp] theorem yieldsPure {a b : α} :
    Yields world trace (pure a) b later ↔ a = b ∧ trace = later := by
  change (Except.ok a, trace) = (Except.ok b, later) ↔ _
  simp

@[simp] theorem yieldsFail {failure : Failure} {a : α} : ¬ Yields world trace (fail failure) a later := by
  intro h
  cases h

@[simp] theorem yieldsOfExcept {outcome : Except Failure α} {a : α} :
    Yields world trace (ofExcept outcome) a later ↔ outcome = .ok a ∧ trace = later := by
  change (outcome, trace) = (Except.ok a, later) ↔ _
  simp

@[simp] theorem yieldsOfOption {value : Option α} {absent : Failure} {a : α} :
    Yields world trace (ofOption value absent) a later ↔ value = some a ∧ trace = later := by
  unfold Yields
  cases value with
  | none => simp [ofOption, run]
  | some found => simp [ofOption, run]

theorem yieldsRead {value answer : α} :
    Yields world (world.read trace value).2 (orLedger (world.read trace value).1) answer later ↔
      world.fault (trace.reads + 1) = none ∧ value = answer ∧ trace.afterRead = later := by
  cases read : world.fault (trace.reads + 1) with
  | none =>
    rw [World.readSound read]
    change Yields world trace.afterRead (ofExcept (.ok value)) answer later ↔ _
    simp
  | some text =>
    rw [World.readFailed read]
    change Yields world trace.afterRead (fail (.ledger text)) answer later ↔ _
    simp

@[simp] theorem yieldsAccount {address : Key} {data : Option Bytes} :
    Yields world trace (account address) data later ↔
      world.fault (trace.reads + 1) = none ∧ world.account address = data ∧ trace.afterRead = later :=
  yieldsRead

@[simp] theorem yieldsOwned {program : Key} {accounts : List (Key × Bytes)} :
    Yields world trace (owned program) accounts later ↔
      world.fault (trace.reads + 1) = none ∧ world.owned program = accounts ∧ trace.afterRead = later :=
  yieldsRead

@[simp] theorem yieldsBalance {length balance : UInt64} :
    Yields world trace (Plan.balance length) balance later ↔ world.balance length = .ok balance ∧ trace = later := by
  change Yields world trace (ofExcept ((world.balance length).mapError .ledger)) balance later ↔ _
  cases world.balance length with
  | error text =>
    change Yields world trace (fail (.ledger text)) balance later ↔ _
    simp
  | ok told =>
    change Yields world trace (ofExcept (.ok told)) balance later ↔ _
    simp

@[simp] theorem yieldsFind {seeds : List Bytes} {program : Key} {found : Option (Key × UInt8)} :
    Yields world trace (find seeds program) found later ↔
      world.find trace.calls seeds program = found ∧ trace.afterCall (.find seeds program) = later := by
  change (Except.ok (world.find trace.calls seeds program), _) = (Except.ok found, later) ↔ _
  simp [Trace.afterCall]

@[simp] theorem yieldsCreate {seeds : List Bytes} {program : Key} {address : Option Key} :
    Yields world trace (create seeds program) address later ↔
      world.create trace.calls seeds program = address ∧ trace.afterCall (.create seeds program) = later := by
  change (Except.ok (world.create trace.calls seeds program), _) = (Except.ok address, later) ↔ _
  simp [Trace.afterCall]

@[simp] theorem yieldsDraw {drawn : Block 32} :
    Yields world trace draw drawn later ↔ world.draw trace.draws = drawn ∧ trace.afterDraw = later := by
  change (Except.ok (world.draw trace.draws), _) = (Except.ok drawn, later) ↔ _
  simp [Trace.afterDraw]

@[simp] theorem yieldsNote {event : Event} {done : Unit} :
    Yields world trace (note event) done later ↔ trace.afterNote event = later := by
  change (Except.ok (), _) = (Except.ok done, later) ↔ _
  simp [Trace.afterNote]

/- Whether something was noted on the way makes no difference to what follows. -/
theorem yieldsAfterNote {noted : Prop} [Decidable noted] {event : Event} {rest : Unit → Plan α} {a : α}
    (h : Yields world trace (if noted then note event >>= rest else rest ()) a later) :
    ∃ mid, Yields world mid (rest ()) a later := by
  split at h
  · obtain ⟨_, mid, _, h⟩ := yieldsBind.1 h
    exact ⟨mid, h⟩
  · exact ⟨trace, h⟩

/- How a workflow ends: the last instruction is built, something is noted, and that is all. -/
theorem yieldsBuilt {outcome : Except Failure α} {event : α → Event} {answer : α → β} {b : β}
    (h : Yields world trace (ofExcept outcome >>= fun a => note (event a) >>= fun _ => pure (answer a)) b later) :
    ∃ a, outcome = .ok a ∧ answer a = b := by
  obtain ⟨a, _, built, h⟩ := yieldsBind.1 h
  obtain ⟨_, _, _, h⟩ := yieldsBind.1 h
  exact ⟨a, (yieldsOfExcept.1 built).1, (yieldsPure.1 h).1⟩

theorem builtYields {outcome : Except Failure α} {event : α → Event} {answer : α → β} {a : α}
    (built : outcome = .ok a) :
    Yields world trace (ofExcept outcome >>= fun a => note (event a) >>= fun _ => pure (answer a)) (answer a)
      (trace.afterNote (event a)) :=
  yieldsBind.2 ⟨a, trace, yieldsOfExcept.2 ⟨built, rfl⟩,
    yieldsBind.2 ⟨(), _, yieldsNote.2 rfl, yieldsPure.2 ⟨rfl, rfl⟩⟩⟩

@[simp] theorem yieldsExisting {address : Key} {absent : Failure} {data : Bytes} :
    Yields world trace (existing address absent) data later ↔
      world.fault (trace.reads + 1) = none ∧ world.account address = some data ∧ trace.afterRead = later := by
  unfold existing
  simp only [yieldsBind, yieldsAccount, yieldsOfOption]
  refine ⟨fun h => ?_, fun h => ?_⟩
  · obtain ⟨found, _, ⟨sound, stored, rfl⟩, rfl, rfl⟩ := h
    exact ⟨sound, stored, rfl⟩
  · obtain ⟨sound, stored, rfl⟩ := h
    exact ⟨some data, _, ⟨sound, stored, rfl⟩, rfl, rfl⟩

@[simp] theorem yieldsAccountExists {address : Key} {present : Bool} :
    Yields world trace (accountExists address) present later ↔
      world.fault (trace.reads + 1) = none ∧ (world.account address).isSome = present ∧
        trace.afterRead = later := by
  unfold accountExists
  simp only [yieldsBind, yieldsAccount, yieldsPure]
  refine ⟨fun h => ?_, fun h => ?_⟩
  · obtain ⟨_, _, ⟨sound, rfl, rfl⟩, stored, rfl⟩ := h
    exact ⟨sound, stored, rfl⟩
  · obtain ⟨sound, stored, rfl⟩ := h
    exact ⟨_, _, ⟨sound, rfl, rfl⟩, stored, rfl⟩

end Plan
end TradingPool
