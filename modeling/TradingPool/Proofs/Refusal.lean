import TradingPool.Proofs.Loading

/-! Runs that end badly. A sequence of plans fails where its first part fails, or where the first part yields
a value and what follows fails. What is found out on the way is not lost: the trace goes on to the step that
refuses. -/
namespace TradingPool

variable {α β : Type} {world : World} {trace later : Trace} {failure : Failure}

namespace Plan

def Fails (world : World) (trace : Trace) (plan : Plan α) (failure : Failure) (later : Trace) : Prop :=
  plan.run world trace = (.error failure, later)

theorem outcomeFails {plan : Plan α} :
    plan.outcome world = .error failure ↔ ∃ later, Fails world {} plan failure later := by
  unfold outcome Fails
  constructor
  · intro h
    exact ⟨(plan.run world {}).2, by rw [← h]⟩
  · intro h
    obtain ⟨later, h⟩ := h
    rw [h]

theorem Fails.ended {plan : Plan α} (h : Fails world {} plan failure later) :
    plan.outcome world = .error failure ∧ plan.trace world = later :=
  ⟨congrArg Prod.fst h, congrArg Prod.snd h⟩

@[simp] theorem failsBind {plan : Plan α} {next : α → Plan β} :
    Fails world trace (plan >>= next) failure later ↔
      Fails world trace plan failure later ∨
        ∃ a mid, Yields world trace plan a mid ∧ Fails world mid (next a) failure later := by
  change (plan.bind next).run world trace = _ ↔ _
  unfold Fails Yields
  rw [runBind]
  rcases plan.run world trace with ⟨first | a, mid⟩
  · simp
  · constructor
    · intro rest
      exact .inr ⟨a, mid, rfl, rest⟩
    · rintro (refused | ⟨_, _, same, rest⟩)
      · cases refused
      · cases same
        exact rest

theorem failsAtOnce {plan : Plan α} {next : α → Plan β} (refused : Fails world trace plan failure later) :
    Fails world trace (plan >>= next) failure later :=
  failsBind.2 (.inl refused)

theorem Yields.thenFails {plan : Plan α} {next : α → Plan β} {a : α} {mid : Trace}
    (h : Yields world trace plan a mid) (rest : Fails world mid (next a) failure later) :
    Fails world trace (plan >>= next) failure later :=
  failsBind.2 (.inr ⟨a, mid, h, rest⟩)

theorem Yields.thenYields {plan : Plan α} {next : α → Plan β} {a : α} {b : β} {mid : Trace}
    (h : Yields world trace plan a mid) (rest : Yields world mid (next a) b later) :
    Yields world trace (plan >>= next) b later :=
  yieldsBind.2 ⟨a, mid, h, rest⟩

@[simp] theorem failsCreate {seeds : List Bytes} {program : Key} :
    ¬ Fails world trace (create seeds program) failure later := by
  intro h
  cases h

@[simp] theorem failsBalance {length : UInt64} :
    Fails world trace (balance length) failure later ↔
      ∃ text, world.balance length = .error text ∧ .ledger text = failure ∧ trace = later := by
  change (ofExcept ((world.balance length).mapError .ledger)).run world trace = _ ↔ _
  cases world.balance length with
  | error text =>
    change (Except.error (.ledger text), trace) = (Except.error failure, later) ↔ _
    simp
  | ok told =>
    change (Except.ok told, trace) = (Except.error failure, later) ↔ _
    simp

@[simp] theorem failsOfOption {value : Option α} {absent : Failure} :
    Fails world trace (ofOption value absent) failure later ↔ value = none ∧ absent = failure ∧ trace = later := by
  unfold Fails
  cases value <;> simp [ofOption, run]

end Plan

namespace Workflow

open TradingPool.Derivation
open TradingPool.Plan (Fails)

theorem failsDerive {seeds : List Bytes} {program : Key} :
    Fails world trace (derive seeds program) failure later ↔
      world.create trace.calls seeds program = none ∧ .invalidDerivation = failure ∧
        trace.afterCall (.create seeds program) = later := by
  unfold derive
  simp only [Plan.failsBind, Plan.failsCreate, Plan.yieldsCreate, Plan.failsOfOption, false_or]
  refine ⟨fun h => ?_, fun h => ?_⟩
  · obtain ⟨_, _, ⟨given, rfl⟩, rfl, refused, rfl⟩ := h
    exact ⟨given, refused, rfl⟩
  · obtain ⟨given, refused, rfl⟩ := h
    exact ⟨none, _, ⟨given, rfl⟩, rfl, refused, rfl⟩

end Workflow
end TradingPool
