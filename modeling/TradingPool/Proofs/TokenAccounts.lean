import TradingPool.Proofs.Run
import TradingPool.Proofs.ProgramAddress
import TradingPool.Workflow.Loading

/-! Token accounts that are made for a workflow: one for each holding whose account is not stored, in the
order of the holdings. Different holdings have different accounts unless the strings hashed for them
collide. -/
namespace TradingPool.Workflow

open TradingPool.Plan (Yields)

namespace Holding

variable {settings : Settings} {x y : Holding}

def address (settings : Settings) (holding : Holding) : Key :=
  settings.tokenAccount holding.owner holding.mint

def creation (settings : Settings) (payer : Key) (holding : Holding) : Instruction :=
  .createTokenAccount settings.tokenProgram payer (holding.address settings) holding.owner holding.mint

def Collide (settings : Settings) (x y : Holding) : Prop :=
  ∃ b c, Sha256.Collision (Address.tokenPreimage settings.tokenProgram x.owner x.mint b)
    (Address.tokenPreimage settings.tokenProgram y.owner y.mint c)

theorem collideOfShared (apart : x ≠ y) (shared : x.address settings = y.address settings) :
    Collide settings x y := by
  obtain ⟨b, first⟩ := Address.tokenAccountHash settings.tokenProgram x.owner x.mint
  obtain ⟨c, second⟩ := Address.tokenAccountHash settings.tokenProgram y.owner y.mint
  refine ⟨b, c, ?_, first.symm.trans (shared.trans second)⟩
  intro same
  obtain ⟨owners, mints⟩ := Address.tokenPreimageFields same
  cases x
  cases y
  cases owners
  cases mints
  exact apart rfl

end Holding

variable {world : World} {trace later : Trace} {settings : Settings} {payer : Key} {holding : Holding}
  {wanted : List Holding} {made : List Instruction}

def missing (world : World) (settings : Settings) (wanted : List Holding) : List Holding :=
  wanted.filter fun holding => (world.account (holding.address settings)).isNone

def creations (world : World) (settings : Settings) (payer : Key) (wanted : List Holding) : List Instruction :=
  (missing world settings wanted).map (Holding.creation settings payer)

theorem missingAbsent (h : holding ∈ missing world settings wanted) :
    world.account (holding.address settings) = none := by
  obtain ⟨_, absent⟩ := List.mem_filter.1 h
  exact Option.isNone_iff_eq_none.1 absent

theorem creationsStored (stored : (world.account (holding.address settings)).isSome = true) :
    creations world settings payer (holding :: wanted) = creations world settings payer wanted := by
  unfold creations missing
  rw [List.filter_cons_of_neg (by simpa using Option.isSome_iff_ne_none.1 stored)]

theorem creationsAbsent (absent : (world.account (holding.address settings)).isSome = false) :
    creations world settings payer (holding :: wanted) =
      holding.creation settings payer :: creations world settings payer wanted := by
  unfold creations missing
  rw [List.filter_cons_of_pos (by simpa using absent), List.map_cons]

theorem createMissingSource (h : Yields world trace (createMissing settings payer wanted) made later) :
    made = creations world settings payer wanted := by
  induction wanted generalizing trace made later with
  | nil => exact (Plan.yieldsPure.1 h).1.symm
  | cons holding wanted ih =>
    obtain ⟨present, _, read, h⟩ := Plan.yieldsBind.1 h
    obtain ⟨_, found, _⟩ := Plan.yieldsAccountExists.1 read
    cases present with
    | true =>
      rw [creationsStored found]
      exact ih h
    | false =>
      obtain ⟨_, _, _, h⟩ := Plan.yieldsBind.1 h
      obtain ⟨rest, _, next, h⟩ := Plan.yieldsBind.1 h
      obtain ⟨rfl, _⟩ := Plan.yieldsPure.1 h
      rw [creationsAbsent found, ih next]
      rfl

end TradingPool.Workflow
