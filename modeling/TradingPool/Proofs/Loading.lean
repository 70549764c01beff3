import TradingPool.Proofs.Run
import TradingPool.Workflow.Loading

/-! What the steps shared by the workflows go by: the address that the oracle gives, and the data that the
ledger holds there. -/
namespace TradingPool.Workflow

open TradingPool.Derivation
open TradingPool.Plan (Yields)

variable {world : World} {trace later : Trace} {settings : Settings} {seed : Seed} {pool : Key}
  {state : Pool.State}

theorem yieldsDerive {seeds : List Bytes} {program address : Key} :
    Yields world trace (derive seeds program) address later ↔
      world.create trace.calls seeds program = some address ∧
        trace.afterCall (.create seeds program) = later := by
  unfold derive
  simp only [Plan.yieldsBind, Plan.yieldsCreate, Plan.yieldsOfOption]
  refine ⟨fun h => ?_, fun h => ?_⟩
  · obtain ⟨answer, _, ⟨given, rfl⟩, rfl, rfl⟩ := h
    exact ⟨given, rfl⟩
  · obtain ⟨given, rfl⟩ := h
    exact ⟨some address, _, ⟨given, rfl⟩, rfl, rfl⟩

structure PoolSource (world : World) (trace : Trace) (settings : Settings) (seed : Seed) (pool : Key)
    (state : Pool.State) : Prop where
  address : world.create trace.calls [seed.bytes] settings.program = some pool
  sound : world.fault (trace.reads + 1) = none
  stored : ∃ data, world.account pool = some data ∧ Pool.State.unpack data = .ok state
  created : state.header.isInitialized = true

theorem poolSource :
    Yields world trace (loadPool settings seed) (pool, state) later ↔
      PoolSource world trace settings seed pool state ∧
        (trace.afterCall (.create [seed.bytes] settings.program)).afterRead = later := by
  unfold loadPool poolAddress
  simp only [Plan.yieldsBind, yieldsDerive, Plan.yieldsExisting, Plan.yieldsOfExcept]
  refine ⟨fun h => ?_, fun h => ?_⟩
  · obtain ⟨address, _, ⟨derived, rfl⟩, data, _, ⟨sound, stored, rfl⟩, found, _, ⟨read, rfl⟩, rest⟩ := h
    split at rest
    · rename_i created
      obtain ⟨same, rfl⟩ := Plan.yieldsPure.1 rest
      cases same
      exact ⟨⟨derived, sound, ⟨data, stored, read⟩, created⟩, rfl⟩
    · exact absurd rest Plan.yieldsFail
  · obtain ⟨source, rfl⟩ := h
    obtain ⟨data, stored, read⟩ := source.stored
    refine ⟨pool, _, ⟨source.address, rfl⟩, data, _, ⟨source.sound, stored, rfl⟩, state, _, ⟨read, rfl⟩, ?_⟩
    rw [if_pos source.created]
    exact Plan.yieldsPure.2 ⟨rfl, rfl⟩

theorem PoolSource.unique {data : Bytes} {address : Key} {known : Pool.State}
    (source : PoolSource world trace settings seed pool state)
    (derived : world.create trace.calls [seed.bytes] settings.program = some address)
    (stored : world.account address = some data) (read : Pool.State.unpack data = .ok known) :
    address = pool ∧ known = state := by
  cases Option.some.inj (derived.symm.trans source.address)
  obtain ⟨found, held, decoded⟩ := source.stored
  cases Option.some.inj (stored.symm.trans held)
  exact ⟨rfl, Except.ok.inj (read.symm.trans decoded)⟩

theorem PoolSource.same {other : Key} {known : Pool.State}
    (source : PoolSource world trace settings seed pool state)
    (again : PoolSource world trace settings seed other known) : pool = other ∧ state = known := by
  obtain ⟨data, stored, read⟩ := source.stored
  exact again.unique source.address stored read

structure MarketSource (world : World) (trace : Trace) (address : Key) (market : Venue.Market) : Prop where
  sound : world.fault (trace.reads + 1) = none
  stored : ∃ data, world.account address = some data ∧ Venue.Market.unpack address data = .ok market

theorem marketSource {address : Key} {market : Venue.Market} :
    Yields world trace (loadMarket address) market later ↔
      MarketSource world trace address market ∧ trace.afterRead = later := by
  unfold loadMarket
  simp only [Plan.yieldsBind, Plan.yieldsExisting, Plan.yieldsOfExcept]
  refine ⟨fun h => ?_, fun h => ?_⟩
  · obtain ⟨data, _, ⟨sound, stored, rfl⟩, read, rfl⟩ := h
    exact ⟨⟨sound, data, stored, read⟩, rfl⟩
  · obtain ⟨⟨sound, data, stored, read⟩, rfl⟩ := h
    exact ⟨data, _, ⟨sound, stored, rfl⟩, read, rfl⟩

structure OrdersSource (world : World) (trace : Trace) (address : Key) (orders : Venue.OpenOrders) : Prop where
  sound : world.fault (trace.reads + 1) = none
  stored : ∃ data, world.account address = some data ∧ Venue.OpenOrders.unpack address data = .ok orders

theorem ordersSource {address : Key} {orders : Venue.OpenOrders} :
    Yields world trace (loadOpenOrders address) orders later ↔
      OrdersSource world trace address orders ∧ trace.afterRead = later := by
  unfold loadOpenOrders
  simp only [Plan.yieldsBind, Plan.yieldsExisting, Plan.yieldsOfExcept]
  refine ⟨fun h => ?_, fun h => ?_⟩
  · obtain ⟨data, _, ⟨sound, stored, rfl⟩, read, rfl⟩ := h
    exact ⟨⟨sound, data, stored, read⟩, rfl⟩
  · obtain ⟨⟨sound, data, stored, read⟩, rfl⟩ := h
    exact ⟨data, _, ⟨sound, stored, rfl⟩, read, rfl⟩

theorem deriveOutcome {seeds : List Bytes} {program address : Key} :
    (derive seeds program).outcome world = .ok address ↔ world.create #[] seeds program = some address := by
  rw [Plan.outcomeYields]
  simp only [yieldsDerive]
  exact ⟨fun ⟨_, given, _⟩ => given, fun given => ⟨_, given, rfl⟩⟩

theorem poolAddressOutcome :
    (poolAddress settings.program seed).outcome world = .ok pool ↔
      world.create #[] [seed.bytes] settings.program = some pool :=
  deriveOutcome

/- Settings for runs on given ledgers. -/
def plainSettings : Settings :=
  { program := .fill 32 9, venueProgram := .fill 32 8, feeOwner := .fill 32 7, burnOwner := .fill 32 6 }

end TradingPool.Workflow
