import TradingPool.Proofs.PossibleFailures

/-! What a pool account must be for an operation on the pool to begin. The length of the account, the market
count and the status byte decide it, in this order and alike for all operations that load a pool. A redemption
looks at the status byte once more. -/
namespace TradingPool

variable {α : Type} {world : World} {trace later : Trace} {failure : Failure}

namespace Pool

/-- What is wrong with the account of a pool, if anything. The market count stands at offset 97 and the status
at offset 96. -/
def gateFault? (pool : Key) : Option Bytes → Option Failure
  | none => some (.poolUnavailable pool)
  | some data =>
    let markets := 32 * LittleEndian.decodeAt 2 97 data
    if data.length < 117 then some (.truncatedAccount 117 data.length)
    else if data.length < 117 + markets then some (.truncatedAccount markets (data.length - 117))
    else if data[96]? = some 0 then some (.uninitializedPool pool)
    else none

def gateKinds : List Failure.Kind := [.poolUnavailable, .truncatedAccount, .uninitializedPool]

theorem gateKnown {pool : Key} {stored : Option Bytes} (fault : gateFault? pool stored = some failure) :
    failure.kind ∈ gateKinds := by
  unfold gateFault? at fault
  split at fault
  · cases fault
    exact .head _
  · dsimp only at fault
    split_ifs at fault <;> cases fault
    · exact .tail _ (.head _)
    · exact .tail _ (.head _)
    · exact .tail _ (.tail _ (.head _))

theorem gateTruncated {pool : Key} {data : Bytes} (refused : State.unpack data = .error failure) :
    gateFault? pool (some data) = some failure := by
  rcases State.unpackEqError.1 refused with ⟨short, rfl⟩ | ⟨enough, short, rfl⟩
  · exact if_pos short
  · exact (if_neg (Nat.not_lt.2 enough)).trans (if_pos short)

theorem gateDecoded {pool : Key} {data : Bytes} {state : State} (read : State.unpack data = .ok state) :
    gateFault? pool (some data) = if state.header.isInitialized then none else some (.uninitializedPool pool) := by
  obtain ⟨enough, long⟩ : 117 ≤ data.length ∧ 117 + 32 * LittleEndian.decodeAt 2 97 data ≤ data.length :=
    (State.unpackAccepts data).1 ⟨state, read⟩
  obtain ⟨b, byte, same⟩ := Header.statusAt (State.unpackEqOk.1 read).1
  have used : state.header.isInitialized = true ↔ b ≠ 0 := by
    unfold Header.isInitialized
    rw [decide_eq_true_iff, ← same, ne_eq, Status.ofByteUninitialized]
  unfold gateFault?
  dsimp only
  rw [if_neg (Nat.not_lt.2 enough), if_neg (Nat.not_lt.2 long), byte]
  by_cases zero : b = 0
  · simp [used, zero]
  · simp [used, zero]

end Pool

namespace Workflow

open TradingPool.Derivation
open TradingPool.Plan (Yields Fails)

variable {settings : Settings} {seed : Seed} {pool : Key} {op : Operation}

theorem absentFails {address : Key} {absent : Failure} (sound : world.fault (trace.reads + 1) = none)
    (missing : world.account address = none) :
    Fails world trace (Plan.existing address absent) absent trace.afterRead :=
  (Plan.yieldsAccount.2 ⟨sound, missing, rfl⟩).thenFails (Plan.failsOfOption.2 ⟨rfl, rfl, rfl⟩)

theorem gateShut (derived : world.create #[] [seed.bytes] settings.program = some pool)
    (sound : world.fault 1 = none) (fault : Pool.gateFault? pool (world.account pool) = some failure) :
    Fails world {} (loadPool settings seed) failure (loadTrace settings seed) := by
  have named : Yields world {} (poolAddress settings.program seed) pool
      (({} : Trace).afterCall (.create [seed.bytes] settings.program)) := yieldsDerive.2 ⟨derived, rfl⟩
  refine named.thenFails ?_
  cases stored : world.account pool with
  | none =>
    rw [stored] at fault
    cases fault
    exact Plan.failsAtOnce (absentFails sound stored)
  | some data =>
    rw [stored] at fault
    have held : Yields world (({} : Trace).afterCall (.create [seed.bytes] settings.program))
        (Plan.existing pool (.poolUnavailable pool)) data (loadTrace settings seed) :=
      Plan.yieldsExisting.2 ⟨sound, stored, rfl⟩
    refine held.thenFails ?_
    cases read : Pool.State.unpack data with
    | error other =>
      rw [Pool.gateTruncated read] at fault
      cases fault
      rfl
    | ok state =>
      rw [Pool.gateDecoded read] at fault
      split at fault
      · cases fault
      · rename_i unused
        cases fault
        change Fails world _ (if _ then _ else _) _ _
        rw [if_neg unused]
        rfl

theorem gateOpen (derived : world.create #[] [seed.bytes] settings.program = some pool)
    (sound : world.fault 1 = none) (clear : Pool.gateFault? pool (world.account pool) = none) :
    ∃ state, PoolSource world {} settings seed pool state := by
  cases stored : world.account pool with
  | none =>
    rw [stored] at clear
    cases clear
  | some data =>
    rw [stored] at clear
    cases read : Pool.State.unpack data with
    | error other =>
      rw [Pool.gateTruncated read] at clear
      cases clear
    | ok state =>
      rw [Pool.gateDecoded read] at clear
      split at clear
      · rename_i used
        exact ⟨state, derived, sound, ⟨data, stored, read⟩, used⟩
      · cases clear

/- Whatever else goes wrong behind the gate is no failure of the gate. -/
theorem Operation.gateApart (given : op.poolSeed? = some seed) : ∀ kind ∈ Pool.gateKinds, kind ∉ op.ownKinds := by
  cases op with
  | createPool | poolSeeds | orderTracker => cases given
  | _ => exact of_decide_eq_true rfl

theorem Operation.pendingListed (listed : .pendingOrders ∈ op.ownKinds) (given : op.poolSeed? = some seed) :
    ∃ payer sourceOwner amount, op = .redeem payer sourceOwner seed amount := by
  cases op with
  | redeem payer sourceOwner seed amount =>
    cases given
    exact ⟨payer, sourceOwner, amount, rfl⟩
  | _ => exact absurd listed (of_decide_eq_true rfl)

theorem Operation.shut (given : op.poolSeed? = some seed)
    (refused : Fails world {} (loadPool settings seed) failure later) :
    Fails world {} (op.plan settings) failure later := by
  obtain ⟨rest, same, _⟩ := Operation.loadsFirst settings given
  rw [same]
  exact Plan.failsAtOnce refused

/- Once the pool is loaded, only what follows can fail. -/
theorem behindLoad {plan : Plan α} {rest : Key × Pool.State → Plan α} {kinds : List Failure.Kind} {state : Pool.State}
    (loaded : PoolSource world {} settings seed pool state) (sound : ∀ n, world.fault n = none)
    (same : plan = loadPool settings seed >>= rest) (only : (rest (pool, state)).FailsOnly kinds)
    (h : Fails world {} plan failure later) : failure.kind ∈ kinds := by
  have first : Yields world {} (loadPool settings seed) (pool, state) (loadTrace settings seed) :=
    poolSource.2 ⟨loaded, rfl⟩
  subst same
  rcases Plan.failsBind.1 h with refused | ⟨found, mid, loads, last⟩
  · cases first.symm.trans refused
  · cases first.symm.trans loads
    rcases only.reason last with listed | ⟨_, fault, _⟩
    · exact listed
    · rw [sound] at fault
      cases fault

theorem Operation.pastGate (given : op.poolSeed? = some seed) (sound : ∀ n, world.fault n = none)
    {state : Pool.State} (loaded : PoolSource world {} settings seed pool state)
    (h : Fails world {} (op.plan settings) failure later) : failure.kind ∈ op.ownKinds := by
  obtain ⟨rest, same, only⟩ := Operation.loadsFirst settings given
  exact behindLoad loaded sound same (only (pool, state)) h

variable {payer sourceOwner : Key} {amount : UInt64} {state : Pool.State}

theorem redeemBusy (loaded : PoolSource world {} settings seed pool state)
    (busy : state.header.status.pendingOrders ≠ 0) :
    Fails world {} (redeem settings payer sourceOwner seed amount)
      (.pendingOrders state.header.status.pendingOrders) (loadTrace settings seed) := by
  have first : Yields world {} (loadPool settings seed) (pool, state) (loadTrace settings seed) :=
    poolSource.2 ⟨loaded, rfl⟩
  obtain ⟨rest, same, steps⟩ := redeemSteps settings payer sourceOwner seed amount
  rw [same]
  refine first.thenFails ?_
  rw [(steps pool state).1 busy]
  rfl

theorem redeemIdle (loaded : PoolSource world {} settings seed pool state) (sound : ∀ n, world.fault n = none)
    (idle : state.header.status.pendingOrders = 0)
    (h : Fails world {} (redeem settings payer sourceOwner seed amount) failure later) :
    failure.kind ∈ [.invalidDerivation] := by
  obtain ⟨rest, same, steps⟩ := redeemSteps settings payer sourceOwner seed amount
  exact behindLoad loaded sound same ((steps pool state).2 idle) h

theorem redeemPending (loaded : PoolSource world {} settings seed pool state) (sound : ∀ n, world.fault n = none)
    {count : UInt8} :
    (redeem settings payer sourceOwner seed amount).outcome world = .error (.pendingOrders count) ↔
      state.header.status.pendingOrders = count ∧ count ≠ 0 := by
  rw [Plan.outcomeFails]
  constructor
  · intro h
    obtain ⟨later, h⟩ := h
    by_cases idle : state.header.status.pendingOrders = 0
    · cases List.mem_singleton.1 (redeemIdle loaded sound idle h)
    · cases (redeemBusy loaded idle).symm.trans h
      exact ⟨rfl, idle⟩
  · rintro ⟨rfl, busy⟩
    exact ⟨_, redeemBusy loaded busy⟩

/- The same in terms of the stored byte. -/
theorem pendingStored (loaded : PoolSource world {} settings seed pool state) {count : UInt8} :
    state.header.status.pendingOrders = count ∧ count ≠ 0 ↔
      ∃ data b, world.account pool = some data ∧ data[96]? = some b ∧ b &&& 0x40 ≠ 0 ∧
        count.toNat = b.toNat % 64 + 1 := by
  obtain ⟨data, stored, read⟩ := loaded.stored
  obtain ⟨b, byte, same⟩ := Pool.Header.statusAt (Pool.State.unpackEqOk.1 read).1
  rw [← same, Pool.Status.pendingCount]
  refine ⟨fun h => ⟨data, b, stored, byte, h⟩, fun h => ?_⟩
  obtain ⟨other, c, again, found, h⟩ := h
  cases stored.symm.trans again
  cases byte.symm.trans found
  exact h

section Gate

variable (given : op.poolSeed? = some seed) (sound : ∀ n, world.fault n = none)
  (derived : world.create #[] [seed.bytes] settings.program = some pool)
include given sound derived

theorem gateOnly (known : failure.kind ∈ Pool.gateKinds) (h : Fails world {} (op.plan settings) failure later) :
    Pool.gateFault? pool (world.account pool) = some failure := by
  cases fault : Pool.gateFault? pool (world.account pool) with
  | some other =>
    cases (Operation.shut given (gateShut derived (sound 1) fault)).symm.trans h
    rfl
  | none =>
    obtain ⟨state, loaded⟩ := gateOpen derived (sound 1) fault
    exact absurd (Operation.pastGate given sound loaded h) (Operation.gateApart given _ known)

theorem pendingOnly {count : UInt8} (h : Fails world {} (op.plan settings) (.pendingOrders count) later) :
    (∃ payer sourceOwner amount, op = .redeem payer sourceOwner seed amount) ∧
      Pool.gateFault? pool (world.account pool) = none := by
  cases fault : Pool.gateFault? pool (world.account pool) with
  | some other =>
    cases (Operation.shut given (gateShut derived (sound 1) fault)).symm.trans h
    exact absurd (Pool.gateKnown fault) (by decide : Failure.Kind.pendingOrders ∉ Pool.gateKinds)
  | none =>
    obtain ⟨state, loaded⟩ := gateOpen derived (sound 1) fault
    exact ⟨Operation.pendingListed (Operation.pastGate given sound loaded h) given, rfl⟩

theorem pendingGate {count : UInt8} :
    (op.plan settings).outcome world = .error (.pendingOrders count) ↔
      (∃ payer sourceOwner amount, op = .redeem payer sourceOwner seed amount) ∧
        Pool.gateFault? pool (world.account pool) = none ∧
        ∃ data b, world.account pool = some data ∧ data[96]? = some b ∧ b &&& 0x40 ≠ 0 ∧
          count.toNat = b.toNat % 64 + 1 := by
  constructor
  · intro h
    obtain ⟨later, run⟩ := Plan.outcomeFails.1 h
    obtain ⟨⟨payer, sourceOwner, amount, rfl⟩, clear⟩ := pendingOnly given sound derived run
    obtain ⟨state, loaded⟩ := gateOpen derived (sound 1) clear
    exact ⟨⟨payer, sourceOwner, amount, rfl⟩, clear, (pendingStored loaded).1 ((redeemPending loaded sound).1 h)⟩
  · intro h
    obtain ⟨⟨payer, sourceOwner, amount, rfl⟩, clear, stored⟩ := h
    obtain ⟨state, loaded⟩ := gateOpen derived (sound 1) clear
    exact (redeemPending loaded sound).2 ((pendingStored loaded).2 stored)

theorem pendingTrace {count : UInt8} (h : (op.plan settings).outcome world = .error (.pendingOrders count)) :
    (op.plan settings).trace world = loadTrace settings seed := by
  obtain ⟨later, run⟩ := Plan.outcomeFails.1 h
  obtain ⟨⟨payer, sourceOwner, amount, rfl⟩, clear⟩ := pendingOnly given sound derived run
  obtain ⟨state, loaded⟩ := gateOpen derived (sound 1) clear
  obtain ⟨same, busy⟩ := (redeemPending loaded sound).1 h
  rw [← same] at busy
  exact (redeemBusy loaded busy).ended.2

end Gate

theorem loadingGate (given : op.poolSeed? = some seed) (sound : ∀ n, world.fault n = none) :
    (world.create #[] [seed.bytes] settings.program = none →
      (op.plan settings).outcome world = .error .invalidDerivation ∧
        ((op.plan settings).trace world).reads = 0) ∧
    ∀ pool, world.create #[] [seed.bytes] settings.program = some pool →
      (∀ failure, Pool.gateFault? pool (world.account pool) = some failure →
        (op.plan settings).outcome world = .error failure ∧ ((op.plan settings).trace world).reads = 1) ∧
      (∀ failure, failure.kind ∈ Pool.gateKinds → (op.plan settings).outcome world = .error failure →
        Pool.gateFault? pool (world.account pool) = some failure) ∧
      (∀ count, (op.plan settings).outcome world = .error (.pendingOrders count) ↔
        (∃ payer sourceOwner amount, op = .redeem payer sourceOwner seed amount) ∧
          Pool.gateFault? pool (world.account pool) = none ∧
          ∃ data b, world.account pool = some data ∧ data[96]? = some b ∧ b &&& 0x40 ≠ 0 ∧
            count.toNat = b.toNat % 64 + 1) ∧
      ∀ count, (op.plan settings).outcome world = .error (.pendingOrders count) →
        ((op.plan settings).trace world).reads = 1 := by
  refine ⟨fun underived => ?_, fun pool derived => ⟨fun failure fault => ?_, fun failure known h => ?_,
    fun count => pendingGate given sound derived, fun count h => ?_⟩⟩
  · have refused : Fails world {} (loadPool settings seed) .invalidDerivation _ :=
      Plan.failsAtOnce (failsDerive.2 ⟨underived, rfl, rfl⟩)
    obtain ⟨outcome, trace⟩ := (Operation.shut given refused).ended
    exact ⟨outcome, congrArg Trace.reads trace⟩
  · obtain ⟨outcome, trace⟩ := (Operation.shut given (gateShut derived (sound 1) fault)).ended
    exact ⟨outcome, congrArg Trace.reads trace⟩
  · obtain ⟨later, run⟩ := Plan.outcomeFails.1 h
    exact gateOnly given sound derived known run
  · exact congrArg Trace.reads (pendingTrace given sound derived h)

/- A pool like the one above, with eight orders in flight. -/
def busyPool : Bytes :=
  Pool.Header.stored.write (.fill 32 8, .fill 32 10, .fill 32 11, 0x47, 1, 100, 1600000000, 604800) ++
    Layout.key.writeAll [.fill 32 20]

def busyLedger : Ledger :=
  .ofEntries [⟨Address.hash [(Block.fill 32 10).bytes] (.fill 32 9), .fill 32 9, busyPool, by decide +kernel⟩]

theorem busyStored : (World.ofLedger busyLedger).account (Address.hash [(Block.fill 32 10).bytes] (.fill 32 9)) =
    some busyPool := by
  decide +kernel

theorem loadingGateBusy :
    (investorRedeems.plan plainSettings).outcome (World.ofLedger busyLedger) = .error (.pendingOrders 8) ∧
    ((investorRedeems.plan plainSettings).trace (World.ofLedger busyLedger)).reads = 1 := by
  have given : investorRedeems.poolSeed? = some (.fill 32 10) := rfl
  have sound : ∀ n, (World.ofLedger busyLedger).fault n = none := fun n => rfl
  have derived : (World.ofLedger busyLedger).create #[] [(Block.fill 32 10).bytes] plainSettings.program =
      some (Address.hash [(Block.fill 32 10).bytes] (.fill 32 9)) := by
    rw [createOfLedger]
    exact investedAddress
  have clear : Pool.gateFault? (Address.hash [(Block.fill 32 10).bytes] (.fill 32 9)) (some busyPool) = none := by
    decide +kernel
  obtain ⟨_, _, pending, once⟩ := (loadingGate given sound).2 _ derived
  rw [busyStored] at pending
  have refused := (pending 8).2 ⟨⟨_, _, _, rfl⟩, clear, busyPool, 0x47, rfl, by decide +kernel, by decide, rfl⟩
  exact ⟨refused, once 8 refused⟩

end Workflow
end TradingPool
