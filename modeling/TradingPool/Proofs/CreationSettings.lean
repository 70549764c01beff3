import TradingPool.Proofs.InstructionLists
import TradingPool.Proofs.Settlement

/-! Settings for new pools. The venue program, the number of assets and the number of attempts go into a pool
when it is made, and after that they are read from its account. Whatever is done with a pool that exists is the
same under any others, and the venue program that orders and settlements go to is the one in the header. -/
namespace TradingPool

namespace Settings

def forNewPools (settings : Settings) (venueProgram : Key) (maxAssets maxSeedAttempts : UInt32) : Settings :=
  { settings with venueProgram, maxAssets, maxSeedAttempts }

/-- The same settings but for those of new pools. -/
structure SameForPools (a b : Settings) : Prop where
  program : a.program = b.program
  tokenProgram : a.tokenProgram = b.tokenProgram
  feeOwner : a.feeOwner = b.feeOwner
  burnOwner : a.burnOwner = b.burnOwner
  openOrdersSize : a.openOrdersSize = b.openOrdersSize

theorem SameForPools.forNewPools {a b : Settings} (same : SameForPools a b) :
    a.forNewPools b.venueProgram b.maxAssets b.maxSeedAttempts = b := by
  obtain ⟨program, tokenProgram, feeOwner, burnOwner, openOrdersSize⟩ := same
  unfold Settings.forNewPools
  rw [program, tokenProgram, feeOwner, burnOwner, openOrdersSize]

end Settings

namespace Workflow

open TradingPool.Derivation
open TradingPool.Plan (Yields)
open LittleEndian (places)

section Unused

variable (settings : Settings) (venueProgram : Key) (maxAssets maxSeedAttempts : UInt32)

theorem missingUnused (payer : Key) (wanted : List Holding) :
    createMissing (settings.forNewPools venueProgram maxAssets maxSeedAttempts) payer wanted =
      createMissing settings payer wanted := by
  induction wanted with
  | nil => rfl
  | cons holding wanted ih =>
    unfold createMissing
    rw [ih]
    rfl

theorem seedsUnused (signalProvider : Option Key) (accounts : List (Key × Bytes)) :
    poolSeedsAmong (settings.forNewPools venueProgram maxAssets maxSeedAttempts) signalProvider accounts =
      poolSeedsAmong settings signalProvider accounts := by
  induction accounts with
  | nil => rfl
  | cons account accounts ih =>
    unfold poolSeedsAmong
    rw [ih]
    rfl

theorem planUnused {op : Operation} (existing : ∀ request, op ≠ .createPool request) :
    op.plan (settings.forNewPools venueProgram maxAssets maxSeedAttempts) = op.plan settings := by
  cases op with
  | createPool request => exact absurd rfl (existing request)
  | deposit payer sourceOwner seed amount =>
    simp only [Operation.plan, deposit, missingUnused]
    rfl
  | createOrder payer seed request openOrders =>
    simp only [Operation.plan, createOrder, missingUnused]
    rfl
  | cancelOrder seed market openOrders => rfl
  | settleFunds seed market openOrders referrer => rfl
  | redeem payer sourceOwner seed amount =>
    simp only [Operation.plan, redeem, missingUnused]
    rfl
  | collectFees payer seed =>
    simp only [Operation.plan, collectFees, missingUnused]
    rfl
  | poolInfo seed => rfl
  | poolBalances seed => rfl
  | poolSeeds signalProvider =>
    simp only [Operation.plan, poolSeeds, seedsUnused]
    rfl
  | orderTracker seed openOrders => rfl

end Unused

variable {world : World} {settings : Settings} {payer pool market openOrders : Key} {seed : Seed}
  {state : Pool.State} {request : OrderRequest} {submission : OrderSubmission} {referrer : Option Key}
  {instructions : List Instruction}

/-- The pool of the seed stands in the ledger with this venue program in its header. -/
def StoredVenue (world : World) (settings : Settings) (seed : Seed) (venueProgram : Key) : Prop :=
  ∃ pool data state, world.create #[] [seed.bytes] settings.program = some pool ∧ world.account pool = some data ∧
    Pool.State.unpack data = .ok state ∧ state.header.venueProgram = venueProgram

theorem PoolSource.storedVenue (loaded : PoolSource world {} settings seed pool state) :
    StoredVenue world settings seed state.header.venueProgram := by
  obtain ⟨data, stored, read⟩ := loaded.stored
  exact ⟨pool, data, state, loaded.address, stored, read, rfl⟩

theorem orderVenue (h : (createOrder settings payer seed request openOrders).outcome world = .ok submission) :
    ∃ venueProgram balance first order, StoredVenue world settings seed venueProgram ∧
      world.balance settings.openOrdersSize = .ok balance ∧ submission.instructions.head? = some first ∧
      first.program = Programs.system ∧ first.accounts = [⟨payer, true, true⟩, ⟨openOrders, true, true⟩] ∧
      first.data = places 4 0 ++ places 8 balance.toNat ++ places 8 settings.openOrdersSize.toNat ++
        venueProgram.bytes ∧
      submission.instructions.getLast? = some order ∧ order.accounts[10]? = some (.plain venueProgram) := by
  obtain ⟨later, h⟩ := Plan.outcomeYields.1 h
  obtain ⟨pool, state, market, marketIndex, sourceIndex, source, tracker, balance, order, told, built, rfl⟩ :=
    createOrderSteps h
  obtain ⟨_, accounts, _⟩ := Command.buildEqOk.1 built
  have opens :=
    Instruction.createAccountOpens payer openOrders balance settings.openOrdersSize state.header.venueProgram
  refine ⟨state.header.venueProgram, balance, _, order, source.pool.storedVenue, told, rfl, opens.called,
    opens.accounts, opens.payload, List.getLast?_concat .., ?_⟩
  rw [accounts]
  rfl

theorem cancellationVenue (h : (cancelOrder settings seed market openOrders).outcome world = .ok instructions) :
    ∃ venueProgram cancel, StoredVenue world settings seed venueProgram ∧ instructions = [cancel] ∧
      cancel.accounts[5]? = some (.plain venueProgram) := by
  obtain ⟨later, h⟩ := Plan.outcomeYields.1 h
  obtain ⟨pool, made⟩ := cancelOrderAssembled h
  cases made default with
  | cancelOrder loaded venue resting first built =>
    obtain ⟨_, accounts, _⟩ := Command.buildEqOk.1 built
    refine ⟨_, _, loaded.storedVenue, rfl, ?_⟩
    rw [accounts]
    rfl

/- The second of the three addresses that a settlement derives is that of the signer. -/
theorem settlementTrace {info : Venue.Market} {mint signer : Key} {coinIndex pcIndex : Nat} {settle : Instruction}
    (found : LoadedMarket world settings seed market pool state info)
    (coinHeld : state.assetIndex? info.coinMint = some coinIndex)
    (pcHeld : state.assetIndex? info.pcMint = some pcIndex)
    (signs : world.create (loadTrace settings seed).calls [market.bytes, Layout.u64.write info.vaultSignerNonce]
      state.header.venueProgram = some signer)
    (named : NamesMint world (signerTrace settings seed market info.vaultSignerNonce state.header.venueProgram)
      settings seed mint)
    (built : Command.settleFunds.build settings.program
      (settleAccounts settings pool mint state market info openOrders signer referrer)
      { seed, pcIndex := UInt64.ofNat pcIndex, coinIndex := UInt64.ofNat coinIndex : Params.SettleFunds } =
        .ok settle) :
    ((settleFunds settings seed market openOrders referrer).trace world).calls =
      #[.create [seed.bytes] settings.program,
        .create [market.bytes, Layout.u64.write info.vaultSignerNonce] state.header.venueProgram,
        .create [seed.bytes, [mintDiscriminator]] settings.program] := by
  have signed : Yields world (loadTrace settings seed).afterRead
      (vaultSigner state.header.venueProgram market info.vaultSignerNonce) signer
      (signerTrace settings seed market info.vaultSignerNonce state.header.venueProgram) :=
    yieldsDerive.2 ⟨signs, rfl⟩
  have run : Yields world {} (settleFunds settings seed market openOrders referrer) [settle] _ :=
    found.loads.thenYields <| found.reads.thenYields <| (Plan.yieldsOfOption.2 ⟨coinHeld, rfl⟩).thenYields <|
      (Plan.yieldsOfOption.2 ⟨pcHeld, rfl⟩).thenYields <| signed.thenYields <|
      (yieldsDerive.2 ⟨named, rfl⟩).thenYields <| Plan.builtYields built
  unfold Plan.trace
  rw [run]
  rfl

theorem settlementVenue
    (h : (settleFunds settings seed market openOrders referrer).outcome world = .ok instructions) :
    ∃ venueProgram settle signer data info, StoredVenue world settings seed venueProgram ∧ instructions = [settle] ∧
      settle.accounts[10]? = some (.plain venueProgram) ∧ settle.accounts[8]? = some (.plain signer) ∧
      world.account market = some data ∧ Venue.Market.unpack market data = .ok info ∧
      world.create #[.create [seed.bytes] settings.program]
        [market.bytes, Layout.u64.write info.vaultSignerNonce] venueProgram = some signer ∧
      ((settleFunds settings seed market openOrders referrer).trace world).calls =
        #[.create [seed.bytes] settings.program,
          .create [market.bytes, Layout.u64.write info.vaultSignerNonce] venueProgram,
          .create [seed.bytes, [mintDiscriminator]] settings.program] := by
  obtain ⟨later, h⟩ := Plan.outcomeYields.1 h
  obtain ⟨pool, mint, made⟩ := settleFundsAssembled h
  cases made with
  | settleFunds loaded venue coinHeld pcHeld signs named built =>
    obtain ⟨_, accounts, _⟩ := Command.buildEqOk.1 built
    obtain ⟨data, stored, read⟩ := venue.stored
    refine ⟨_, _, _, data, _, loaded.storedVenue, rfl, ?_, ?_, stored, read, signs,
      settlementTrace ⟨loaded, venue⟩ coinHeld pcHeld signs named built⟩
    · rw [accounts]
      rfl
    · rw [accounts]
      rfl

theorem creationSettingsUnused :
    (∀ (a b : Settings) (op : Operation) (world : World), a.SameForPools b →
      (∀ request, op ≠ .createPool request) →
      (op.plan a).outcome world = (op.plan b).outcome world ∧ (op.plan a).trace world = (op.plan b).trace world) ∧
    (∀ (settings : Settings) (world : World) (payer : Key) (seed : Seed) (request : OrderRequest) (openOrders : Key)
      (submission : OrderSubmission),
      (createOrder settings payer seed request openOrders).outcome world = .ok submission →
      ∃ venueProgram balance first order, StoredVenue world settings seed venueProgram ∧
        world.balance settings.openOrdersSize = .ok balance ∧ submission.instructions.head? = some first ∧
        first.program = Programs.system ∧ first.accounts = [⟨payer, true, true⟩, ⟨openOrders, true, true⟩] ∧
        first.data = places 4 0 ++ places 8 balance.toNat ++ places 8 settings.openOrdersSize.toNat ++
          venueProgram.bytes ∧
        submission.instructions.getLast? = some order ∧ order.accounts[10]? = some (.plain venueProgram)) ∧
    (∀ (settings : Settings) (world : World) (seed : Seed) (market openOrders : Key) (instructions : List Instruction),
      (cancelOrder settings seed market openOrders).outcome world = .ok instructions →
      ∃ venueProgram cancel, StoredVenue world settings seed venueProgram ∧ instructions = [cancel] ∧
        cancel.accounts[5]? = some (.plain venueProgram)) ∧
    ∀ (settings : Settings) (world : World) (seed : Seed) (market openOrders : Key) (referrer : Option Key)
      (instructions : List Instruction),
      (settleFunds settings seed market openOrders referrer).outcome world = .ok instructions →
      ∃ venueProgram settle signer data info, StoredVenue world settings seed venueProgram ∧
        instructions = [settle] ∧ settle.accounts[10]? = some (.plain venueProgram) ∧
        settle.accounts[8]? = some (.plain signer) ∧
        world.account market = some data ∧ Venue.Market.unpack market data = .ok info ∧
        world.create #[.create [seed.bytes] settings.program]
          [market.bytes, Layout.u64.write info.vaultSignerNonce] venueProgram = some signer ∧
        ((settleFunds settings seed market openOrders referrer).trace world).calls =
          #[.create [seed.bytes] settings.program,
            .create [market.bytes, Layout.u64.write info.vaultSignerNonce] venueProgram,
            .create [seed.bytes, [mintDiscriminator]] settings.program] := by
  refine ⟨?_, fun _ _ _ _ _ _ _ => orderVenue, fun _ _ _ _ _ _ => cancellationVenue,
    fun _ _ _ _ _ _ _ => settlementVenue⟩
  intro a b op world same existing
  have plans := planUnused a b.venueProgram b.maxAssets b.maxSeedAttempts existing
  rw [same.forNewPools] at plans
  rw [plans]
  exact ⟨rfl, rfl⟩

/- The venue program of the pool is not the one in the settings. -/
theorem askVenue :
    ((createOrder plainSettings (.fill 32 12) (.fill 32 10) askRequest (.fill 32 1)).outcome askWorld).toOption.map
      (fun submission => submission.instructions.getLast?.bind fun order => order.accounts[10]?) =
        some (some (.plain (.fill 32 7))) := by
  decide +kernel

theorem creationSettingsUnusedAsk : ∃ submission, ∃ first : Instruction,
    (createOrder plainSettings (.fill 32 12) (.fill 32 10) askRequest (.fill 32 1)).outcome askWorld = .ok submission ∧
    (createOrder (plainSettings.forNewPools (.fill 32 1) 0 0) (.fill 32 12) (.fill 32 10) askRequest
      (.fill 32 1)).outcome askWorld = .ok submission ∧
    submission.instructions.head? = some first ∧
    first.data.drop 20 = (Block.fill 32 7).bytes := by
  obtain ⟨submission, ok, seen⟩ := Failure.answered askVenue
  obtain ⟨unused, orders, _, _⟩ := creationSettingsUnused
  have same : plainSettings.SameForPools (plainSettings.forNewPools (.fill 32 1) 0 0) := ⟨rfl, rfl, rfl, rfl, rfl⟩
  have other := (unused _ _ (.createOrder (.fill 32 12) (.fill 32 10) askRequest (.fill 32 1)) askWorld same nofun).1
  obtain ⟨venueProgram, balance, first, order, _, _, head, _, _, data, last, named⟩ := orders _ _ _ _ _ _ _ ok
  rw [last, Option.bind_some, named] at seen
  cases Option.some.inj seen
  refine ⟨submission, first, ok, other.symm.trans ok, head, ?_⟩
  rw [data]
  exact List.drop_left' rfl

end Workflow
end TradingPool
