import TradingPool.Proofs.Refusal
import TradingPool.Proofs.Assembly

/-! Settling what an order brought. A settlement looks up the coin and the price coin of its market, an order
what it pays with and what it receives; these are the same two mints under other names, so both arrive at the
same positions of the same pool. A mint that the pool does not hold yet stops the settlement. -/
namespace TradingPool.Workflow

open TradingPool.Derivation
open TradingPool.Plan (Yields)

variable {world : World} {settings : Settings} {payer openOrders other : Key} {seed : Seed}
  {request : OrderRequest} {submission : OrderSubmission} {referrer : Option Key}
  {market pool mint : Key} {state : Pool.State} {info : Venue.Market} {index coinIndex pcIndex : Nat}

/-- The pool of the seed and the market are loaded by the first two reads of a run. -/
structure LoadedMarket (world : World) (settings : Settings) (seed : Seed) (market pool : Key)
    (state : Pool.State) (info : Venue.Market) : Prop where
  loaded : PoolSource world {} settings seed pool state
  venue : MarketSource world (loadTrace settings seed) market info

/-- The oracle refuses the vault signer of the market, or after it the mint of the pool. -/
def SettlementUnderivable (world : World) (settings : Settings) (seed : Seed) (market : Key)
    (state : Pool.State) (info : Venue.Market) : Prop :=
  world.create (loadTrace settings seed).calls [market.bytes, Layout.u64.write info.vaultSignerNonce]
      state.header.venueProgram = none ∨
    world.create (signerTrace settings seed market info.vaultSignerNonce state.header.venueProgram).calls
      [seed.bytes, [mintDiscriminator]] settings.program = none

/-- The payload names these positions, and the pool accounts are those of the assets that stand there. -/
structure SettlesAt (settings : Settings) (pool : Key) (state : Pool.State) (settle : Instruction)
    (coinIndex pcIndex : UInt64) : Prop where
  payload : ∃ params : Params.SettleFunds, Command.settleFunds.unpack settle.data = .ok params ∧
    params.coinIndex = coinIndex ∧ params.pcIndex = pcIndex
  coinAccount : ∃ asset, state.assets[coinIndex.toNat]? = some asset ∧
    settle.accounts[6]? = some (.writing (settings.tokenAccount pool asset.mint))
  pcAccount : ∃ asset, state.assets[pcIndex.toNat]? = some asset ∧
    settle.accounts[7]? = some (.writing (settings.tokenAccount pool asset.mint))

/- A position in the pool survives the width in which it is written. -/
theorem PoolSource.heldAt (loaded : PoolSource world {} settings seed pool state)
    (held : state.assetIndex? mint = some index) :
    ∃ asset, state.assets[(UInt64.ofNat index).toNat]? = some asset ∧ asset.mint = mint := by
  have first := Pool.State.assetFirst held
  have bound := first.below
  rw [Pool.State.lengthMints] at bound
  rw [UInt64.toNat_ofNat_of_lt' (Nat.lt_trans bound loaded.assetsFit)]
  exact Pool.State.mintAt first.1

theorem settlesAtHeld (loaded : PoolSource world {} settings seed pool state)
    (coinHeld : state.assetIndex? info.coinMint = some coinIndex)
    (pcHeld : state.assetIndex? info.pcMint = some pcIndex) {signer : Key} {settle : Instruction}
    (built : Command.settleFunds.build settings.program
      (settleAccounts settings pool mint state market info other signer referrer)
      { seed, pcIndex := UInt64.ofNat pcIndex, coinIndex := UInt64.ofNat coinIndex : Params.SettleFunds } =
        .ok settle) :
    SettlesAt settings pool state settle (UInt64.ofNat coinIndex) (UInt64.ofNat pcIndex) := by
  obtain ⟨_, accounts, payload⟩ := Command.buildEqOk.1 built
  obtain ⟨coin, coinStands, coinMint⟩ := loaded.heldAt coinHeld
  obtain ⟨pc, pcStands, pcMint⟩ := loaded.heldAt pcHeld
  refine ⟨⟨_, payload, rfl, rfl⟩, ⟨coin, coinStands, ?_⟩, ⟨pc, pcStands, ?_⟩⟩
  · rw [accounts, coinMint]
    rfl
  · rw [accounts, pcMint]
    rfl

namespace LoadedMarket

theorem loads (h : LoadedMarket world settings seed market pool state info) :
    Yields world {} (loadPool settings seed) (pool, state) (loadTrace settings seed) :=
  poolSource.2 ⟨h.loaded, rfl⟩

theorem reads (h : LoadedMarket world settings seed market pool state info) :
    Yields world (loadTrace settings seed) (loadMarket market) info (loadTrace settings seed).afterRead :=
  marketSource.2 ⟨h.venue, rfl⟩

theorem coinMissing (h : LoadedMarket world settings seed market pool state info)
    (free : state.assetIndex? info.coinMint = none) :
    (settleFunds settings seed market other referrer).outcome world = .error (.unknownPoolAsset info.coinMint) :=
  Plan.outcomeFails.2 ⟨_, h.loads.thenFails <| h.reads.thenFails <|
    Plan.failsAtOnce <| Plan.failsOfOption.2 ⟨free, rfl, rfl⟩⟩

theorem pcMissing (h : LoadedMarket world settings seed market pool state info)
    (coinHeld : state.assetIndex? info.coinMint = some coinIndex)
    (free : state.assetIndex? info.pcMint = none) :
    (settleFunds settings seed market other referrer).outcome world = .error (.unknownPoolAsset info.pcMint) :=
  Plan.outcomeFails.2 ⟨_, h.loads.thenFails <| h.reads.thenFails <|
    (Plan.yieldsOfOption.2 ⟨coinHeld, rfl⟩).thenFails <|
    Plan.failsAtOnce <| Plan.failsOfOption.2 ⟨free, rfl, rfl⟩⟩

/- Both positions are found, so all that is left to fail is one of the two derivations. -/
theorem bothHeld (h : LoadedMarket world settings seed market pool state info)
    (coinHeld : state.assetIndex? info.coinMint = some coinIndex)
    (pcHeld : state.assetIndex? info.pcMint = some pcIndex) :
    SettlementUnderivable world settings seed market state info ∧
        (settleFunds settings seed market other referrer).outcome world = .error .invalidDerivation ∨
      ¬ SettlementUnderivable world settings seed market state info ∧
        ∃ settle, (settleFunds settings seed market other referrer).outcome world = .ok [settle] ∧
          SettlesAt settings pool state settle (UInt64.ofNat coinIndex) (UInt64.ofNat pcIndex) := by
  have coin {absent : Failure} {trace : Trace} :
      Yields world trace (.ofOption (state.assetIndex? info.coinMint) absent) coinIndex trace :=
    Plan.yieldsOfOption.2 ⟨coinHeld, rfl⟩
  have pc {absent : Failure} {trace : Trace} :
      Yields world trace (.ofOption (state.assetIndex? info.pcMint) absent) pcIndex trace :=
    Plan.yieldsOfOption.2 ⟨pcHeld, rfl⟩
  cases signs : world.create (loadTrace settings seed).calls [market.bytes, Layout.u64.write info.vaultSignerNonce]
      state.header.venueProgram with
  | none =>
    exact .inl ⟨.inl signs, Plan.outcomeFails.2 ⟨_, h.loads.thenFails <| h.reads.thenFails <|
      coin.thenFails <| pc.thenFails <| Plan.failsAtOnce <| failsDerive.2 ⟨signs, rfl, rfl⟩⟩⟩
  | some signer =>
    have signed : Yields world (loadTrace settings seed).afterRead
        (vaultSigner state.header.venueProgram market info.vaultSignerNonce) signer
        (signerTrace settings seed market info.vaultSignerNonce state.header.venueProgram) :=
      yieldsDerive.2 ⟨signs, rfl⟩
    cases named : world.create
        (signerTrace settings seed market info.vaultSignerNonce state.header.venueProgram).calls
        [seed.bytes, [mintDiscriminator]] settings.program with
    | none =>
      exact .inl ⟨.inr named, Plan.outcomeFails.2 ⟨_, h.loads.thenFails <| h.reads.thenFails <|
        coin.thenFails <| pc.thenFails <| signed.thenFails <|
        Plan.failsAtOnce <| failsDerive.2 ⟨named, rfl, rfl⟩⟩⟩
    | some mint =>
      have derivable : ¬ SettlementUnderivable world settings seed market state info := by
        simp [SettlementUnderivable, signs, named]
      obtain ⟨settle, built⟩ : ∃ settle, Command.settleFunds.build settings.program
          (settleAccounts settings pool mint state market info other signer referrer)
          { seed, pcIndex := UInt64.ofNat pcIndex, coinIndex := UInt64.ofNat coinIndex : Params.SettleFunds } =
            .ok settle := ⟨_, rfl⟩
      refine .inr ⟨derivable, settle, ?_, settlesAtHeld h.loaded coinHeld pcHeld built⟩
      exact Plan.outcomeYields.2 ⟨_, h.loads.thenYields <| h.reads.thenYields <|
        coin.thenYields <| pc.thenYields <| signed.thenYields <|
        (yieldsDerive.2 ⟨named, rfl⟩).thenYields <| Plan.builtYields built⟩

end LoadedMarket

theorem settlementFollowsOrder
    (h : (createOrder settings payer seed request openOrders).outcome world = .ok submission) :
    ∃ pool data state stored info order, ∃ params : Params.CreateOrder,
      (poolAddress settings.program seed).outcome world = .ok pool ∧
      world.account pool = some data ∧ Pool.State.unpack data = .ok state ∧
      world.account request.market = some stored ∧ Venue.Market.unpack request.market stored = .ok info ∧
      submission.instructions.getLast? = some order ∧ Command.createOrder.unpack order.data = .ok params ∧
      params.targetMint = (match request.side with | .bid => info.coinMint | .ask => info.pcMint) ∧
      params.targetIndex.toNat ≤ state.assets.length ∧
      ∀ other referrer,
        (params.targetIndex.toNat < state.assets.length →
          SettlementUnderivable world settings seed request.market state info ∧
              (settleFunds settings seed request.market other referrer).outcome world = .error .invalidDerivation ∨
            ¬ SettlementUnderivable world settings seed request.market state info ∧
              ∃ settle, (settleFunds settings seed request.market other referrer).outcome world = .ok [settle] ∧
                match request.side with
                | .bid => SettlesAt settings pool state settle params.targetIndex params.sourceIndex
                | .ask => SettlesAt settings pool state settle params.sourceIndex params.targetIndex) ∧
        (params.targetIndex.toNat = state.assets.length →
          (settleFunds settings seed request.market other referrer).outcome world =
            .error (.unknownPoolAsset params.targetMint)) := by
  obtain ⟨later, h⟩ := Plan.outcomeYields.1 h
  obtain ⟨pool, state, info, marketIndex, sourceIndex, placed, tracker, _, order, _, built, rfl⟩ := createOrderSteps h
  obtain ⟨data, stored, read⟩ := placed.pool.stored
  obtain ⟨frame, kept, decoded⟩ := placed.venue.stored
  obtain ⟨_, _, payload⟩ := Command.buildEqOk.1 built
  have settled : LoadedMarket world settings seed request.market pool state info := ⟨placed.pool, placed.venue⟩
  have held := placed.held
  have fits := placed.targetFits (legs info request.side).2
  have bounded := Pool.State.slotBounded state (legs info request.side).2
  refine ⟨pool, data, state, frame, info, order, _, poolAddressOutcome.2 placed.pool.address, stored, read, kept,
    decoded, List.getLast?_concat .., payload, ?_⟩
  simp only [orderParams, fits]
  cases side : request.side with
  | bid =>
    simp only [side, legs] at held bounded ⊢
    refine ⟨trivial, bounded, fun other referrer => ⟨fun below => ?_, fun last => ?_⟩⟩
    · exact settled.bothHeld (Pool.State.slotHeld below) held
    · exact settled.coinMissing (Pool.State.slotFree last)
  | ask =>
    simp only [side, legs] at held bounded ⊢
    refine ⟨trivial, bounded, fun other referrer => ⟨fun below => ?_, fun last => ?_⟩⟩
    · exact settled.bothHeld held (Pool.State.slotHeld below)
    · exact settled.pcMissing held (Pool.State.slotFree last)

/- An ask on the second market, of a pool that holds both the coin and the price coin. -/
def askRequest : OrderRequest := { bidRequest with side := .ask }

def askPool : Bytes :=
  Pool.Header.stored.write (.fill 32 7, .fill 32 10, .fill 32 11, 0x3f, 2, 100, 1600000000, 604800) ++
    Layout.key.writeAll [.fill 32 20, .fill 32 21] ++
    Pool.Asset.layout.writeAll [⟨.fill 32 5, 5⟩, ⟨.zero 32, 77⟩, ⟨.fill 32 3, 9⟩]

def askWorld : World :=
  .ofLedger <| bidLedger.store
    ⟨Address.hash [(Block.fill 32 10).bytes] (.fill 32 9), .fill 32 9, askPool, by decide +kernel⟩

theorem askRun :
    ((createOrder plainSettings (.fill 32 12) (.fill 32 10) askRequest (.fill 32 1)).outcome askWorld).toOption.map
      (fun submission => (submission.instructions.length, submission.instructions.getLast?.map fun order =>
        (Command.createOrder.unpack order.data).toOption.map fun params : Params.CreateOrder =>
          (params.sourceIndex, params.targetIndex))) = some (3, some (some (1, 0))) := by
  decide +kernel

theorem askLoads :
    ((loadPool plainSettings (.fill 32 10)).outcome askWorld).toOption.map
      (fun found => (found.2.assets.length, found.2.header.signalProvider)) = some (2, .fill 32 11) := by
  decide +kernel

theorem askLoaded : ∃ pool state, PoolSource askWorld {} plainSettings (.fill 32 10) pool state ∧
    state.assets.length = 2 ∧ state.header.signalProvider = .fill 32 11 := by
  obtain ⟨⟨pool, state⟩, found, seen⟩ := Failure.answered askLoads
  obtain ⟨_, loads⟩ := Plan.outcomeYields.1 found
  obtain ⟨count, provider⟩ := Prod.mk.inj seen
  exact ⟨pool, state, (poolSource.1 loads).1, count, provider⟩

theorem askSettles :
    ((settleFunds plainSettings (.fill 32 10) askRequest.market (.fill 32 1) none).outcome askWorld).toOption.map
      List.length = some 1 := by
  decide +kernel

theorem settlementFollowsOrderAsk : ∃ submission settle, ∃ params : Params.SettleFunds,
    (createOrder plainSettings (.fill 32 12) (.fill 32 10) askRequest (.fill 32 1)).outcome askWorld =
      .ok submission ∧
    (settleFunds plainSettings (.fill 32 10) askRequest.market (.fill 32 1) none).outcome askWorld = .ok [settle] ∧
    Command.settleFunds.unpack settle.data = .ok params ∧ params.coinIndex = 1 ∧ params.pcIndex = 0 := by
  obtain ⟨submission, ok, seen⟩ := Failure.answered askRun
  obtain ⟨pool, data, state, _, _, order, params, address, stored, read, _, _, last, payload, _, _, settles⟩ :=
    settlementFollowsOrder ok
  have positions := (Prod.mk.inj seen).2
  rw [last, Option.map_some, payload] at positions
  obtain ⟨source, target⟩ := Prod.mk.inj (Option.some.inj (Option.some.inj positions))
  obtain ⟨_, known, loaded, count, _⟩ := askLoaded
  obtain ⟨_, rfl⟩ := loaded.unique (poolAddressOutcome.1 address) stored read
  have below : params.targetIndex.toNat < state.assets.length := by
    rw [target, count]
    decide
  rcases (settles (.fill 32 1) none).1 below with ⟨_, refused⟩ | ⟨_, settle, settled, positions⟩
  · have run := askSettles
    rw [refused] at run
    cases run
  · obtain ⟨named, unpacked, coin, pc⟩ := positions.payload
    exact ⟨submission, settle, named, ok, settled, unpacked, coin.trans source, pc.trans target⟩

end TradingPool.Workflow
