import TradingPool.Proofs.Payload
import TradingPool.Proofs.PoolIndex
import TradingPool.Proofs.Loading
import TradingPool.Proofs.TokenAccounts
import TradingPool.Workflow.Trading

/-! Orders name their market and their assets by position. The positions written into an order are those of
the pool that it was made for, whatever the width they are written in, and they lead to the token account
that pays. -/
namespace TradingPool.Workflow

open TradingPool.Derivation
open TradingPool.Plan (Yields)
open TradingPool.Pool (FirstAt)

variable {world : World} {trace later : Trace} {settings : Settings} {payer openOrders : Key} {seed : Seed}
  {request : OrderRequest} {submission : OrderSubmission}

structure PlacementSource (world : World) (trace : Trace) (settings : Settings) (seed : Seed)
    (request : OrderRequest) (pool : Key) (state : Pool.State) (market : Venue.Market)
    (marketIndex sourceIndex : Nat) : Prop where
  pool : PoolSource world trace settings seed pool state
  authorized : state.marketIndex? request.market = some marketIndex
  venue : MarketSource world (trace.afterCall (.create [seed.bytes] settings.program)).afterRead
    request.market market
  held : state.assetIndex? (legs market request.side).1 = some sourceIndex

theorem createOrderSteps
    (h : Yields world trace (createOrder settings payer seed request openOrders) submission later) :
    ∃ pool state market marketIndex sourceIndex,
      PlacementSource world trace settings seed request pool state market marketIndex sourceIndex ∧
      ∃ tracker balance order, world.balance settings.openOrdersSize = .ok balance ∧
        Command.createOrder.build settings.program
          (orderAccounts settings pool state market request openOrders)
          (orderParams seed market request sourceIndex (state.assetSlot (legs market request.side).2) marketIndex) =
            .ok order ∧
        submission = ⟨openOrders, tracker, sourceIndex, state.assetSlot (legs market request.side).2,
          openOrdersCreation settings payer openOrders balance state ::
            creations world settings payer [⟨pool, (legs market request.side).2⟩] ++ [order]⟩ := by
  unfold createOrder at h
  obtain ⟨⟨pool, state⟩, _, loaded, h⟩ := Plan.yieldsBind.1 h
  obtain ⟨source, rfl⟩ := poolSource.1 loaded
  obtain ⟨marketIndex, _, found, h⟩ := Plan.yieldsBind.1 h
  obtain ⟨authorized, rfl⟩ := Plan.yieldsOfOption.1 found
  obtain ⟨market, _, read, h⟩ := Plan.yieldsBind.1 h
  obtain ⟨venue, rfl⟩ := marketSource.1 read
  obtain ⟨sourceIndex, _, found, h⟩ := Plan.yieldsBind.1 h
  obtain ⟨held, rfl⟩ := Plan.yieldsOfOption.1 found
  obtain ⟨tracker, _, _, h⟩ := Plan.yieldsBind.1 h
  obtain ⟨balance, _, asked, h⟩ := Plan.yieldsBind.1 h
  have told := (Plan.yieldsBalance.1 asked).1
  obtain ⟨_, _, bootstrapped, h⟩ := Plan.yieldsBind.1 h
  cases createMissingSource bootstrapped
  obtain ⟨order, _, built, h⟩ := Plan.yieldsBind.1 h
  obtain ⟨_, _, _, last⟩ := Plan.yieldsBind.1 h
  obtain ⟨same, _⟩ := Plan.yieldsPure.1 last
  exact ⟨pool, state, market, marketIndex, sourceIndex, ⟨source, authorized, venue, held⟩, tracker, balance,
    order, told, (Plan.yieldsOfExcept.1 built).1, same.symm⟩

theorem legsOfSide (market : Venue.Market) (side : Side) :
    side = .bid ∧ (legs market side).1 = market.pcMint ∧ (legs market side).2 = market.coinMint ∨
      side = .ask ∧ (legs market side).1 = market.coinMint ∧ (legs market side).2 = market.pcMint := by
  cases side with
  | bid => exact .inl ⟨rfl, rfl, rfl⟩
  | ask => exact .inr ⟨rfl, rfl, rfl⟩

theorem PoolSource.assetsFit {pool : Key} {state : Pool.State}
    (source : PoolSource world trace settings seed pool state) : state.assets.length < UInt64.size := by
  obtain ⟨data, stored, read⟩ := source.stored
  have small := world.sized stored
  have slots := Pool.State.assetsBounded read
  unfold Pool.Asset.size at slots
  omega

namespace PlacementSource

variable {pool : Key} {state : Pool.State} {market : Venue.Market} {marketIndex sourceIndex : Nat}

theorem marketFits
    (source : PlacementSource world trace settings seed request pool state market marketIndex sourceIndex) :
    (UInt16.ofNat marketIndex).toNat = marketIndex := by
  obtain ⟨data, _, read⟩ := source.pool.stored
  have few := Pool.State.marketsBounded read
  have bound := (Pool.State.marketFirst source.authorized).below
  exact UInt16.toNat_ofNat_of_lt' (Nat.lt_trans bound few)

theorem sourceFits
    (source : PlacementSource world trace settings seed request pool state market marketIndex sourceIndex) :
    (UInt64.ofNat sourceIndex).toNat = sourceIndex := by
  have few := source.pool.assetsFit
  have bound := (Pool.State.assetFirst source.held).below
  rw [Pool.State.lengthMints] at bound
  exact UInt64.toNat_ofNat_of_lt' (Nat.lt_trans bound few)

theorem targetFits
    (source : PlacementSource world trace settings seed request pool state market marketIndex sourceIndex)
    (mint : Key) : (UInt64.ofNat (state.assetSlot mint)).toNat = state.assetSlot mint := by
  have few := source.pool.assetsFit
  have bound := Pool.State.slotBounded state mint
  exact UInt64.toNat_ofNat_of_lt' (Nat.lt_of_le_of_lt bound few)

/- A mint that is not in the pool goes after all assets, so it cannot share the position of one. -/
theorem positionsApart
    (source : PlacementSource world trace settings seed request pool state market marketIndex sourceIndex)
    (same : sourceIndex = state.assetSlot (legs market request.side).2) : market.coinMint = market.pcMint := by
  have paying := Pool.State.assetFirst source.held
  have equal : (legs market request.side).1 = (legs market request.side).2 := by
    rcases Pool.State.slotFirst state (legs market request.side).2 with first | ⟨_, last⟩
    · rw [← same] at first
      exact paying.keyUnique first
    · have bound := paying.below
      rw [Pool.State.lengthMints] at bound
      omega
  rcases legsOfSide market request.side with ⟨_, pays, receives⟩ | ⟨_, pays, receives⟩
  · rw [pays, receives] at equal
    exact equal.symm
  · rw [pays, receives] at equal
    exact equal

end PlacementSource

theorem orderPositions
    (h : (createOrder settings payer seed request openOrders).outcome world = .ok submission) :
    ∃ pool data state stored market source target order, ∃ params : Params.CreateOrder,
      (poolAddress settings.program seed).outcome world = .ok pool ∧
      world.account pool = some data ∧ Pool.State.unpack data = .ok state ∧
      world.account request.market = some stored ∧ Venue.Market.unpack request.market stored = .ok market ∧
      (request.side = .bid ∧ source = market.pcMint ∧ target = market.coinMint ∨
        request.side = .ask ∧ source = market.coinMint ∧ target = market.pcMint) ∧
      submission.instructions.getLast? = some order ∧
      Command.createOrder.unpack order.data = .ok params ∧
      FirstAt state.markets request.market params.marketIndex.toNat ∧
      params.sourceIndex.toNat < state.assets.length ∧
      FirstAt state.mints source params.sourceIndex.toNat ∧
      (FirstAt state.mints target params.targetIndex.toNat ∨
        target ∉ state.mints ∧ params.targetIndex.toNat = state.assets.length) ∧
      params.targetMint = target ∧
      (∃ asset, state.assets[params.sourceIndex.toNat]? = some asset ∧
        order.accounts[2]? = some (.writing (settings.tokenAccount pool asset.mint))) ∧
      submission.sourceIndex = params.sourceIndex.toNat ∧
      submission.targetIndex = params.targetIndex.toNat ∧
      (params.sourceIndex = params.targetIndex → market.coinMint = market.pcMint) := by
  obtain ⟨later, h⟩ := Plan.outcomeYields.1 h
  obtain ⟨pool, state, market, marketIndex, sourceIndex, source, tracker, _, order, _, built, rfl⟩ :=
    createOrderSteps h
  obtain ⟨data, stored, read⟩ := source.pool.stored
  obtain ⟨frame, kept, decoded⟩ := source.venue.stored
  obtain ⟨_, accounts, payload⟩ := Command.buildEqOk.1 built
  have paying := Pool.State.assetFirst source.held
  have bound := paying.below
  rw [Pool.State.lengthMints] at bound
  obtain ⟨asset, held, mint⟩ := Pool.State.mintAt paying.1
  have payer : order.accounts[2]? = some (.writing (settings.tokenAccount pool asset.mint)) := by
    rw [accounts, mint]
    rfl
  have sourceFits := source.sourceFits
  have targetFits := source.targetFits (legs market request.side).2
  refine ⟨pool, data, state, frame, market, (legs market request.side).1, (legs market request.side).2, order,
    orderParams seed market request sourceIndex (state.assetSlot (legs market request.side).2) marketIndex,
    poolAddressOutcome.2 source.pool.address, stored, read, kept, decoded, legsOfSide market request.side,
    List.getLast?_concat .., payload, ?_⟩
  unfold orderParams
  rw [sourceFits, targetFits, source.marketFits]
  refine ⟨Pool.State.marketFirst source.authorized, bound, paying, Pool.State.slotFirst state _, rfl,
    ⟨asset, held, payer⟩, rfl, rfl, ?_⟩
  intro same
  have equal := congrArg UInt64.toNat same
  rw [sourceFits, targetFits] at equal
  exact source.positionsApart equal

/- A bid on the second market of a pool of two assets, for a coin that the pool does not have yet. -/
def bidRequest : OrderRequest where
  market := .fill 32 21
  side := .bid
  limitPrice := 500
  maxQuantity := 65535
  orderType := .limit
  clientId := 7
  selfTrade := .decrementTake
  referrer := none

def bidPool : Bytes :=
  Pool.Header.stored.write (.fill 32 8, .fill 32 4, .fill 32 11, 0x3f, 2, 100, 1600000000, 604800) ++
    Layout.key.writeAll [.fill 32 20, .fill 32 21] ++
    Pool.Asset.layout.writeAll [⟨.fill 32 2, 5⟩, ⟨.zero 32, 77⟩, ⟨.fill 32 5, 9⟩]

def bidMarket : Bytes :=
  Venue.frame Venue.MarketRecord.layout
    { flags := 3, ownAddress := .fill 32 21, vaultSignerNonce := 1, coinMint := .fill 32 3
      pcMint := .fill 32 5, coinVault := .fill 32 31, coinDepositsTotal := 0, coinFeesAccrued := 0
      pcVault := .fill 32 32, pcDepositsTotal := 0, pcFeesAccrued := 0, pcDustThreshold := 0
      requestQueue := .fill 32 33, eventQueue := .fill 32 34, bids := .fill 32 35, asks := .fill 32 36
      coinLotSize := 100, pcLotSize := 10, feeRateBps := 0, referrerRebatesAccrued := 0 }

def bidLedger : Ledger :=
  .ofEntries [⟨Address.hash [(Block.fill 32 4).bytes] (.fill 32 9), .fill 32 9, bidPool, by decide +kernel⟩,
    ⟨.fill 32 21, .fill 32 8, bidMarket, by decide +kernel⟩]

theorem bidRun :
    ((createOrder plainSettings (.fill 32 12) (.fill 32 4) bidRequest (.fill 32 1)).outcome
      (World.ofLedger bidLedger)).map (fun submission => (submission.sourceIndex, submission.targetIndex)) =
      .ok (1, 2) := by
  decide +kernel

theorem orderPositionsBid : ∃ submission,
    (createOrder plainSettings (.fill 32 12) (.fill 32 4) bidRequest (.fill 32 1)).outcome
      (World.ofLedger bidLedger) = .ok submission ∧
    ∃ order, ∃ params : Params.CreateOrder, submission.instructions.getLast? = some order ∧
      Command.createOrder.unpack order.data = .ok params ∧
      params.sourceIndex.toNat = 1 ∧ params.targetIndex.toNat = 2 := by
  have run := bidRun
  cases ok : (createOrder plainSettings (.fill 32 12) (.fill 32 4) bidRequest (.fill 32 1)).outcome
      (World.ofLedger bidLedger) with
  | error failure =>
    rw [ok] at run
    contradiction
  | ok submission =>
    rw [ok] at run
    obtain ⟨first, second⟩ := Prod.mk.inj (Except.ok.inj run)
    obtain ⟨_, _, _, _, _, _, _, order, params, _, _, _, _, _, _, last, payload, _, _, _, _, _, _, source,
      target, _⟩ := orderPositions ok
    exact ⟨submission, rfl, order, params, last, payload, source.symm.trans first, target.symm.trans second⟩

end TradingPool.Workflow
