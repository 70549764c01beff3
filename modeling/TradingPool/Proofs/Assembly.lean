import TradingPool.Proofs.PoolCreation
import TradingPool.Proofs.OrderPlacement
import TradingPool.Workflow.Operation

/-! How each workflow puts its list together: what comes first, the token accounts it wants, and the command
of the pool at the end. Whatever a workflow sends is read off here. -/
namespace TradingPool.Workflow

open TradingPool.Derivation
open TradingPool.Plan (Yields)

def Operation.isWorkflow : Operation → Bool
  | .poolInfo _ | .poolBalances _ | .poolSeeds _ | .orderTracker .. => false
  | _ => true

theorem Operation.instructionsOfQuery (op : Operation) (answer : op.Answer) (query : ¬ op.isWorkflow = true) :
    op.instructions answer = [] := by
  cases op with
  | poolInfo | poolBalances | poolSeeds | orderTracker => rfl
  | _ => exact absurd rfl query

def loadTrace (settings : Settings) (seed : Seed) : Trace :=
  (({} : Trace).afterCall (.create [seed.bytes] settings.program)).afterRead

def signerTrace (settings : Settings) (seed : Seed) (market : Key) (nonce : UInt64) (venueProgram : Key) : Trace :=
  (loadTrace settings seed).afterRead.afterCall (.create [market.bytes, Layout.u64.write nonce] venueProgram)

def NamesMint (world : World) (trace : Trace) (settings : Settings) (seed : Seed) (mint : Key) : Prop :=
  world.create trace.calls [seed.bytes, [mintDiscriminator]] settings.program = some mint

theorem NamesMint.same {world : World} {trace : Trace} {settings : Settings} {seed : Seed} {mint name : Key}
    (named : NamesMint world trace settings seed mint) (again : NamesMint world trace settings seed name) :
    mint = name :=
  Option.some.inj (Eq.trans (Eq.symm named) again)

inductive Assembled (world : World) (settings : Settings) (pool mint : Key) :
    (op : Operation) → op.Answer → Prop where
  | createPool {request seed mints init create}
      (sources : SourceMints world [] request.sourceAssets mints)
      (initBuilt : Command.init.build settings.program (initAccounts settings request.payer pool mint)
        (initParams settings request seed) = .ok init)
      (createBuilt : Command.create.build settings.program (createAccounts settings request pool mint mints)
        (createParams settings request seed) = .ok create) :
      Assembled world settings pool mint (.createPool request)
        ⟨seed, pool, mint, [init] ++
          creations world settings request.payer
            (mints.map (Holding.mk pool) ++ [⟨request.sourceOwner, mint⟩]) ++ [create]⟩
  | deposit {payer sourceOwner seed amount state last}
      (loaded : PoolSource world {} settings seed pool state)
      (named : NamesMint world (loadTrace settings seed) settings seed mint)
      (built : Command.deposit.build settings.program (depositAccounts settings pool mint state sourceOwner)
        { seed, poolTokenAmount := amount : Params.Deposit } = .ok last) :
      Assembled world settings pool mint (.deposit payer sourceOwner seed amount)
        (creations world settings payer [⟨sourceOwner, mint⟩] ++ [last])
  | createOrder {payer seed request openOrders state market marketIndex sourceIndex tracker balance last}
      (placed : PlacementSource world {} settings seed request pool state market marketIndex sourceIndex)
      (told : world.balance settings.openOrdersSize = .ok balance)
      (built : Command.createOrder.build settings.program
        (orderAccounts settings pool state market request openOrders)
        (orderParams seed market request sourceIndex (state.assetSlot (legs market request.side).2) marketIndex) =
          .ok last) :
      Assembled world settings pool mint (.createOrder payer seed request openOrders)
        ⟨openOrders, tracker, sourceIndex, state.assetSlot (legs market request.side).2,
          [.createAccount payer openOrders balance settings.openOrdersSize state.header.venueProgram] ++
          creations world settings payer [⟨pool, (legs market request.side).2⟩] ++ [last]⟩
  | cancelOrder {seed market openOrders state info orders orderId last}
      (loaded : PoolSource world {} settings seed pool state)
      (venue : MarketSource world (loadTrace settings seed) market info)
      (resting : OrdersSource world (loadTrace settings seed).afterRead openOrders orders)
      (first : orders.firstOrder? = some orderId)
      (built : Command.cancelOrder.build settings.program (cancelAccounts pool state market info openOrders)
        { seed, side := orderId.side, orderId : Params.CancelOrder } = .ok last) :
      Assembled world settings pool mint (.cancelOrder seed market openOrders) [last]
  | settleFunds {seed market openOrders referrer state info coinIndex pcIndex signer last}
      (loaded : PoolSource world {} settings seed pool state)
      (venue : MarketSource world (loadTrace settings seed) market info)
      (coinHeld : state.assetIndex? info.coinMint = some coinIndex)
      (pcHeld : state.assetIndex? info.pcMint = some pcIndex)
      (signs : world.create (loadTrace settings seed).calls
        [market.bytes, Layout.u64.write info.vaultSignerNonce] state.header.venueProgram = some signer)
      (named : NamesMint world
        (signerTrace settings seed market info.vaultSignerNonce state.header.venueProgram) settings seed mint)
      (built : Command.settleFunds.build settings.program
        (settleAccounts settings pool mint state market info openOrders signer referrer)
        { seed, pcIndex := UInt64.ofNat pcIndex, coinIndex := UInt64.ofNat coinIndex : Params.SettleFunds } =
          .ok last) :
      Assembled world settings pool mint (.settleFunds seed market openOrders referrer) [last]
  | redeem {payer sourceOwner seed amount state last}
      (loaded : PoolSource world {} settings seed pool state)
      (idle : state.header.status.pendingOrders = 0)
      (named : NamesMint world (loadTrace settings seed) settings seed mint)
      (built : Command.redeem.build settings.program (redeemAccounts settings pool mint state sourceOwner)
        { seed, poolTokenAmount := amount : Params.Redeem } = .ok last) :
      Assembled world settings pool mint (.redeem payer sourceOwner seed amount)
        (creations world settings payer (state.mints.map (Holding.mk sourceOwner)) ++ [last])
  | collectFees {payer seed state last}
      (loaded : PoolSource world {} settings seed pool state)
      (named : NamesMint world (loadTrace settings seed) settings seed mint)
      (built : Command.collectFees.build settings.program (collectAccounts settings pool mint state)
        { seed : Params.CollectFees } = .ok last) :
      Assembled world settings pool mint (.collectFees payer seed)
        (creations world settings payer [⟨state.header.signalProvider, mint⟩, ⟨settings.feeOwner, mint⟩,
          ⟨settings.burnOwner, mint⟩] ++ [last])

variable {world : World} {later : Trace} {settings : Settings} {payer sourceOwner market openOrders : Key}
  {seed : Seed} {amount : UInt64} {referrer : Option Key} {instructions : List Instruction}

theorem createPoolAssembled {request : PoolRequest} {created : CreatedPool}
    (h : Yields world {} (createPool settings request) created later) :
    Assembled world settings created.pool created.mint (.createPool request) created := by
  obtain ⟨mints, init, made, create, source⟩ := createPoolSource h
  obtain ⟨seed, pool, mint, instructions⟩ := created
  have list := source.instructions
  rw [source.missing] at list
  dsimp only at list
  subst list
  exact .createPool source.sources source.initBuilt source.createBuilt

theorem depositAssembled (h : Yields world {} (deposit settings payer sourceOwner seed amount) instructions later) :
    ∃ pool mint, Assembled world settings pool mint (.deposit payer sourceOwner seed amount) instructions := by
  unfold deposit at h
  obtain ⟨⟨pool, state⟩, _, loads, h⟩ := Plan.yieldsBind.1 h
  obtain ⟨loaded, rfl⟩ := poolSource.1 loads
  obtain ⟨mint, _, derives, h⟩ := Plan.yieldsBind.1 h
  obtain ⟨named, rfl⟩ := yieldsDerive.1 derives
  obtain ⟨_, _, bootstrapped, h⟩ := Plan.yieldsBind.1 h
  cases createMissingSource bootstrapped
  obtain ⟨last, built, rfl⟩ := Plan.yieldsBuilt h
  exact ⟨pool, mint, .deposit loaded named built⟩

theorem createOrderAssembled {request : OrderRequest} {submission : OrderSubmission}
    (h : Yields world {} (createOrder settings payer seed request openOrders) submission later) :
    ∃ pool, ∀ mint, Assembled world settings pool mint (.createOrder payer seed request openOrders) submission := by
  obtain ⟨pool, state, market, marketIndex, sourceIndex, placed, tracker, balance, last, told, built, rfl⟩ :=
    createOrderSteps h
  exact ⟨pool, fun mint => .createOrder placed told built⟩

theorem cancelOrderAssembled (h : Yields world {} (cancelOrder settings seed market openOrders) instructions later) :
    ∃ pool, ∀ mint, Assembled world settings pool mint (.cancelOrder seed market openOrders) instructions := by
  unfold cancelOrder at h
  obtain ⟨⟨pool, state⟩, _, loads, h⟩ := Plan.yieldsBind.1 h
  obtain ⟨loaded, rfl⟩ := poolSource.1 loads
  obtain ⟨info, _, reads, h⟩ := Plan.yieldsBind.1 h
  obtain ⟨venue, rfl⟩ := marketSource.1 reads
  obtain ⟨orders, _, reads, h⟩ := Plan.yieldsBind.1 h
  obtain ⟨resting, rfl⟩ := ordersSource.1 reads
  obtain ⟨orderId, _, found, h⟩ := Plan.yieldsBind.1 h
  have first := (Plan.yieldsOfOption.1 found).1
  dsimp only at h
  obtain ⟨_, h⟩ := Plan.yieldsAfterNote h
  obtain ⟨last, built, rfl⟩ := Plan.yieldsBuilt h
  exact ⟨pool, fun mint => .cancelOrder loaded venue resting first built⟩

theorem settleFundsAssembled
    (h : Yields world {} (settleFunds settings seed market openOrders referrer) instructions later) :
    ∃ pool mint, Assembled world settings pool mint (.settleFunds seed market openOrders referrer) instructions := by
  unfold settleFunds at h
  obtain ⟨⟨pool, state⟩, _, loads, h⟩ := Plan.yieldsBind.1 h
  obtain ⟨loaded, rfl⟩ := poolSource.1 loads
  obtain ⟨info, _, reads, h⟩ := Plan.yieldsBind.1 h
  obtain ⟨venue, rfl⟩ := marketSource.1 reads
  obtain ⟨coinIndex, _, found, h⟩ := Plan.yieldsBind.1 h
  obtain ⟨coinHeld, rfl⟩ := Plan.yieldsOfOption.1 found
  obtain ⟨pcIndex, _, found, h⟩ := Plan.yieldsBind.1 h
  obtain ⟨pcHeld, rfl⟩ := Plan.yieldsOfOption.1 found
  obtain ⟨signer, _, derives, h⟩ := Plan.yieldsBind.1 h
  obtain ⟨signs, rfl⟩ := yieldsDerive.1 derives
  obtain ⟨mint, _, derives, h⟩ := Plan.yieldsBind.1 h
  obtain ⟨named, rfl⟩ := yieldsDerive.1 derives
  obtain ⟨last, built, rfl⟩ := Plan.yieldsBuilt h
  exact ⟨pool, mint, .settleFunds loaded venue coinHeld pcHeld signs named built⟩

theorem redeemAssembled (h : Yields world {} (redeem settings payer sourceOwner seed amount) instructions later) :
    ∃ pool mint, Assembled world settings pool mint (.redeem payer sourceOwner seed amount) instructions := by
  unfold redeem at h
  obtain ⟨⟨pool, state⟩, _, loads, h⟩ := Plan.yieldsBind.1 h
  obtain ⟨loaded, rfl⟩ := poolSource.1 loads
  dsimp only at h
  split at h
  · exact absurd h Plan.yieldsFail
  rename_i idle
  obtain ⟨mint, _, derives, h⟩ := Plan.yieldsBind.1 h
  obtain ⟨named, rfl⟩ := yieldsDerive.1 derives
  obtain ⟨_, _, bootstrapped, h⟩ := Plan.yieldsBind.1 h
  cases createMissingSource bootstrapped
  obtain ⟨last, built, rfl⟩ := Plan.yieldsBuilt h
  exact ⟨pool, mint, .redeem loaded (Decidable.not_not.1 idle) named built⟩

theorem collectFeesAssembled (h : Yields world {} (collectFees settings payer seed) instructions later) :
    ∃ pool mint, Assembled world settings pool mint (.collectFees payer seed) instructions := by
  unfold collectFees at h
  obtain ⟨⟨pool, state⟩, _, loads, h⟩ := Plan.yieldsBind.1 h
  obtain ⟨loaded, rfl⟩ := poolSource.1 loads
  obtain ⟨mint, _, derives, h⟩ := Plan.yieldsBind.1 h
  obtain ⟨named, rfl⟩ := yieldsDerive.1 derives
  obtain ⟨_, _, bootstrapped, h⟩ := Plan.yieldsBind.1 h
  cases createMissingSource bootstrapped
  obtain ⟨last, built, rfl⟩ := Plan.yieldsBuilt h
  exact ⟨pool, mint, .collectFees loaded named built⟩

theorem assembled {op : Operation} {answer : op.Answer} (workflow : op.isWorkflow = true)
    (h : Yields world {} (op.plan settings) answer later) :
    ∃ pool mint, Assembled world settings pool mint op answer := by
  cases op with
  | createPool request => exact ⟨_, _, createPoolAssembled h⟩
  | deposit payer sourceOwner seed amount => exact depositAssembled h
  | createOrder payer seed request openOrders =>
    obtain ⟨pool, made⟩ := createOrderAssembled h
    exact ⟨pool, default, made default⟩
  | cancelOrder seed market openOrders =>
    obtain ⟨pool, made⟩ := cancelOrderAssembled h
    exact ⟨pool, default, made default⟩
  | settleFunds seed market openOrders referrer => exact settleFundsAssembled h
  | redeem payer sourceOwner seed amount => exact redeemAssembled h
  | collectFees payer seed => exact collectFeesAssembled h
  | poolInfo seed => cases workflow
  | poolBalances seed => cases workflow
  | poolSeeds signalProvider => cases workflow
  | orderTracker seed openOrders => cases workflow

/- A pool of two assets with a free slot between them. Of the accounts of its investor, the one for the
first asset is stored. -/
def investedPool : Bytes :=
  Pool.Header.stored.write (.fill 32 8, .fill 32 10, .fill 32 11, 0x3f, 1, 100, 1600000000, 604800) ++
    Layout.key.writeAll [.fill 32 20] ++
    Pool.Asset.layout.writeAll [⟨.fill 32 2, 5⟩, ⟨.zero 32, 77⟩, ⟨.fill 32 5, 9⟩]

def investedState : Pool.State where
  header := ⟨.fill 32 8, .fill 32 10, .fill 32 11, .active false 0, 1, 100, 1600000000, 604800⟩
  markets := [.fill 32 20]
  assets := [⟨.fill 32 2, 5⟩, ⟨.fill 32 5, 9⟩]

theorem investedSized : investedPool.length < UInt64.size := by decide +kernel

def investedLedger : Ledger :=
  .ofEntries [⟨Address.hash [(Block.fill 32 10).bytes] (.fill 32 9), .fill 32 9, investedPool, investedSized⟩,
    ⟨plainSettings.tokenAccount (.fill 32 14) (.fill 32 2), Programs.token, [], by decide⟩]

theorem createOfLedger (ledger : Ledger) (calls : Array Call) (seeds : List Bytes) (program : Key) :
    (World.ofLedger ledger).create calls seeds program = Address.create? seeds program := rfl

theorem investedAddress : Address.create? [(Block.fill 32 10).bytes] (.fill 32 9) =
    some (Address.hash [(Block.fill 32 10).bytes] (.fill 32 9)) := by
  decide +kernel

theorem investedStored : (World.ofLedger investedLedger).account (Address.hash [(Block.fill 32 10).bytes] (.fill 32 9)) =
    some investedPool := by
  decide +kernel

theorem investedDecoded : Pool.State.unpack investedPool = .ok investedState := by decide +kernel

theorem investedLoaded (program : settings.program = .fill 32 9) :
    PoolSource (World.ofLedger investedLedger) {} settings (.fill 32 10)
      (Address.hash [(Block.fill 32 10).bytes] (.fill 32 9)) investedState := by
  refine ⟨?_, rfl, ⟨investedPool, investedStored, investedDecoded⟩, by decide⟩
  rw [program, createOfLedger]
  exact investedAddress

def investorRedeems : Operation := .redeem (.fill 32 12) (.fill 32 14) (.fill 32 10) 5

theorem redemptionRun :
    ((investorRedeems.plan plainSettings).outcome (World.ofLedger investedLedger)).toOption.map
        (fun list : List Instruction => (list.length, list.head?)) =
      some (2, some (Holding.creation plainSettings (.fill 32 12) ⟨.fill 32 14, .fill 32 5⟩)) := by
  decide +kernel

end TradingPool.Workflow
