import TradingPool.Workflow.Loading
import TradingPool.Command.Roster

/-! Orders of a pool: placing one, cancelling it, and taking in what it brought. -/
namespace TradingPool.Workflow

open TradingPool.Derivation

structure OrderRequest where
  market : Key
  side : Side
  limitPrice : UInt64
  /-- Of the asset that pays, out of 2^16. -/
  maxQuantity : UInt16
  orderType : OrderType
  clientId : UInt64
  selfTrade : SelfTrade
  referrer : Option Key
  deriving DecidableEq, Repr

structure OrderSubmission where
  openOrders : Key
  tracker : Key
  sourceIndex : Nat
  targetIndex : Nat
  instructions : List Instruction
  deriving DecidableEq, Repr

/-- What an order on a market pays with, and what it receives. -/
def legs (market : Venue.Market) : Side → Key × Key
  | .bid => (market.pcMint, market.coinMint)
  | .ask => (market.coinMint, market.pcMint)

def orderAccounts (settings : Settings) (pool : Key) (state : Pool.State) (market : Venue.Market)
    (request : OrderRequest) (openOrders : Key) : Accounts.CreateOrder where
  signalProvider := state.header.signalProvider
  market := request.market
  payerPoolAsset := settings.tokenAccount pool (legs market request.side).1
  openOrders
  requestQueue := market.requestQueue
  pool
  coinVault := market.coinVault
  pcVault := market.pcVault
  tokenProgram := settings.tokenProgram
  rentSysvar := Programs.rentSysvar
  venueProgram := state.header.venueProgram
  referrer := request.referrer

def orderParams (seed : Seed) (market : Venue.Market) (request : OrderRequest)
    (sourceIndex targetIndex marketIndex : Nat) : Params.CreateOrder where
  seed
  side := request.side
  limitPrice := request.limitPrice
  maxQuantity := request.maxQuantity
  orderType := request.orderType
  clientId := request.clientId
  selfTrade := request.selfTrade
  sourceIndex := UInt64.ofNat sourceIndex
  targetIndex := UInt64.ofNat targetIndex
  marketIndex := UInt16.ofNat marketIndex
  coinLotSize := market.coinLotSize
  pcLotSize := market.pcLotSize
  targetMint := (legs market request.side).2

def openOrdersCreation (settings : Settings) (payer openOrders : Key) (balance : UInt64) (state : Pool.State) :
    Instruction :=
  .createAccount payer openOrders balance settings.openOrdersSize state.header.venueProgram

def createOrder (settings : Settings) (payer : Key) (seed : Seed) (request : OrderRequest)
    (openOrders : Key) : Plan OrderSubmission := do
  let (pool, state) ← loadPool settings seed
  let marketIndex ← Plan.ofOption (state.marketIndex? request.market) (.unauthorizedMarket request.market)
  let market ← loadMarket request.market
  let (sourceMint, targetMint) := legs market request.side
  let sourceIndex ← Plan.ofOption (state.assetIndex? sourceMint) (.unknownPoolAsset sourceMint)
  let targetIndex := state.assetSlot targetMint
  let tracker ← trackerAddress settings.program seed openOrders
  let balance ← Plan.balance settings.openOrdersSize
  let creations ← createMissing settings payer [⟨pool, targetMint⟩]
  let order ← Plan.ofExcept <| Command.createOrder.build settings.program
    (orderAccounts settings pool state market request openOrders)
    (orderParams seed market request sourceIndex targetIndex marketIndex)
  let instructions := openOrdersCreation settings payer openOrders balance state :: creations ++ [order]
  Plan.note (.orderCreation pool openOrders sourceIndex targetIndex instructions.length)
  return ⟨openOrders, tracker, sourceIndex, targetIndex, instructions⟩

def cancelAccounts (pool : Key) (state : Pool.State) (market : Key) (info : Venue.Market)
    (openOrders : Key) : Accounts.CancelOrder where
  signalProvider := state.header.signalProvider
  market
  openOrders
  requestQueue := info.requestQueue
  pool
  venueProgram := state.header.venueProgram

/-- Cancel the order in the first slot. The side sent is the one that the order id tells, even where the
venue's own record of the slot disagrees. -/
def cancelOrder (settings : Settings) (seed : Seed) (market openOrders : Key) :
    Plan (List Instruction) := do
  let (pool, state) ← loadPool settings seed
  let info ← loadMarket market
  let orders ← loadOpenOrders openOrders
  let orderId ← Plan.ofOption orders.firstOrder? (.noOpenOrder openOrders)
  let side := orderId.side
  if (side == .bid) != orders.slotIsBid 0 then
    Plan.note (.sideDisagreement openOrders orderId side)
  let cancel ← Plan.ofExcept <| Command.cancelOrder.build settings.program
    (cancelAccounts pool state market info openOrders)
    { seed, side, orderId : Params.CancelOrder }
  Plan.note (.orderCancellation pool orderId side)
  return [cancel]

def settleAccounts (settings : Settings) (pool mint : Key) (state : Pool.State) (market : Key)
    (info : Venue.Market) (openOrders signer : Key) (referrer : Option Key) : Accounts.SettleFunds where
  market
  openOrders
  pool
  mint
  coinVault := info.coinVault
  pcVault := info.pcVault
  coinPoolAsset := settings.tokenAccount pool info.coinMint
  pcPoolAsset := settings.tokenAccount pool info.pcMint
  vaultSigner := signer
  tokenProgram := settings.tokenProgram
  venueProgram := state.header.venueProgram
  referrer

def settleFunds (settings : Settings) (seed : Seed) (market openOrders : Key)
    (referrer : Option Key) : Plan (List Instruction) := do
  let (pool, state) ← loadPool settings seed
  let info ← loadMarket market
  let coinIndex ← Plan.ofOption (state.assetIndex? info.coinMint) (.unknownPoolAsset info.coinMint)
  let pcIndex ← Plan.ofOption (state.assetIndex? info.pcMint) (.unknownPoolAsset info.pcMint)
  let signer ← vaultSigner state.header.venueProgram market info.vaultSignerNonce
  let mint ← mintAddress settings.program seed
  let settle ← Plan.ofExcept <| Command.settleFunds.build settings.program
    (settleAccounts settings pool mint state market info openOrders signer referrer)
    { seed, pcIndex := UInt64.ofNat pcIndex
      coinIndex := UInt64.ofNat coinIndex : Params.SettleFunds }
  Plan.note (.settlement pool coinIndex pcIndex)
  return [settle]

end TradingPool.Workflow
