import TradingPool.Command.Payload
import TradingPool.Instruction

/-! The accounts that each command is given, in the order in which the program expects them. -/
namespace TradingPool
namespace Accounts

structure Init where
  systemProgram : Key
  rentSysvar : Key
  tokenProgram : Key
  pool : Key
  mint : Key
  payer : Key
  deriving DecidableEq, Repr

def Init.metas (a : Init) : List AccountMeta :=
  [.plain a.systemProgram, .plain a.rentSysvar, .plain a.tokenProgram, .writing a.pool,
    .writing a.mint, .paying a.payer]

structure Create where
  tokenProgram : Key
  clockSysvar : Key
  mint : Key
  targetPoolToken : Key
  pool : Key
  poolAssets : List Key
  sourceOwner : Key
  sourceAssets : List Key
  deriving DecidableEq, Repr

def Create.metas (a : Create) : List AccountMeta :=
  [.plain a.tokenProgram, .plain a.clockSysvar, .writing a.mint, .writing a.targetPoolToken,
    .writing a.pool] ++ a.poolAssets.map .writing ++
  [.signing a.sourceOwner] ++ a.sourceAssets.map .writing

structure Deposit where
  tokenProgram : Key
  mint : Key
  targetPoolToken : Key
  signalProviderPoolToken : Key
  feePoolToken : Key
  burnPoolToken : Key
  pool : Key
  poolAssets : List Key
  sourceOwner : Key
  sourceAssets : List Key
  deriving DecidableEq, Repr

def Deposit.metas (a : Deposit) : List AccountMeta :=
  [.plain a.tokenProgram, .writing a.mint, .writing a.targetPoolToken,
    .writing a.signalProviderPoolToken, .writing a.feePoolToken, .writing a.burnPoolToken,
    .writing a.pool] ++ a.poolAssets.map .writing ++
  [.signing a.sourceOwner] ++ a.sourceAssets.map .writing

structure CreateOrder where
  signalProvider : Key
  market : Key
  payerPoolAsset : Key
  openOrders : Key
  requestQueue : Key
  pool : Key
  coinVault : Key
  pcVault : Key
  tokenProgram : Key
  rentSysvar : Key
  venueProgram : Key
  referrer : Option Key
  deriving DecidableEq, Repr

def CreateOrder.metas (a : CreateOrder) : List AccountMeta :=
  [.signing a.signalProvider, .writing a.market, .writing a.payerPoolAsset, .writing a.openOrders,
    .writing a.requestQueue, .writing a.pool, .writing a.coinVault, .writing a.pcVault,
    .plain a.tokenProgram, .plain a.rentSysvar, .plain a.venueProgram] ++
  a.referrer.toList.map .writing

structure CancelOrder where
  signalProvider : Key
  market : Key
  openOrders : Key
  requestQueue : Key
  pool : Key
  venueProgram : Key
  deriving DecidableEq, Repr

def CancelOrder.metas (a : CancelOrder) : List AccountMeta :=
  [.signing a.signalProvider, .plain a.market, .writing a.openOrders, .writing a.requestQueue,
    .plain a.pool, .plain a.venueProgram]

structure SettleFunds where
  market : Key
  openOrders : Key
  pool : Key
  mint : Key
  coinVault : Key
  pcVault : Key
  coinPoolAsset : Key
  pcPoolAsset : Key
  vaultSigner : Key
  tokenProgram : Key
  venueProgram : Key
  referrer : Option Key
  deriving DecidableEq, Repr

def SettleFunds.metas (a : SettleFunds) : List AccountMeta :=
  [.writing a.market, .writing a.openOrders, .writing a.pool, .plain a.mint, .writing a.coinVault,
    .writing a.pcVault, .writing a.coinPoolAsset, .writing a.pcPoolAsset, .plain a.vaultSigner,
    .plain a.tokenProgram, .plain a.venueProgram] ++
  a.referrer.toList.map .writing

structure Redeem where
  tokenProgram : Key
  clockSysvar : Key
  mint : Key
  sourceOwner : Key
  sourcePoolToken : Key
  pool : Key
  poolAssets : List Key
  targetAssets : List Key
  deriving DecidableEq, Repr

def Redeem.metas (a : Redeem) : List AccountMeta :=
  [.plain a.tokenProgram, .plain a.clockSysvar, .writing a.mint, .signing a.sourceOwner,
    .writing a.sourcePoolToken, .writing a.pool] ++ a.poolAssets.map .writing ++
  a.targetAssets.map .writing

structure CollectFees where
  tokenProgram : Key
  clockSysvar : Key
  pool : Key
  mint : Key
  signalProviderPoolToken : Key
  feePoolToken : Key
  burnPoolToken : Key
  deriving DecidableEq, Repr

def CollectFees.metas (a : CollectFees) : List AccountMeta :=
  [.plain a.tokenProgram, .plain a.clockSysvar, .writing a.pool, .writing a.mint,
    .writing a.signalProviderPoolToken, .writing a.feePoolToken, .writing a.burnPoolToken]

end Accounts

namespace Command

def Accounts : Command → Type
  | .init => Accounts.Init
  | .create => Accounts.Create
  | .deposit => Accounts.Deposit
  | .createOrder => Accounts.CreateOrder
  | .cancelOrder => Accounts.CancelOrder
  | .settleFunds => Accounts.SettleFunds
  | .redeem => Accounts.Redeem
  | .collectFees => Accounts.CollectFees

def metas : (c : Command) → c.Accounts → List AccountMeta
  | .init, a => Accounts.Init.metas a
  | .create, a => Accounts.Create.metas a
  | .deposit, a => Accounts.Deposit.metas a
  | .createOrder, a => Accounts.CreateOrder.metas a
  | .cancelOrder, a => Accounts.CancelOrder.metas a
  | .settleFunds, a => Accounts.SettleFunds.metas a
  | .redeem, a => Accounts.Redeem.metas a
  | .collectFees, a => Accounts.CollectFees.metas a

def build (c : Command) (program : Key) (accounts : c.Accounts) (params : c.Params) :
    Except Failure Instruction := do
  return ⟨program, c.metas accounts, ← c.pack params⟩

end Command

end TradingPool
