import TradingPool.Base58
import TradingPool.Order

/-! What is written to the log while a plan runs. -/
namespace TradingPool

inductive Level where
  | debug
  | info
  | warn
  deriving DecidableEq, Repr

def Level.name : Level → String
  | .debug => "DEBUG"
  | .info => "INFO"
  | .warn => "WARN"

inductive Event where
  | noBump (attempt : Nat)
  | noMint (attempt : Nat)
  | seedFound (attempt : Nat) (pool mint : Key)
  | creatingTokenAccount (owner mint address : Key)
  | poolCreation (pool mint : Key) (instructions : Nat)
  | deposit (pool : Key) (instructions : Nat)
  | orderCreation (pool openOrders : Key) (sourceIndex targetIndex instructions : Nat)
  | sideDisagreement (openOrders : Key) (id : OrderId) (side : Side)
  | orderCancellation (pool : Key) (id : OrderId) (side : Side)
  | settlement (pool : Key) (coinIndex pcIndex : Nat)
  | redemption (pool : Key) (instructions : Nat)
  | feeCollection (pool : Key) (instructions : Nat)
  deriving DecidableEq, Repr

namespace Event

def level : Event → Level
  | .noBump _ | .noMint _ | .seedFound .. | .creatingTokenAccount .. => .debug
  | .sideDisagreement .. => .warn
  | _ => .info

def message : Event → String
  | .noBump _ => "No bump found for the pool seed"
  | .noMint _ => "The mint derivation is invalid for the pool seed"
  | .seedFound .. => "Found pool seed"
  | .creatingTokenAccount .. => "Creating missing token account"
  | .poolCreation .. => "Assembled pool creation"
  | .deposit .. => "Assembled deposit"
  | .orderCreation .. => "Assembled order creation"
  | .sideDisagreement .. => "The order id side disagrees with the venue's bid bitmap"
  | .orderCancellation .. => "Assembled order cancellation"
  | .settlement .. => "Assembled settlement"
  | .redemption .. => "Assembled redemption"
  | .feeCollection .. => "Assembled fee collection"

def fields : Event → List (String × String)
  | .noBump attempt | .noMint attempt => [("attempt", toString attempt)]
  | .seedFound attempt pool mint =>
    [("attempt", toString attempt), ("pool", pool.text), ("mint", mint.text)]
  | .creatingTokenAccount owner mint address =>
    [("owner", owner.text), ("mint", mint.text), ("address", address.text)]
  | .poolCreation pool mint instructions =>
    [("pool", pool.text), ("mint", mint.text), ("instructions", toString instructions)]
  | .deposit pool instructions | .redemption pool instructions | .feeCollection pool instructions =>
    [("pool", pool.text), ("instructions", toString instructions)]
  | .orderCreation pool openOrders sourceIndex targetIndex instructions =>
    [("pool", pool.text), ("open_orders", openOrders.text),
      ("source_asset_index", toString sourceIndex), ("target_asset_index", toString targetIndex),
      ("instructions", toString instructions)]
  | .sideDisagreement openOrders id side =>
    [("open_orders", openOrders.text), ("order_id", toString id.toNat), ("side", side.name)]
  | .orderCancellation pool id side =>
    [("pool", pool.text), ("order_id", toString id.toNat), ("side", side.name)]
  | .settlement pool coinIndex pcIndex =>
    [("pool", pool.text), ("coin_index", toString coinIndex), ("pc_index", toString pcIndex)]

end Event

end TradingPool
