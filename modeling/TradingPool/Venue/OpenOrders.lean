import TradingPool.Venue.Frame
import TradingPool.Order

/-! Open orders accounts of the venue: the balances of one trader on one market and 128 order slots. -/
namespace TradingPool.Venue

def maxOrders : Nat := 128

structure OpenOrdersRecord where
  flags : UInt64
  market : Key
  owner : Key
  nativeCoinFree : UInt64
  nativeCoinTotal : UInt64
  nativePcFree : UInt64
  nativePcTotal : UInt64
  freeSlotBits : BitVec 128
  isBidBits : BitVec 128
  orders : Vector OrderId maxOrders
  clientOrderIds : Vector UInt64 maxOrders
  referrerRebatesAccrued : UInt64
  deriving DecidableEq, Repr

def OpenOrdersRecord.layout : Layout OpenOrdersRecord :=
  Layout.map
    (.pair .u64 <| .pair .key <| .pair .key <| .pair .u64 <| .pair .u64 <| .pair .u64 <|
      .pair .u64 <| .pair .u128 <| .pair .u128 <| .pair (.table .u128 maxOrders) <|
      .pair (.table .u64 maxOrders) .u64)
    (fun (flags, market, owner, coinFree, coinTotal, pcFree, pcTotal, free, bids, orders, clients,
        rebates) =>
      ⟨flags, market, owner, coinFree, coinTotal, pcFree, pcTotal, free, bids, orders, clients,
        rebates⟩)
    (fun r => (r.flags, r.market, r.owner, r.nativeCoinFree, r.nativeCoinTotal, r.nativePcFree,
      r.nativePcTotal, r.freeSlotBits, r.isBidBits, r.orders, r.clientOrderIds,
      r.referrerRebatesAccrued))
    (fun _ => rfl) (fun _ => rfl)

def OpenOrdersRecord.size : Nat := 3216

theorem OpenOrdersRecord.sizeLayout : OpenOrdersRecord.layout.size = OpenOrdersRecord.size := rfl

def openOrdersAccountSize : Nat := head.length + OpenOrdersRecord.size + tail.length

structure OpenOrders where
  address : Key
  market : Key
  owner : Key
  nativeCoinFree : UInt64
  nativeCoinTotal : UInt64
  nativePcFree : UInt64
  nativePcTotal : UInt64
  freeSlotBits : BitVec 128
  isBidBits : BitVec 128
  /-- By slot; a free slot holds zero. -/
  orders : List OrderId
  deriving DecidableEq, Repr

namespace OpenOrders

def ofRecord (address : Key) (r : OpenOrdersRecord) : OpenOrders :=
  ⟨address, r.market, r.owner, r.nativeCoinFree, r.nativeCoinTotal, r.nativePcFree, r.nativePcTotal,
    r.freeSlotBits, r.isBidBits, r.orders.toList⟩

def unpack (address : Key) (data : Bytes) : Except Failure OpenOrders :=
  (unframe OpenOrdersRecord.layout OpenOrdersRecord.flags openOrdersBit data).map (.ofRecord address)

def firstOrder? (openOrders : OpenOrders) : Option OrderId :=
  openOrders.orders.head?.filter (· ≠ 0)

def slotIsBid (openOrders : OpenOrders) (slot : Nat) : Bool := openOrders.isBidBits.getLsbD slot

def occupied (openOrders : OpenOrders) : List (Nat × OrderId) :=
  openOrders.orders.zipIdx.filterMap fun (id, slot) => if id = 0 then none else some (slot, id)

end OpenOrders

end TradingPool.Venue
