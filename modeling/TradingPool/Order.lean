import TradingPool.Layout

/-! The vocabulary of orders, shared by the pool and the venue. Each choice travels as one byte. -/
namespace TradingPool

inductive Side where
  | bid
  | ask
  deriving DecidableEq, Repr

namespace Side

def ofNat? : Nat → Option Side
  | 0 => some .bid
  | 1 => some .ask
  | _ => none

def toByte : Side → UInt8
  | .bid => 0
  | .ask => 1

def ofByte? (b : UInt8) : Option Side := ofNat? b.toNat

def name : Side → String
  | .bid => "Bid"
  | .ask => "Ask"

end Side

inductive OrderType where
  | limit
  | immediateOrCancel
  | postOnly
  deriving DecidableEq, Repr

namespace OrderType

def ofNat? : Nat → Option OrderType
  | 0 => some .limit
  | 1 => some .immediateOrCancel
  | 2 => some .postOnly
  | _ => none

def toByte : OrderType → UInt8
  | .limit => 0
  | .immediateOrCancel => 1
  | .postOnly => 2

def ofByte? (b : UInt8) : Option OrderType := ofNat? b.toNat

def name : OrderType → String
  | .limit => "Limit"
  | .immediateOrCancel => "ImmediateOrCancel"
  | .postOnly => "PostOnly"

end OrderType

/-- What the venue does when an order would meet an order of the same owner. -/
inductive SelfTrade where
  | decrementTake
  | cancelProvide
  | abortTransaction
  deriving DecidableEq, Repr

namespace SelfTrade

def ofNat? : Nat → Option SelfTrade
  | 0 => some .decrementTake
  | 1 => some .cancelProvide
  | 2 => some .abortTransaction
  | _ => none

def toByte : SelfTrade → UInt8
  | .decrementTake => 0
  | .cancelProvide => 1
  | .abortTransaction => 2

def ofByte? (b : UInt8) : Option SelfTrade := ofNat? b.toNat

def name : SelfTrade → String
  | .decrementTake => "DecrementTake"
  | .cancelProvide => "CancelProvide"
  | .abortTransaction => "AbortTransaction"

end SelfTrade

abbrev OrderId := BitVec 128

/- The venue keeps the sequence number of a bid complemented in the low half of the order id, and that
of an ask as it is, so bit 63 tells them apart for every sequence number below 2^63. -/
def OrderId.side (id : OrderId) : Side := if id.getLsbD 63 then .bid else .ask

namespace Layout

def side : Layout Side :=
  u8.filterMap Side.ofByte? Side.toByte (fun b => by cases b <;> rfl) (fun a b h => by
    apply UInt8.toNat_inj.1
    unfold Side.ofByte? Side.ofNat? at h
    split at h <;> cases h <;> simp_all [Side.toByte])

def orderType : Layout OrderType :=
  u8.filterMap OrderType.ofByte? OrderType.toByte (fun b => by cases b <;> rfl) (fun a b h => by
    apply UInt8.toNat_inj.1
    unfold OrderType.ofByte? OrderType.ofNat? at h
    split at h <;> cases h <;> simp_all [OrderType.toByte])

def selfTrade : Layout SelfTrade :=
  u8.filterMap SelfTrade.ofByte? SelfTrade.toByte (fun b => by cases b <;> rfl) (fun a b h => by
    apply UInt8.toNat_inj.1
    unfold SelfTrade.ofByte? SelfTrade.ofNat? at h
    split at h <;> cases h <;> simp_all [SelfTrade.toByte])

end Layout

end TradingPool
