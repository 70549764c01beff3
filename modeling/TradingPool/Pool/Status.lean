import TradingPool.Failure

/-! The status byte of a pool. Zero is a pool not yet created; otherwise bit 7 is the lock, bit 6 says
that orders are in flight and the low six bits then hold their number less one. -/
namespace TradingPool.Pool

inductive Status where
  | uninitialized
  | active (locked : Bool) (pendingOrders : UInt8)
  deriving DecidableEq, Repr

namespace Status

def maxPendingOrders : UInt8 := 64

def pendingOrders : Status → UInt8
  | .uninitialized => 0
  | .active _ count => count

def isLocked : Status → Bool
  | .uninitialized => false
  | .active locked _ => locked

/-- The low bits are read only when orders are in flight. -/
def ofByte (b : UInt8) : Status :=
  if b = 0 then .uninitialized
  else .active (b &&& 0x80 ≠ 0) (if b &&& 0x40 = 0 then 0 else (b &&& 0x3f) + 1)

def toByte : Status → Except Failure UInt8
  | .uninitialized => .ok 0
  | .active locked count =>
    if count = 0 then .ok (if locked then 0x80 else 0x3f)
    else if maxPendingOrders < count then .error (.invalidStatusByte count)
    else .ok ((if locked then 0xc0 else 0x40) ||| (count - 1))

end Status

end TradingPool.Pool
