import TradingPool.Order
import TradingPool.Failure

/-! The account a pool keeps beside each order in flight. -/
namespace TradingPool.Pool

structure Tracker where
  side : Side
  sourceAmountPerToken : UInt64
  pendingTargetAmount : UInt64
  sourceTotalAmount : UInt64
  deriving DecidableEq, Repr

namespace Tracker

def size : Nat := 32

/-- The figures fill the first 25 bytes; the rest of the account is reserved. -/
def layout : Layout Tracker :=
  (Layout.side.pair <| .pair .u64 <| .pair .u64 .u64).map (fun (side, a, b, c) => ⟨side, a, b, c⟩)
    (fun t => (t.side, t.sourceAmountPerToken, t.pendingTargetAmount, t.sourceTotalAmount))
    (fun _ => rfl) (fun _ => rfl)

def unpack (data : Bytes) : Except Failure Tracker :=
  if data.length < size then .error (.truncatedAccount size data.length)
  else match layout.read data with
    | some (tracker, _) => .ok tracker
    | none => .error .invalidAccountData

def isInitialized (tracker : Tracker) : Bool := tracker.sourceAmountPerToken ≠ 0

end Tracker

end TradingPool.Pool
