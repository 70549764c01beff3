import TradingPool.Layout
import TradingPool.Pool.Status

/-! The fixed part of a pool account. -/
namespace TradingPool.Pool

structure Header where
  venueProgram : Key
  seed : Seed
  signalProvider : Key
  status : Status
  marketCount : UInt16
  /-- Out of 2^16, for each period. -/
  feeRatio : UInt16
  lastFeeCollection : UInt64
  feeCollectionPeriod : UInt64
  deriving DecidableEq, Repr

namespace Header

def stored :
    Layout (Key × Seed × Key × UInt8 × UInt16 × UInt16 × UInt64 × UInt64) :=
  .pair .key <| .pair .key <| .pair .key <| .pair .u8 <| .pair .u16 <| .pair .u16 <| .pair .u64 .u64

def size : Nat := 117

theorem sizeStored : stored.size = size := rfl

def isInitialized (header : Header) : Bool := header.status ≠ .uninitialized

def unpack (data : Bytes) : Except Failure Header :=
  match stored.read data with
  | some ((venueProgram, seed, signalProvider, status, marketCount, feeRatio, last, period), _) =>
    .ok ⟨venueProgram, seed, signalProvider, .ofByte status, marketCount, feeRatio, last, period⟩
  | none => .error (.truncatedAccount size data.length)

def pack (header : Header) : Except Failure Bytes := do
  let status ← header.status.toByte
  return stored.write (header.venueProgram, header.seed, header.signalProvider, status,
    header.marketCount, header.feeRatio, header.lastFeeCollection, header.feeCollectionPeriod)

def packInto (header : Header) (target : Bytes) : Except Failure Bytes :=
  if target.length < size then .error (.truncatedAccount size target.length)
  else do return (← header.pack) ++ target.drop size

end Header

end TradingPool.Pool
