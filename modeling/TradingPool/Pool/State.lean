import TradingPool.Pool.Header
import TradingPool.Pool.Asset

/-! A whole pool account: the header, as many market keys as it says, and asset slots up to the end.
Orders name markets and assets by their position in the lists decoded here, where free slots do not
count. -/
namespace TradingPool.Pool

structure State where
  header : Header
  markets : List Key
  assets : List Asset
  deriving DecidableEq, Repr

def unpackMarkets (data : Bytes) (count : Nat) : Except Failure (List Key) :=
  match Layout.key.readAll count data with
  | some (markets, _) => .ok markets
  | none => .error (.truncatedAccount (32 * count) data.length)

namespace State

def unpack (data : Bytes) : Except Failure State := do
  let header ← Header.unpack data
  let rest := data.drop Header.size
  let markets ← unpackMarkets rest header.marketCount.toNat
  return ⟨header, markets, Asset.unpackAll (rest.drop (32 * header.marketCount.toNat))⟩

def pack (state : State) : Except Failure Bytes := do
  return (← state.header.pack) ++ Layout.key.writeAll state.markets ++
    Asset.layout.writeAll state.assets

def mints (state : State) : List Key := state.assets.map (·.mint)

def assetIndex? (state : State) (mint : Key) : Option Nat := state.mints.idxOf? mint

/-- The position of an asset, or the one that it gets when it is appended. -/
def assetSlot (state : State) (mint : Key) : Nat := (state.assetIndex? mint).getD state.assets.length

def marketIndex? (state : State) (market : Key) : Option Nat := state.markets.idxOf? market

end State

end TradingPool.Pool
