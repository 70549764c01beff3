import TradingPool.Layout

/-! Asset slots of a pool account. A slot whose mint is all zeros is free, whatever amount it holds. -/
namespace TradingPool.Pool

structure Asset where
  mint : Key
  amount : UInt64
  deriving DecidableEq, Repr

namespace Asset

def layout : Layout Asset :=
  (Layout.key.pair .u64).map (fun (mint, amount) => ⟨mint, amount⟩)
    (fun asset => (asset.mint, asset.amount)) (fun _ => rfl) (fun _ => rfl)

def size : Nat := 40

theorem sizeLayout : layout.size = size := rfl

theorem coversLayout : layout.Covers :=
  Layout.coversMap _ _ _ _ (Layout.coversPair (Layout.coversBlock 32) Layout.coversU64)

def isInitialized (asset : Asset) : Bool := asset.mint ≠ .zero 32

/-- All whole slots; bytes left over at the end are ignored. -/
def slots (data : Bytes) : List Asset :=
  match layout.readAll (data.length / size) data with
  | some (assets, _) => assets
  | none => []

def unpackAll (data : Bytes) : List Asset := (slots data).filter isInitialized

end Asset

end TradingPool.Pool
