import TradingPool.Command
import TradingPool.Order
import TradingPool.Width

/-! What each command asks for, and how it is written. All but one have a fixed size; `Create` ends with
two lists, and only the length of the first is written. -/
namespace TradingPool.Params

structure Init where
  seed : Seed
  maxAssets : UInt32
  marketCount : UInt16
  deriving DecidableEq, Repr

def Init.layout : Layout Init :=
  (Layout.key.pair <| .pair .u32 .u16).map (fun (seed, assets, markets) => ⟨seed, assets, markets⟩)
    (fun p => (p.seed, p.maxAssets, p.marketCount)) (fun _ => rfl) (fun _ => rfl)

structure Create where
  seed : Seed
  venueProgram : Key
  signalProvider : Key
  feeCollectionPeriod : UInt64
  feeRatio : UInt64
  markets : List Key
  depositAmounts : List UInt64
  deriving DecidableEq, Repr

namespace Create

def fixed : Layout (Seed × Key × Key × UInt16 × UInt64 × UInt64) :=
  .pair .key <| .pair .key <| .pair .key <| .pair .u16 <| .pair .u64 .u64

def fixedSize : Nat := 114

theorem sizeFixed : fixed.size = fixedSize := rfl

def pack (p : Create) : Except Failure Bytes :=
  if 65535 < p.markets.length then .error (.overflow p.markets.length 2)
  else .ok <|
    fixed.write (p.seed, p.venueProgram, p.signalProvider, UInt16.ofNat p.markets.length,
      p.feeCollectionPeriod, p.feeRatio) ++
    Layout.key.writeAll p.markets ++ Layout.u64.writeAll p.depositAmounts

/-- The amounts fill what the markets leave, so their number is a matter of the length. -/
def unpack (s : Bytes) : Except Failure Create :=
  if s.length < fixedSize then .error (.malformedLength fixedSize s.length)
  else do
    let seed ← readKeyAt s 0
    let count ← readU16At s 96
    match Layout.key.readAll count.toNat (s.drop fixedSize) with
    | none => .error (.malformedLength (fixedSize + 32 * count.toNat) s.length)
    | some (markets, amounts) =>
      if amounts.length % 8 = 0 then
        match Layout.u64.readAll (amounts.length / 8) amounts with
        | some (depositAmounts, _) => do
          let venueProgram ← readKeyAt s 32
          let signalProvider ← readKeyAt s 64
          let feeCollectionPeriod ← readU64At s 98
          let feeRatio ← readU64At s 106
          return ⟨seed, venueProgram, signalProvider, feeCollectionPeriod, feeRatio, markets, depositAmounts⟩
        | none => .error .invalidInstruction
      else .error .invalidInstruction

end Create

structure Deposit where
  seed : Seed
  poolTokenAmount : UInt64
  deriving DecidableEq, Repr

def Deposit.layout : Layout Deposit :=
  (Layout.key.pair .u64).map (fun (seed, amount) => ⟨seed, amount⟩)
    (fun p => (p.seed, p.poolTokenAmount)) (fun _ => rfl) (fun _ => rfl)

structure CreateOrder where
  seed : Seed
  side : Side
  limitPrice : UInt64
  maxQuantity : UInt16
  orderType : OrderType
  clientId : UInt64
  selfTrade : SelfTrade
  sourceIndex : UInt64
  targetIndex : UInt64
  marketIndex : UInt16
  coinLotSize : UInt64
  pcLotSize : UInt64
  targetMint : Key
  deriving DecidableEq, Repr

namespace CreateOrder

def layout : Layout CreateOrder :=
  Layout.map
    (.pair .key <| .pair .side <| .pair .u64 <| .pair .u16 <| .pair .orderType <| .pair .u64 <|
      .pair .selfTrade <| .pair .u64 <| .pair .u64 <| .pair .u16 <| .pair .u64 <| .pair .u64 .key)
    (fun (seed, side, price, quantity, type, client, selfTrade, source, target, market, coinLot, pcLot,
        mint) =>
      ⟨seed, side, price, quantity, type, client, selfTrade, source, target, market, coinLot, pcLot,
        mint⟩)
    (fun p => (p.seed, p.side, p.limitPrice, p.maxQuantity, p.orderType, p.clientId, p.selfTrade,
      p.sourceIndex, p.targetIndex, p.marketIndex, p.coinLotSize, p.pcLotSize, p.targetMint))
    (fun _ => rfl) (fun _ => rfl)

/-- The whole payload, the byte of the command included. -/
def payloadSize : Nat := 120

theorem sizeLayout : layout.size + 1 = payloadSize := rfl

end CreateOrder

structure CancelOrder where
  seed : Seed
  side : Side
  orderId : OrderId
  deriving DecidableEq, Repr

def CancelOrder.layout : Layout CancelOrder :=
  (Layout.key.pair <| .pair .side .u128).map (fun (seed, side, id) => ⟨seed, side, id⟩)
    (fun p => (p.seed, p.side, p.orderId)) (fun _ => rfl) (fun _ => rfl)

structure SettleFunds where
  seed : Seed
  pcIndex : UInt64
  coinIndex : UInt64
  deriving DecidableEq, Repr

def SettleFunds.layout : Layout SettleFunds :=
  (Layout.key.pair <| .pair .u64 .u64).map (fun (seed, pc, coin) => ⟨seed, pc, coin⟩)
    (fun p => (p.seed, p.pcIndex, p.coinIndex)) (fun _ => rfl) (fun _ => rfl)

structure Redeem where
  seed : Seed
  poolTokenAmount : UInt64
  deriving DecidableEq, Repr

def Redeem.layout : Layout Redeem :=
  (Layout.key.pair .u64).map (fun (seed, amount) => ⟨seed, amount⟩)
    (fun p => (p.seed, p.poolTokenAmount)) (fun _ => rfl) (fun _ => rfl)

structure CollectFees where
  seed : Seed
  deriving DecidableEq, Repr

def CollectFees.layout : Layout CollectFees :=
  Layout.key.map (fun seed => ⟨seed⟩) CollectFees.seed (fun _ => rfl) (fun _ => rfl)

end TradingPool.Params
