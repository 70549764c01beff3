import TradingPool.Venue.Frame

/-! Market accounts of the venue. -/
namespace TradingPool.Venue

structure MarketRecord where
  flags : UInt64
  ownAddress : Key
  vaultSignerNonce : UInt64
  coinMint : Key
  pcMint : Key
  coinVault : Key
  coinDepositsTotal : UInt64
  coinFeesAccrued : UInt64
  pcVault : Key
  pcDepositsTotal : UInt64
  pcFeesAccrued : UInt64
  pcDustThreshold : UInt64
  requestQueue : Key
  eventQueue : Key
  bids : Key
  asks : Key
  coinLotSize : UInt64
  pcLotSize : UInt64
  feeRateBps : UInt64
  referrerRebatesAccrued : UInt64
  deriving DecidableEq, Repr

def MarketRecord.layout : Layout MarketRecord :=
  Layout.map
    (.pair .u64 <| .pair .key <| .pair .u64 <| .pair .key <| .pair .key <| .pair .key <|
      .pair .u64 <| .pair .u64 <| .pair .key <| .pair .u64 <| .pair .u64 <| .pair .u64 <|
      .pair .key <| .pair .key <| .pair .key <| .pair .key <| .pair .u64 <| .pair .u64 <|
      .pair .u64 .u64)
    (fun (flags, own, nonce, coin, pc, coinVault, coinDeposits, coinFees, pcVault, pcDeposits,
        pcFees, dust, requests, events, bids, asks, coinLot, pcLot, rate, rebates) =>
      ⟨flags, own, nonce, coin, pc, coinVault, coinDeposits, coinFees, pcVault, pcDeposits,
        pcFees, dust, requests, events, bids, asks, coinLot, pcLot, rate, rebates⟩)
    (fun r => (r.flags, r.ownAddress, r.vaultSignerNonce, r.coinMint, r.pcMint, r.coinVault,
      r.coinDepositsTotal, r.coinFeesAccrued, r.pcVault, r.pcDepositsTotal, r.pcFeesAccrued,
      r.pcDustThreshold, r.requestQueue, r.eventQueue, r.bids, r.asks, r.coinLotSize, r.pcLotSize,
      r.feeRateBps, r.referrerRebatesAccrued))
    (fun _ => rfl) (fun _ => rfl)

def MarketRecord.size : Nat := 376

theorem MarketRecord.sizeLayout : MarketRecord.layout.size = MarketRecord.size := rfl

/-- What a pool instruction needs to know of a market. `pc` is the price coin. -/
structure Market where
  address : Key
  vaultSignerNonce : UInt64
  coinMint : Key
  pcMint : Key
  coinVault : Key
  pcVault : Key
  requestQueue : Key
  eventQueue : Key
  bids : Key
  asks : Key
  coinLotSize : UInt64
  pcLotSize : UInt64
  deriving DecidableEq, Repr

def Market.ofRecord (address : Key) (r : MarketRecord) : Market :=
  ⟨address, r.vaultSignerNonce, r.coinMint, r.pcMint, r.coinVault, r.pcVault, r.requestQueue,
    r.eventQueue, r.bids, r.asks, r.coinLotSize, r.pcLotSize⟩

def Market.unpack (address : Key) (data : Bytes) : Except Failure Market :=
  (unframe MarketRecord.layout MarketRecord.flags marketBit data).map (.ofRecord address)

end TradingPool.Venue
