import TradingPool.Proofs.VenueAccounts

/-! Records of the venue behind the fixed bytes in front of them. A record is its fields one behind the other, and unpacking
an account gives those fields back, whatever follows the record. An account is refused exactly when it is too short, starts
with other bytes or lacks one of its two flags. -/
namespace TradingPool.Venue

def word (n : UInt64) : Bytes := LittleEndian.encode 8 n.toNat

def wide (n : BitVec 128) : Bytes := LittleEndian.encode 16 n.toNat

theorem wordWritten : Layout.u64.write = word := rfl

theorem wideWritten : Layout.u128.write = wide := rfl

theorem keyWritten : Layout.key.write = Block.bytes := rfl

namespace MarketRecord

def bytes (r : MarketRecord) : Bytes :=
  [word r.flags, r.ownAddress.bytes, word r.vaultSignerNonce, r.coinMint.bytes, r.pcMint.bytes, r.coinVault.bytes,
    word r.coinDepositsTotal, word r.coinFeesAccrued, r.pcVault.bytes, word r.pcDepositsTotal, word r.pcFeesAccrued,
    word r.pcDustThreshold, r.requestQueue.bytes, r.eventQueue.bytes, r.bids.bytes, r.asks.bytes, word r.coinLotSize,
    word r.pcLotSize, word r.feeRateBps, word r.referrerRebatesAccrued].flatten

theorem written (r : MarketRecord) : layout.write r = r.bytes := by
  simp only [layout, Layout.map, Layout.pair, wordWritten, keyWritten, bytes, List.flatten_cons, List.flatten_nil,
    List.append_nil]

theorem covers : layout.Covers :=
  Layout.coversMap _ _ _ _ <| Layout.coversPair Layout.coversU64 <| Layout.coversPair Layout.coversKey <|
    Layout.coversPair Layout.coversU64 <| Layout.coversPair Layout.coversKey <|
    Layout.coversPair Layout.coversKey <| Layout.coversPair Layout.coversKey <|
    Layout.coversPair Layout.coversU64 <| Layout.coversPair Layout.coversU64 <|
    Layout.coversPair Layout.coversKey <| Layout.coversPair Layout.coversU64 <|
    Layout.coversPair Layout.coversU64 <| Layout.coversPair Layout.coversU64 <|
    Layout.coversPair Layout.coversKey <| Layout.coversPair Layout.coversKey <|
    Layout.coversPair Layout.coversKey <| Layout.coversPair Layout.coversKey <|
    Layout.coversPair Layout.coversU64 <| Layout.coversPair Layout.coversU64 <|
    Layout.coversPair Layout.coversU64 Layout.coversU64

end MarketRecord

namespace OpenOrdersRecord

def bytes (r : OpenOrdersRecord) : Bytes :=
  [word r.flags, r.market.bytes, r.owner.bytes, word r.nativeCoinFree, word r.nativeCoinTotal, word r.nativePcFree,
    word r.nativePcTotal, wide r.freeSlotBits, wide r.isBidBits, r.orders.toList.flatMap wide,
    r.clientOrderIds.toList.flatMap word, word r.referrerRebatesAccrued].flatten

theorem written (r : OpenOrdersRecord) : layout.write r = r.bytes := by
  simp only [layout, Layout.map, Layout.pair, Layout.table, Layout.writeAll, wordWritten, wideWritten, keyWritten,
    bytes, List.flatten_cons, List.flatten_nil, List.append_nil]

theorem covers : layout.Covers :=
  Layout.coversMap _ _ _ _ <| Layout.coversPair Layout.coversU64 <| Layout.coversPair Layout.coversKey <|
    Layout.coversPair Layout.coversKey <| Layout.coversPair Layout.coversU64 <|
    Layout.coversPair Layout.coversU64 <| Layout.coversPair Layout.coversU64 <|
    Layout.coversPair Layout.coversU64 <| Layout.coversPair Layout.coversU128 <|
    Layout.coversPair Layout.coversU128 <| Layout.coversPair (Layout.coversTable Layout.coversU128 _) <|
    Layout.coversPair (Layout.coversTable Layout.coversU64 _) Layout.coversU64

end OpenOrdersRecord

/-- Bit 0 says that the account is in use, and the other bit what it is. -/
def Flagged (roleBit flags : Nat) : Prop := flags.testBit 0 = true ∧ flags.testBit roleBit = true

instance (roleBit flags : Nat) : Decidable (Flagged roleBit flags) := by unfold Flagged; infer_instance

/-- No account of this kind: it is too short, starts with other bytes, or lacks a flag. -/
def Foreign (size roleBit : Nat) (data : Bytes) : Prop :=
  data.length < 5 + size ∨ data.take 5 ≠ head ∨ ¬ Flagged roleBit (LittleEndian.decodeAt 8 5 data)

instance (size roleBit : Nat) (data : Bytes) : Decidable (Foreign size roleBit data) := by
  unfold Foreign; infer_instance

/-- Every account is foreign and refused, or it holds a record and is unpacked to what the record says. -/
structure Undoes {α β : Type} (bytes : α → Bytes) (flags : α → UInt64) (size roleBit : Nat)
    (unpack : Bytes → Except Failure β) (view : α → β) : Prop where
  framed : ∀ a rest, Flagged roleBit (flags a).toNat → unpack (head ++ bytes a ++ rest) = .ok (view a)
  foreign : ∀ data, unpack data = .error .invalidAccountData ↔ Foreign size roleBit data
  complete : ∀ data, ¬ Foreign size roleBit data →
    ∃ a rest, Flagged roleBit (flags a).toNat ∧ data = head ++ bytes a ++ rest

section

variable {α β : Type} {record : Layout α} {flags : α → UInt64} {roleBit : Nat} {data : Bytes} {a : α}

theorem unframeOk : unframe record flags roleBit data = .ok a ↔
    Flagged roleBit (flags a).toNat ∧ ∃ rest, data = head ++ record.write a ++ rest := by
  rw [unframeEqOk, Bool.and_eq_true, and_comm]
  simp only [List.append_assoc]
  rfl

theorem flagsRead (front : ∀ a, ∃ back, record.write a = word (flags a) ++ back) (rest : Bytes) :
    LittleEndian.decodeAt 8 5 (head ++ record.write a ++ rest) = (flags a).toNat := by
  obtain ⟨back, written⟩ := front a
  have place : ((head ++ record.write a ++ rest).drop 5).take 8 = word (flags a) := by
    rw [written, List.append_assoc, List.append_assoc]
    exact List.take_left' (LittleEndian.lengthEncode ..)
  rw [LittleEndian.decodeAt, place]
  exact @LittleEndian.decodeEncodeBits 8 (flags a).toBitVec

theorem unframeAccepts (covers : record.Covers) (front : ∀ a, ∃ back, record.write a = word (flags a) ++ back) :
    (∃ a, unframe record flags roleBit data = .ok a) ↔ ¬ Foreign record.size roleBit data := by
  simp only [Foreign, not_or, not_not, Nat.not_lt]
  constructor
  · rintro ⟨a, h⟩
    obtain ⟨flagged, rest, rfl⟩ := unframeOk.1 h
    refine ⟨?_, by rw [List.append_assoc]; exact List.take_left' rfl, by rwa [flagsRead front]⟩
    rw [List.length_append, List.length_append, record.lengthWrite]
    exact Nat.le_add_right _ _
  · rintro ⟨long, headed, flagged⟩
    obtain ⟨a, read⟩ := Layout.coveredRead covers (s := data.drop 5) (by rw [List.length_drop]; omega)
    have parts : data = head ++ record.write a ++ (data.drop 5).drop record.size := by
      rw [List.append_assoc, record.writeOfRead _ _ _ read, ← headed, List.take_append_drop]
    refine ⟨a, unframeOk.2 ⟨?_, _, parts⟩⟩
    rwa [parts, flagsRead front] at flagged

end

theorem undoesFraming {α β : Type} {record : Layout α} {bytes : α → Bytes} {flags : α → UInt64} {roleBit : Nat}
    (written : ∀ a, record.write a = bytes a) (covers : record.Covers)
    (front : ∀ a, ∃ back, bytes a = word (flags a) ++ back) (view : α → β) :
    Undoes bytes flags record.size roleBit (fun data => (unframe record flags roleBit data).map view) view where
  framed a rest flagged := mapEqOk.2 ⟨a, unframeOk.2 ⟨flagged, rest, by rw [written]⟩, rfl⟩
  foreign data := by
    rw [← not_iff_not, ← unframeAccepts covers fun a => written a ▸ front a]
    cases found : unframe record flags roleBit data with
    | ok a => simp [Except.map]
    | error failure =>
      cases unframeError found
      simp [Except.map]
  complete data whole := by
    obtain ⟨a, h⟩ := (unframeAccepts covers fun a => written a ▸ front a).2 whole
    obtain ⟨flagged, rest, parts⟩ := unframeOk.1 h
    exact ⟨a, rest, flagged, written a ▸ parts⟩

theorem venueFramingUndone (address : Key) :
    Undoes MarketRecord.bytes MarketRecord.flags 376 1 (Market.unpack address) (fun r =>
      { address
        vaultSignerNonce := r.vaultSignerNonce
        coinMint := r.coinMint
        pcMint := r.pcMint
        coinVault := r.coinVault
        pcVault := r.pcVault
        requestQueue := r.requestQueue
        eventQueue := r.eventQueue
        bids := r.bids
        asks := r.asks
        coinLotSize := r.coinLotSize
        pcLotSize := r.pcLotSize }) ∧
    Undoes OpenOrdersRecord.bytes OpenOrdersRecord.flags 3216 2 (OpenOrders.unpack address) (fun r =>
      { address
        market := r.market
        owner := r.owner
        nativeCoinFree := r.nativeCoinFree
        nativeCoinTotal := r.nativeCoinTotal
        nativePcFree := r.nativePcFree
        nativePcTotal := r.nativePcTotal
        freeSlotBits := r.freeSlotBits
        isBidBits := r.isBidBits
        orders := r.orders.toList }) :=
  ⟨undoesFraming MarketRecord.written MarketRecord.covers (fun _ => ⟨_, List.flatten_cons ..⟩) _,
    undoesFraming OpenOrdersRecord.written OpenOrdersRecord.covers (fun _ => ⟨_, List.flatten_cons ..⟩) _⟩

/- A market with a flag that nobody asks for, and no two fields alike. -/
def flaggedMarket : MarketRecord where
  flags := 0x8003
  ownAddress := .fill 32 1
  vaultSignerNonce := 2
  coinMint := .fill 32 3
  pcMint := .fill 32 4
  coinVault := .fill 32 5
  coinDepositsTotal := 6
  coinFeesAccrued := 7
  pcVault := .fill 32 8
  pcDepositsTotal := 9
  pcFeesAccrued := 10
  pcDustThreshold := 11
  requestQueue := .fill 32 12
  eventQueue := .fill 32 13
  bids := .fill 32 14
  asks := .fill 32 15
  coinLotSize := 16
  pcLotSize := 17
  feeRateBps := 18
  referrerRebatesAccrued := 19

theorem venueFramingUndoneMarket :
    Market.unpack (.fill 32 1) (head ++ flaggedMarket.bytes ++ [1, 2, 3]) =
      .ok ⟨.fill 32 1, 2, .fill 32 3, .fill 32 4, .fill 32 5, .fill 32 8, .fill 32 12, .fill 32 13, .fill 32 14,
        .fill 32 15, 16, 17⟩ ∧
    Market.unpack (.fill 32 1) (head ++ { flaggedMarket with flags := 0x8001 }.bytes) =
      .error .invalidAccountData := by
  obtain ⟨markets, _⟩ := venueFramingUndone (.fill 32 1)
  exact ⟨markets.framed flaggedMarket [1, 2, 3] (by decide), (markets.foreign _).2 (by decide +kernel)⟩

end TradingPool.Venue
