import TradingPool.Proofs.PoolAccount
import TradingPool.Venue.Market
import TradingPool.Venue.OpenOrders

/-! Accounts of the venue as byte strings. The bid bitmap of an open orders account has its place between the
other fields, with the first order slot right behind it, and other bytes may be put there without any other field
changing. The same place lies within the vault of a market, and behind the header of a pool. -/
namespace TradingPool

namespace LittleEndian

/- Bit j of the i-th byte is bit 8 i + j of the number. -/
theorem testBitDecode {s : Bytes} {i : Nat} {b : UInt8} (stands : s[i]? = some b) (j : Nat) (below : j < 8) :
    (decode s).testBit (8 * i + j) = b.toNat.testBit j := by
  induction s generalizing i with
  | nil => cases stands
  | cons first rest ih =>
    have cut : decode (first :: rest) = 2 ^ 8 * decode rest + first.toNat := Nat.add_comm _ _
    rw [cut, Nat.testBit_two_pow_mul_add _ first.toNat_lt]
    cases i with
    | zero =>
      cases stands
      rw [Nat.mul_zero, Nat.zero_add, if_pos below]
    | succ i =>
      have past : ¬ 8 * (i + 1) + j < 8 := by omega
      have place : 8 * (i + 1) + j - 8 = 8 * i + j := by omega
      rw [if_neg past, place]
      exact ih stands

/- Only zeros make zero. -/
theorem decodeEqZero {s : Bytes} : decode s = 0 ↔ s = List.replicate s.length 0 := by
  constructor
  · intro zero
    rw [← encodeDecode s, zero, ← decodeZeros s.length, lengthEncode]
    have back := encodeDecode (List.replicate s.length 0)
    rw [List.length_replicate] at back
    exact back
  · intro zeros
    rw [zeros]
    exact decodeZeros _

end LittleEndian

namespace Layout

theorem decodeWritten (id : BitVec 128) : LittleEndian.decode (u128.write id) = id.toNat :=
  @LittleEndian.decodeEncodeBits 16 id

end Layout

namespace Venue

theorem unframeEqOk {α : Type} {record : Layout α} {flags : α → UInt64} {roleBit : Nat} {data : Bytes} {a : α} :
    unframe record flags roleBit data = .ok a ↔
      (∃ rest, data = head ++ (record.write a ++ rest)) ∧
        ((flags a).toBitVec.getLsbD initializedBit && (flags a).toBitVec.getLsbD roleBit) = true := by
  unfold unframe
  constructor
  · intro h
    split at h
    · rename_i headed
      split at h
      · rename_i found rest read
        split at h
        · rename_i flagged
          cases h
          refine ⟨⟨rest, ?_⟩, flagged⟩
          have whole := List.take_append_drop head.length data
          rw [record.writeOfRead _ _ _ read, ← whole, headed, List.drop_left]
        · cases h
      · cases h
    · cases h
  · intro h
    obtain ⟨⟨rest, rfl⟩, flagged⟩ := h
    rw [if_pos (List.take_left' rfl), List.drop_left' rfl, record.readWrite]
    exact if_pos flagged

/-- An open orders account in which other bytes stand for the bid bitmap. -/
def withBitmap (data : Bytes) (bitmap : Block 16) : Bytes := data.take 125 ++ bitmap.bytes ++ data.drop 141

/- The place of the bitmap within a field changes that field only. -/
theorem withBitmapWithin (front old back : Bytes) (before : front.length ≤ 125)
    (past : 141 ≤ front.length + old.length) (bitmap : Block 16) : ∃ fresh : Bytes,
    fresh.length = old.length ∧ withBitmap (front ++ (old ++ back)) bitmap = front ++ (fresh ++ back) := by
  refine ⟨old.take (125 - front.length) ++ bitmap.bytes ++ old.drop (141 - front.length), ?_, ?_⟩
  · simp only [List.length_append, List.length_take, List.length_drop, bitmap.lengthBytes]
    omega
  · have head : (front ++ (old ++ back)).take 125 = front ++ old.take (125 - front.length) := by
      rw [List.take_append, List.take_of_length_le before, List.take_append_of_le_length (by omega)]
    have tail : (front ++ (old ++ back)).drop 141 = old.drop (141 - front.length) ++ back := by
      rw [List.drop_append, List.drop_of_length_le (by omega), List.nil_append,
        List.drop_append_of_le_length (by omega)]
    rw [withBitmap, head, tail]
    simp only [List.append_assoc]

theorem lengthWithBitmap {data : Bytes} (long : 141 ≤ data.length) (bitmap : Block 16) :
    (withBitmap data bitmap).length = data.length := by
  have front : (data.take 125).length = 125 := List.length_take_of_le (by omega)
  rw [withBitmap, List.length_append, List.length_append, front, bitmap.lengthBytes, List.length_drop]
  omega

theorem frontWithBitmap {data : Bytes} (long : 141 ≤ data.length) (bitmap : Block 16) {count : Nat}
    (before : count ≤ 125) : (withBitmap data bitmap).take count = data.take count := by
  have front : (data.take 125).length = 125 := List.length_take_of_le (by omega)
  rw [withBitmap, List.append_assoc, List.take_append_of_le_length (by omega), List.take_take, Nat.min_eq_left before]

/- Around the bitmap and the first slot of a record. -/
theorem OpenOrdersRecord.parts (record : OpenOrdersRecord) : ∃ front id others back,
    front.length = 120 ∧ record.orders.toList = id :: others ∧
    ∀ bids, layout.write { record with isBidBits := bids } =
      front ++ (Layout.u128.write bids ++ (Layout.u128.write id ++ back)) := by
  have count : record.orders.toList.length = 128 := record.orders.length_toList
  obtain ⟨id, others, slots⟩ := List.exists_cons_of_length_pos (Nat.lt_of_lt_of_eq (Nat.succ_pos 127) count.symm)
  refine ⟨Layout.u64.write record.flags ++ Layout.key.write record.market ++ Layout.key.write record.owner ++
    Layout.u64.write record.nativeCoinFree ++ Layout.u64.write record.nativeCoinTotal ++
    Layout.u64.write record.nativePcFree ++ Layout.u64.write record.nativePcTotal ++
    Layout.u128.write record.freeSlotBits, id, others, Layout.u128.writeAll others ++
    ((Layout.table .u64 maxOrders).write record.clientOrderIds ++ Layout.u64.write record.referrerRebatesAccrued),
    ?_, slots, fun bids => ?_⟩
  · simp only [List.length_append, Layout.lengthWrite]
    rfl
  · have table : (Layout.table .u128 maxOrders).write record.orders =
        Layout.u128.write id ++ Layout.u128.writeAll others := by
      change Layout.u128.writeAll record.orders.toList = _
      rw [slots]
      rfl
    simp only [layout, Layout.map, Layout.pair, List.append_assoc]
    rw [table, List.append_assoc]

theorem MarketRecord.parts (record : MarketRecord) : ∃ front back, front.length = 112 ∧
    ∀ vault, layout.write { record with coinVault := vault } = front ++ (vault.bytes ++ back) := by
  refine ⟨Layout.u64.write record.flags ++ Layout.key.write record.ownAddress ++
    Layout.u64.write record.vaultSignerNonce ++ Layout.key.write record.coinMint ++ Layout.key.write record.pcMint,
    Layout.u64.write record.coinDepositsTotal ++ (Layout.u64.write record.coinFeesAccrued ++
      (Layout.key.write record.pcVault ++ (Layout.u64.write record.pcDepositsTotal ++
      (Layout.u64.write record.pcFeesAccrued ++ (Layout.u64.write record.pcDustThreshold ++
      (Layout.key.write record.requestQueue ++ (Layout.key.write record.eventQueue ++ (Layout.key.write record.bids ++
      (Layout.key.write record.asks ++ (Layout.u64.write record.coinLotSize ++ (Layout.u64.write record.pcLotSize ++
      (Layout.u64.write record.feeRateBps ++ Layout.u64.write record.referrerRebatesAccrued)))))))))))),
    ?_, fun vault => ?_⟩
  · simp only [List.length_append, Layout.lengthWrite]
    rfl
  · simp only [layout, Layout.map, Layout.pair, List.append_assoc]
    rfl

namespace OpenOrders

variable {address : Key} {data : Bytes} {orders : OpenOrders}

theorem parts (read : unpack address data = .ok orders) : ∃ front id others back,
    front.length = 125 ∧ orders.orders = id :: others ∧
    data = front ++ (Layout.u128.write orders.isBidBits ++ (Layout.u128.write id ++ back)) ∧
    ∀ bids, unpack address (front ++ (Layout.u128.write bids ++ (Layout.u128.write id ++ back))) =
      .ok { orders with isBidBits := bids } := by
  obtain ⟨record, framed, rfl⟩ := mapEqOk.1 read
  obtain ⟨⟨rest, rfl⟩, flagged⟩ := unframeEqOk.1 framed
  obtain ⟨front, id, others, back, len, slots, written⟩ := record.parts
  have whole (bids : BitVec 128) :
      head ++ front ++ (Layout.u128.write bids ++ (Layout.u128.write id ++ (back ++ rest))) =
        head ++ (OpenOrdersRecord.layout.write { record with isBidBits := bids } ++ rest) := by
    rw [written]
    simp only [List.append_assoc]
  refine ⟨head ++ front, id, others, back ++ rest, ?_, slots, (whole record.isBidBits).symm, fun bids => ?_⟩
  · rw [List.length_append, len]
    rfl
  · rw [whole]
    exact mapEqOk.2 ⟨_, unframeEqOk.2 ⟨⟨rest, rfl⟩, flagged⟩, rfl⟩

theorem long (read : unpack address data = .ok orders) : 141 ≤ data.length := by
  obtain ⟨front, id, _, back, len, _, rfl, _⟩ := parts read
  have bids : (Layout.u128.write orders.isBidBits).length = 16 := Layout.u128.lengthWrite _
  rw [List.length_append, List.length_append, len, bids]
  omega

theorem bitmapReplaced (read : unpack address data = .ok orders) (bitmap : Block 16) :
    ∃ bids, unpack address (withBitmap data bitmap) = .ok { orders with isBidBits := bids } := by
  obtain ⟨front, id, _, back, len, _, rfl, again⟩ := parts read
  have place : (Layout.u128.write orders.isBidBits).length = 16 := Layout.u128.lengthWrite _
  obtain ⟨fresh, same, whole⟩ := withBitmapWithin front (Layout.u128.write orders.isBidBits)
    (Layout.u128.write id ++ back) (Nat.le_of_eq len) (by rw [len, place]) bitmap
  obtain ⟨bids, found⟩ := Layout.coveredRead Layout.coversU128 (Nat.le_of_eq (place.symm.trans same.symm))
  have written := Layout.u128.writeOfRead _ _ _ found
  have rest : fresh.drop Layout.u128.size = [] := List.drop_of_length_le (Nat.le_of_eq (same.trans place))
  rw [rest, List.append_nil] at written
  refine ⟨bids, ?_⟩
  rw [whole, ← written]
  exact again bids

end OpenOrders

theorem Market.bitmapReplaced {address : Key} {data : Bytes} {market : Market}
    (read : unpack address data = .ok market) (bitmap : Block 16) :
    ∃ vault, unpack address (withBitmap data bitmap) = .ok { market with coinVault := vault } := by
  obtain ⟨record, framed, rfl⟩ := mapEqOk.1 read
  obtain ⟨⟨rest, rfl⟩, flagged⟩ := unframeEqOk.1 framed
  obtain ⟨front, back, len, written⟩ := record.parts
  have whole (vault : Key) : head ++ front ++ (vault.bytes ++ (back ++ rest)) =
      head ++ (MarketRecord.layout.write { record with coinVault := vault } ++ rest) := by
    rw [written]
    simp only [List.append_assoc]
  have before : (head ++ front).length = 117 := by
    rw [List.length_append, len]
    rfl
  have bytes := record.coinVault.lengthBytes
  obtain ⟨fresh, same, replaced⟩ := withBitmapWithin (head ++ front) record.coinVault.bytes (back ++ rest)
    (by rw [before]; decide) (by rw [before, bytes]; decide) bitmap
  refine ⟨⟨fresh, same.trans bytes⟩, ?_⟩
  rw [whole, whole ⟨fresh, same.trans bytes⟩] at replaced
  rw [replaced]
  exact mapEqOk.2 ⟨_, unframeEqOk.2 ⟨⟨rest, rfl⟩, flagged⟩, rfl⟩

end Venue

theorem Pool.State.bitmapReplaced {data : Bytes} {state : State} (read : unpack data = .ok state)
    (long : 141 ≤ data.length) (bitmap : Block 16) :
    ∃ other, unpack (Venue.withBitmap data bitmap) = .ok other ∧ other.header = state.header := by
  have front := (unpackEqOk.1 read).1
  obtain ⟨status, fields, same⟩ := Header.unpackEqOk.1 front
  have kept : Header.unpack (Venue.withBitmap data bitmap) = .ok state.header :=
    Header.unpackEqOk.2 ⟨status, Layout.readAgain fields (Venue.frontWithBitmap long bitmap (by decide)), same⟩
  obtain ⟨other, again⟩ : ∃ other, unpack (Venue.withBitmap data bitmap) = .ok other := by
    rw [unpackAccepts, Venue.lengthWithBitmap long, Header.marketCountAt kept, ← Header.marketCountAt front]
    exact (unpackAccepts data).1 ⟨state, read⟩
  exact ⟨other, again, Except.ok.inj ((unpackEqOk.1 again).1.symm.trans kept)⟩

end TradingPool
