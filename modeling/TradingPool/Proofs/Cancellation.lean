import TradingPool.Proofs.VenueAccounts
import TradingPool.Proofs.Settlement

/-! Cancelling the order in the first slot, from the bytes of the account to those of the payload. The id goes
through as it is stored, and the side sent is told by bit 63 of it. The bid bitmap of the venue can disagree, which
is noted; it has no part in what is sent, wherever else the account is used as well. -/
namespace TradingPool

/-- The world with other data stored at an address. -/
def World.storing (world : World) (address : Key) (data : Bytes) (fits : data.length < UInt64.size) : World :=
  { world with
    account := fun other => if other = address then some data else world.account other
    sized := fun {other found} held => by
      split at held
      · cases held
        exact fits
      · exact world.sized held }

theorem World.accountStoring (world : World) (address other : Key) (data : Bytes) (fits : data.length < UInt64.size) :
    (world.storing address data fits).account other = if other = address then some data else world.account other :=
  rfl

namespace OrderId

variable {price sequence : Nat}

/- The low half of an id is the sequence number, of a bid complemented. -/
theorem sideOfHalves {low : Nat} (fits : low < 2 ^ 64) {id : OrderId} (halves : id.toNat = price * 2 ^ 64 + low) :
    id.side = if 2 ^ 63 ≤ low then .bid else .ask := by
  have bit : id.getLsbD 63 = low.testBit 63 := by
    rw [← BitVec.testBit_toNat, halves, Nat.mul_comm, Nat.testBit_two_pow_mul_add _ fits, if_pos (by decide)]
  unfold side
  by_cases high : 2 ^ 63 ≤ low
  · rw [bit, Nat.testBit_of_two_pow_le_and_two_pow_add_one_gt high fits, if_pos rfl, if_pos high]
  · rw [bit, Nat.testBit_lt_two_pow (Nat.lt_of_not_le high), if_neg high]
    rfl

theorem bidSide (small : sequence < 2 ^ 63) {id : OrderId}
    (halves : id.toNat = price * 2 ^ 64 + (2 ^ 64 - 1 - sequence)) : id.side = .bid := by
  rw [sideOfHalves (by omega) halves, if_pos (by omega)]

theorem askSide (small : sequence < 2 ^ 63) {id : OrderId} (halves : id.toNat = price * 2 ^ 64 + sequence) :
    id.side = .ask := by
  rw [sideOfHalves (by omega) halves, if_neg (Nat.not_le.2 small)]

end OrderId

namespace Venue

/-- The first order slot of an open orders account. -/
def firstSlot (data : Bytes) : Bytes := (data.drop 141).take 16

/-- The order id that the first slot holds, which is zero where the slot is free. -/
def firstId (data : Bytes) : OrderId := BitVec.ofNat 128 (LittleEndian.decode (firstSlot data))

/-- The side that the id tells: the top bit of its eighth byte is set for a bid. -/
def idSide (data : Bytes) : Side := if data.getD 148 0 &&& 0x80 = 0 then .ask else .bid

/-- The side that the venue's bitmap records for the first slot. -/
def bitmapSide (data : Bytes) : Side := if data.getD 125 0 &&& 0x01 = 0 then .ask else .bid

/- A bit of a number is a bit of one of the bytes that it is written with. -/
theorem bitOfByte {id : BitVec 128} {i : Nat} {b : UInt8} (stands : (Layout.u128.write id)[i]? = some b) (j : Nat)
    (below : j < 8) : id.getLsbD (8 * i + j) = true ↔ b &&& UInt8.ofNat (2 ^ j) ≠ 0 := by
  rw [← BitVec.testBit_toNat, ← Layout.decodeWritten, LittleEndian.testBitDecode stands j below, ne_eq,
    Pool.Status.flagBit b j below, Nat.testBit_eq_decide_div_mod_eq, decide_eq_true_iff]
  omega

theorem byteWithin (front : Bytes) {middle : Bytes} {i : Nat} {b : UInt8} (stands : middle[i]? = some b)
    (back : Bytes) :
    (front ++ (middle ++ back)).getD (front.length + i) 0 = b := by
  have inside : i < middle.length := (List.getElem?_eq_some_iff.1 stands).1
  rw [List.getD_eq_getElem?_getD, List.getElem?_append_right (Nat.le_add_right _ _), Nat.add_sub_cancel_left,
    List.getElem?_append_left inside, stands]
  rfl

theorem byteWritten (id : BitVec 128) {i : Nat} (below : i < 16) : ∃ b, (Layout.u128.write id)[i]? = some b :=
  ⟨_, List.getElem?_eq_getElem (Nat.lt_of_lt_of_eq below (Layout.u128.lengthWrite id).symm)⟩

namespace OpenOrders

variable {address : Key} {data : Bytes} {orders : OpenOrders}

/- What a cancellation takes from the account, in terms of its bytes. -/
theorem firstAt (read : unpack address data = .ok orders) :
    orders.orders.head? = some (firstId data) ∧ Layout.u128.write (firstId data) = firstSlot data ∧
      (firstId data).side = idSide data ∧ (orders.slotIsBid 0 = true ↔ bitmapSide data = .bid) := by
  obtain ⟨front, id, others, back, len, slots, whole, _⟩ := parts read
  have place : (Layout.u128.write orders.isBidBits).length = 16 := Layout.u128.lengthWrite _
  have behind : (front ++ Layout.u128.write orders.isBidBits).length = 141 := by rw [List.length_append, len, place]
  have slot : firstSlot data = Layout.u128.write id := by
    rw [firstSlot, whole, ← List.append_assoc, List.drop_left' behind]
    exact List.take_left' (Layout.u128.lengthWrite id)
  have same : firstId data = id := by rw [firstId, slot, Layout.decodeWritten, BitVec.ofNat_toNat, BitVec.setWidth_eq]
  obtain ⟨top, high⟩ := byteWritten id (i := 7) (by decide)
  obtain ⟨bids, low⟩ := byteWritten orders.isBidBits (i := 0) (by decide)
  have atBids : data.getD 125 0 = bids := by
    have stands := byteWithin front low (Layout.u128.write id ++ back)
    rwa [len, ← whole] at stands
  have atTop : data.getD 148 0 = top := by
    have stands := byteWithin (front ++ Layout.u128.write orders.isBidBits) high back
    rwa [behind, List.append_assoc, ← whole] at stands
  rw [same]
  refine ⟨by rw [slots]; rfl, slot.symm, ?_, ?_⟩
  · have bit : id.getLsbD 63 = true ↔ top &&& 0x80 ≠ 0 := bitOfByte high 7 (by decide)
    unfold OrderId.side idSide
    rw [atTop]
    by_cases clear : top &&& 0x80 = 0
    · rw [if_neg (mt bit.1 (not_not.2 clear)), if_pos clear]
    · rw [if_pos (bit.2 clear), if_neg clear]
  · have bit : orders.isBidBits.getLsbD 0 = true ↔ bids &&& 0x01 ≠ 0 := bitOfByte low 0 (by decide)
    unfold slotIsBid bitmapSide
    rw [bit, atBids]
    by_cases clear : bids &&& 0x01 = 0
    · simp [clear]
    · simp [clear]

theorem firstOrderAt (read : unpack address data = .ok orders) :
    orders.firstOrder? = if firstSlot data = List.replicate 16 0 then none else some (firstId data) := by
  obtain ⟨first, written, _⟩ := firstAt read
  have value := Layout.decodeWritten (firstId data)
  have len : (firstSlot data).length = 16 := written ▸ Layout.u128.lengthWrite _
  rw [written] at value
  have zero : firstId data = 0 ↔ firstSlot data = List.replicate 16 0 := by
    rw [← BitVec.toNat_inj, ← value, ← len]
    exact LittleEndian.decodeEqZero
  unfold firstOrder?
  rw [first]
  by_cases free : firstSlot data = List.replicate 16 0
  · rw [if_pos free, Option.filter_some, zero.2 free]
    rfl
  · have used : firstId data ≠ 0 := mt zero.1 free
    rw [if_neg free, Option.filter_some, if_pos (decide_eq_true used)]

end OpenOrders
end Venue

namespace Workflow

open TradingPool.Plan (Yields Fails)
open Venue (withBitmap firstSlot firstId idSide bitmapSide)

variable {world : World} {settings : Settings} {seed : Seed} {market pool openOrders : Key} {state : Pool.State}
  {info : Venue.Market} {orders : Venue.OpenOrders} {data : Bytes} {id : OrderId}

def cancellation (settings : Settings) (seed : Seed) (pool : Key) (state : Pool.State) (market : Key)
    (info : Venue.Market) (openOrders : Key) (id : OrderId) : Instruction where
  program := settings.program
  accounts := (cancelAccounts pool state market info openOrders).metas
  data := Command.cancelOrder.tag :: Params.CancelOrder.layout.write ⟨seed, id.side, id⟩

theorem cancellationBytes (settings : Settings) (seed : Seed) (pool : Key) (state : Pool.State) (market : Key)
    (info : Venue.Market) (openOrders : Key) (id : OrderId) :
    (cancellation settings seed pool state market info openOrders id).data[33]? = some id.side.toByte ∧
      (cancellation settings seed pool state market info openOrders id).data.drop 34 = Layout.u128.write id := by
  have byte : Layout.side.write id.side = [id.side.toByte] := by cases id.side <;> rfl
  have parts : (cancellation settings seed pool state market info openOrders id).data =
      4 :: seed.bytes ++ (Layout.side.write id.side ++ Layout.u128.write id) := rfl
  have len : (4 :: seed.bytes).length = 33 := congrArg Nat.succ seed.lengthBytes
  rw [parts, byte, ← List.drop_drop (i := 1) (j := 33), List.drop_left' len, List.getElem?_append_right
    (Nat.le_of_eq len), len]
  exact ⟨rfl, rfl⟩

/-- The trace when the pool, the market and the open orders have been read. -/
def ordersTrace (settings : Settings) (seed : Seed) : Trace := (loadTrace settings seed).afterRead.afterRead

theorem cancelsNothing (h : LoadedMarket world settings seed market pool state info)
    (resting : OrdersSource world (loadTrace settings seed).afterRead openOrders orders)
    (free : orders.firstOrder? = none) :
    Fails world {} (cancelOrder settings seed market openOrders) (.noOpenOrder openOrders)
      (ordersTrace settings seed) :=
  h.loads.thenFails <| h.reads.thenFails <| (ordersSource.2 ⟨resting, rfl⟩).thenFails <|
    Plan.failsAtOnce <| Plan.failsOfOption.2 ⟨free, rfl, rfl⟩

theorem cancelsFirst (h : LoadedMarket world settings seed market pool state info)
    (resting : OrdersSource world (loadTrace settings seed).afterRead openOrders orders)
    (first : orders.firstOrder? = some id) : ∃ noted, Yields world {} (cancelOrder settings seed market openOrders)
      [cancellation settings seed pool state market info openOrders id]
      (noted.afterNote (.orderCancellation pool id id.side)) ∧
    noted =
      if (id.side == .bid) != orders.slotIsBid 0 then
        (ordersTrace settings seed).afterNote (.sideDisagreement openOrders id id.side)
      else ordersTrace settings seed := by
  have built : Command.cancelOrder.build settings.program (cancelAccounts pool state market info openOrders)
      { seed, side := id.side, orderId := id : Params.CancelOrder } =
        .ok (cancellation settings seed pool state market info openOrders id) := rfl
  refine ⟨_, h.loads.thenYields <| h.reads.thenYields <| (ordersSource.2 ⟨resting, rfl⟩).thenYields <|
    (Plan.yieldsOfOption.2 ⟨first, rfl⟩).thenYields ?_, rfl⟩
  dsimp only
  split
  · exact Plan.yieldsBind.2 ⟨(), _, Plan.yieldsNote.2 rfl, Plan.builtYields built⟩
  · exact Plan.builtYields built

theorem cancelOutcome (h : LoadedMarket world settings seed market pool state info)
    (resting : OrdersSource world (loadTrace settings seed).afterRead openOrders orders) :
    (cancelOrder settings seed market openOrders).outcome world =
      match orders.firstOrder? with
      | none => .error (.noOpenOrder openOrders)
      | some id => .ok [cancellation settings seed pool state market info openOrders id] := by
  split
  · rename_i free
    exact (cancelsNothing h resting free).ended.1
  · rename_i first
    obtain ⟨_, run, _⟩ := cancelsFirst h resting first
    exact Plan.outcomeYields.2 ⟨_, run⟩

/- The side that the bitmap records is looked at for the warning only. -/
theorem cancelsFound (h : LoadedMarket world settings seed market pool state info)
    (resting : OrdersSource world (loadTrace settings seed).afterRead openOrders orders)
    (decoded : Venue.OpenOrders.unpack openOrders data = .ok orders) (used : firstSlot data ≠ List.replicate 16 0) :
    (cancelOrder settings seed market openOrders).outcome world =
      .ok [cancellation settings seed pool state market info openOrders (firstId data)] ∧
    ((cancelOrder settings seed market openOrders).trace world).events =
      (if idSide data = bitmapSide data then #[]
        else #[.sideDisagreement openOrders (firstId data) (idSide data)]).push
          (.orderCancellation pool (firstId data) (idSide data)) := by
  obtain ⟨_, _, side, bid⟩ := Venue.OpenOrders.firstAt decoded
  obtain ⟨noted, run, rfl⟩ := cancelsFirst h resting ((Venue.OpenOrders.firstOrderAt decoded).trans (if_neg used))
  have agree : ((idSide data == .bid) != orders.slotIsBid 0) = true ↔ ¬ idSide data = bitmapSide data := by
    revert bid
    cases idSide data <;> cases bitmapSide data <;> cases orders.slotIsBid 0 <;> decide
  refine ⟨Plan.outcomeYields.2 ⟨_, run⟩, ?_⟩
  rw [side] at run
  have trace : (cancelOrder settings seed market openOrders).trace world = _ := congrArg Prod.snd run
  rw [trace]
  by_cases same : idSide data = bitmapSide data
  · rw [if_neg (mt agree.1 (not_not.2 same)), if_pos same]
    rfl
  · rw [if_pos (agree.2 same), if_neg same]
    rfl

section Bitmap

variable (held : world.account openOrders = some data)
  (decoded : Venue.OpenOrders.unpack openOrders data = .ok orders) (bitmap : Block 16)
  (fits : (withBitmap data bitmap).length < UInt64.size)
include held decoded

/- The open orders account may be the account of the pool or of the market as well. -/
theorem rewrittenAt {address : Key} {found : Bytes} (stored : world.account address = some found) : ∃ again,
    (world.storing openOrders (withBitmap data bitmap) fits).account address = some again ∧
      (again = found ∨ again = withBitmap found bitmap ∧ 141 ≤ found.length) := by
  rw [World.accountStoring]
  by_cases here : address = openOrders
  · subst here
    cases held.symm.trans stored
    exact ⟨_, if_pos rfl, .inr ⟨rfl, Venue.OpenOrders.long decoded⟩⟩
  · exact ⟨found, (if_neg here).trans stored, .inl rfl⟩

theorem poolRewritten (loaded : PoolSource world {} settings seed pool state) : ∃ other,
    PoolSource (world.storing openOrders (withBitmap data bitmap) fits) {} settings seed pool other ∧
      other.header = state.header := by
  obtain ⟨found, stored, read⟩ := loaded.stored
  obtain ⟨again, kept, rfl | ⟨rfl, long⟩⟩ := rewrittenAt held decoded bitmap fits stored
  · exact ⟨state, ⟨loaded.address, loaded.sound, ⟨_, kept, read⟩, loaded.created⟩, rfl⟩
  · obtain ⟨other, changed, same⟩ := Pool.State.bitmapReplaced read long bitmap
    exact ⟨other, ⟨loaded.address, loaded.sound, ⟨_, kept, changed⟩, same ▸ loaded.created⟩, same⟩

theorem marketRewritten {trace : Trace} (venue : MarketSource world trace market info) : ∃ other,
    MarketSource (world.storing openOrders (withBitmap data bitmap) fits) trace market other ∧
      other.requestQueue = info.requestQueue := by
  obtain ⟨found, stored, read⟩ := venue.stored
  obtain ⟨again, kept, rfl | ⟨rfl, _⟩⟩ := rewrittenAt held decoded bitmap fits stored
  · exact ⟨info, ⟨venue.sound, ⟨_, kept, read⟩⟩, rfl⟩
  · obtain ⟨vault, changed⟩ := Venue.Market.bitmapReplaced read bitmap
    exact ⟨_, ⟨venue.sound, ⟨_, kept, changed⟩⟩, rfl⟩

theorem bitmapUnsent (h : LoadedMarket world settings seed market pool state info)
    (sound : ∀ n, world.fault n = none) :
    (cancelOrder settings seed market openOrders).outcome
        (world.storing openOrders (withBitmap data bitmap) fits) =
      (cancelOrder settings seed market openOrders).outcome world := by
  obtain ⟨bids, changed⟩ := Venue.OpenOrders.bitmapReplaced decoded bitmap
  obtain ⟨other, loaded, header⟩ := poolRewritten held decoded bitmap fits h.loaded
  obtain ⟨traded, venue, queue⟩ := marketRewritten held decoded bitmap fits h.venue
  rw [cancelOutcome h ⟨sound _, data, held, decoded⟩,
    cancelOutcome ⟨loaded, venue⟩ ⟨sound _, _, if_pos rfl, changed⟩]
  unfold cancellation cancelAccounts
  rw [header, queue]
  rfl

end Bitmap

theorem firstOrderCancelled (sound : ∀ n, world.fault n = none)
    (loads : (loadPool settings seed).outcome world = .ok (pool, state))
    {listing : Bytes} (listed : world.account market = some listing)
    (traded : Venue.Market.unpack market listing = .ok info)
    (held : world.account openOrders = some data) (decoded : Venue.OpenOrders.unpack openOrders data = .ok orders) :
    ((cancelOrder settings seed market openOrders).outcome world = .error (.noOpenOrder openOrders) ↔
      firstSlot data = List.replicate 16 0) ∧
    (firstSlot data ≠ List.replicate 16 0 → ∃ cancel,
      (cancelOrder settings seed market openOrders).outcome world = .ok [cancel] ∧
      (cancel.data.drop 34).take 16 = firstSlot data ∧ cancel.data[33]? = some (idSide data).toByte ∧
      ((cancelOrder settings seed market openOrders).trace world).events =
        (if idSide data = bitmapSide data then #[]
          else #[.sideDisagreement openOrders (firstId data) (idSide data)]).push
            (.orderCancellation pool (firstId data) (idSide data))) ∧
    (∀ bitmap fits, (cancelOrder settings seed market openOrders).outcome
        (world.storing openOrders (withBitmap data bitmap) fits) =
      (cancelOrder settings seed market openOrders).outcome world) ∧
    ∀ price sequence : Nat, price < 2 ^ 64 → sequence < 2 ^ 63 →
      (LittleEndian.decode (firstSlot data) = price * 2 ^ 64 + (2 ^ 64 - 1 - sequence) → ∃ cancel,
        (cancelOrder settings seed market openOrders).outcome world = .ok [cancel] ∧
          cancel.data[33]? = some Side.bid.toByte) ∧
      (LittleEndian.decode (firstSlot data) = price * 2 ^ 64 + sequence → price * 2 ^ 64 + sequence ≠ 0 →
        ∃ cancel, (cancelOrder settings seed market openOrders).outcome world = .ok [cancel] ∧
          cancel.data[33]? = some Side.ask.toByte) := by
  obtain ⟨_, run⟩ := Plan.outcomeYields.1 loads
  have h : LoadedMarket world settings seed market pool state info :=
    ⟨(poolSource.1 run).1, ⟨sound _, listing, listed, traded⟩⟩
  have resting : OrdersSource world (loadTrace settings seed).afterRead openOrders orders :=
    ⟨sound _, data, held, decoded⟩
  obtain ⟨_, written, side, _⟩ := Venue.OpenOrders.firstAt decoded
  obtain ⟨byte, rest⟩ := cancellationBytes settings seed pool state market info openOrders (firstId data)
  have value : (firstId data).toNat = LittleEndian.decode (firstSlot data) := by
    rw [← written, Layout.decodeWritten]
  have sent (some : LittleEndian.decode (firstSlot data) ≠ 0) :=
    (cancelsFound h resting decoded fun zeros => some (zeros ▸ LittleEndian.decodeZeros 16)).1
  refine ⟨?_, fun used => ?_, fun bitmap fits => bitmapUnsent held decoded bitmap fits h sound,
    fun price sequence _ small => ⟨fun halves => ?_, fun halves some => ?_⟩⟩
  · rw [cancelOutcome h resting, Venue.OpenOrders.firstOrderAt decoded]
    by_cases free : firstSlot data = List.replicate 16 0
    · rw [if_pos free]
      exact ⟨fun _ => free, fun _ => rfl⟩
    · rw [if_neg free]
      exact ⟨nofun, fun zeros => absurd zeros free⟩
  · obtain ⟨ends, events⟩ := cancelsFound h resting decoded used
    refine ⟨_, ends, ?_, side ▸ byte, events⟩
    rw [rest, written]
    exact List.take_of_length_le (written ▸ Nat.le_of_eq (Layout.u128.lengthWrite _))
  · have told := OrderId.bidSide small (value.trans halves)
    exact ⟨_, sent (by omega), told ▸ byte⟩
  · have told := OrderId.askSide small (value.trans halves)
    exact ⟨_, sent (halves ▸ some), told ▸ byte⟩

/- An account whose first slot holds a bid, by its id, that the bitmap has for an ask. -/
def restingOrders : Venue.OpenOrdersRecord where
  flags := 5
  market := .fill 32 21
  owner := .fill 32 14
  nativeCoinFree := 0
  nativeCoinTotal := 0
  nativePcFree := 0
  nativePcTotal := 0
  freeSlotBits := 0
  isBidBits := 2
  orders := (Vector.replicate Venue.maxOrders 3).set 0 (BitVec.ofNat 128 (500 * 2 ^ 64 + (2 ^ 64 - 1 - 7)))
  clientOrderIds := Vector.replicate Venue.maxOrders 0
  referrerRebatesAccrued := 0

def restingData : Bytes := Venue.frame Venue.OpenOrdersRecord.layout restingOrders

def restingWorld : World :=
  .ofLedger <| bidLedger.store ⟨.fill 32 1, .fill 32 8, restingData, by decide +kernel⟩

theorem restingLoads :
    ((loadPool plainSettings (.fill 32 4)).outcome restingWorld).toOption.map
      (fun found => found.2.header.signalProvider) = some (.fill 32 11) := by
  decide +kernel

theorem restingSlot : LittleEndian.decode (firstSlot restingData) = 500 * 2 ^ 64 + (2 ^ 64 - 1 - 7) := by
  decide +kernel

theorem restingDecoded : ∃ orders, Venue.OpenOrders.unpack (.fill 32 1) restingData = .ok orders :=
  ⟨_, mapEqOk.2 ⟨restingOrders, Venue.unframeEqOk.2 ⟨⟨Venue.tail, List.append_assoc ..⟩, rfl⟩, rfl⟩⟩

theorem restingMarket : ∃ info, Venue.Market.unpack (.fill 32 21) bidMarket = .ok info :=
  ⟨_, mapEqOk.2 ⟨_, Venue.unframeEqOk.2 ⟨⟨Venue.tail, List.append_assoc ..⟩, rfl⟩, rfl⟩⟩

theorem firstOrderCancelledBid : ∃ cancel,
    (cancelOrder plainSettings (.fill 32 4) (.fill 32 21) (.fill 32 1)).outcome restingWorld = .ok [cancel] ∧
      cancel.data[33]? = some 0 ∧
      ((cancelOrder plainSettings (.fill 32 4) (.fill 32 21) (.fill 32 1)).trace restingWorld).events.size = 2 := by
  obtain ⟨⟨pool, state⟩, loads, _⟩ := Failure.answered restingLoads
  obtain ⟨info, traded⟩ := restingMarket
  obtain ⟨orders, decoded⟩ := restingDecoded
  have listed : restingWorld.account (.fill 32 21) = some bidMarket := by decide +kernel
  have held : restingWorld.account (.fill 32 1) = some restingData := by decide +kernel
  obtain ⟨_, first, _, sides⟩ := firstOrderCancelled (fun _ => rfl) loads listed traded held decoded
  obtain ⟨cancel, ends, byte⟩ := (sides 500 7 (by decide) (by decide)).1 restingSlot
  obtain ⟨_, _, _, _, events⟩ := first (by decide +kernel)
  have apart : idSide restingData ≠ bitmapSide restingData := by decide +kernel
  rw [if_neg apart] at events
  exact ⟨cancel, ends, byte, congrArg Array.size events⟩

end Workflow
end TradingPool
