import TradingPool.Proofs.Offsets
import TradingPool.Proofs.PoolStatus
import TradingPool.Pool.State

/-! Pool accounts and their parts. The header says how many markets follow it, and all the rest is asset
slots: what was written is read back, free slots apart, and what was read can be written again. Only the
market count decides how long an account must be. -/
namespace TradingPool.Pool
namespace Header

theorem coversStored : stored.Covers :=
  Layout.coversPair Layout.coversKey <| Layout.coversPair Layout.coversKey <|
    Layout.coversPair Layout.coversKey <| Layout.coversPair Layout.coversU8 <|
    Layout.coversPair Layout.coversU16 <| Layout.coversPair Layout.coversU16 <|
    Layout.coversPair Layout.coversU64 Layout.coversU64

def fields (header : Header) (status : UInt8) :
    Key × Seed × Key × UInt8 × UInt16 × UInt16 × UInt64 × UInt64 :=
  (header.venueProgram, header.seed, header.signalProvider, status, header.marketCount, header.feeRatio,
    header.lastFeeCollection, header.feeCollectionPeriod)

theorem packEqOk {header : Header} {bytes : Bytes} :
    header.pack = .ok bytes ↔
      ∃ status, header.status.toByte = .ok status ∧ stored.write (header.fields status) = bytes := by
  unfold pack
  rw [bindEqOk]
  exact exists_congr fun status => and_congr_right fun _ => ⟨Except.ok.inj, congrArg Except.ok⟩

theorem unpackEqOk {data : Bytes} {header : Header} :
    unpack data = .ok header ↔ ∃ status,
      stored.read data = some (header.fields status, data.drop size) ∧ .ofByte status = header.status := by
  unfold unpack
  split
  · rename_i venueProgram seed signalProvider status count ratio last period rest front
    have left : rest = data.drop size := stored.readRest front
    subst left
    constructor
    · intro h
      cases h
      exact ⟨status, front, rfl⟩
    · intro h
      obtain ⟨other, read, same⟩ := h
      rw [front] at read
      cases read
      rw [same]
  · rename_i missing
    simp [missing]

theorem unpackAccepts (data : Bytes) : (∃ header, unpack data = .ok header) ↔ size ≤ data.length := by
  constructor
  · intro h
    obtain ⟨header, h⟩ := h
    obtain ⟨_, read, _⟩ := unpackEqOk.1 h
    have len := stored.sizeOfRead read
    rw [sizeStored] at len
    omega
  · intro long
    obtain ⟨⟨venueProgram, seed, signalProvider, status, count, ratio, last, period⟩, read⟩ :=
      Layout.coveredRead coversStored (s := data) long
    exact ⟨⟨venueProgram, seed, signalProvider, .ofByte status, count, ratio, last, period⟩,
      unpackEqOk.2 ⟨status, read, rfl⟩⟩

theorem unpackShort {data : Bytes} (short : data.length < size) :
    unpack data = .error (.truncatedAccount size data.length) := by
  unfold unpack
  split
  · rename_i front
    have len := stored.sizeOfRead front
    rw [sizeStored] at len
    omega
  · rfl

theorem lengthPack {header : Header} {bytes : Bytes} (h : header.pack = .ok bytes) : bytes.length = size := by
  obtain ⟨status, _, written⟩ := packEqOk.1 h
  rw [← written, stored.lengthWrite, sizeStored]

theorem unpackPack {header : Header} {bytes : Bytes} (h : header.pack = .ok bytes) (rest : Bytes) :
    unpack (bytes ++ rest) = .ok header ∧ (bytes ++ rest).drop size = rest := by
  obtain ⟨status, byte, written⟩ := packEqOk.1 h
  have left : (bytes ++ rest).drop size = rest := by rw [← lengthPack h, List.drop_left]
  refine ⟨unpackEqOk.2 ⟨status, ?_, Status.ofByteToByte byte⟩, left⟩
  rw [left, ← written, stored.readWrite]

theorem writable {header : Header} (few : header.status.pendingOrders ≤ Status.maxPendingOrders) :
    ∃ bytes, header.pack = .ok bytes := by
  obtain ⟨status, byte⟩ := Status.writable few
  exact ⟨_, packEqOk.2 ⟨status, byte, rfl⟩⟩

theorem pendingOrdersBounded {data : Bytes} {header : Header} (h : unpack data = .ok header) :
    header.status.pendingOrders ≤ Status.maxPendingOrders := by
  obtain ⟨status, _, same⟩ := unpackEqOk.1 h
  exact same ▸ Status.pendingOrdersBounded status

theorem marketCountAt {data : Bytes} {header : Header} (h : unpack data = .ok header) :
    LittleEndian.decodeAt 2 97 data = header.marketCount.toNat := by
  obtain ⟨status, read, _⟩ := unpackEqOk.1 h
  obtain ⟨_, read⟩ := (Layout.pairRead _ _).1 read
  obtain ⟨_, read⟩ := (Layout.pairRead _ _).1 read
  obtain ⟨_, read⟩ := (Layout.pairRead _ _).1 read
  obtain ⟨_, read⟩ := (Layout.pairRead _ _).1 read
  obtain ⟨number, _⟩ := (Layout.pairRead _ _).1 read
  have value := Layout.decodeU16 number
  simp only [List.drop_drop] at value
  exact value

theorem statusAt {data : Bytes} {header : Header} (h : unpack data = .ok header) :
    ∃ b, data[96]? = some b ∧ .ofByte b = header.status := by
  obtain ⟨status, read, same⟩ := unpackEqOk.1 h
  obtain ⟨_, read⟩ := (Layout.pairRead _ _).1 read
  obtain ⟨_, read⟩ := (Layout.pairRead _ _).1 read
  obtain ⟨_, read⟩ := (Layout.pairRead _ _).1 read
  obtain ⟨byte, _⟩ := (Layout.pairRead _ _).1 read
  have front := Layout.readU8 byte
  simp only [List.drop_drop] at front
  have first := congrArg List.head? front
  rw [List.head?_drop] at first
  exact ⟨status, first, same⟩

end Header

namespace Asset

theorem slotsWritten (slots : List Asset) (tail : Bytes) (short : tail.length < size) :
    Asset.slots (layout.writeAll slots ++ tail) = slots := by
  have len : (layout.writeAll slots ++ tail).length / size = slots.length := by
    rw [List.length_append, layout.lengthWriteAll, sizeLayout]
    unfold size at short ⊢
    omega
  simp only [Asset.slots, len, layout.readAllWriteAll]

theorem slotsBounded (data : Bytes) : size * (slots data).length ≤ data.length := by
  unfold Asset.slots
  split
  · rename_i assets rest taken
    rw [(layout.writeAllOfReadAll taken).1]
    exact Nat.mul_div_le data.length size
  · exact Nat.zero_le _

theorem unpackAllWritten (slots : List Asset) (tail : Bytes) (short : tail.length < size) :
    unpackAll (layout.writeAll slots ++ tail) = slots.filter isInitialized := by
  rw [unpackAll, slotsWritten slots tail short]

theorem unpackAllAgain (data : Bytes) : unpackAll (layout.writeAll (unpackAll data)) = unpackAll data := by
  have again := unpackAllWritten (unpackAll data) [] (by decide)
  rw [List.append_nil] at again
  rw [again, unpackAll, List.filter_filter]
  simp only [Bool.and_self]

end Asset

/-- All whole slots of a pool account, the free ones too. -/
def accountSlots (data : Bytes) : List Asset :=
  Asset.slots (data.drop (Header.size + 32 * LittleEndian.decodeAt 2 97 data))

namespace State

theorem marketsEqOk {data : Bytes} {count : Nat} {markets : List Key} :
    unpackMarkets data count = .ok markets ↔
      Layout.key.readAll count data = some (markets, data.drop (32 * count)) := by
  unfold unpackMarkets
  split
  · rename_i taken rest read
    have left : rest = data.drop (count * 32) := (Layout.key.readAllRest read).2
    rw [read, left, Nat.mul_comm]
    simp
  · rename_i missing
    rw [missing]
    exact ⟨nofun, nofun⟩

theorem marketsShort {data : Bytes} {count : Nat} (short : data.length < 32 * count) :
    unpackMarkets data count = .error (.truncatedAccount (32 * count) data.length) := by
  unfold unpackMarkets
  split
  · rename_i taken
    have len : count * 32 + _ = data.length := (Layout.key.readAllRest taken).1
    omega
  · rfl

/- The lists are found where the header ends, and what the markets leave is asset slots. -/
theorem unpackEqOk {data : Bytes} {state : State} :
    unpack data = .ok state ↔ Header.unpack data = .ok state.header ∧ ∃ slots,
      Layout.key.readAll state.header.marketCount.toNat (data.drop Header.size) = some (state.markets, slots) ∧
        Asset.unpackAll slots = state.assets := by
  unfold unpack
  simp only [bindEqOk, marketsEqOk]
  refine ⟨fun h => ?_, fun h => ?_⟩
  · obtain ⟨header, front, markets, read, h⟩ := h
    cases h
    exact ⟨front, _, read, rfl⟩
  · obtain ⟨front, slots, read, assets⟩ := h
    have left : slots = (data.drop Header.size).drop (state.header.marketCount.toNat * 32) :=
      (Layout.key.readAllRest read).2
    rw [Nat.mul_comm] at left
    subst left
    exact ⟨state.header, front, state.markets, read, by rw [assets]; rfl⟩

theorem heldSlots {data : Bytes} {state : State} (h : unpack data = .ok state) :
    state.assets = (accountSlots data).filter Asset.isInitialized := by
  obtain ⟨front, slots, taken, assets⟩ := unpackEqOk.1 h
  have left := (Layout.key.readAllRest taken).2
  rw [List.drop_drop, Nat.mul_comm] at left
  rw [← assets, left, accountSlots, Header.marketCountAt front]
  rfl

theorem unpackAccepts (data : Bytes) :
    (∃ state, unpack data = .ok state) ↔
      Header.size ≤ data.length ∧ Header.size + 32 * LittleEndian.decodeAt 2 97 data ≤ data.length := by
  constructor
  · intro h
    obtain ⟨state, h⟩ := h
    obtain ⟨front, slots, taken, _⟩ := unpackEqOk.1 h
    have enough := (Header.unpackAccepts data).1 ⟨_, front⟩
    have len : state.header.marketCount.toNat * 32 + slots.length = (data.drop Header.size).length :=
      (Layout.key.readAllRest taken).1
    rw [List.length_drop] at len
    rw [Header.marketCountAt front]
    omega
  · intro h
    obtain ⟨enough, long⟩ := h
    obtain ⟨header, front⟩ := (Header.unpackAccepts data).2 enough
    rw [Header.marketCountAt front] at long
    have rest := List.length_drop (i := Header.size) (l := data)
    obtain ⟨markets, slots, taken⟩ := Layout.coveredReadAll Layout.coversKey
      (show header.marketCount.toNat * 32 ≤ (data.drop Header.size).length by omega)
    exact ⟨⟨header, markets, Asset.unpackAll slots⟩, unpackEqOk.2 ⟨front, slots, taken, rfl⟩⟩

/- Behind the header the figures are those of what is left there, not those of the account. -/
theorem unpackEqError {data : Bytes} {failure : Failure} :
    unpack data = .error failure ↔
      data.length < Header.size ∧ failure = .truncatedAccount Header.size data.length ∨
      Header.size ≤ data.length ∧ data.length < Header.size + 32 * LittleEndian.decodeAt 2 97 data ∧
        failure = .truncatedAccount (32 * LittleEndian.decodeAt 2 97 data) (data.length - Header.size) := by
  by_cases enough : Header.size ≤ data.length
  · obtain ⟨header, front⟩ := (Header.unpackAccepts data).2 enough
    have len := List.length_drop (i := Header.size) (l := data)
    have count := Header.marketCountAt front
    by_cases long : Header.size + 32 * LittleEndian.decodeAt 2 97 data ≤ data.length
    · obtain ⟨state, accepted⟩ := (unpackAccepts data).2 ⟨enough, long⟩
      simp [accepted, Nat.not_lt.2 enough, Nat.not_lt.2 long]
    · have short : (data.drop Header.size).length < 32 * header.marketCount.toNat := by omega
      have refused : unpack data =
          .error (.truncatedAccount (32 * LittleEndian.decodeAt 2 97 data) (data.length - Header.size)) := by
        unfold unpack
        rw [front, count, ← len]
        change (unpackMarkets (data.drop Header.size) header.marketCount.toNat >>= fun markets => _) = _
        rw [marketsShort short]
        rfl
      simp [refused, Nat.not_lt.2 enough, enough, Nat.lt_of_not_le long, eq_comm]
  · have short : data.length < Header.size := Nat.lt_of_not_le enough
    have refused : unpack data = .error (.truncatedAccount Header.size data.length) := by
      unfold unpack
      rw [Header.unpackShort short]
      rfl
    simp [refused, short, enough, eq_comm]

theorem unpackParts {header : Header} {front : Bytes} (packed : header.pack = .ok front)
    {markets : List Key} (count : markets.length = header.marketCount.toNat) (slots : Bytes) :
    unpack (front ++ (Layout.key.writeAll markets ++ slots)) =
      .ok ⟨header, markets, Asset.unpackAll slots⟩ := by
  obtain ⟨read, left⟩ := Header.unpackPack packed (Layout.key.writeAll markets ++ slots)
  refine unpackEqOk.2 ⟨read, slots, ?_, rfl⟩
  rw [left, ← count, Layout.key.readAllWriteAll]

theorem unpackAgain {data : Bytes} {state : State} (h : unpack data = .ok state) :
    ∃ again, state.pack = .ok again ∧ unpack again = .ok state := by
  obtain ⟨front, slots, taken, assets⟩ := unpackEqOk.1 h
  obtain ⟨bytes, packed⟩ := Header.writable (Header.pendingOrdersBounded front)
  have count := (Layout.key.writeAllOfReadAll taken).1
  have kept : Asset.unpackAll (Asset.layout.writeAll state.assets) = state.assets := by
    rw [← assets, Asset.unpackAllAgain]
  refine ⟨bytes ++ (Layout.key.writeAll state.markets ++ Asset.layout.writeAll state.assets), ?_, ?_⟩
  · refine bindEqOk.2 ⟨bytes, packed, ?_⟩
    rw [List.append_assoc]
    rfl
  · rw [unpackParts packed count, kept]

end State

theorem poolAccountCodec :
    (∀ (header : Header) (markets : List Key) (slots : List Asset) (tail : Bytes),
      header.status.pendingOrders ≤ 64 → markets.length = header.marketCount.toNat → tail.length < 40 →
      ∃ front, header.pack = .ok front ∧
        State.unpack (front ++ Layout.key.writeAll markets ++ Asset.layout.writeAll slots ++ tail) =
          .ok ⟨header, markets, slots.filter fun slot => slot.mint ≠ .zero 32⟩) ∧
    (∀ (data : Bytes) (state : State), State.unpack data = .ok state →
      ∃ again, state.pack = .ok again ∧ State.unpack again = .ok state) ∧
    (∀ data : Bytes, (∃ state, State.unpack data = .ok state) ↔
      117 ≤ data.length ∧ 117 + 32 * LittleEndian.decodeAt 2 97 data ≤ data.length) := by
  refine ⟨?_, fun data state => State.unpackAgain, State.unpackAccepts⟩
  intro header markets slots tail few count short
  obtain ⟨front, packed⟩ := Header.writable few
  have read := State.unpackParts packed count (Asset.layout.writeAll slots ++ tail)
  rw [Asset.unpackAllWritten slots tail short] at read
  refine ⟨front, packed, ?_⟩
  rw [List.append_assoc, List.append_assoc]
  exact read

def tradingHeader : Header where
  venueProgram := .zero 32
  seed := .fill 32 3
  signalProvider := .fill 32 5
  status := .active true 64
  marketCount := 2
  feeRatio := 100
  lastFeeCollection := 1600000000
  feeCollectionPeriod := 604800

theorem poolAccountCodecTrading :
    let market : Key := .fill 32 7
    let mint : Key := .fill 32 9
    let slots : List Asset := [⟨.zero 32, 77⟩, ⟨mint, 5⟩, ⟨.zero 32, 0⟩, ⟨market, 9⟩]
    let state : State := ⟨tradingHeader, [market, .zero 32], [⟨mint, 5⟩, ⟨market, 9⟩]⟩
    (∃ front, tradingHeader.pack = .ok front ∧
      State.unpack (front ++ Layout.key.writeAll [market, .zero 32] ++ Asset.layout.writeAll slots ++
        [1, 2, 3]) = .ok state) ∧
    ∃ again, state.pack = .ok again ∧ State.unpack again = .ok state := by
  intro market mint slots state
  obtain ⟨front, packed, read⟩ :=
    poolAccountCodec.1 tradingHeader [market, .zero 32] slots [1, 2, 3] (by decide) rfl (by decide)
  exact ⟨⟨front, packed, read⟩, poolAccountCodec.2.1 _ state read⟩

end TradingPool.Pool
