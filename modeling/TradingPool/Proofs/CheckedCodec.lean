import TradingPool.Pool.Tracker
import TradingPool.Proofs.Payload
import TradingPool.Proofs.PoolAccount

/-! Accounts read and payloads written with a check at every step: each field by its offset, each number by
its width, and the count of a status before it is used. Behind the checks of the length none of these can
refuse anything, so the records are those that the layouts give. -/
namespace TradingPool
namespace Pool

/- Pending orders are counted from one, so a count of zero has no status. -/
def Status.checked (b : UInt8) : Except Failure Status :=
  if b = 0 then .ok .uninitialized
  else if b &&& 0x40 = 0 then .ok (.active (b &&& 0x80 ≠ 0) 0)
  else
    let count := (b &&& 0x3f) + 1
    if count = 0 then .error (.invalidStatusByte b) else .ok (.active (b &&& 0x80 ≠ 0) count)

theorem Status.checkedOfByte (b : UInt8) : checked b = .ok (ofByte b) := by
  unfold checked ofByte
  split
  · rfl
  split
  · rfl
  · have low := countBits b
    have counted : (b &&& 0x3f) + 1 ≠ 0 := by
      intro none
      have number := congrArg UInt8.toNat none
      rw [UInt8.toNat_add, low] at number
      change (b.toNat % 64 + 1) % 256 = 0 at number
      omega
    dsimp only
    rw [if_neg counted]

namespace Header

/-- The last part holds the market count, the fee ratio and the two times. -/
def parts : Layout (Key × Seed × Key × UInt8 × Block 20) :=
  .pair .key <| .pair .key <| .pair .key <| .pair .u8 (.block 20)

def figures : Layout (UInt16 × UInt16 × UInt64 × UInt64) :=
  .pair .u16 <| .pair .u16 <| .pair .u64 .u64

theorem coversFigures : figures.Covers :=
  Layout.coversPair Layout.coversU16 <| Layout.coversPair Layout.coversU16 <|
    Layout.coversPair Layout.coversU64 Layout.coversU64

def checked (data : Bytes) : Except Failure Header :=
  match parts.read data with
  | none => .error (.truncatedAccount size data.length)
  | some ((venueProgram, seed, signalProvider, status, fixed), _) => do
    let status ← Status.checked status
    let marketCount ← readU16At fixed.bytes 0
    let feeRatio ← readU16At fixed.bytes 2
    let lastFeeCollection ← readU64At fixed.bytes 4
    let feeCollectionPeriod ← readU64At fixed.bytes 12
    return ⟨venueProgram, seed, signalProvider, status, marketCount, feeRatio, lastFeeCollection,
      feeCollectionPeriod⟩

theorem figuresAt {fixed : Bytes} {count ratio : UInt16} {last period : UInt64}
    (h : figures.read fixed = some ((count, ratio, last, period), [])) :
    readU16At fixed 0 = .ok count ∧ readU16At fixed 2 = .ok ratio ∧ readU64At fixed 4 = .ok last ∧
      readU64At fixed 12 = .ok period := by
  have rest : [] = fixed.drop 20 := figures.readRest h
  rw [rest] at h
  unfold figures at h
  simp only [Layout.pairRead, List.drop_drop] at h
  simp only [u16ReadAt, u64ReadAt]
  exact h

theorem checkedUnpack (data : Bytes) : checked data = unpack data := by
  unfold checked
  cases front : parts.read data with
  | none =>
    have short : data.length < size := by
      by_contra long
      have covers : parts.Covers :=
        Layout.coversPair Layout.coversKey <| Layout.coversPair Layout.coversKey <|
          Layout.coversPair Layout.coversKey <| Layout.coversPair Layout.coversU8 (Layout.coversBlock 20)
      have found := covers data (Nat.le_of_not_lt long)
      rw [front] at found
      cases found
    exact (unpackShort short).symm
  | some found =>
    obtain ⟨⟨venueProgram, seed, signalProvider, status, fixed⟩, rest⟩ := found
    obtain ⟨⟨count, ratio, last, period⟩, read⟩ :=
      Layout.coveredRead coversFigures (s := fixed.bytes) (Nat.le_of_eq fixed.lengthBytes.symm)
    have none : fixed.bytes.drop figures.size = [] := List.drop_eq_nil_of_le (Nat.le_of_eq fixed.lengthBytes)
    rw [none] at read
    have written : figures.write (count, ratio, last, period) = fixed.bytes := by
      simpa using figures.writeOfRead _ _ _ read
    have whole : stored.read data =
        some ((venueProgram, seed, signalProvider, status, count, ratio, last, period), rest) := by
      refine stored.readEqSome.2 ?_
      have bytes := parts.writeOfRead _ _ _ front
      change venueProgram.bytes ++ (seed.bytes ++ (signalProvider.bytes ++ (Layout.u8.write status ++
        figures.write (count, ratio, last, period)))) ++ rest = data
      rw [written]
      exact bytes
    obtain ⟨first, second, third, fourth⟩ := figuresAt read
    simp only [unpack, whole, Status.checkedOfByte, first, second, third, fourth]
    rfl

end Header

/- Key by key, each from the front of its own 32 bytes. -/
def readKeys : Nat → Bytes → Except Failure (List Key)
  | 0, _ => .ok []
  | count + 1, data => do
    let key ← readKeyAt (data.take 32) 0
    let later ← readKeys count (data.drop 32)
    return key :: later

theorem readKeysAll {count : Nat} {data rest : Bytes} {keys : List Key}
    (h : Layout.key.readAll count data = some (keys, rest)) : readKeys count data = .ok keys := by
  induction count generalizing data keys rest with
  | zero => cases h; rfl
  | succ count ih =>
    obtain ⟨⟨key, after⟩, found, h⟩ := Option.bind_eq_some_iff.1 h
    obtain ⟨⟨later, last⟩, others, same⟩ := Option.map_eq_some_iff.1 h
    cases same
    cases Layout.key.readRest found
    have front : data.take 32 = key.bytes := by
      rw [← Layout.key.writeOfRead _ _ _ found]
      exact List.take_left' key.lengthBytes
    have first : readKeyAt (data.take 32) 0 = .ok key := by
      refine keyReadAt.2 ?_
      rw [front, List.drop_zero]
      have alone := Layout.key.readWrite key []
      rw [List.append_nil] at alone
      have nothing : key.bytes.drop (0 + 32) = [] := List.drop_eq_nil_of_le (Nat.le_of_eq key.lengthBytes)
      rw [nothing]
      exact alone
    exact bindEqOk.2 ⟨key, first, bindEqOk.2 ⟨later, ih others, rfl⟩⟩

def checkedMarkets (data : Bytes) (count : Nat) : Except Failure (List Key) :=
  if data.length < 32 * count then .error (.truncatedAccount (32 * count) data.length)
  else readKeys count data

theorem checkedMarketsUnpack (data : Bytes) (count : Nat) : checkedMarkets data count = unpackMarkets data count := by
  unfold checkedMarkets
  split
  · rename_i short
    exact (State.marketsShort short).symm
  · rename_i long
    obtain ⟨markets, rest, taken⟩ := Layout.coveredReadAll Layout.coversKey
      (show count * 32 ≤ data.length by omega)
    rw [readKeysAll taken]
    simp only [unpackMarkets, taken]

/- The last check looks at the whole account and not at what the header leaves of it. -/
def State.checked (data : Bytes) : Except Failure State := do
  let header ← Header.checked data
  let marketsEnd := Header.size + 32 * header.marketCount.toNat
  let markets ← checkedMarkets (data.drop Header.size) header.marketCount.toNat
  if marketsEnd ≤ data.length then return ⟨header, markets, Asset.unpackAll (data.drop marketsEnd)⟩
  else .error (.truncatedAccount marketsEnd data.length)

theorem State.checkedUnpack (data : Bytes) : checked data = unpack data := by
  unfold checked unpack
  rw [Header.checkedUnpack]
  simp only [checkedMarketsUnpack, List.drop_drop]
  cases front : Header.unpack data with
  | error failure => rfl
  | ok header =>
    have enough := (Header.unpackAccepts data).1 ⟨header, front⟩
    have len := List.length_drop (i := Header.size) (l := data)
    change (unpackMarkets _ _ >>= fun markets => _) = (unpackMarkets _ _ >>= fun markets => _)
    by_cases short : (data.drop Header.size).length < 32 * header.marketCount.toNat
    · rw [marketsShort short]
      rfl
    · have long : Header.size + 32 * header.marketCount.toNat ≤ data.length := by omega
      simp only [if_pos long]

namespace Tracker

def checked (data : Bytes) : Except Failure Tracker :=
  if data.length < size then .error (.truncatedAccount size data.length)
  else do
    let b ← readU8At data 0
    match Side.ofByte? b with
    | none => .error .invalidAccountData
    | some side =>
      let sourceAmountPerToken ← readU64At data 1
      let pendingTargetAmount ← readU64At data 9
      let sourceTotalAmount ← readU64At data 17
      return ⟨side, sourceAmountPerToken, pendingTargetAmount, sourceTotalAmount⟩

def amounts : Layout (UInt64 × UInt64 × UInt64) := .pair .u64 <| .pair .u64 .u64

/-- The side as it is stored, and what follows it. -/
def stored : Layout (UInt8 × UInt64 × UInt64 × UInt64) := .pair .u8 amounts

theorem coversStored : stored.Covers :=
  Layout.coversPair Layout.coversU8 <| Layout.coversPair Layout.coversU64 <|
    Layout.coversPair Layout.coversU64 Layout.coversU64

theorem storedAt {data rest : Bytes} {b : UInt8} {perToken pending total : UInt64}
    (h : stored.read data = some ((b, perToken, pending, total), rest)) :
    readU8At data 0 = .ok b ∧ readU64At data 1 = .ok perToken ∧ readU64At data 9 = .ok pending ∧
      readU64At data 17 = .ok total := by
  cases stored.readRest h
  unfold stored amounts at h
  simp only [Layout.pairRead, List.drop_drop] at h
  simp only [u8ReadAt, u64ReadAt]
  exact h

/- Whether the side is known is found out before or after the numbers are read. -/
theorem layoutRead (data : Bytes) :
    layout.read data = (stored.read data).bind fun ((b, perToken, pending, total), rest) =>
      (Side.ofByte? b).map fun side => (⟨side, perToken, pending, total⟩, rest) := by
  have view : layout.read data = ((Layout.side.pair amounts).read data).map
      fun ((side, perToken, pending, total), rest) => (⟨side, perToken, pending, total⟩, rest) := rfl
  rw [view]
  simp only [stored, Layout.pair, Layout.side, Layout.filterMap]
  cases Layout.u8.read data with
  | none => rfl
  | some found =>
    obtain ⟨b, numbers⟩ := found
    cases read : amounts.read numbers <;> cases known : Side.ofByte? b <;> simp [read, known]

theorem checkedUnpack (data : Bytes) : checked data = unpack data := by
  unfold checked unpack
  split
  · rfl
  · rename_i long
    obtain ⟨⟨b, perToken, pending, total⟩, read⟩ := Layout.coveredRead coversStored (s := data)
      (show 25 ≤ data.length by unfold size at long; omega)
    obtain ⟨side, first, second, third⟩ := storedAt read
    rw [layoutRead, read, side]
    cases known : Side.ofByte? b with
    | none => simp [known, bind, Except.bind]
    | some side => simp [known, first, second, third, bind, Except.bind, pure, Except.pure]

end Tracker
end Pool

namespace Params.Create

/- Every number goes through the check of its width, those that are of that width already too. -/
def checkedPack (p : Create) : Except Failure Bytes := do
  let keys := p.seed.bytes ++ p.venueProgram.bytes ++ p.signalProvider.bytes
  let buffer ← Width.extend keys .u16 p.markets.length
  let buffer ← Width.extend buffer .u64 p.feeCollectionPeriod.toNat
  let buffer ← Width.extend buffer .u64 p.feeRatio.toNat
  p.depositAmounts.foldlM (fun buffer amount => Width.extend buffer .u64 amount.toNat)
    (buffer ++ Layout.key.writeAll p.markets)

theorem extendU16 (buffer : Bytes) (value : Nat) :
    Width.extend buffer .u16 value =
      if 65535 < value then .error (.overflow value 2)
      else .ok (buffer ++ Layout.u16.write (UInt16.ofNat value)) := by
  have limit : Width.max .u16 = 65535 := rfl
  unfold Width.extend Width.append
  rw [limit]
  by_cases large : 65535 < value
  · rw [if_pos large, if_pos large]
    rfl
  · rw [if_neg large, if_neg large]
    have same : (UInt16.ofNat value).toNat = value :=
      UInt16.toNat_ofNat_of_lt' (Nat.lt_succ_of_le (Nat.le_of_not_lt large))
    have bytes : Layout.u16.write (UInt16.ofNat value) = LittleEndian.encode 2 (UInt16.ofNat value).toNat := rfl
    rw [bytes, same]
    rfl

theorem extendU64 (buffer : Bytes) (value : UInt64) :
    Width.extend buffer .u64 value.toNat = .ok (buffer ++ Layout.u64.write value) := by
  have limit : Width.max .u64 = 2 ^ 64 - 1 := rfl
  have small := value.toNat_lt
  unfold Width.extend Width.append
  rw [limit, if_neg (by omega)]
  rfl

theorem extendAmounts (amounts : List UInt64) (buffer : Bytes) :
    amounts.foldlM (fun buffer amount => Width.extend buffer .u64 amount.toNat) buffer =
      .ok (buffer ++ Layout.u64.writeAll amounts) := by
  induction amounts generalizing buffer with
  | nil => simp [Layout.writeAll, pure, Except.pure]
  | cons amount amounts ih =>
    rw [List.foldlM_cons, extendU64]
    refine (ih _).trans ?_
    simp [Layout.writeAll]

theorem checkedPackPack (p : Create) : p.checkedPack = p.pack := by
  unfold checkedPack pack
  simp only [extendAmounts]
  simp only [extendU16, extendU64]
  split
  · rfl
  · refine congrArg Except.ok ?_
    change _ = p.seed.bytes ++ (p.venueProgram.bytes ++ (p.signalProvider.bytes ++
      (Layout.u16.write _ ++ (Layout.u64.write _ ++ Layout.u64.write _)))) ++ _ ++ _
    simp only [List.append_assoc]

end Params.Create
end TradingPool
