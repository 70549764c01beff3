import TradingPool.Proofs.PoolAccount

/-! A header written over the bytes that it was read from. Many status bytes have one meaning and one of them is written
for it, so a second writing changes nothing. All other bytes stay as they are, those behind the header included. -/
namespace TradingPool.Pool.Header

variable {header : Header} {data target packed : Bytes}

theorem packIntoEqOk : header.packInto target = .ok packed ↔
    size ≤ target.length ∧ ∃ bytes, header.pack = .ok bytes ∧ bytes ++ target.drop size = packed := by
  unfold packInto
  by_cases short : target.length < size
  · simp [short]
  · rw [if_neg short, bindEqOk]
    have long := Nat.le_of_not_lt short
    simp [long, pure, Except.pure]

/- The status stands behind the three keys. -/
theorem statusWritten (header : Header) : ∃ front back, front.length = 96 ∧
    ∀ status, stored.write (header.fields status) = front ++ status :: back := by
  refine ⟨header.venueProgram.bytes ++ header.seed.bytes ++ header.signalProvider.bytes,
    Layout.u16.write header.marketCount ++ (Layout.u16.write header.feeRatio ++
      (Layout.u64.write header.lastFeeCollection ++ Layout.u64.write header.feeCollectionPeriod)), ?_, fun status => ?_⟩
  · simp [Block.lengthBytes]
  · simp only [stored, fields, Layout.pair, Layout.writeU8, List.append_assoc]
    rfl

/- What is written over a header is the same header; of its bytes only the status may change. -/
theorem packAgain (read : unpack data = .ok header) : ∃ status,
    data[96]? = some status ∧ header.packInto data = .ok (data.set 96 (Status.normal status)) := by
  obtain ⟨status, fields, same⟩ := unpackEqOk.1 read
  obtain ⟨front, back, before, written⟩ := header.statusWritten
  have parts := stored.writeOfRead _ _ _ fields
  have long := (unpackAccepts data).1 ⟨header, read⟩
  rw [written, List.append_assoc, List.cons_append] at parts
  have byte := Status.toByteOfByte status
  rw [same] at byte
  refine ⟨status, ?_, packIntoEqOk.2 ⟨long, _, packEqOk.2 ⟨_, byte, written _⟩, ?_⟩⟩
  · rw [← parts, ← before]
    simp
  · have changed : (front ++ status :: (back ++ data.drop size)).set 96 (Status.normal status) =
        front ++ Status.normal status :: (back ++ data.drop size) := by
      rw [← before, List.set_append_right _ _ (Nat.le_refl _), Nat.sub_self, List.set_cons_zero]
    rw [parts] at changed
    rw [changed, List.append_assoc, List.cons_append]

theorem packedReads (written : header.packInto target = .ok packed) :
    packed.length = target.length ∧ packed.drop size = target.drop size ∧ unpack packed = .ok header := by
  obtain ⟨long, bytes, front, rfl⟩ := packIntoEqOk.1 written
  obtain ⟨read, left⟩ := unpackPack front (target.drop size)
  refine ⟨?_, left, read⟩
  rw [List.length_append, lengthPack front, List.length_drop]
  omega

theorem packsInto : (∃ packed, header.packInto target = .ok packed) ↔
    size ≤ target.length ∧ header.status.pendingOrders ≤ Status.maxPendingOrders := by
  constructor
  · rintro ⟨packed, written⟩
    obtain ⟨long, bytes, front, _⟩ := packIntoEqOk.1 written
    obtain ⟨status, byte, _⟩ := packEqOk.1 front
    exact ⟨long, Status.boundedOfToByte byte⟩
  · rintro ⟨long, few⟩
    obtain ⟨bytes, front⟩ := writable few
    exact ⟨_, packIntoEqOk.2 ⟨long, bytes, front, rfl⟩⟩

theorem headerNormalForm :
    (∀ data : Bytes, 117 ≤ data.length → ∃ header status packed,
      unpack data = .ok header ∧ data[96]? = some status ∧ header.packInto data = .ok packed ∧
      packed.length = data.length ∧ (∀ i, i ≠ 96 → packed[i]? = data[i]?) ∧
      (packed = data ↔ status = 0 ∨ status = 0x3f ∨ status = 0x80 ∨ status &&& 0x40 ≠ 0) ∧
      unpack packed = .ok header) ∧
    ∀ (header : Header) (target : Bytes),
      ((∃ packed, header.packInto target = .ok packed) ↔
        117 ≤ target.length ∧ header.status.pendingOrders ≤ 64) ∧
      ∀ packed, header.packInto target = .ok packed →
        packed.drop 117 = target.drop 117 ∧ unpack packed = .ok header := by
  refine ⟨fun data long => ?_, fun header target => ⟨packsInto, fun packed written => (packedReads written).2⟩⟩
  obtain ⟨header, read⟩ := (unpackAccepts data).2 long
  obtain ⟨status, stands, written⟩ := packAgain read
  obtain ⟨length, _, again⟩ := packedReads written
  refine ⟨header, status, _, read, stands, written, length, fun i other => ?_, ?_, again⟩
  · exact List.getElem?_set_ne other.symm
  · obtain ⟨below, value⟩ := List.getElem?_eq_some_iff.1 stands
    rw [← Status.normalSame]
    constructor
    · intro same
      rw [← Option.some_inj, ← stands, ← same, List.getElem?_set_self below]
    · intro same
      rw [same, ← value, List.set_getElem_self]

/- A status byte whose low bits mean nothing, at the front of a longer account. -/
theorem headerNormalFormLocked :
    let data : Bytes := List.replicate 96 7 ++ 0x95 :: List.replicate 30 1
    ∃ header packed, unpack data = .ok header ∧ header.packInto data = .ok packed ∧ packed ≠ data ∧
      packed.drop 117 = data.drop 117 ∧ unpack packed = .ok header := by
  intro data
  have long : 117 ≤ data.length := by decide +kernel
  have byte : data[96]? = some 0x95 := by decide +kernel
  obtain ⟨header, status, packed, read, stands, written, _, _, same, _⟩ := headerNormalForm.1 data long
  cases Option.some.inj (stands.symm.trans byte)
  obtain ⟨behind, again⟩ := (headerNormalForm.2 header data).2 packed written
  exact ⟨header, packed, read, written, mt same.1 (by decide), behind, again⟩

end TradingPool.Pool.Header
