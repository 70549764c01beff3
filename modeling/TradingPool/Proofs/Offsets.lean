import TradingPool.Width
import TradingPool.Layout

/-! Fields read at an offset. What is read there is what a layout reads from the bytes that are left, so a
record may be taken apart by absolute offsets or one field after the other. -/
namespace TradingPool

open LittleEndian (decodeAt)

variable {s : Bytes} {offset : Nat}

theorem sliceAtEqOk {slice : Bytes} {size : Nat} :
    sliceAt s offset size = .ok slice ↔ offset + size ≤ s.length ∧ (s.drop offset).take size = slice := by
  unfold sliceAt
  split
  · rename_i long
    simp [long]
  · rename_i short
    simp [short]

theorem readNatAtEqOk {width : Width} {value : Nat} :
    readNatAt width s offset = .ok value ↔
      offset + width.size ≤ s.length ∧ decodeAt width.size offset s = value := by
  unfold readNatAt
  simp only [bindEqOk, sliceAtEqOk]
  refine ⟨fun h => ?_, fun h => ?_⟩
  · obtain ⟨slice, ⟨long, rfl⟩, h⟩ := h
    have len : ((s.drop offset).take width.size).length = width.size := by
      rw [List.length_take, List.length_drop]
      omega
    rw [Width.decode, len, if_pos (Nat.le_refl _), List.take_take, Nat.min_self] at h
    exact ⟨long, Except.ok.inj h⟩
  · obtain ⟨long, rfl⟩ := h
    have len : ((s.drop offset).take width.size).length = width.size := by
      rw [List.length_take, List.length_drop]
      omega
    refine ⟨_, ⟨long, rfl⟩, ?_⟩
    rw [Width.decode, len, if_pos (Nat.le_refl _), List.take_take, Nat.min_self]
    rfl

theorem sizePositive (width : Width) : 0 < width.size := by
  cases width <;> exact Nat.succ_pos _

theorem bitsReadAt {width : Width} {v : BitVec (8 * width.size)} :
    (readNatAt width s offset).map (BitVec.ofNat (8 * width.size)) = .ok v ↔
      (Layout.bits width.size).read (s.drop offset) = some (v, s.drop (offset + width.size)) := by
  simp only [mapEqOk, readNatAtEqOk]
  refine ⟨fun h => ?_, fun h => ?_⟩
  · obtain ⟨_, ⟨long, rfl⟩, rfl⟩ := h
    obtain ⟨v, read⟩ := Layout.coveredRead (Layout.coversBits width.size) (s := s.drop offset)
      (by rw [List.length_drop]; change width.size ≤ _; omega)
    have value : decodeAt width.size offset s = v.toNat := Layout.decodeBits read
    have left := (Layout.bits width.size).readRest read
    rw [left, List.drop_drop] at read
    rw [value, BitVec.ofNat_toNat, BitVec.setWidth_eq]
    exact read
  · have len := (Layout.bits width.size).sizeOfRead h
    have value : decodeAt width.size offset s = v.toNat := Layout.decodeBits h
    have some_bytes := sizePositive width
    rw [List.length_drop, List.length_drop] at len
    change width.size + _ = _ at len
    refine ⟨_, ⟨by omega, rfl⟩, ?_⟩
    rw [value, BitVec.ofNat_toNat, BitVec.setWidth_eq]

theorem mapReadAt {α β : Type} {layout : Layout α} (ahead : α → β) (back : β → α)
    (aheadBack : ∀ b, ahead (back b) = b) (backAhead : ∀ a, back (ahead a) = a) {found : Except Failure α}
    {rest : Bytes} (h : ∀ a, found = .ok a ↔ layout.read s = some (a, rest)) (b : β) :
    found.map ahead = .ok b ↔ (layout.map ahead back aheadBack backAhead).read s = some (b, rest) := by
  simp only [mapEqOk, h, Layout.map, Option.map_eq_some_iff, Prod.exists, Prod.mk.injEq]
  refine ⟨fun h => ?_, fun h => ?_⟩
  · obtain ⟨a, read, same⟩ := h
    exact ⟨a, rest, read, same, rfl⟩
  · obtain ⟨a, _, read, same, rfl⟩ := h
    exact ⟨a, read, same⟩

theorem Layout.writeU8 (b : UInt8) : u8.write b = [b] := by
  change [UInt8.ofNat b.toNat] = [b]
  rw [UInt8.ofNat_toNat]

theorem Layout.readU8 {s rest : Bytes} {b : UInt8} (h : u8.read s = some (b, rest)) : s = b :: rest := by
  rw [← u8.writeOfRead _ _ _ h, writeU8]
  rfl

theorem u8ReadAt {v : UInt8} :
    readU8At s offset = .ok v ↔ Layout.u8.read (s.drop offset) = some (v, s.drop (offset + 1)) := by
  have views : readU8At s offset = ((readNatAt .u8 s offset).map (BitVec.ofNat 8)).map UInt8.ofBitVec := by
    unfold readU8At
    cases readNatAt .u8 s offset <;> rfl
  rw [views]
  exact mapReadAt _ UInt8.toBitVec (fun _ => rfl) (fun _ => rfl) (fun a => @bitsReadAt s offset .u8 a) v

theorem u16ReadAt {v : UInt16} :
    readU16At s offset = .ok v ↔ Layout.u16.read (s.drop offset) = some (v, s.drop (offset + 2)) := by
  have views : readU16At s offset =
      ((readNatAt .u16 s offset).map (BitVec.ofNat 16)).map UInt16.ofBitVec := by
    unfold readU16At
    cases readNatAt .u16 s offset <;> rfl
  rw [views]
  exact mapReadAt _ UInt16.toBitVec (fun _ => rfl) (fun _ => rfl) (fun a => @bitsReadAt s offset .u16 a) v

theorem u64ReadAt {v : UInt64} :
    readU64At s offset = .ok v ↔ Layout.u64.read (s.drop offset) = some (v, s.drop (offset + 8)) := by
  have views : readU64At s offset =
      ((readNatAt .u64 s offset).map (BitVec.ofNat 64)).map UInt64.ofBitVec := by
    unfold readU64At
    cases readNatAt .u64 s offset <;> rfl
  rw [views]
  exact mapReadAt _ UInt64.toBitVec (fun _ => rfl) (fun _ => rfl) (fun a => @bitsReadAt s offset .u64 a) v

theorem keyReadAt {key : Key} :
    readKeyAt s offset = .ok key ↔ Layout.key.read (s.drop offset) = some (key, s.drop (offset + 32)) := by
  unfold readKeyAt
  change _ ↔ Block.read 32 (s.drop offset) = _
  unfold Block.read
  have long : ((s.drop offset).take 32).length = 32 ↔ offset + 32 ≤ s.length := by
    rw [List.length_take, List.length_drop]
    omega
  by_cases enough : offset + 32 ≤ s.length
  · rw [dif_pos enough, dif_pos (long.2 enough), List.drop_drop]
    simp
  · rw [dif_neg enough, dif_neg (mt long.1 enough)]
    simp

end TradingPool
