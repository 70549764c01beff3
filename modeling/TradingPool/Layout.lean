import TradingPool.LittleEndian

/-! Records of a fixed size. A layout writes a value as exactly `size` bytes and reads one back from the
front of a byte string, keeping what follows. Reading undoes writing, and a value read has been written
by the very bytes it was read from, so a record has one written form. Pairs, repetitions and
one-to-one changes of representation are layouts again, which is how every record below is made. -/
namespace TradingPool

structure Layout (α : Type) where
  size : Nat
  write : α → Bytes
  read : Bytes → Option (α × Bytes)
  lengthWrite : ∀ a, (write a).length = size
  readWrite : ∀ a rest, read (write a ++ rest) = some (a, rest)
  writeOfRead : ∀ s a rest, read s = some (a, rest) → write a ++ rest = s

namespace Layout

/-- Every string that is long enough holds a record. -/
def Covers {α : Type} (layout : Layout α) : Prop :=
  ∀ s, layout.size ≤ s.length → (layout.read s).isSome

theorem sizeOfRead {α : Type} (layout : Layout α) {s rest : Bytes} {a : α}
    (h : layout.read s = some (a, rest)) : layout.size + rest.length = s.length := by
  rw [← layout.writeOfRead s a rest h, List.length_append, layout.lengthWrite]

theorem readEqSome {α : Type} (layout : Layout α) {s rest : Bytes} {a : α} :
    layout.read s = some (a, rest) ↔ layout.write a ++ rest = s :=
  ⟨layout.writeOfRead s a rest, fun h => h ▸ layout.readWrite a rest⟩

theorem readRest {α : Type} (layout : Layout α) {s rest : Bytes} {a : α}
    (h : layout.read s = some (a, rest)) : rest = s.drop layout.size := by
  rw [← layout.writeOfRead s a rest h, ← layout.lengthWrite a, List.drop_left]

/- A layout reads the bytes that it writes, and no others. -/
theorem readAgain {α : Type} {layout : Layout α} {s other rest : Bytes} {a : α}
    (read : layout.read s = some (a, rest)) (same : other.take layout.size = s.take layout.size) :
    layout.read other = some (a, other.drop layout.size) := by
  have written := layout.writeOfRead _ _ _ read
  have front : s.take layout.size = layout.write a := by rw [← written, List.take_left' (layout.lengthWrite a)]
  rw [readEqSome, ← front, ← same, List.take_append_drop]

theorem coveredRead {α : Type} {layout : Layout α} (h : layout.Covers) {s : Bytes}
    (long : layout.size ≤ s.length) : ∃ a, layout.read s = some (a, s.drop layout.size) := by
  obtain ⟨⟨a, rest⟩, found⟩ := Option.isSome_iff_exists.1 (h s long)
  exact ⟨a, layout.readRest found ▸ found⟩

/-- A record that fills the whole string. -/
def decode {α : Type} (layout : Layout α) (s : Bytes) : Option α :=
  match layout.read s with
  | some (a, []) => some a
  | _ => none

theorem decodeWrite {α : Type} (layout : Layout α) (a : α) :
    layout.decode (layout.write a) = some a := by
  have h := layout.readWrite a []
  rw [List.append_nil] at h
  simp [decode, h]

theorem writeOfDecode {α : Type} (layout : Layout α) {s : Bytes} {a : α}
    (h : layout.decode s = some a) : layout.write a = s := by
  unfold decode at h
  split at h
  · next b hb =>
    cases h
    simpa using layout.writeOfRead _ _ _ hb
  · cases h

theorem decodeEqSome {α : Type} (layout : Layout α) {s : Bytes} {a : α} :
    layout.decode s = some a ↔ layout.write a = s :=
  ⟨layout.writeOfDecode, fun h => h ▸ layout.decodeWrite a⟩

def block (n : Nat) : Layout (Block n) where
  size := n
  write a := a.bytes
  read := Block.read n
  lengthWrite a := a.lengthBytes
  readWrite := Block.readAppend
  writeOfRead _ _ _ := Block.appendOfRead

theorem coversBlock (n : Nat) : (block n).Covers := by
  intro s h
  simpa [block, Block.isSomeRead] using h

def map {α β : Type} (layout : Layout α) (ahead : α → β) (back : β → α)
    (aheadBack : ∀ b, ahead (back b) = b) (backAhead : ∀ a, back (ahead a) = a) : Layout β where
  size := layout.size
  write b := layout.write (back b)
  read s := (layout.read s).map fun (a, rest) => (ahead a, rest)
  lengthWrite b := layout.lengthWrite (back b)
  readWrite b rest := by simp [layout.readWrite, aheadBack]
  writeOfRead s b rest h := by
    obtain ⟨⟨a, tail⟩, hr, he⟩ := Option.map_eq_some_iff.1 h
    cases he
    simpa [backAhead] using layout.writeOfRead _ _ _ hr

theorem coversMap {α β : Type} {layout : Layout α} (ahead : α → β) (back : β → α)
    (aheadBack : ∀ b, ahead (back b) = b) (backAhead : ∀ a, back (ahead a) = a) (h : layout.Covers) :
    (layout.map ahead back aheadBack backAhead).Covers := by
  intro s hs
  simpa [map] using h s hs

def pair {α β : Type} (first : Layout α) (second : Layout β) : Layout (α × β) where
  size := first.size + second.size
  write ab := first.write ab.1 ++ second.write ab.2
  read s := (first.read s).bind fun (a, rest) =>
    (second.read rest).map fun (b, rest) => ((a, b), rest)
  lengthWrite ab := by simp [first.lengthWrite, second.lengthWrite]
  readWrite ab rest := by simp [List.append_assoc, first.readWrite, second.readWrite]
  writeOfRead s ab rest h := by
    obtain ⟨⟨a, mid⟩, ha, h⟩ := Option.bind_eq_some_iff.1 h
    obtain ⟨⟨b, tail⟩, hb, he⟩ := Option.map_eq_some_iff.1 h
    cases he
    rw [List.append_assoc, second.writeOfRead _ _ _ hb, first.writeOfRead _ _ _ ha]

theorem coversPair {α β : Type} {first : Layout α} {second : Layout β}
    (hfirst : first.Covers) (hsecond : second.Covers) : (first.pair second).Covers := by
  intro s hs
  obtain ⟨⟨a, mid⟩, ha⟩ := Option.isSome_iff_exists.1
    (hfirst s (Nat.le_trans (Nat.le_add_right _ _) hs))
  have hlen := first.sizeOfRead ha
  have hsize : first.size + second.size ≤ s.length := hs
  simpa [pair, ha] using hsecond mid (by omega)

/- The second part of a pair stands at a fixed distance behind the first, so every field of a record
has an offset of its own. -/
theorem pairRead {α β : Type} (first : Layout α) (second : Layout β) {s rest : Bytes} {a : α} {b : β} :
    (first.pair second).read s = some ((a, b), rest) ↔
      first.read s = some (a, s.drop first.size) ∧
        second.read (s.drop first.size) = some (b, rest) := by
  constructor
  · intro h
    obtain ⟨⟨c, mid⟩, found, h⟩ := Option.bind_eq_some_iff.1 h
    obtain ⟨⟨d, tail⟩, next, same⟩ := Option.map_eq_some_iff.1 h
    cases same
    cases first.readRest found
    exact ⟨found, next⟩
  · intro h
    obtain ⟨found, next⟩ := h
    simp [pair, found, next]

/-- A code for some of the byte strings of another layout, one string for each value. -/
def filterMap {α β : Type} (layout : Layout α) (ahead : α → Option β) (back : β → α)
    (aheadBack : ∀ b, ahead (back b) = some b) (backAhead : ∀ a b, ahead a = some b → back b = a) :
    Layout β where
  size := layout.size
  write b := layout.write (back b)
  read s := (layout.read s).bind fun (a, rest) => (ahead a).map fun b => (b, rest)
  lengthWrite b := layout.lengthWrite (back b)
  readWrite b rest := by simp [layout.readWrite, aheadBack]
  writeOfRead s b rest h := by
    obtain ⟨⟨a, tail⟩, hr, h⟩ := Option.bind_eq_some_iff.1 h
    obtain ⟨c, hc, he⟩ := Option.map_eq_some_iff.1 h
    cases he
    simpa [backAhead _ _ hc] using layout.writeOfRead _ _ _ hr

def writeAll {α : Type} (layout : Layout α) (as : List α) : Bytes :=
  as.flatMap layout.write

def readAll {α : Type} (layout : Layout α) : Nat → Bytes → Option (List α × Bytes)
  | 0, s => some ([], s)
  | n + 1, s => (layout.read s).bind fun (a, rest) =>
      (layout.readAll n rest).map fun (as, rest) => (a :: as, rest)

theorem lengthWriteAll {α : Type} (layout : Layout α) (as : List α) :
    (layout.writeAll as).length = as.length * layout.size := by
  induction as with
  | nil => simp [writeAll]
  | cons a as ih =>
    simp only [writeAll, List.flatMap_cons, List.length_append, layout.lengthWrite,
      List.length_cons, Nat.succ_mul] at ih ⊢
    omega

theorem readAllWriteAll {α : Type} (layout : Layout α) (as : List α) (rest : Bytes) :
    layout.readAll as.length (layout.writeAll as ++ rest) = some (as, rest) := by
  induction as with
  | nil => rfl
  | cons a as ih =>
    simp only [writeAll, List.flatMap_cons, List.append_assoc] at ih ⊢
    simp [readAll, layout.readWrite, ih]

theorem writeAllOfReadAll {α : Type} (layout : Layout α) {n : Nat} {s rest : Bytes} {as : List α}
    (h : layout.readAll n s = some (as, rest)) :
    as.length = n ∧ layout.writeAll as ++ rest = s := by
  induction n generalizing s rest as with
  | zero => cases h; exact ⟨rfl, rfl⟩
  | succ n ih =>
    obtain ⟨⟨a, mid⟩, ha, h⟩ := Option.bind_eq_some_iff.1 h
    obtain ⟨⟨tail, last⟩, ht, he⟩ := Option.map_eq_some_iff.1 h
    cases he
    obtain ⟨hlen, hbytes⟩ := ih ht
    refine ⟨by simp [hlen], ?_⟩
    rw [← layout.writeOfRead _ _ _ ha, ← hbytes]
    simp [writeAll, List.append_assoc]

theorem isSomeReadAll {α : Type} {layout : Layout α} (h : layout.Covers) {n : Nat} {s : Bytes}
    (hs : n * layout.size ≤ s.length) : (layout.readAll n s).isSome := by
  induction n generalizing s with
  | zero => rfl
  | succ n ih =>
    rw [Nat.succ_mul] at hs
    obtain ⟨⟨a, mid⟩, ha⟩ := Option.isSome_iff_exists.1 (h s (by omega))
    have hlen := layout.sizeOfRead ha
    simpa [readAll, ha] using ih (s := mid) (by omega)

theorem readAllRest {α : Type} (layout : Layout α) {n : Nat} {s rest : Bytes} {as : List α}
    (h : layout.readAll n s = some (as, rest)) :
    n * layout.size + rest.length = s.length ∧ rest = s.drop (n * layout.size) := by
  obtain ⟨count, bytes⟩ := layout.writeAllOfReadAll h
  have len : (layout.writeAll as).length = n * layout.size := by rw [layout.lengthWriteAll, count]
  rw [← bytes, ← len, List.length_append, List.drop_left]
  exact ⟨rfl, rfl⟩

theorem coveredReadAll {α : Type} {layout : Layout α} (h : layout.Covers) {n : Nat} {s : Bytes}
    (long : n * layout.size ≤ s.length) : ∃ as rest, layout.readAll n s = some (as, rest) := by
  obtain ⟨⟨as, rest⟩, found⟩ := Option.isSome_iff_exists.1 (isSomeReadAll h long)
  exact ⟨as, rest, found⟩

def table {α : Type} (layout : Layout α) (n : Nat) : Layout (Vector α n) where
  size := n * layout.size
  write v := layout.writeAll v.toList
  read s :=
    match h : layout.readAll n s with
    | some (as, rest) => some (⟨as.toArray, by simpa using (layout.writeAllOfReadAll h).1⟩, rest)
    | none => none
  lengthWrite v := by simp [lengthWriteAll]
  readWrite v rest := by
    have h := layout.readAllWriteAll v.toList rest
    rw [Vector.length_toList] at h
    split
    · next as tail heq =>
      rw [heq] at h
      cases h
      exact congrArg some (Prod.ext (Vector.toArray_inj.1 Array.toArray_toList) rfl)
    · next heq => rw [heq] at h; cases h
  writeOfRead s v rest h := by
    split at h
    · next as tail heq =>
      cases h
      simpa using (layout.writeAllOfReadAll heq).2
    · cases h

theorem coversTable {α : Type} {layout : Layout α} (h : layout.Covers) (n : Nat) :
    (layout.table n).Covers := by
  intro s hs
  have := isSomeReadAll h hs
  simp only [table]
  split
  · rfl
  · next heq => rw [heq] at this; cases this

def bits (width : Nat) : Layout (BitVec (8 * width)) :=
  (block width).map (fun b => BitVec.ofNat _ (LittleEndian.decode b.bytes))
    (fun v => ⟨LittleEndian.encode width v.toNat, LittleEndian.lengthEncode _ _⟩)
    (by
      intro v
      apply BitVec.eq_of_toNat_eq
      have hv : v.toNat < LittleEndian.capacity width := by
        rw [LittleEndian.capacityEqShiftLeft, Nat.one_shiftLeft]
        exact v.isLt
      simp [LittleEndian.decodeEncode, Nat.mod_eq_of_lt hv])
    (by
      intro b
      apply Block.ext
      have hb : LittleEndian.decode b.bytes < LittleEndian.capacity width := by
        simpa only [b.lengthBytes] using LittleEndian.decodeLt b.bytes
      rw [LittleEndian.capacityEqShiftLeft, Nat.one_shiftLeft] at hb
      have hround := LittleEndian.encodeDecode b.bytes
      rw [b.lengthBytes] at hround
      simpa only [BitVec.toNat_ofNat, Nat.mod_eq_of_lt hb] using hround)

theorem coversBits (width : Nat) : (bits width).Covers :=
  coversMap _ _ _ _ (coversBlock width)

theorem decodeBits {width : Nat} {s rest : Bytes} {v : BitVec (8 * width)}
    (h : (bits width).read s = some (v, rest)) : LittleEndian.decode (s.take width) = v.toNat := by
  have bytes : LittleEndian.encode width v.toNat ++ rest = s := (bits width).writeOfRead s v rest h
  have front : s.take width = LittleEndian.encode width v.toNat := by
    rw [← bytes, List.take_left' (LittleEndian.lengthEncode _ _)]
  rw [front, LittleEndian.decodeEncodeBits]

def key : Layout Key := block 32

def u8 : Layout UInt8 := (bits 1).map UInt8.ofBitVec UInt8.toBitVec (fun _ => rfl) (fun _ => rfl)
def u16 : Layout UInt16 :=
  (bits 2).map UInt16.ofBitVec UInt16.toBitVec (fun _ => rfl) (fun _ => rfl)
def u32 : Layout UInt32 :=
  (bits 4).map UInt32.ofBitVec UInt32.toBitVec (fun _ => rfl) (fun _ => rfl)
def u64 : Layout UInt64 :=
  (bits 8).map UInt64.ofBitVec UInt64.toBitVec (fun _ => rfl) (fun _ => rfl)
def u128 : Layout (BitVec 128) := bits 16

theorem decodeU16 {s rest : Bytes} {v : UInt16} (h : u16.read s = some (v, rest)) :
    LittleEndian.decode (s.take 2) = v.toNat := by
  obtain ⟨⟨b, tail⟩, found, same⟩ := Option.map_eq_some_iff.1 h
  cases same
  exact decodeBits found

theorem coversKey : key.Covers := coversBlock 32
theorem coversU8 : u8.Covers := coversMap _ _ _ _ (coversBits 1)
theorem coversU16 : u16.Covers := coversMap _ _ _ _ (coversBits 2)
theorem coversU64 : u64.Covers := coversMap _ _ _ _ (coversBits 8)
theorem coversU128 : u128.Covers := coversBits 16

end Layout

end TradingPool
