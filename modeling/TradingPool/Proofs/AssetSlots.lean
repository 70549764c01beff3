import TradingPool.Proofs.PoolIndex

/-! The index of an asset, found in the bytes of an account. Free slots are not counted, so the index of a mint is the
number of held slots before the first that holds it. Free slots may come and go anywhere and bytes may be added at
the end, and the assets that were there keep their indices. -/
namespace TradingPool.Pool

namespace FirstAt

variable {keys : List Key} {key head : Key} {i : Nat} {held : Key → Bool}

theorem atHead : FirstAt (key :: keys) key i ↔ i = 0 := by
  constructor
  · intro h
    by_contra later
    exact h.2 0 (Nat.pos_of_ne_zero later) rfl
  · rintro rfl
    exact ⟨rfl, fun _ before => absurd before (Nat.not_lt_zero _)⟩

theorem behind (other : head ≠ key) : FirstAt (head :: keys) key i ↔ ∃ j, FirstAt keys key j ∧ i = j + 1 := by
  constructor
  · intro h
    cases i with
    | zero => exact absurd (Option.some.inj h.1) other
    | succ j => exact ⟨j, ⟨h.1, fun k before => h.2 (k + 1) (Nat.succ_lt_succ before)⟩, rfl⟩
  · rintro ⟨j, h, rfl⟩
    refine ⟨h.1, fun k before => ?_⟩
    cases k with
    | zero => simpa using other
    | succ k => exact h.2 k (Nat.lt_of_succ_lt_succ before)

/- A key of the kept ones stands where it stood, less those before it that were dropped. -/
theorem idxOfKept : (keys.filter held).idxOf? key = some i ↔
    held key = true ∧ ∃ j, FirstAt keys key j ∧ i = (keys.take j).countP held := by
  induction keys generalizing i with
  | nil => simp [FirstAt]
  | cons head keys ih =>
    by_cases same : head = key
    · subst same
      by_cases kept : held head = true
      · simp [kept, List.idxOf?_cons, atHead, eq_comm]
      · simp [kept, ih]
    · -- Another key in front moves every place by one, and the rank only if it is kept.
      have step (j : Nat) : ((head :: keys).take (j + 1)).countP held =
          (keys.take j).countP held + if held head = true then 1 else 0 := by
        rw [List.take_succ_cons, List.countP_cons]
      by_cases kept : held head = true
      · simp only [List.filter_cons_of_pos kept, List.idxOf?_cons, beq_eq_false_iff_ne.2 same, Bool.false_eq_true,
          if_false, Option.map_eq_some_iff, ih, behind same]
        constructor
        · rintro ⟨_, ⟨inside, j, first, rfl⟩, rfl⟩
          exact ⟨inside, _, ⟨j, first, rfl⟩, by rw [step, if_pos kept]⟩
        · rintro ⟨inside, _, ⟨j, first, rfl⟩, rfl⟩
          exact ⟨_, ⟨inside, j, first, rfl⟩, by rw [step, if_pos kept]⟩
      · simp only [List.filter_cons_of_neg kept, ih, behind same]
        constructor
        · rintro ⟨inside, j, first, rfl⟩
          exact ⟨inside, _, ⟨j, first, rfl⟩, by rw [step, if_neg kept, Nat.add_zero]⟩
        · rintro ⟨inside, _, ⟨j, first, rfl⟩, rfl⟩
          exact ⟨inside, j, first, by rw [step, if_neg kept, Nat.add_zero]⟩

end FirstAt

namespace Asset

theorem slotsParts (data : Bytes) : ∃ tail, tail.length < size ∧ layout.writeAll (slots data) ++ tail = data := by
  obtain ⟨assets, tail, taken⟩ := Layout.coveredReadAll coversLayout (Nat.div_mul_le_self data.length size)
  have left := (layout.readAllRest taken).1
  have found : slots data = assets := by simp only [slots, taken]
  refine ⟨tail, ?_, found ▸ (layout.writeAllOfReadAll taken).2⟩
  rw [sizeLayout] at left
  have short := Nat.mod_lt data.length (show 0 < size by decide)
  have cut := Nat.div_add_mod' data.length size
  omega

theorem slotsBehind (assets : List Asset) (data : Bytes) :
    slots (layout.writeAll assets ++ data) = assets ++ slots data := by
  obtain ⟨tail, short, whole⟩ := slotsParts data
  have bytes : layout.writeAll (assets ++ slots data) ++ tail = layout.writeAll assets ++ data := by
    rw [Layout.writeAll, List.flatMap_append, List.append_assoc]
    exact congrArg _ whole
  rw [← bytes]
  exact slotsWritten _ tail short

def mintAt? (data : Bytes) (slot : Nat) : Option Key :=
  if size * (slot + 1) ≤ data.length then Block.ofBytes? 32 ((data.drop (size * slot)).take 32) else none

theorem mintFront (asset : Asset) (rest : Bytes) : mintAt? (layout.write asset ++ rest) 0 = some asset.mint := by
  have long : size * (0 + 1) ≤ (layout.write asset ++ rest).length := by
    rw [List.length_append, layout.lengthWrite, sizeLayout]
    omega
  have front : (layout.write asset ++ rest).take 32 = asset.mint.bytes := by
    change (asset.mint.bytes ++ Layout.u64.write asset.amount ++ rest).take 32 = _
    rw [List.append_assoc, List.take_left' asset.mint.lengthBytes]
  rw [mintAt?, if_pos long, Nat.mul_zero, List.drop_zero, front, Block.ofBytes?, dif_pos asset.mint.lengthBytes]

theorem mintPast (asset : Asset) (rest : Bytes) (slot : Nat) :
    mintAt? (layout.write asset ++ rest) (slot + 1) = mintAt? rest slot := by
  have front : (layout.write asset).length = size := layout.lengthWrite asset
  have place : size * (slot + 1) = size + size * slot := by rw [Nat.mul_succ, Nat.add_comm]
  have long : size * (slot + 1 + 1) ≤ (layout.write asset ++ rest).length ↔ size * (slot + 1) ≤ rest.length := by
    rw [List.length_append, front, Nat.mul_succ size (slot + 1)]
    omega
  simp only [mintAt?, long]
  rw [place, ← List.drop_drop, List.drop_left' front]

theorem mintWritten (assets : List Asset) {tail : Bytes} (short : tail.length < size) (slot : Nat) :
    mintAt? (layout.writeAll assets ++ tail) slot = (assets.map mint)[slot]? := by
  induction assets generalizing slot with
  | nil =>
    have cut : ¬ size * (slot + 1) ≤ tail.length := by
      rw [Nat.mul_succ]
      omega
    simp [mintAt?, Layout.writeAll, cut]
  | cons asset assets ih =>
    rw [Layout.writeAll, List.flatMap_cons, List.append_assoc]
    cases slot with
    | zero => exact mintFront asset _
    | succ slot => exact (mintPast asset _ slot).trans (ih slot)

theorem mintStored (data : Bytes) (slot : Nat) : mintAt? data slot = ((slots data).map mint)[slot]? := by
  obtain ⟨tail, short, whole⟩ := slotsParts data
  have written := mintWritten (slots data) short slot
  rwa [whole] at written

theorem unpackAllBehind (assets : List Asset) (data : Bytes) :
    unpackAll (layout.writeAll assets ++ data) = assets.filter isInitialized ++ unpackAll data := by
  rw [unpackAll, slotsBehind, List.filter_append]
  rfl

theorem wholeSlots {data : Bytes} {count : Nat} (whole : data.length = size * count) :
    layout.writeAll (slots data) = data := by
  obtain ⟨tail, short, parts⟩ := slotsParts data
  have lengths := congrArg List.length parts
  rw [List.length_append, layout.lengthWriteAll, sizeLayout, whole] at lengths
  have none : tail = [] := by
    refine List.eq_nil_of_length_eq_zero ?_
    unfold size at lengths short
    omega
  rwa [none, List.append_nil] at parts

theorem freeSkipped {front : Bytes} {slot : Nat} (whole : front.length = size * slot) {asset : Asset}
    (free : asset.mint = .zero 32) (rest : Bytes) :
    unpackAll (front ++ (layout.write asset ++ rest)) = unpackAll (front ++ rest) := by
  have one : layout.write asset = layout.writeAll [asset] := by simp [Layout.writeAll]
  rw [← wholeSlots whole, unpackAllBehind, unpackAllBehind, one, unpackAllBehind]
  simp [isInitialized, free]

theorem slotWithin {data : Bytes} {slot : Nat} {key : Key} (stands : mintAt? data slot = some key) :
    size * (slot + 1) ≤ data.length := by
  by_contra short
  rw [mintAt?, if_neg short] at stands
  cases stands

theorem slotRead {data : Bytes} {slot : Nat} {key : Key} (stands : mintAt? data slot = some key) : ∃ asset,
    asset.mint = key ∧ data.drop (size * slot) = layout.write asset ++ data.drop (size * (slot + 1)) := by
  have room := slotWithin stands
  have long : size * (0 + 1) ≤ (data.drop (size * slot)).length := by
    rw [List.length_drop]
    rw [Nat.mul_succ] at room
    omega
  obtain ⟨asset, read⟩ := Layout.coveredRead coversLayout (Nat.le_trans (Nat.le_of_eq sizeLayout) long)
  have parts := layout.writeOfRead _ _ _ read
  refine ⟨asset, ?_, ?_⟩
  · have front := mintFront asset ((data.drop (size * slot)).drop layout.size)
    rw [parts, mintAt?, if_pos long, Nat.mul_zero, List.drop_zero] at front
    rw [mintAt?, if_pos room] at stands
    exact Option.some.inj (front.symm.trans stands)
  · rw [← parts, List.drop_drop]
    rfl

end Asset

/-- Where the slots of an account start: behind the header and the markets. -/
def slotsStart (data : Bytes) : Nat := Header.size + 32 * LittleEndian.decodeAt 2 97 data

def slotMint? (data : Bytes) (slot : Nat) : Option Key := Asset.mintAt? (data.drop (slotsStart data)) slot

/-- How many of the slots before this one are held. -/
def heldBefore (data : Bytes) (slot : Nat) : Nat :=
  (List.range slot).countP fun earlier => slotMint? data earlier ≠ some (.zero 32)

structure FirstSlot (data : Bytes) (mint : Key) (slot : Nat) : Prop where
  holds : slotMint? data slot = some mint
  first : ∀ earlier < slot, slotMint? data earlier ≠ some mint

namespace State

variable {data : Bytes} {state : State} {mint : Key} {i slot : Nat}

theorem slotMints (data : Bytes) (slot : Nat) : slotMint? data slot = ((accountSlots data).map Asset.mint)[slot]? :=
  Asset.mintStored _ slot

theorem heldMints (read : unpack data = .ok state) :
    state.mints = ((accountSlots data).map Asset.mint).filter fun mint => mint ≠ .zero 32 := by
  rw [mints, heldSlots read, List.filter_map]
  rfl

theorem firstSlot : FirstSlot data mint slot ↔ FirstAt ((accountSlots data).map Asset.mint) mint slot := by
  constructor
  · intro h
    exact ⟨slotMints data slot ▸ h.holds, fun earlier before => slotMints data earlier ▸ h.first earlier before⟩
  · intro h
    exact ⟨slotMints data slot ▸ h.1, fun earlier before => slotMints data earlier ▸ h.2 earlier before⟩

/- Up to a slot that exists, counting slots is counting list items. -/
theorem heldCounted (within : slot ≤ (accountSlots data).length) :
    heldBefore data slot = (((accountSlots data).map Asset.mint).take slot).countP fun mint => mint ≠ .zero 32 := by
  induction slot with
  | zero => rfl
  | succ slot ih =>
    have below : slot < ((accountSlots data).map Asset.mint).length := by rw [List.length_map]; exact within
    have stands := List.getElem?_eq_getElem below
    have last := (slotMints data slot).trans stands
    have counted := ih (Nat.le_of_succ_le within)
    unfold heldBefore at counted ⊢
    rw [List.range_succ, List.countP_append, counted, List.take_add_one, stands, List.countP_append]
    simp [last]

theorem assetIndexEqSome (read : unpack data = .ok state) :
    state.assetIndex? mint = some i ↔
      mint ≠ .zero 32 ∧ ∃ slot, FirstSlot data mint slot ∧ i = heldBefore data slot := by
  rw [assetIndex?, heldMints read, FirstAt.idxOfKept]
  simp only [decide_eq_true_eq]
  refine and_congr_right fun _ => exists_congr fun slot => ?_
  rw [firstSlot]
  refine and_congr_right fun first => ?_
  have within := Nat.le_of_lt first.below
  rw [List.length_map] at within
  rw [heldCounted within]

theorem assetIndexEqNone (read : unpack data = .ok state) :
    state.assetIndex? mint = none ↔ mint = .zero 32 ∨ ∀ slot, slotMint? data slot ≠ some mint := by
  rw [assetIndex?, heldMints read, List.idxOf?_eq_none_iff, List.mem_filter, List.mem_iff_getElem?]
  simp only [← slotMints, decide_eq_true_eq, not_and, not_not]
  constructor
  · intro h
    by_cases free : mint = .zero 32
    · exact .inl free
    · exact .inr fun slot stands => free (h ⟨slot, stands⟩)
  · rintro (free | absent) ⟨slot, stands⟩
    · exact free
    · exact absurd stands (absent slot)

/- What stands before the slots decides all but the assets. -/
theorem slotsReplaced (read : unpack data = .ok state) (slots : Bytes) :
    unpack (data.take (slotsStart data) ++ slots) = .ok { state with assets := Asset.unpackAll slots } := by
  obtain ⟨front, rest, taken, _⟩ := unpackEqOk.1 read
  obtain ⟨status, fields, same⟩ := Header.unpackEqOk.1 front
  have long := ((unpackAccepts data).1 ⟨state, read⟩).1
  obtain ⟨count, markets⟩ := Layout.key.writeAllOfReadAll taken
  have start : data.take (slotsStart data) = data.take Header.size ++ Layout.key.writeAll state.markets := by
    have size : (Layout.key.writeAll state.markets).length = 32 * LittleEndian.decodeAt 2 97 data := by
      rw [Layout.key.lengthWriteAll, count, Header.marketCountAt front, Nat.mul_comm]
      rfl
    rw [slotsStart, List.take_add, ← markets, List.take_left' size]
  have header : (data.take Header.size).length = Header.size := List.length_take_of_le long
  rw [start, List.append_assoc]
  refine unpackEqOk.2 ⟨Header.unpackEqOk.2 ⟨status, Layout.readAgain fields ?_, same⟩, slots, ?_, rfl⟩
  · rw [Header.sizeStored, List.take_left' header]
  · rw [List.drop_left' header, ← count]
    exact Layout.key.readAllWriteAll state.markets slots

theorem indexInFront (later : List Asset) (found : state.assetIndex? mint = some i) :
    assetIndex? { state with assets := state.assets ++ later } mint = some i := by
  simp only [assetIndex?, mints, List.map_append, List.idxOf?, List.findIdx?_append] at found ⊢
  rw [found]
  rfl

end State

def insertFree (data : Bytes) (slot : Nat) (amount : UInt64) : Bytes :=
  data.take (slotsStart data + Asset.size * slot) ++ Asset.layout.write ⟨.zero 32, amount⟩ ++
    data.drop (slotsStart data + Asset.size * slot)

def removeSlot (data : Bytes) (slot : Nat) : Bytes :=
  data.take (slotsStart data + Asset.size * slot) ++ data.drop (slotsStart data + Asset.size * (slot + 1))

/-- Free slots come and go anywhere between the slots, and the account grows at its end. -/
inductive Reshaped (data : Bytes) : Bytes → Prop where
  | same : Reshaped data data
  | insert {other : Bytes} {slot : Nat} (amount : UInt64) (earlier : Reshaped data other)
      (place : slotsStart other + Asset.size * slot ≤ other.length) : Reshaped data (insertFree other slot amount)
  | remove {other : Bytes} {slot : Nat} (earlier : Reshaped data other)
      (free : slotMint? other slot = some (.zero 32)) : Reshaped data (removeSlot other slot)
  | append {other : Bytes} (earlier : Reshaped data other) (more : Bytes) : Reshaped data (other ++ more)

namespace State

variable {data : Bytes} {state : State} {slot : Nat}

theorem assetsStored (read : unpack data = .ok state) :
    Asset.unpackAll (data.drop (slotsStart data)) = state.assets :=
  (heldSlots read).symm

/- Between two slots an account is cut into what stands before the slots, some whole slots, and the others. -/
theorem slotsCut (place : slotsStart data + Asset.size * slot ≤ data.length) : ∃ front,
    front.length = Asset.size * slot ∧
      data.take (slotsStart data + Asset.size * slot) = data.take (slotsStart data) ++ front ∧
      front ++ data.drop (slotsStart data + Asset.size * slot) = data.drop (slotsStart data) := by
  refine ⟨(data.drop (slotsStart data)).take (Asset.size * slot), ?_, List.take_add, ?_⟩
  · rw [List.length_take, List.length_drop]
    omega
  · rw [← List.drop_drop, List.take_append_drop]

theorem insertKeeps (read : unpack data = .ok state) (amount : UInt64)
    (place : slotsStart data + Asset.size * slot ≤ data.length) :
    unpack (insertFree data slot amount) = .ok state := by
  obtain ⟨front, whole, before, all⟩ := slotsCut place
  rw [insertFree, before, List.append_assoc, List.append_assoc, slotsReplaced read, Asset.freeSkipped whole rfl, all,
    assetsStored read]

theorem removeKeeps (read : unpack data = .ok state) (free : slotMint? data slot = some (.zero 32)) :
    unpack (removeSlot data slot) = .ok state := by
  have room : Asset.size * slot + Asset.size ≤ (data.drop (slotsStart data)).length := Asset.slotWithin free
  have long : slotsStart data ≤ data.length := ((unpackAccepts data).1 ⟨state, read⟩).2
  have place : slotsStart data + Asset.size * slot ≤ data.length := by
    rw [List.length_drop] at room
    omega
  obtain ⟨front, whole, before, all⟩ := slotsCut place
  obtain ⟨asset, mint, slots⟩ := Asset.slotRead free
  rw [List.drop_drop, List.drop_drop] at slots
  rw [removeSlot, before, List.append_assoc, slotsReplaced read, ← Asset.freeSkipped whole mint, ← slots, all,
    assetsStored read]

theorem appendKeeps (read : unpack data = .ok state) (more : Bytes) :
    ∃ later, unpack (data ++ more) = .ok { state with assets := state.assets ++ later } := by
  have long : slotsStart data ≤ data.length := ((unpackAccepts data).1 ⟨state, read⟩).2
  obtain ⟨tail, _, slots⟩ := Asset.slotsParts (data.drop (slotsStart data))
  have parts : data ++ more = data.take (slotsStart data) ++
      (Asset.layout.writeAll (Asset.slots (data.drop (slotsStart data))) ++ (tail ++ more)) := by
    rw [← List.append_assoc _ tail, slots, ← List.append_assoc, List.take_append_drop]
  have held : (Asset.slots (data.drop (slotsStart data))).filter Asset.isInitialized = state.assets := assetsStored read
  refine ⟨Asset.unpackAll (tail ++ more), ?_⟩
  rw [parts, slotsReplaced read, Asset.unpackAllBehind, held]

/- By induction on the changes: each keeps what was decoded, and at most puts more assets behind the others. -/
theorem reshapedKeeps {other : Bytes} (read : unpack data = .ok state) (reshaped : Reshaped data other) :
    ∃ later, unpack other = .ok { state with assets := state.assets ++ later } := by
  induction reshaped with
  | same => exact ⟨[], by rw [List.append_nil]; exact read⟩
  | insert amount _ place ih =>
    obtain ⟨later, before⟩ := ih
    exact ⟨later, insertKeeps before amount place⟩
  | remove _ free ih =>
    obtain ⟨later, before⟩ := ih
    exact ⟨later, removeKeeps before free⟩
  | append _ more ih =>
    obtain ⟨later, before⟩ := ih
    obtain ⟨last, after⟩ := appendKeeps before more
    refine ⟨later ++ last, ?_⟩
    rw [← List.append_assoc]
    exact after

theorem indexFollowsSlots {data : Bytes} {state : State} (read : unpack data = .ok state) :
    (∀ mint i, state.assetIndex? mint = some i ↔
      mint ≠ .zero 32 ∧ ∃ slot, FirstSlot data mint slot ∧ i = heldBefore data slot) ∧
    (∀ mint, state.assetIndex? mint = none ↔ mint = .zero 32 ∨ ∀ slot, slotMint? data slot ≠ some mint) ∧
    (∀ other, Reshaped data other → ∃ after, unpack other = .ok after ∧
      ∀ mint i, state.assetIndex? mint = some i → after.assetIndex? mint = some i) ∧
    state.assetIndex? (.zero 32) = none := by
  refine ⟨fun mint i => assetIndexEqSome read, fun mint => assetIndexEqNone read, ?_,
    (assetIndexEqNone read).2 (.inl rfl)⟩
  intro other reshaped
  obtain ⟨later, after⟩ := reshapedKeeps read reshaped
  exact ⟨_, after, fun mint i found => indexInFront later found⟩

/- A pool of one market whose second asset stands in its fourth slot, and whose last slot is cut short. -/
def spacedPool : Bytes :=
  Header.stored.write (.fill 32 8, .fill 32 10, .fill 32 11, 0x3f, 1, 100, 1600000000, 604800) ++
    Layout.key.writeAll [.fill 32 20] ++
    Asset.layout.writeAll [⟨.zero 32, 7⟩, ⟨.fill 32 2, 5⟩, ⟨.zero 32, 0⟩, ⟨.fill 32 5, 9⟩] ++ [5, 5, 5]

def spacedState : State where
  header := ⟨.fill 32 8, .fill 32 10, .fill 32 11, .active false 0, 1, 100, 1600000000, 604800⟩
  markets := [.fill 32 20]
  assets := [⟨.fill 32 2, 5⟩, ⟨.fill 32 5, 9⟩]

theorem indexFollowsSlotsSpaced :
    unpack spacedPool = .ok spacedState ∧ FirstSlot spacedPool (.fill 32 5) 3 ∧ heldBefore spacedPool 3 = 1 ∧
      spacedState.assetIndex? (.fill 32 5) = some 1 ∧
      ∃ after, unpack (removeSlot (insertFree spacedPool 2 6) 0 ++ [5, 5]) = .ok after ∧
        after.assetIndex? (.fill 32 5) = some 1 := by
  have read : unpack spacedPool = .ok spacedState := by decide +kernel
  obtain ⟨ranked, _, kept, _⟩ := indexFollowsSlots read
  have first : FirstSlot spacedPool (.fill 32 5) 3 := ⟨by decide +kernel, by decide +kernel⟩
  have before : heldBefore spacedPool 3 = 1 := by decide +kernel
  have index := (ranked (.fill 32 5) 1).2 ⟨by decide, 3, first, before.symm⟩
  have reshaped : Reshaped spacedPool (removeSlot (insertFree spacedPool 2 6) 0 ++ [5, 5]) :=
    .append (.remove (.insert 6 .same (by decide +kernel)) (by decide +kernel)) [5, 5]
  obtain ⟨after, again, same⟩ := kept _ reshaped
  exact ⟨read, first, before, index, after, again, same _ _ index⟩

end State

end TradingPool.Pool
