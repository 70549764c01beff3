import TradingPool.Proofs.KeyText
import TradingPool.Proofs.Offsets

/-! Integers written one behind the other, and fields read at an offset. A run of writes adds the values that fit, each
as exactly the bytes of its width, and passes over the others; a value is found again where the buffer ended before it
was written. Reading depends on the bytes of the field alone and is refused exactly when they are not all there. Offsets
are numbers without a bound, so the end of a field never wraps around. -/
namespace TradingPool

namespace LittleEndian

/-- The byte at place `i` counts for `256 ^ i`; the places above are left out. -/
def places (width value : Nat) : Bytes := (List.range width).map fun i => UInt8.ofNat (value / 256 ^ i)

/-- The bytes as digits to the base 256, lowest first. -/
def number (s : Bytes) : Nat := Nat.ofDigits 256 (s.map UInt8.toNat)

theorem lengthPlaces (width value : Nat) : (places width value).length = width := by
  rw [places, List.length_map, List.length_range]

theorem encodePlaces (width value : Nat) : encode width value = places width value := by
  induction width generalizing value with
  | zero => rfl
  | succ width ih =>
    have higher : (fun i => UInt8.ofNat (value / 256 ^ i)) ∘ Nat.succ =
        fun i => UInt8.ofNat (value / 256 / 256 ^ i) := by
      funext i
      rw [Function.comp_apply, Nat.div_div_eq_div_mul, ← Nat.pow_succ']
    rw [encode, ih, places, places, List.range_succ_eq_map, List.map_cons, List.map_map, higher, Nat.pow_zero,
      Nat.div_one]

theorem capacityPlaces (width : Nat) : capacity width = 256 ^ width := by
  rw [capacityEqShiftLeft, Nat.one_shiftLeft, Nat.pow_mul]

theorem numberLt (s : Bytes) : number s < 256 ^ s.length := by
  rw [number, ← decodeNat, ← capacityPlaces]
  exact decodeLt s

theorem numberTake (width : Nat) (s : Bytes) : number (s.take width) < 256 ^ width :=
  Nat.lt_of_lt_of_le (numberLt _) (Nat.pow_le_pow_right (by decide) (List.length_take_le width s))

theorem numberPlaces {width value : Nat} (small : value < 256 ^ width) : number (places width value) = value := by
  rw [number, ← decodeNat, ← encodePlaces, decodeEncode, capacityPlaces, Nat.mod_eq_of_lt small]

theorem placesNumber (s : Bytes) : places s.length (number s) = s := by
  rw [number, ← decodeNat, ← encodePlaces, encodeDecode]

end LittleEndian

open LittleEndian (places number)

namespace Width

variable {buffer s : Bytes} {width : Width} {value : Nat}

theorem maxPlaces (width : Width) : width.max + 1 = 256 ^ width.size := by
  rw [max, LittleEndian.capacityPlaces, Nat.sub_add_cancel (Nat.pow_pos (by decide))]

section Decoding

theorem decodeLong (long : width.size ≤ s.length) : width.decode s = .ok (number (s.take width.size)) := by
  rw [decode, if_pos long, LittleEndian.decodeNat, number]

theorem decodePlaces (fits : value ≤ width.max) (rest : Bytes) :
    width.decode (places width.size value ++ rest) = .ok value := by
  have small : value < 256 ^ width.size := maxPlaces width ▸ Nat.lt_succ_of_le fits
  have long : width.size ≤ (places width.size value ++ rest).length := by
    rw [List.length_append, LittleEndian.lengthPlaces]
    exact Nat.le_add_right _ _
  rw [decodeLong long, List.take_left' (LittleEndian.lengthPlaces ..), LittleEndian.numberPlaces small]

theorem numberFits (whole : s.length = width.size) : number s ≤ width.max := by
  have below := LittleEndian.numberLt s
  rw [whole, ← maxPlaces] at below
  exact Nat.le_of_lt_succ below

end Decoding

section Runs

/-- The values that fit, in order, each as the bytes of its width. -/
def encodings (writes : List (Width × Nat)) : Bytes :=
  (writes.filter fun write => write.2 ≤ write.1.max).flatMap fun write => places write.1.size write.2

/-- The buffer after a run of writes. -/
def written (buffer : Bytes) (writes : List (Width × Nat)) : Bytes :=
  ((appendAll buffer writes).map Prod.snd).getLastD buffer

def answer (write : Width × Nat) : Except Failure Unit :=
  if write.2 ≤ write.1.max then .ok () else .error (.overflow write.2 write.1.size)

theorem encodingsFits (fits : value ≤ width.max) : encodings [(width, value)] = places width.size value := by
  simp [encodings, fits]

theorem encodingsLarge (large : width.max < value) : encodings [(width, value)] = [] := by
  simp [encodings, large]

theorem encodingsParts (past later : List (Width × Nat)) :
    encodings (past ++ later) = encodings past ++ encodings later := by
  rw [encodings, List.filter_append, List.flatMap_append]
  rfl

theorem encodingsStep (write : Width × Nat) (later : List (Width × Nat)) :
    encodings (write :: later) = encodings [write] ++ encodings later := encodingsParts [write] later

theorem appendFits (fits : value ≤ width.max) :
    append buffer width value = (.ok (), buffer ++ places width.size value) := by
  rw [append, if_neg (Nat.not_lt.2 fits), LittleEndian.encodePlaces]

theorem appendLarge (large : width.max < value) :
    append buffer width value = (.error (.overflow value width.size), buffer) := if_pos large

/- Every write, refused or not, adds the encodings of the run that is this write alone. -/
theorem runStep (buffer : Bytes) (write : Width × Nat) (later : List (Width × Nat)) :
    appendAll buffer (write :: later) =
      (answer write, buffer ++ encodings [write]) :: appendAll (buffer ++ encodings [write]) later := by
  obtain ⟨width, value⟩ := write
  rcases Nat.lt_or_ge width.max value with large | fits
  · rw [appendAll, appendLarge large, encodingsLarge large, List.append_nil, answer, if_neg (Nat.not_le.2 large)]
  · rw [appendAll, appendFits fits, encodingsFits fits, answer, if_pos fits]

theorem lengthRun (buffer : Bytes) (writes : List (Width × Nat)) :
    (appendAll buffer writes).length = writes.length := by
  induction writes generalizing buffer with
  | nil => rfl
  | cons write later ih => rw [runStep, List.length_cons, ih, List.length_cons]

/- The later writes run on the buffer that the earlier ones leave. -/
theorem runParts (buffer : Bytes) (past later : List (Width × Nat)) :
    appendAll buffer (past ++ later) = appendAll buffer past ++ appendAll (buffer ++ encodings past) later := by
  induction past generalizing buffer with
  | nil => exact congrArg (appendAll · later) (List.append_nil buffer).symm
  | cons write past ih =>
    rw [List.cons_append, runStep, runStep, ih, List.cons_append, encodingsStep write past, List.append_assoc]

theorem writtenEncodings (buffer : Bytes) (writes : List (Width × Nat)) :
    written buffer writes = buffer ++ encodings writes := by
  induction writes generalizing buffer with
  | nil => exact (List.append_nil buffer).symm
  | cons write later ih =>
    rw [written, runStep, encodingsStep write later, List.map_cons, List.getLastD_cons, ← List.append_assoc]
    exact ih _

theorem runAt (buffer : Bytes) (past : List (Width × Nat)) (write : Width × Nat) (later : List (Width × Nat)) :
    (appendAll buffer (past ++ write :: later))[past.length]? =
      some (answer write, buffer ++ encodings past ++ encodings [write]) := by
  rw [runParts, ← lengthRun buffer past, List.getElem?_append_right (Nat.le_refl _), Nat.sub_self, runStep,
    List.getElem?_cons_zero]

/-- What a run of writes leaves, what it answers to each write, and where each value that fits is found again. -/
structure WritesInOrder (buffer : Bytes) (writes : List (Width × Nat)) : Prop where
  whole : written buffer writes = buffer ++ encodings writes
  answered : (appendAll buffer writes).length = writes.length
  accepted : ∀ past width value later, writes = past ++ (width, value) :: later → value ≤ width.max →
    (appendAll buffer writes)[past.length]? =
        some (.ok (), buffer ++ encodings past ++ places width.size value) ∧
      (places width.size value).length = width.size ∧
      width.decode ((written buffer writes).drop (buffer ++ encodings past).length) = .ok value
  refused : ∀ past width value later, writes = past ++ (width, value) :: later → width.max < value →
    (appendAll buffer writes)[past.length]? =
      some (.error (.overflow value width.size), buffer ++ encodings past)

theorem writesInOrder (buffer : Bytes) (writes : List (Width × Nat)) : WritesInOrder buffer writes where
  whole := writtenEncodings buffer writes
  answered := lengthRun buffer writes
  accepted := by
    rintro past width value later rfl fits
    refine ⟨?_, LittleEndian.lengthPlaces .., ?_⟩
    · rw [runAt, encodingsFits fits, answer, if_pos fits]
    · rw [writtenEncodings, encodingsParts, ← List.append_assoc, List.drop_left, encodingsStep, encodingsFits fits]
      exact decodePlaces fits _
  refused := by
    rintro past width value later rfl large
    rw [runAt, encodingsLarge large, List.append_nil, answer, if_neg (Nat.not_le.2 large)]

end Runs

end Width

section Reading

variable {α β : Type} {result : Except Failure α} {needed available : Nat} {means : α → Prop}

/-- A value when there are bytes enough, and otherwise a refusal that says how many there are and must be. -/
structure ReadsBytes (result : Except Failure α) (needed available : Nat) (means : α → Prop) : Prop where
  found : needed ≤ available → ∃ a, result = .ok a ∧ means a
  refused : ∀ failure, result = .error failure ↔
    available < needed ∧ failure = .malformedLength needed available

theorem readsBytes (found : needed ≤ available → ∃ a, result = .ok a ∧ means a)
    (short : available < needed → result = .error (.malformedLength needed available)) :
    ReadsBytes result needed available means where
  found := found
  refused failure := by
    rcases Nat.lt_or_ge available needed with few | enough
    · rw [short few, Except.error.injEq, and_iff_right few, eq_comm]
    · obtain ⟨a, ok, _⟩ := found enough
      rw [ok]
      exact ⟨nofun, fun ⟨few, _⟩ => absurd few (Nat.not_lt.2 enough)⟩

theorem ReadsBytes.map {other : β → Prop} {f : α → β} (reads : ReadsBytes result needed available means)
    (carries : ∀ a, means a → other (f a)) : ReadsBytes (result.map f) needed available other := by
  refine readsBytes (fun enough => ?_) (fun few => ?_)
  · obtain ⟨a, ok, holds⟩ := reads.found enough
    exact ⟨f a, by rw [ok]; rfl, carries a holds⟩
  · rw [(reads.refused _).2 ⟨few, rfl⟩]
    rfl

theorem decodeReads (width : Width) (s : Bytes) :
    ReadsBytes (width.decode s) width.size s.length (· = number (s.take width.size)) :=
  readsBytes (fun long => ⟨_, Width.decodeLong long, rfl⟩) fun short => if_neg (Nat.not_le.2 short)

theorem natReads (width : Width) (s : Bytes) (offset : Nat) :
    ReadsBytes (readNatAt width s offset) (offset + width.size) s.length
      (· = number ((s.drop offset).take width.size)) := by
  refine readsBytes (fun long => ⟨_, readNatAtEqOk.2 ⟨long, rfl⟩, LittleEndian.decodeNat _⟩) fun short => ?_
  rw [readNatAt, sliceAt, if_neg (Nat.not_le.2 short)]
  rfl

/- A type that holds every number of its width loses nothing of what is read. -/
theorem numberReads (width : Width) {ofNat : Nat → α} {toNat : α → Nat}
    (kept : ∀ n < 256 ^ width.size, toNat (ofNat n) = n) (s : Bytes) (offset : Nat) :
    ReadsBytes ((readNatAt width s offset).map ofNat) (offset + width.size) s.length
      (fun a => toNat a = number ((s.drop offset).take width.size)) := by
  refine (natReads width s offset).map ?_
  rintro _ rfl
  exact kept _ (LittleEndian.numberTake ..)

theorem keyReads (s : Bytes) (offset : Nat) :
    ReadsBytes (readKeyAt s offset) (offset + 32) s.length (fun key => key.bytes = (s.drop offset).take 32) :=
  readsBytes (fun long => ⟨_, dif_pos long, rfl⟩) fun short => dif_neg (Nat.not_le.2 short)

end Reading

/-- What a width writes, what it reads from the front of a string, and that it writes what it has read. -/
structure Width.CodesNumbers (width : Width) : Prop where
  largest : width.max + 1 = 256 ^ width.size
  encoded : ∀ value, width.encode value =
    if value ≤ width.max then .ok (places width.size value) else .error (.overflow value width.size)
  decoded : ∀ s, ReadsBytes (width.decode s) width.size s.length (· = number (s.take width.size))
  front : ∀ s other, width.size ≤ s.length → other.take width.size = s.take width.size →
    width.decode other = width.decode s
  again : ∀ s value, width.decode s = .ok value → width.encode value = .ok (s.take width.size)

theorem Width.codesNumbers (width : Width) : CodesNumbers width where
  largest := maxPlaces width
  encoded value := by
    rcases Nat.lt_or_ge width.max value with large | fits
    · rw [if_neg (Nat.not_le.2 large), encode, extend, appendLarge large]
      rfl
    · rw [if_pos fits, encode, extend, appendFits fits]
      rfl
  decoded := decodeReads width
  front s other long same := by
    have front : (s.take width.size).length = width.size := List.length_take_of_le long
    have also : width.size ≤ other.length := by
      rw [← front, ← same]
      exact List.length_take_le' ..
    rw [decodeLong long, decodeLong also, same]
  again s value read := by
    rcases Nat.lt_or_ge s.length width.size with short | long
    · cases read.symm.trans (((decodeReads width s).refused _).2 ⟨short, rfl⟩)
    · have whole : (s.take width.size).length = width.size := List.length_take_of_le long
      cases read.symm.trans (decodeLong long)
      have bytes := LittleEndian.placesNumber (s.take width.size)
      rw [whole] at bytes
      rw [encode, extend, appendFits (numberFits whole), bytes]
      rfl

theorem integerCodec :
    (∀ buffer writes, Width.WritesInOrder buffer writes) ∧ (∀ width, Width.CodesNumbers width) ∧
    ∀ s offset,
      ReadsBytes (readU8At s offset) (offset + 1) s.length
        (fun v => v.toNat = number ((s.drop offset).take 1)) ∧
      ReadsBytes (readU16At s offset) (offset + 2) s.length
        (fun v => v.toNat = number ((s.drop offset).take 2)) ∧
      ReadsBytes (readU64At s offset) (offset + 8) s.length
        (fun v => v.toNat = number ((s.drop offset).take 8)) ∧
      ReadsBytes (readKeyAt s offset) (offset + 32) s.length
        (fun key => key.bytes = (s.drop offset).take 32) := by
  refine ⟨Width.writesInOrder, Width.codesNumbers, fun s offset => ⟨?_, ?_, ?_, keyReads s offset⟩⟩
  · exact numberReads .u8 (fun _ small => UInt8.toNat_ofNat_of_lt' small) s offset
  · exact numberReads .u16 (fun _ small => UInt16.toNat_ofNat_of_lt' small) s offset
  · exact numberReads .u64 (fun _ small => UInt64.toNat_ofNat_of_lt' small) s offset

/- Every width once; the second and the fourth value are one too large. -/
def mixedWrites : List (Width × Nat) :=
  [(.u16, 0x0102), (.u8, 256), (.u128, 2 ^ 128 - 1), (.u32, 2 ^ 32), (.u64, 0xdeadbeef)]

theorem integerCodecMixed :
    Width.written [7] mixedWrites =
      7 :: 2 :: 1 :: List.replicate 16 255 ++ [0xef, 0xbe, 0xad, 0xde, 0, 0, 0, 0] ∧
    (Width.appendAll [7] mixedWrites)[1]? = some (.error (.overflow 256 1), [7, 2, 1]) ∧
    Width.u128.decode ((Width.written [7] mixedWrites).drop 3) = .ok (2 ^ 128 - 1) ∧
    readU64At (Width.written [7] mixedWrites) 20 = .error (.malformedLength 28 27) := by
  obtain ⟨writes, _, reads⟩ := integerCodec
  have run := writes [7] mixedWrites
  have whole : Width.written [7] mixedWrites =
      7 :: 2 :: 1 :: List.replicate 16 255 ++ [0xef, 0xbe, 0xad, 0xde, 0, 0, 0, 0] := by
    rw [run.whole]
    decide +kernel
  refine ⟨whole, ?_, ?_, ?_⟩
  · exact run.refused [(.u16, 0x0102)] .u8 256 _ rfl (by decide)
  · exact (run.accepted [(.u16, 0x0102), (.u8, 256)] .u128 (2 ^ 128 - 1) _ rfl (by decide)).2.2
  · rw [whole]
    exact ((reads _ 20).2.2.1.refused _).2 ⟨by decide, rfl⟩

end TradingPool
