import Mathlib.Data.Nat.Digits.Lemmas
import TradingPool.Base58

/-! Keys as text. A byte string is its leading zeros and a number, and so is a text, with `1` for zero. Written and
read back, neither the zeros nor the number change. For a key this takes 44 characters at most, so a reader that
takes no more than these reads the same keys. -/
namespace TradingPool

namespace LittleEndian

theorem decodeNat (s : Bytes) : decode s = Nat.ofDigits 256 (s.map UInt8.toNat) := by
  induction s with
  | nil => rfl
  | cons b rest ih => rw [decode, ih, List.map_cons, Nat.ofDigits_cons]

end LittleEndian

namespace Base58

section Zeros

variable {α : Type} [DecidableEq α] {zero : α} {rest : List α}

theorem dropZeros (count : Nat) (leads : ∀ a, rest.head? = some a → a ≠ zero) :
    (List.replicate count zero ++ rest).dropWhile (· == zero) = rest := by
  rw [List.dropWhile_append_of_pos fun a member => beq_iff_eq.2 (List.eq_of_mem_replicate member)]
  cases rest with
  | nil => rfl
  | cons a rest => exact List.dropWhile_cons_of_neg (by simpa using leads a rfl)

theorem takeZeros (count : Nat) (leads : ∀ a, rest.head? = some a → a ≠ zero) :
    (List.replicate count zero ++ rest).takeWhile (· == zero) = List.replicate count zero := by
  have whole := List.takeWhile_append_dropWhile (p := (· == zero)) (l := List.replicate count zero ++ rest)
  rw [dropZeros count leads] at whole
  exact List.append_cancel_right whole

theorem splitZeros (s : List α) (zero : α) : ∃ count rest, s = List.replicate count zero ++ rest ∧
    ∀ a, rest.head? = some a → a ≠ zero := by
  induction s with
  | nil => exact ⟨0, [], rfl, nofun⟩
  | cons a s ih =>
    by_cases same : a = zero
    · obtain ⟨count, rest, rfl, leads⟩ := ih
      exact ⟨count + 1, rest, by rw [same, List.replicate_succ]; rfl, leads⟩
    · exact ⟨0, a :: s, rfl, fun b first => Option.some.inj first ▸ same⟩

end Zeros

section Places

variable {base value d : Nat} {ds : List Nat}

theorem digitsSmall (large : 1 < base) : ∀ d ∈ (Nat.digits base value).reverse, d < base :=
  fun _ member => Nat.digits_lt_base large (List.mem_reverse.1 member)

/- The first digit of a number is no zero. -/
theorem leadingDigit (leads : (Nat.digits base value).reverse.head? = some d) : d ≠ 0 := by
  rw [List.head?_reverse] at leads
  have some : value ≠ 0 := by
    rintro rfl
    rw [Nat.digits_zero] at leads
    cases leads
  have last := Nat.getLast_digit_ne_zero base some
  rw [List.getLast?_eq_some_getLast (Nat.digits_ne_nil_iff_ne_zero.2 some)] at leads
  exact Option.some.inj leads ▸ last

theorem digitsBack (large : 1 < base) (small : ∀ d ∈ ds, d < base) (leads : ∀ d, ds.head? = some d → d ≠ 0) :
    Nat.digits base (Nat.ofDigits base ds.reverse) = ds.reverse := by
  refine Nat.digits_ofDigits base large _ (fun d member => small d (List.mem_reverse.1 member)) fun some => ?_
  refine leads _ ?_
  rw [← List.getLast?_reverse, List.getLast?_eq_some_getLast some]

theorem smallWithZeros (positive : 0 < base) (small : ∀ d ∈ ds, d < base) (count : Nat) :
    ∀ d ∈ List.replicate count 0 ++ ds, d < base := by
  intro d member
  rcases List.mem_append.1 member with zero | digit
  · rwa [List.eq_of_mem_replicate zero]
  · exact small d digit

end Places

/-- A number in as few bytes as it takes, the most significant first. -/
def bytesOf (value : Nat) : Bytes := (Nat.digits 256 value).reverse.map UInt8.ofNat

theorem decodeBytesOf (value : Nat) : LittleEndian.decode (bytesOf value).reverse = value := by
  have kept : (Nat.digits 256 value).map (UInt8.toNat ∘ UInt8.ofNat) = Nat.digits 256 value := by
    refine (List.map_congr_left fun d member => ?_).trans (List.map_id _)
    exact UInt8.toNat_ofNat_of_lt' (Nat.digits_lt_base (by decide) member)
  rw [bytesOf, ← List.map_reverse, List.reverse_reverse, LittleEndian.decodeNat, List.map_map, kept,
    Nat.ofDigits_digits]

theorem leadingByte {value : Nat} {b : UInt8} (leads : (bytesOf value).head? = some b) : b ≠ 0 := by
  rw [bytesOf, List.head?_map] at leads
  obtain ⟨d, first, rfl⟩ := Option.map_eq_some_iff.1 leads
  have small : d < 256 := digitsSmall (by decide) d (List.mem_of_mem_head? first)
  intro zero
  have same := congrArg UInt8.toNat zero
  rw [UInt8.toNat_ofNat_of_lt' small] at same
  exact leadingDigit first same

theorem bytesOfDecode {s : Bytes} (leads : ∀ b, s.head? = some b → b ≠ 0) :
    bytesOf (LittleEndian.decode s.reverse) = s := by
  have places : Nat.digits 256 (Nat.ofDigits 256 (s.reverse.map UInt8.toNat)) = s.reverse.map UInt8.toNat := by
    rw [List.map_reverse]
    refine digitsBack (by decide) (fun d member => ?_) fun d first => ?_
    · obtain ⟨b, _, rfl⟩ := List.mem_map.1 member
      exact b.toNat_lt
    · rw [List.head?_map] at first
      obtain ⟨b, leading, rfl⟩ := Option.map_eq_some_iff.1 first
      exact fun zero => leads b leading (UInt8.toNat_inj.1 zero)
  have kept : s.map (UInt8.ofNat ∘ UInt8.toNat) = s :=
    (List.map_congr_left fun b _ => UInt8.ofNat_toNat).trans (List.map_id _)
  rw [bytesOf, LittleEndian.decodeNat, places, ← List.map_reverse, List.reverse_reverse, List.map_map, kept]

/-- The character of a digit. -/
def char (d : Nat) : Char := alphabet.getD d '1'

theorem idxOfChar : ∀ d < 58, alphabet.idxOf? (char d) = some d := by decide

theorem charOfIdx {c : Char} {d : Nat} (h : alphabet.idxOf? c = some d) : d < 58 ∧ char d = c := by
  obtain ⟨bound, stands, _⟩ := List.idxOf?_eq_some_iff.1 h
  exact ⟨bound, by rw [char, List.getD_eq_getElem?_getD, List.getElem?_eq_getElem bound, stands]; rfl⟩

theorem charIsOne : ∀ d < 58, char d = '1' → d = 0 := by decide

theorem ofDigitsNat (ds : List Nat) : ofDigits ds = Nat.ofDigits 58 ds := by
  induction ds with
  | nil => rfl
  | cons d ds ih => rw [ofDigits, ih, Nat.ofDigits_cons]

theorem digitsNat {count value : Nat} (fits : value < 58 ^ count) : ∃ zeros,
    digits count value = Nat.digits 58 value ++ List.replicate zeros 0 := by
  induction count generalizing value with
  | zero =>
    cases Nat.lt_one_iff.1 fits
    exact ⟨0, rfl⟩
  | succ count ih =>
    have small : value / 58 < 58 ^ count := Nat.div_lt_of_lt_mul (by rwa [Nat.pow_succ'] at fits)
    obtain ⟨zeros, same⟩ := ih small
    rw [digits, same]
    by_cases zero : value = 0
    · subst zero
      exact ⟨zeros + 1, by rw [Nat.zero_div, Nat.digits_zero, List.replicate_succ]; rfl⟩
    · rw [Nat.digits_def' (by decide) (Nat.pos_of_ne_zero zero)]
      exact ⟨zeros, rfl⟩

theorem capacityFits (width : Nat) : LittleEndian.capacity width ≤ 58 ^ (2 * width) := by
  rw [LittleEndian.capacityEqShiftLeft, Nat.one_shiftLeft, Nat.pow_mul, Nat.pow_mul]
  exact Nat.pow_le_pow_left (by decide) width

/- What is written for a byte string with so many leading zeros. -/
theorem encodeParts {rest : Bytes} (count : Nat) (leads : ∀ b, rest.head? = some b → b ≠ 0) :
    encode (List.replicate count 0 ++ rest) =
      (List.replicate count 0 ++ (Nat.digits 58 (LittleEndian.decode rest.reverse)).reverse).map char := by
  have value : LittleEndian.decode (List.replicate count 0 ++ rest).reverse = LittleEndian.decode rest.reverse := by
    rw [List.reverse_append, List.reverse_replicate, LittleEndian.decodeAppendZeros]
  have fits : LittleEndian.decode rest.reverse < 58 ^ (2 * (List.replicate count 0 ++ rest).length) := by
    have bound := LittleEndian.decodeLt (List.replicate count 0 ++ rest).reverse
    rw [value, List.length_reverse] at bound
    exact Nat.lt_of_lt_of_le bound (capacityFits _)
  obtain ⟨zeros, places⟩ := digitsNat fits
  unfold encode
  dsimp only
  rw [takeZeros count leads, value, places, List.reverse_append, List.reverse_replicate,
    dropZeros zeros fun d => leadingDigit, List.map_replicate, List.map_append, List.map_replicate]
  rfl

theorem valueOfDigits {ds : List Nat} (small : ∀ d ∈ ds, d < 58) :
    value? (ds.map char) = some (Nat.ofDigits 58 ds.reverse) := by
  have read : (ds.map char).mapM alphabet.idxOf? = some ds := by
    induction ds with
    | nil => rfl
    | cons d ds ih =>
      have rest := ih fun e member => small e (List.mem_cons_of_mem d member)
      rw [List.map_cons, List.mapM_cons, idxOfChar d (small d List.mem_cons_self), rest]
      rfl
  rw [value?, read, Option.map_some, ofDigitsNat]

theorem digitsOfText {text : List Char} {ds : List Nat} (places : text.mapM alphabet.idxOf? = some ds) :
    (∀ d ∈ ds, d < 58) ∧ text = ds.map char := by
  induction text generalizing ds with
  | nil =>
    cases places
    exact ⟨nofun, rfl⟩
  | cons c text ih =>
    rw [List.mapM_cons] at places
    obtain ⟨d, first, places⟩ := Option.bind_eq_some_iff.1 places
    obtain ⟨rest, later, same⟩ := Option.bind_eq_some_iff.1 places
    cases same
    obtain ⟨below, rfl⟩ := charOfIdx first
    obtain ⟨small, rfl⟩ := ih later
    exact ⟨List.forall_mem_cons.2 ⟨below, small⟩, rfl⟩

/- The number is read back, whatever the zeros before it. -/
theorem valueEncode (s : Bytes) : value? (encode s) = some (LittleEndian.decode s.reverse) := by
  obtain ⟨count, rest, rfl, leads⟩ := splitZeros s 0
  rw [encodeParts count leads, valueOfDigits (smallWithZeros (by decide) (digitsSmall (by decide)) count), List.reverse_append,
    List.reverse_replicate, List.reverse_reverse, Nat.ofDigits_append_replicate_zero, Nat.ofDigits_digits,
    List.reverse_append, List.reverse_replicate, LittleEndian.decodeAppendZeros]

theorem charsOfEncode (s : Bytes) : ∀ c ∈ encode s, ∃ d < 58, char d = c := by
  obtain ⟨ds, places, _⟩ := Option.map_eq_some_iff.1 (valueEncode s)
  obtain ⟨small, same⟩ := digitsOfText places
  intro c member
  rw [same] at member
  obtain ⟨d, stands, rfl⟩ := List.mem_map.1 member
  exact ⟨d, small d stands, rfl⟩

theorem decodeEncode {n : Nat} (key : Block n) : decode? n (encode key.bytes) = some key := by
  have bytes : (LittleEndian.encode n (LittleEndian.decode key.bytes.reverse)).reverse = key.bytes := by
    have back := LittleEndian.encodeDecode key.bytes.reverse
    rw [List.length_reverse, key.lengthBytes] at back
    rw [back, List.reverse_reverse]
  unfold decode?
  rw [valueEncode]
  change (if encode _ = _ then some _ else none) = _
  simp only [bytes, if_true]

/- A leading zero byte takes one character, and every other byte fewer than two. -/
theorem lengthEncode (key : Key) : (encode key.bytes).length ≤ 44 := by
  obtain ⟨count, rest, same, leads⟩ := splitZeros key.bytes 0
  have len : count + rest.length = 32 := by
    rw [← key.lengthBytes, same, List.length_append, List.length_replicate]
  have room : ∀ width ≤ 32, LittleEndian.capacity width ≤ 58 ^ (12 + width) := by decide +kernel
  have fits : LittleEndian.decode rest.reverse < 58 ^ (12 + rest.length) := by
    have bound := LittleEndian.decodeLt rest.reverse
    rw [List.length_reverse] at bound
    exact Nat.lt_of_lt_of_le bound (room _ (by omega))
  have places := (Nat.digits_length_le_iff (by decide) _).2 fits
  rw [same, encodeParts count leads, List.length_map, List.length_append, List.length_replicate, List.length_reverse]
  omega

/-- A reader that does not look back at how a key is written: each leading `1` is a zero byte, and the rest a number
in as few bytes as it takes. -/
def plain? (text : List Char) : Option Bytes :=
  (value? text).map fun value => List.replicate (text.takeWhile (· == '1')).length 0 ++ bytesOf value

theorem plainOfDigits {rest : List Nat} (count : Nat) (small : ∀ d ∈ rest, d < 58)
    (leads : ∀ d, rest.head? = some d → d ≠ 0) :
    plain? ((List.replicate count 0 ++ rest).map char) =
      some (List.replicate count 0 ++ bytesOf (Nat.ofDigits 58 rest.reverse)) := by
  have ones : ∀ c, (rest.map char).head? = some c → c ≠ '1' := by
    intro c first
    rw [List.head?_map] at first
    obtain ⟨d, leading, rfl⟩ := Option.map_eq_some_iff.1 first
    exact fun one => leads d leading (charIsOne d (small d (List.mem_of_mem_head? leading)) one)
  have front : (List.replicate count '1' ++ rest.map char).takeWhile (· == '1') = _ := takeZeros count ones
  rw [plain?, valueOfDigits (smallWithZeros (by decide) small count), Option.map_some, List.reverse_append,
    List.reverse_replicate, Nat.ofDigits_append_replicate_zero, List.map_append, List.map_replicate]
  change some (List.replicate ((List.replicate count '1' ++ rest.map char).takeWhile _).length 0 ++ _) = _
  rw [front, List.length_replicate]

theorem plainEncode (s : Bytes) : plain? (encode s) = some s := by
  obtain ⟨count, rest, rfl, leads⟩ := splitZeros s 0
  rw [encodeParts count leads, plainOfDigits count (digitsSmall (by decide)) fun d => leadingDigit, List.reverse_reverse,
    Nat.ofDigits_digits, bytesOfDecode leads]

/- The text that is read is the text by which the result is written. -/
theorem encodePlain {text : List Char} {s : Bytes} (read : plain? text = some s) : encode s = text := by
  obtain ⟨value, number, _⟩ := Option.map_eq_some_iff.1 read
  obtain ⟨ds, places, _⟩ := Option.map_eq_some_iff.1 number
  obtain ⟨small, rfl⟩ := digitsOfText places
  obtain ⟨count, rest, rfl, leads⟩ := splitZeros ds 0
  have below : ∀ d ∈ rest, d < 58 := fun d member => small d (List.mem_append_right _ member)
  rw [plainOfDigits count below leads] at read
  cases read
  rw [encodeParts count fun b => leadingByte, decodeBytesOf, digitsBack (by decide) below leads, List.reverse_reverse]

theorem decodeEqSome {n : Nat} {text : List Char} {key : Block n} :
    decode? n text = some key ↔ plain? text = some key.bytes := by
  constructor
  · intro h
    obtain ⟨value, _, h⟩ := Option.bind_eq_some_iff.1 h
    dsimp only at h
    split at h
    · rename_i same
      cases h
      rw [← same, plainEncode]
    · cases h
  · intro read
    rw [← encodePlain read, decodeEncode]

/- The limit on the length refuses nothing that is a key. -/
theorem keyOfText {text : String} {key : Key} :
    Key.ofText? text = some key ↔ text.toList.length ≤ 44 ∧ plain? text.toList = some key.bytes := by
  rw [Key.ofText?, decodeEqSome]
  refine ⟨fun read => ⟨?_, read⟩, fun read => read.2⟩
  rw [← encodePlain read]
  exact lengthEncode key

end Base58
end TradingPool
