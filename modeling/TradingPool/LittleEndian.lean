import TradingPool.Bytes

/-! Numbers as a given count of bytes, least significant byte first. A number that needs more bytes
than it is given is written by its low bytes; callers that must not lose anything check the range. -/
namespace TradingPool.LittleEndian

def encode : Nat → Nat → Bytes
  | 0, _ => []
  | width + 1, value => UInt8.ofNat value :: encode width (value / 256)

def decode : Bytes → Nat
  | [] => 0
  | b :: rest => b.toNat + 256 * decode rest

def decodeAt (width offset : Nat) (s : Bytes) : Nat := decode ((s.drop offset).take width)

def capacity : Nat → Nat
  | 0 => 1
  | width + 1 => 256 * capacity width

theorem capacityEqShiftLeft (width : Nat) : capacity width = 1 <<< (8 * width) := by
  induction width with
  | zero => rfl
  | succ width ih =>
    rw [capacity, ih, Nat.one_shiftLeft, Nat.one_shiftLeft, Nat.mul_succ, Nat.pow_add, Nat.mul_comm]

theorem lengthEncode (width value : Nat) : (encode width value).length = width := by
  induction width generalizing value with
  | zero => rfl
  | succ width ih => simp [encode, ih]

theorem decodeLt (s : Bytes) : decode s < capacity s.length := by
  induction s with
  | nil => exact Nat.one_pos
  | cons b rest ih =>
    have hb := b.toNat_lt
    simp only [decode, List.length_cons, capacity]
    omega

theorem decodeEncode (width value : Nat) : decode (encode width value) = value % capacity width := by
  induction width generalizing value with
  | zero => exact (Nat.mod_one value).symm
  | succ width ih => rw [capacity, Nat.mod_mul, ← ih, encode, decode, UInt8.toNat_ofNat']

theorem decodeEncodeBits {width : Nat} (v : BitVec (8 * width)) : decode (encode width v.toNat) = v.toNat := by
  have small : v.toNat < capacity width := by
    rw [capacityEqShiftLeft, Nat.one_shiftLeft]
    exact v.isLt
  rw [decodeEncode, Nat.mod_eq_of_lt small]

theorem encodeDecode (s : Bytes) : encode s.length (decode s) = s := by
  induction s with
  | nil => rfl
  | cons b rest ih =>
    have hb := b.toNat_lt
    have hhigh : (b.toNat + 256 * decode rest) / 256 = decode rest := by omega
    have hlow : UInt8.ofNat (b.toNat + 256 * decode rest) = b := by
      apply UInt8.toNat_inj.1
      rw [UInt8.toNat_ofNat']
      omega
    simp only [List.length_cons, decode, encode, hhigh, hlow, ih]

theorem decodeZeros (width : Nat) : decode (List.replicate width 0) = 0 := by
  induction width with
  | zero => rfl
  | succ width ih =>
    rw [List.replicate_succ, decode, ih]
    rfl

theorem decodeAppendZeros (s : Bytes) (count : Nat) : decode (s ++ List.replicate count 0) = decode s := by
  induction s with
  | nil => exact decodeZeros count
  | cons b rest ih => rw [List.cons_append, decode, decode, ih]

end TradingPool.LittleEndian
