import Mathlib.Data.Nat.Bitwise
import TradingPool.Pool.Status

/-! The status byte as a number: the lock weighs 128, orders in flight weigh 64, and below that stands
their count less one. A status that was read has at most 64 pending orders and can be written again. -/
namespace TradingPool.Pool.Status

theorem countBits (b : UInt8) : (b &&& 0x3f).toNat = b.toNat % 64 := by
  rw [UInt8.toNat_and]
  exact Nat.and_two_pow_sub_one_eq_mod b.toNat 6

theorem flagBit (b : UInt8) (i : Nat) (h : i < 8) :
    b &&& UInt8.ofNat (2 ^ i) = 0 ↔ b.toNat / 2 ^ i % 2 = 0 := by
  have weight : (UInt8.ofNat (2 ^ i)).toNat = 2 ^ i := by
    rw [UInt8.toNat_ofNat']
    exact Nat.mod_eq_of_lt (Nat.pow_lt_pow_right (by decide) h)
  have bit := Nat.and_two_pow b.toNat i
  rw [← weight, ← UInt8.toNat_and, weight, Nat.testBit_eq_decide_div_mod_eq] at bit
  rw [← UInt8.toNat_inj, bit, UInt8.toNat_zero]
  have positive : 0 < 2 ^ i := Nat.pow_pos (by decide)
  by_cases set : b.toNat / 2 ^ i % 2 = 1
  · simp [set]
  · have clear : b.toNat / 2 ^ i % 2 = 0 := by omega
    simp [clear]

theorem pendingBit (b : UInt8) : b &&& 0x40 = 0 ↔ b.toNat / 64 % 2 = 0 := flagBit b 6 (by decide)

theorem lockBit (b : UInt8) : b &&& 0x80 = 0 ↔ b.toNat / 128 % 2 = 0 := flagBit b 7 (by decide)

theorem pendingOrdersOfByte (b : UInt8) :
    (ofByte b).pendingOrders.toNat = if b.toNat / 64 % 2 = 0 then 0 else b.toNat % 64 + 1 := by
  unfold ofByte
  split
  · rename_i zero
    subst zero
    rfl
  · have low := countBits b
    simp only [pendingOrders, pendingBit]
    split
    · rfl
    · rw [UInt8.toNat_add, low]
      change (b.toNat % 64 + 1) % 256 = _
      omega

theorem pendingOrdersBounded (b : UInt8) : (ofByte b).pendingOrders ≤ maxPendingOrders := by
  have count := pendingOrdersOfByte b
  rw [UInt8.le_iff_toNat_le, count]
  change _ ≤ 64
  split <;> omega

theorem ofByteActive {b : UInt8} (used : b ≠ 0) :
    ofByte b = .active (decide (b.toNat / 128 % 2 ≠ 0)) (ofByte b).pendingOrders := by
  unfold ofByte
  rw [if_neg used]
  simp only [pendingOrders, ne_eq, lockBit]

theorem ofByteUninitialized {b : UInt8} : ofByte b = .uninitialized ↔ b = 0 := by
  constructor
  · intro h
    by_contra used
    rw [ofByteActive used] at h
    cases h
  · rintro rfl
    rfl

theorem pendingCount {b count : UInt8} :
    (ofByte b).pendingOrders = count ∧ count ≠ 0 ↔ b &&& 0x40 ≠ 0 ∧ count.toNat = b.toNat % 64 + 1 := by
  rw [← UInt8.toNat_inj, pendingOrdersOfByte, ne_eq, ne_eq, pendingBit, ← UInt8.toNat_inj, UInt8.toNat_zero]
  split <;> omega

/- The flags and the count less one share no bit, so the byte is the sum of their weights. -/
theorem weights (locked : Bool) {count : UInt8} (some : count ≠ 0) (few : count ≤ maxPendingOrders) :
    ((if locked then 0xc0 else 0x40 : UInt8) ||| (count - 1)).toNat =
      (if locked then 192 else 64) + (count.toNat - 1) := by
  have positive : 1 ≤ count.toNat := Nat.pos_of_ne_zero (mt (UInt8.toNat_inj (b := 0)).1 some)
  have bound : count.toNat ≤ 64 := UInt8.le_iff_toNat_le.1 few
  have less : (count - 1).toNat = count.toNat - 1 :=
    UInt8.toNat_sub_of_le _ _ (UInt8.le_iff_toNat_le.2 positive)
  have small : count.toNat - 1 < 2 ^ 6 := by omega
  rw [UInt8.toNat_or, less]
  cases locked with
  | false => exact (Nat.two_pow_add_eq_or_of_lt small 1).symm
  | true => exact (Nat.two_pow_add_eq_or_of_lt small 3).symm

theorem writable {status : Status} (few : status.pendingOrders ≤ maxPendingOrders) :
    ∃ b, status.toByte = .ok b := by
  cases status with
  | uninitialized => exact ⟨0, rfl⟩
  | active locked count =>
    simp only [pendingOrders] at few
    simp only [toByte, if_neg (UInt8.not_lt.2 few)]
    split <;> exact ⟨_, rfl⟩

theorem ofByteToByte {status : Status} {b : UInt8} (h : status.toByte = .ok b) : ofByte b = status := by
  cases status with
  | uninitialized => cases h; rfl
  | active locked count =>
    by_cases none : count = 0
    · subst none
      cases locked <;> cases h <;> rfl
    · simp only [toByte, if_neg none] at h
      split at h
      · contradiction
      · rename_i few
        cases h
        have number := weights locked none (UInt8.not_lt.1 few)
        have bound : count.toNat ≤ 64 := UInt8.le_iff_toNat_le.1 (UInt8.not_lt.1 few)
        have positive : count.toNat ≠ 0 := mt (UInt8.toNat_inj (b := 0)).1 none
        generalize ((if locked then 0xc0 else 0x40 : UInt8) ||| (count - 1)) = b at number ⊢
        have used : b ≠ 0 := by
          intro same
          subst same
          cases locked <;> simp at number <;> omega
        have pending : (ofByte b).pendingOrders = count := by
          rw [← UInt8.toNat_inj, pendingOrdersOfByte]
          cases locked <;> simp at number <;> split <;> omega
        rw [ofByteActive used, pending]
        cases locked <;> simp at number ⊢ <;> omega

/-- The byte that is written for what a byte means. -/
def normal (b : UInt8) : UInt8 :=
  if b &&& 0x40 ≠ 0 then b else if b = 0 then 0 else if b &&& 0x80 ≠ 0 then 0x80 else 0x3f

theorem normalSame {b : UInt8} : normal b = b ↔ b = 0 ∨ b = 0x3f ∨ b = 0x80 ∨ b &&& 0x40 ≠ 0 := by
  unfold normal
  split
  · rename_i pending
    simp [pending]
  · rename_i idle
    split
    · rename_i zero
      simp [zero]
    · rename_i used
      split
      · rename_i locked
        have other : b ≠ 0x3f := by rintro rfl; exact locked (by decide)
        simp [idle, used, other, eq_comm]
      · rename_i unlocked
        have other : b ≠ 0x80 := by rintro rfl; exact unlocked (by decide)
        simp [idle, used, other, eq_comm]

theorem toByteOfByte (b : UInt8) : (ofByte b).toByte = .ok (normal b) := by
  by_cases used : b = 0
  · subst used
    rfl
  · have count := pendingOrdersOfByte b
    rw [ofByteActive used]
    generalize (ofByte b).pendingOrders = pending at count
    by_cases idle : b &&& 0x40 = 0
    · rw [if_pos ((pendingBit b).1 idle)] at count
      have none : pending = 0 := UInt8.toNat_inj.1 count
      simp [toByte, normal, none, idle, used, lockBit]
    · have bit := mt (pendingBit b).2 idle
      rw [if_neg bit] at count
      have some : pending ≠ 0 := by
        rintro rfl
        exact absurd count (Nat.succ_ne_zero _).symm
      have few : pending ≤ maxPendingOrders := by
        rw [UInt8.le_iff_toNat_le, count]
        exact Nat.succ_le_of_lt (Nat.mod_lt _ (by decide))
      have number := weights (decide (b.toNat / 128 % 2 ≠ 0)) some few
      have small := b.toNat_lt
      simp only [toByte, if_neg some, if_neg (UInt8.not_lt.2 few), normal, if_pos idle]
      refine congrArg Except.ok (UInt8.toNat_inj.1 (number.trans ?_))
      rw [count]
      by_cases unlocked : b.toNat / 128 % 2 = 0 <;> simp [unlocked] <;> omega

theorem boundedOfToByte {status : Status} {b : UInt8} (h : status.toByte = .ok b) :
    status.pendingOrders ≤ maxPendingOrders :=
  ofByteToByte h ▸ pendingOrdersBounded b

end TradingPool.Pool.Status
