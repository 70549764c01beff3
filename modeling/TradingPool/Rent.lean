/-! The balance that keeps an account of a given length alive: 3480 units a byte, 128 bytes of overhead,
for two years. The bytes are counted in 64 bits and the years in double precision, which keeps 53
significant bits. -/
namespace TradingPool.Rent

/-- The nearest number of at most `precision` significant bits; of two equally near, the even one. -/
def roundTo (precision value : Nat) : Nat :=
  let shift := value.log2 + 1 - precision
  let unit := 1 <<< shift
  let low := value % unit
  let quotient := value / unit
  if 2 * low < unit ∨ (2 * low = unit ∧ quotient % 2 = 0) then quotient * unit
  else (quotient + 1) * unit

def overhead : UInt64 := 128
def perByteYear : UInt64 := 3480
def years : Nat := 2

/-- For one year. The sum and the product wrap around, as they do where overflow is not checked; where it
is, there is no answer for a length that makes them do so. -/
def yearly (length : Nat) : UInt64 := (overhead + UInt64.ofNat length) * perByteYear

/-- What is more than 64 bits hold after the years are counted is cut down to the largest number. -/
def minimumBalance (length : Nat) : UInt64 :=
  UInt64.ofNat (min (UInt64.size - 1) (roundTo 53 (yearly length).toNat * years))

theorem roundToExact {precision value : Nat} (wide : 0 < precision) (short : value < 1 <<< precision) :
    roundTo precision value = value := by
  rw [Nat.one_shiftLeft] at short
  have bits : value.log2 < precision := by
    rcases Nat.eq_zero_or_pos value with rfl | positive
    · exact wide
    · exact (Nat.log2_lt (Nat.ne_of_gt positive)).2 short
  have shift : value.log2 + 1 - precision = 0 := Nat.sub_eq_zero_of_le bits
  unfold roundTo
  simp only [shift, Nat.shiftLeft_zero, Nat.mod_one, Nat.div_one, Nat.mul_one]
  exact if_pos (.inl Nat.one_pos)

/- For accounts of less than a terabyte neither the rounding nor the wrapping shows. -/
theorem minimumBalanceExact {length : Nat} (short : (128 + length) * 3480 < 1 <<< 53) :
    (minimumBalance length).toNat = (128 + length) * 3480 * 2 := by
  have year : (yearly length).toNat = (128 + length) * 3480 := by
    unfold yearly overhead perByteYear
    rw [UInt64.toNat_mul, UInt64.toNat_add, UInt64.toNat_ofNat']
    change (128 + length % 2 ^ 64) % 2 ^ 64 * 3480 % 2 ^ 64 = _
    omega
  have size : UInt64.size = 2 ^ 64 := rfl
  unfold minimumBalance
  rw [year, roundToExact (by decide) short, UInt64.toNat_ofNat', size, years]
  omega

example : minimumBalance 3228 = 23357760 := by decide +kernel

end TradingPool.Rent
