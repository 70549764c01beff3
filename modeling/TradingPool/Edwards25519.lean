import TradingPool.LittleEndian

/-! Which 32-byte strings are compressed points of edwards25519. A string is read as a little-endian
number whose top bit is the sign of x; the rest is y modulo the field order, whether or not it is
below it. There is a point with that y exactly when `(y² - 1) / (d y² + 1)` is a square. -/
namespace TradingPool.Edwards25519

def fieldOrder : Nat := (1 <<< 255) - 19

def d : Nat := 37095705934669439343138083508754565189542113879843219016388785533085940283555

/-- The power `base ^ exponent` modulo `modulus`, for exponents of at most `width` bits. -/
def powMod (modulus base : Nat) : Nat → Nat → Nat
  | 0, _ => 1 % modulus
  | width + 1, exponent =>
    let half := powMod modulus base width (exponent / 2)
    let even := half * half % modulus
    if exponent % 2 = 1 then even * base % modulus else even

/-- Euler's criterion. -/
def isSquare (a : Nat) : Bool :=
  a % fieldOrder = 0 ∨ powMod fieldOrder (a % fieldOrder) 255 ((fieldOrder - 1) / 2) = 1

/- The denominator `d y² + 1` is never zero, since `-1 / d` is not a square. The quotient is then a
square exactly when the product is. -/
def isPoint (s : Block 32) : Bool :=
  let y := LittleEndian.decode s.bytes % (1 <<< 255)
  let ySquared := y * y % fieldOrder
  isSquare ((ySquared + fieldOrder - 1) * (d * ySquared + 1))

end TradingPool.Edwards25519
