import TradingPool.Bytes

/-! Bytes as pairs of hexadecimal digits, lower case when written and of either case when read. -/
namespace TradingPool.Hex

def ofByte (b : UInt8) : List Char :=
  [Nat.digitChar (b.toNat / 16), Nat.digitChar (b.toNat % 16)]

def encode (s : Bytes) : String := String.ofList (s.flatMap ofByte)

def digit? (c : Char) : Option Nat :=
  if '0' ≤ c ∧ c ≤ '9' then some (c.toNat - 48)
  else if 'a' ≤ c ∧ c ≤ 'f' then some (c.toNat - 87)
  else if 'A' ≤ c ∧ c ≤ 'F' then some (c.toNat - 55)
  else none

def bytes? : List Char → Option Bytes
  | [] => some []
  | high :: low :: rest => do
    let h ← digit? high
    let l ← digit? low
    let tail ← bytes? rest
    some (UInt8.ofNat (16 * h + l) :: tail)
  | [_] => none

def decode? (text : String) : Option Bytes := bytes? text.toList

end TradingPool.Hex
