import TradingPool.LittleEndian

/-! Keys in base 58. A key is read as a big-endian number and written by its digits, with one leading
`1` for each leading zero byte. A text is a key exactly when it is the text that the key is written
by, so 44 characters is the most there can be. -/
namespace TradingPool.Base58

def alphabet : List Char :=
  "123456789ABCDEFGHJKLMNPQRSTUVWXYZabcdefghijkmnopqrstuvwxyz".toList

/-- The low `count` digits of a number, the least significant first. -/
def digits : Nat → Nat → List Nat
  | 0, _ => []
  | count + 1, value => value % 58 :: digits count (value / 58)

def ofDigits : List Nat → Nat
  | [] => 0
  | d :: rest => d + 58 * ofDigits rest

/-- Two digits hold more than one byte. -/
def encode (s : Bytes) : List Char :=
  let zeros := s.takeWhile (· == 0)
  let value := LittleEndian.decode s.reverse
  let written := (digits (2 * s.length) value).reverse.dropWhile (· == 0)
  zeros.map (fun _ => '1') ++ written.map fun d => alphabet.getD d '1'

def value? (text : List Char) : Option Nat :=
  (text.mapM alphabet.idxOf?).map fun ds => ofDigits ds.reverse

def decode? (n : Nat) (text : List Char) : Option (Block n) := do
  let value ← value? text
  let key : Block n :=
    ⟨(LittleEndian.encode n value).reverse, by simp [LittleEndian.lengthEncode]⟩
  if encode key.bytes = text then some key else none

end TradingPool.Base58

namespace TradingPool

def Block.text {n : Nat} (key : Block n) : String := String.ofList (Base58.encode key.bytes)

def Key.ofText? (text : String) : Option Key := Base58.decode? 32 text.toList

end TradingPool
