import TradingPool.Json.Value
import TradingPool.Hex

/-! What the characters of a JSON string or number stand for. -/
namespace TradingPool.Json

def unit? (a b c d : Char) : Option Nat := do
  let a ← Hex.digit? a
  let b ← Hex.digit? b
  let c ← Hex.digit? c
  let d ← Hex.digit? d
  some (4096 * a + 256 * b + 16 * c + d)

def shortEscape? : Char → Option Char
  | '"' => some '"'
  | '\\' => some '\\'
  | '/' => some '/'
  | 'b' => some '\x08'
  | 'f' => some '\x0c'
  | 'n' => some '\n'
  | 'r' => some '\r'
  | 't' => some '\t'
  | _ => none

def isHighSurrogate (u : Nat) : Bool := 0xd800 ≤ u ∧ u < 0xdc00
def isLowSurrogate (u : Nat) : Bool := 0xdc00 ≤ u ∧ u < 0xe000

/-- A surrogate stands for a character only as a high one followed by a low one. -/
def unescape? : List Char → Option (List Char)
  | [] => some []
  | '\\' :: 'u' :: a :: b :: c :: d :: rest => do
    let u ← unit? a b c d
    if isLowSurrogate u then none
    else if isHighSurrogate u then
      match rest with
      | '\\' :: 'u' :: a' :: b' :: c' :: d' :: rest => do
        let low ← unit? a' b' c' d'
        if isLowSurrogate low then do
          let tail ← unescape? rest
          some (Char.ofNat (0x10000 + 1024 * (u - 0xd800) + (low - 0xdc00)) :: tail)
        else none
      | _ => none
    else do
      let tail ← unescape? rest
      some (Char.ofNat u :: tail)
  | '\\' :: e :: rest => do
    let c ← shortEscape? e
    let tail ← unescape? rest
    some (c :: tail)
  | c :: rest => do
    let tail ← unescape? rest
    some (c :: tail)

def Value.text? : Value → Option (List Char)
  | .string body => unescape? body
  | _ => none

def Value.natural? (max : Nat) : Value → Option Nat
  | .number lexeme =>
    if lexeme.all Char.isDigit then
      let n := lexeme.foldl (fun n c => 10 * n + (c.toNat - 48)) 0
      if n ≤ max then some n else none
    else none
  | _ => none

def Value.ofString (s : String) : Value := .string s.toList
def Value.ofNat (n : Nat) : Value := .number (Nat.toDigits 10 n)

end TradingPool.Json
