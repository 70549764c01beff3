/-! JSON text as tokens. Strings and numbers keep the characters they are written with: what an escape
or a digit stands for is settled only where the value is used. -/
namespace TradingPool.Json

inductive Token where
  | openObject
  | closeObject
  | openArray
  | closeArray
  | comma
  | colon
  | null
  | bool (value : Bool)
  | number (lexeme : List Char)
  | string (body : List Char)
  deriving DecidableEq, Repr

def isBlank (c : Char) : Bool := c = ' ' ∨ c = '\n' ∨ c = '\t' ∨ c = '\r'

def isHexDigit (c : Char) : Bool :=
  c.isDigit ∨ ('a' ≤ c ∧ c ≤ 'f') ∨ ('A' ≤ c ∧ c ≤ 'F')

/-- The characters that may follow a backslash, `u` apart. -/
def isShortEscape (c : Char) : Bool := c ∈ ['"', '\\', '/', 'b', 'f', 'n', 'r', 't']

def isNumberChar (c : Char) : Bool := c.isDigit ∨ c ∈ ['+', '-', '.', 'e', 'E']

def digitsOnly (s : List Char) : Bool := !s.isEmpty && s.all Char.isDigit

def isExponent : List Char → Bool
  | '+' :: rest => digitsOnly rest
  | '-' :: rest => digitsOnly rest
  | rest => digitsOnly rest

def isExponentMark (c : Char) : Bool := c = 'e' ∨ c = 'E'

def isWhole : List Char → Bool
  | ['0'] => true
  | '0' :: _ => false
  | digits => digitsOnly digits

def isDecimal (s : List Char) : Bool :=
  match s.span (· ≠ '.') with
  | (whole, []) => isWhole whole
  | (whole, _ :: fraction) => isWhole whole && digitsOnly fraction

def isUnsigned (s : List Char) : Bool :=
  match s.span (!isExponentMark ·) with
  | (decimal, []) => isDecimal decimal
  | (decimal, _ :: exponent) => isDecimal decimal && isExponent exponent

def isNumber : List Char → Bool
  | '-' :: rest => isUnsigned rest
  | rest => isUnsigned rest

def punctuation? : Char → Option Token
  | '{' => some .openObject
  | '}' => some .closeObject
  | '[' => some .openArray
  | ']' => some .closeArray
  | ',' => some .comma
  | ':' => some .colon
  | _ => none

/-- Where the scanner is. Characters already read are kept last first. -/
inductive Mode where
  | between
  | text (body : List Char)
  | escape (body : List Char)
  | hex (left : Nat) (body : List Char)
  | number (lexeme : List Char)
  | word (letters : List Char)
  deriving DecidableEq, Repr

namespace Mode

def numberToken? (lexeme : List Char) : Option Token :=
  if isNumber lexeme.reverse then some (.number lexeme.reverse) else none

def wordToken? (letters : List Char) : Option Token :=
  match letters.reverse with
  | ['n', 'u', 'l', 'l'] => some .null
  | ['t', 'r', 'u', 'e'] => some (.bool true)
  | ['f', 'a', 'l', 's', 'e'] => some (.bool false)
  | _ => none

def start? (c : Char) : Option (Mode × List Token) :=
  match punctuation? c with
  | some token => some (.between, [token])
  | none =>
    if isBlank c then some (.between, [])
    else if c = '"' then some (.text [], [])
    else if c.isDigit ∨ c = '-' then some (.number [c], [])
    else if c.isLower then some (.word [c], [])
    else none

/- A number or a word ends at the first character that cannot belong to it. Two values side by side are
never JSON, so taking as many characters as possible refuses nothing that should pass. -/
def step? : Mode → Char → Option (Mode × List Token)
  | .between, c => start? c
  | .text body, c =>
    if c = '"' then some (.between, [.string body.reverse])
    else if c = '\\' then some (.escape (c :: body), [])
    else if c < ' ' then none
    else some (.text (c :: body), [])
  | .escape body, c =>
    if c = 'u' then some (.hex 4 (c :: body), [])
    else if isShortEscape c then some (.text (c :: body), [])
    else none
  | .hex left body, c =>
    if isHexDigit c then
      some (if left ≤ 1 then .text (c :: body) else .hex (left - 1) (c :: body), [])
    else none
  | .number lexeme, c =>
    if isNumberChar c then some (.number (c :: lexeme), [])
    else do
      let token ← numberToken? lexeme
      let (mode, tokens) ← start? c
      some (mode, token :: tokens)
  | .word letters, c =>
    if c.isLower then some (.word (c :: letters), [])
    else do
      let token ← wordToken? letters
      let (mode, tokens) ← start? c
      some (mode, token :: tokens)

def finish? : Mode → Option (List Token)
  | .between => some []
  | .number lexeme => (numberToken? lexeme).map ([·])
  | .word letters => (wordToken? letters).map ([·])
  | _ => none

def scan? : Mode → List Char → Option (List Token)
  | mode, [] => mode.finish?
  | mode, c :: rest => do
    let (next, tokens) ← mode.step? c
    let later ← next.scan? rest
    some (tokens ++ later)

end Mode

def tokens? (s : List Char) : Option (List Token) := Mode.between.scan? s

def Token.chars : Token → List Char
  | .openObject => ['{']
  | .closeObject => ['}']
  | .openArray => ['[']
  | .closeArray => [']']
  | .comma => [',']
  | .colon => [':']
  | .null => ['n', 'u', 'l', 'l']
  | .bool true => ['t', 'r', 'u', 'e']
  | .bool false => ['f', 'a', 'l', 's', 'e']
  | .number lexeme => lexeme
  | .string body => '"' :: body ++ ['"']

end TradingPool.Json
