import TradingPool.Json.Token

/-! JSON values, read from tokens by a stack of the arrays and objects still open, and written without
blanks. Members keep their order and their repetitions. -/
namespace TradingPool.Json

inductive Value where
  | null
  | bool (value : Bool)
  | number (lexeme : List Char)
  | string (body : List Char)
  | array (items : List Value)
  | object (members : List (List Char × Value))

/-- An open array or object, what it holds so far last first. -/
inductive Frame where
  | array (items : List Value)
  | object (members : List (List Char × Value)) (name : List Char)

inductive Expect where
  | value
  | valueOrEnd
  | name
  | nameOrEnd
  | colon
  | more
  deriving DecidableEq, Repr

inductive Reader where
  | reading (expect : Expect) (frames : List Frame)
  | finished (value : Value)

namespace Reader

def close (value : Value) : List Frame → Reader
  | [] => .finished value
  | .array items :: outer => .reading .more (.array (value :: items) :: outer)
  | .object members name :: outer =>
    .reading .more (.object ((name, value) :: members) name :: outer)

def value? (frames : List Frame) : Token → Option Reader
  | .null => some (close .null frames)
  | .bool b => some (close (.bool b) frames)
  | .number lexeme => some (close (.number lexeme) frames)
  | .string body => some (close (.string body) frames)
  | .openArray => some (.reading .valueOrEnd (.array [] :: frames))
  | .openObject => some (.reading .nameOrEnd (.object [] [] :: frames))
  | _ => none

def end? : List Frame → Token → Option Reader
  | .array items :: outer, .closeArray => some (close (.array items.reverse) outer)
  | .object members _ :: outer, .closeObject => some (close (.object members.reverse) outer)
  | _, _ => none

def name? : List Frame → Token → Option Reader
  | .object members _ :: outer, .string body =>
    some (.reading .colon (.object members body :: outer))
  | _, _ => none

def more? : List Frame → Token → Option Reader
  | .array items :: outer, .comma => some (.reading .value (.array items :: outer))
  | .object members name :: outer, .comma =>
    some (.reading .name (.object members name :: outer))
  | frames, token => end? frames token

def step? : Reader → Token → Option Reader
  | .finished _, _ => none
  | .reading .value frames, token => value? frames token
  | .reading .valueOrEnd frames, token => (end? frames token).or (value? frames token)
  | .reading .name frames, token => name? frames token
  | .reading .nameOrEnd frames, token => (end? frames token).or (name? frames token)
  | .reading .colon frames, token =>
    if token = .colon then some (.reading .value frames) else none
  | .reading .more frames, token => more? frames token

end Reader

namespace Value

def ofTokens? (tokens : List Token) : Option Value :=
  match tokens.foldlM Reader.step? (.reading .value []) with
  | some (.finished value) => some value
  | _ => none

def ofChars? (s : List Char) : Option Value := (tokens? s).bind ofTokens?

mutual

def tokens : Value → List Token
  | .null => [.null]
  | .bool b => [.bool b]
  | .number lexeme => [.number lexeme]
  | .string body => [.string body]
  | .array items => .openArray :: itemTokens items ++ [.closeArray]
  | .object members => .openObject :: memberTokens members ++ [.closeObject]

def itemTokens : List Value → List Token
  | [] => []
  | [item] => tokens item
  | item :: rest => tokens item ++ .comma :: itemTokens rest

def memberTokens : List (List Char × Value) → List Token
  | [] => []
  | [(name, value)] => .string name :: .colon :: tokens value
  | (name, value) :: rest => .string name :: .colon :: tokens value ++ .comma :: memberTokens rest

end

def chars (value : Value) : List Char := value.tokens.flatMap Token.chars

end Value

end TradingPool.Json
