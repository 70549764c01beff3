import TradingPool.Failure

/-! The commands of the pool program. Every payload starts with one byte that names its command. -/
namespace TradingPool

inductive Command where
  | init
  | create
  | deposit
  | createOrder
  | cancelOrder
  | settleFunds
  | redeem
  | collectFees
  deriving DecidableEq, Repr

inductive TagFault where
  | missing
  | unsupported (tag : UInt8)
  | mismatched (expected found : Command)
  deriving DecidableEq, Repr

namespace Command

def tag : Command → UInt8
  | .init => 0
  | .create => 1
  | .deposit => 2
  | .createOrder => 3
  | .cancelOrder => 4
  | .settleFunds => 5
  | .redeem => 6
  | .collectFees => 7

def ofTag? (b : UInt8) : Option Command :=
  match b.toNat with
  | 0 => some .init
  | 1 => some .create
  | 2 => some .deposit
  | 3 => some .createOrder
  | 4 => some .cancelOrder
  | 5 => some .settleFunds
  | 6 => some .redeem
  | 7 => some .collectFees
  | _ => none

def name : Command → String
  | .init => "Init"
  | .create => "Create"
  | .deposit => "Deposit"
  | .createOrder => "CreateOrder"
  | .cancelOrder => "CancelOrder"
  | .settleFunds => "SettleFunds"
  | .redeem => "Redeem"
  | .collectFees => "CollectFees"

theorem ofTagTag (c : Command) : ofTag? c.tag = some c := by cases c <;> rfl

theorem tagOfOfTag {b : UInt8} {c : Command} (h : ofTag? b = some c) : c.tag = b := by
  apply UInt8.toNat_inj.1
  unfold ofTag? at h
  split at h <;> cases h <;> simp_all [tag]

def split : Bytes → Except TagFault (Command × Bytes)
  | [] => .error .missing
  | b :: fields =>
    match ofTag? b with
    | some c => .ok (c, fields)
    | none => .error (.unsupported b)

def fields (c : Command) (data : Bytes) : Except TagFault Bytes :=
  match split data with
  | .ok (found, rest) => if found = c then .ok rest else .error (.mismatched c found)
  | .error fault => .error fault

end Command

namespace TagFault

/-- The line that the program writes about a refused payload; none for an empty one. -/
def notice? : TagFault → Option String
  | .missing => none
  | .unsupported tag => some s!"Unsupported instruction tag {tag}"
  | .mismatched expected found =>
    some ("Expected a " ++ expected.name ++ " instruction, got " ++ found.name)

def failure : TagFault → Failure := fun _ => .invalidInstruction

end TagFault

end TradingPool
