import TradingPool.Layout
import TradingPool.Failure

/-! Accounts of the order book venue: five fixed bytes, then a record whose first eight bytes are flags.
Bit 0 says that the account is in use; one more bit says what it is. -/
namespace TradingPool.Venue

/-- The text `serum`. -/
def head : Bytes := [0x73, 0x65, 0x72, 0x75, 0x6d]

/-- The text `padding`, which ends an account. It is never looked at. -/
def tail : Bytes := [0x70, 0x61, 0x64, 0x64, 0x69, 0x6e, 0x67]

def initializedBit : Nat := 0
def marketBit : Nat := 1
def openOrdersBit : Nat := 2

def frame {α : Type} (record : Layout α) (a : α) : Bytes := head ++ record.write a ++ tail

/-- The record of an account whose flags have bit 0 and the given bit. -/
def unframe {α : Type} (record : Layout α) (flags : α → UInt64) (roleBit : Nat) (data : Bytes) :
    Except Failure α :=
  if data.take head.length = head then
    match record.read (data.drop head.length) with
    | some (a, _) =>
      if (flags a).toBitVec.getLsbD initializedBit && (flags a).toBitVec.getLsbD roleBit then .ok a
      else .error .invalidAccountData
    | none => .error .invalidAccountData
  else .error .invalidAccountData

theorem unframeError {α : Type} {record : Layout α} {flags : α → UInt64} {roleBit : Nat} {data : Bytes}
    {failure : Failure} (h : unframe record flags roleBit data = .error failure) :
    failure = .invalidAccountData := by
  unfold unframe at h
  split at h
  · split at h
    · split at h <;> cases h
      rfl
    · cases h
      rfl
  · cases h
    rfl

end TradingPool.Venue
