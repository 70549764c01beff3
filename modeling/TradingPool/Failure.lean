import TradingPool.Base58
import TradingPool.Hex

/-! Everything that can go wrong, each with the figures its message shows. Local failures are found in
the arguments or in data already at hand; the others depend on what the ledger holds. -/
namespace TradingPool

inductive Failure where
  | malformedLength (expected actual : Nat)
  | overflow (value width : Nat)
  | truncatedAccount (expected actual : Nat)
  | invalidStatusByte (byte : UInt8)
  | invalidAccountData
  | invalidInstruction
  | sourceAssetUnavailable (account : Key)
  | poolUnavailable (pool : Key)
  | accountUnavailable (account : Key)
  | uninitializedPool (pool : Key)
  | unauthorizedMarket (market : Key)
  | unknownPoolAsset (mint : Key)
  | noOpenOrder (openOrders : Key)
  | pendingOrders (count : UInt8)
  | seedSearchExhausted (attempts : UInt32)
  | invalidDerivation
  | ledger (text : String)
  | invalidConfiguration (text : String)
  | duplicateAsset (mint : Key)
  deriving DecidableEq, Repr

namespace Failure

def message : Failure → String
  | .malformedLength expected actual => s!"Expected at least {expected} bytes, got {actual}"
  | .overflow value width => s!"The value {value} does not fit in {width} bytes"
  | .truncatedAccount expected actual =>
    s!"The account holds {actual} bytes, at least {expected} are required"
  | .invalidStatusByte byte => "Invalid pool status byte 0x" ++ String.ofList (Hex.ofByte byte)
  | .invalidAccountData => "The account data could not be decoded"
  | .invalidInstruction => "The instruction data could not be decoded"
  | .sourceAssetUnavailable account => "The source asset account " ++ account.text ++ " is unavailable"
  | .poolUnavailable pool => "The pool account " ++ pool.text ++ " is unavailable"
  | .accountUnavailable account => "The account " ++ account.text ++ " is unavailable"
  | .uninitializedPool pool => "The pool " ++ pool.text ++ " has not been created yet"
  | .unauthorizedMarket market => "The market " ++ market.text ++ " is not authorized for this pool"
  | .unknownPoolAsset mint => "The pool does not hold any " ++ mint.text ++ " asset"
  | .noOpenOrder openOrders =>
    "The open orders account " ++ openOrders.text ++ " has no outstanding order"
  | .pendingOrders count => s!"The pool has {count} pending order(s)"
  | .seedSearchExhausted attempts => s!"No usable pool seed was found after {attempts} attempts"
  | .invalidDerivation => "The seeds do not derive a valid program address"
  | .ledger text => "Ledger error: " ++ text
  | .invalidConfiguration text => "Invalid configuration: " ++ text
  | .duplicateAsset mint => "Two source accounts hold the same mint " ++ mint.text

/-- The number that a failed program call reports. -/
def code : Failure → Nat
  | .malformedLength .. => 0
  | .overflow .. => 1
  | .truncatedAccount .. => 2
  | .invalidStatusByte _ => 3
  | .invalidAccountData => 4
  | .invalidInstruction => 5
  | .sourceAssetUnavailable _ => 6
  | .poolUnavailable _ => 7
  | .accountUnavailable _ => 8
  | .uninitializedPool _ => 9
  | .unauthorizedMarket _ => 10
  | .unknownPoolAsset _ => 11
  | .noOpenOrder _ => 12
  | .pendingOrders _ => 13
  | .seedSearchExhausted _ => 14
  | .invalidDerivation => 15
  | .ledger _ => 16
  | .invalidConfiguration _ => 17
  | .duplicateAsset _ => 18

def isLocal : Failure → Bool
  | .malformedLength .. | .overflow .. | .truncatedAccount .. | .invalidStatusByte _
  | .invalidAccountData | .invalidInstruction | .invalidConfiguration _ => true
  | _ => false

end Failure

theorem bindEqOk {α β : Type} {first : Except Failure α} {next : α → Except Failure β} {b : β} :
    (first >>= next) = .ok b ↔ ∃ a, first = .ok a ∧ next a = .ok b := by
  cases first with
  | error failure => exact ⟨nofun, fun ⟨_, impossible, _⟩ => nomatch impossible⟩
  | ok a =>
    refine ⟨fun h => ⟨a, rfl, h⟩, fun h => ?_⟩
    obtain ⟨_, same, h⟩ := h
    cases same
    exact h

theorem mapEqOk {α β : Type} {first : Except Failure α} {f : α → β} {b : β} :
    first.map f = .ok b ↔ ∃ a, first = .ok a ∧ f a = b := by
  cases first with
  | error failure => exact ⟨nofun, fun ⟨_, impossible, _⟩ => nomatch impossible⟩
  | ok a =>
    refine ⟨fun h => ⟨a, rfl, Except.ok.inj h⟩, fun h => ?_⟩
    obtain ⟨_, same, rfl⟩ := h
    cases same
    rfl

theorem mapEqError {α β : Type} {first : Except Failure α} {f : α → β} {failure : Failure} :
    first.map f = .error failure ↔ first = .error failure := by
  cases first with
  | error other => simp [Except.map]
  | ok a => exact ⟨nofun, nofun⟩

end TradingPool
