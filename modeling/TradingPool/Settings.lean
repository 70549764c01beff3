import TradingPool.Json.Text
import TradingPool.Address
import TradingPool.Venue.OpenOrders

/-! Settings: the programs that take part and the figures for new pools and orders. As text they are a
JSON object with these eight members, the last four optional, or an array of their values in this
order. Members of any other name are passed over. -/
namespace TradingPool

structure Settings where
  program : Key
  venueProgram : Key
  feeOwner : Key
  burnOwner : Key
  tokenProgram : Key := Programs.token
  maxAssets : UInt32 := 10
  maxSeedAttempts : UInt32 := 1000
  openOrdersSize : UInt64 := UInt64.ofNat Venue.openOrdersAccountSize
  deriving DecidableEq, Repr

namespace Settings

open Json

def tokenAccount (settings : Settings) (owner mint : Key) : Key :=
  Address.tokenAccount settings.tokenProgram owner mint

def memberNames : List String :=
  ["program_id", "venue_program_id", "fee_owner", "burn_owner", "token_program_id",
    "max_number_of_assets", "max_seed_attempts", "open_orders_len"]

def memberValues (settings : Settings) : List Value :=
  [.ofString settings.program.text, .ofString settings.venueProgram.text,
    .ofString settings.feeOwner.text, .ofString settings.burnOwner.text,
    .ofString settings.tokenProgram.text, .ofNat settings.maxAssets.toNat,
    .ofNat settings.maxSeedAttempts.toNat, .ofNat settings.openOrdersSize.toNat]

def toJson (settings : Settings) : Value :=
  .object ((memberNames.map String.toList).zip settings.memberValues)

def text (settings : Settings) : String := String.ofList settings.toJson.chars

def key? (value : Value) : Option Key := value.text?.bind (Base58.decode? 32)

def orDefault {α : Type} (default : α) (read : Value → Option α) : Option Value → Option α
  | none => some default
  | some value => read value

/-- From the values of the members in order, `none` for one that is missing. -/
def ofValues? : List (Option Value) → Option Settings
  | [some program, some venueProgram, some feeOwner, some burnOwner, tokenProgram, maxAssets,
      maxSeedAttempts, openOrdersSize] => do
    let program ← key? program
    let venueProgram ← key? venueProgram
    let feeOwner ← key? feeOwner
    let burnOwner ← key? burnOwner
    let base : Settings := { program, venueProgram, feeOwner, burnOwner }
    let tokenProgram ← orDefault base.tokenProgram key? tokenProgram
    let maxAssets ← orDefault base.maxAssets
      (fun v => (v.natural? (UInt32.size - 1)).map UInt32.ofNat) maxAssets
    let maxSeedAttempts ← orDefault base.maxSeedAttempts
      (fun v => (v.natural? (UInt32.size - 1)).map UInt32.ofNat) maxSeedAttempts
    let openOrdersSize ← orDefault base.openOrdersSize
      (fun v => (v.natural? (UInt64.size - 1)).map UInt64.ofNat) openOrdersSize
    some { base with tokenProgram, maxAssets, maxSeedAttempts, openOrdersSize }
  | _ => none

/-- The values of all members of a name; more than one is an error. -/
def member? (members : List (List Char × Value)) (name : String) : Option (Option Value) :=
  match members.filter (·.1 = name.toList) with
  | [] => some none
  | [(_, value)] => some (some value)
  | _ => none

def ofJson? : Value → Option Settings
  | .object members => do
    let named ← members.mapM fun (name, value) => (unescape? name).map fun name => (name, value)
    let values ← memberNames.mapM (member? named)
    ofValues? values
  | .array items =>
    if items.length ≤ memberNames.length then
      ofValues? (items.map some ++ List.replicate (memberNames.length - items.length) none)
    else none
  | _ => none

def orInvalid (settings : Option Settings) : Except Failure Settings :=
  match settings with
  | some settings => .ok settings
  | none => .error (.invalidConfiguration "the settings could not be read")

def ofJson (value : Value) : Except Failure Settings := orInvalid (ofJson? value)

def ofText (s : String) : Except Failure Settings :=
  orInvalid ((Value.ofChars? s.toList).bind ofJson?)

end Settings

end TradingPool
