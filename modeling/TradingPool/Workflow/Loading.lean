import TradingPool.Derivation
import TradingPool.Settings
import TradingPool.Instruction
import TradingPool.Token
import TradingPool.Pool.State
import TradingPool.Venue.Market
import TradingPool.Venue.OpenOrders

/-! The steps that workflows share: loading the pool of a seed and the accounts of the venue, and making
the token accounts that are not there yet. -/
namespace TradingPool.Workflow

open TradingPool.Derivation

def loadPool (settings : Settings) (seed : Seed) : Plan (Key × Pool.State) := do
  let pool ← poolAddress settings.program seed
  let data ← Plan.existing pool (.poolUnavailable pool)
  let state ← Plan.ofExcept (Pool.State.unpack data)
  if state.header.isInitialized then return (pool, state)
  else Plan.fail (.uninitializedPool pool)

def loadMarket (address : Key) : Plan Venue.Market := do
  let data ← Plan.existing address (.accountUnavailable address)
  Plan.ofExcept (Venue.Market.unpack address data)

def loadOpenOrders (address : Key) : Plan Venue.OpenOrders := do
  let data ← Plan.existing address (.accountUnavailable address)
  Plan.ofExcept (Venue.OpenOrders.unpack address data)

structure Holding where
  owner : Key
  mint : Key
  deriving DecidableEq, Repr

/-- Instructions for the token accounts that do not exist, in the order of the holdings. Only the ledger
is consulted, not what is already in the list. -/
def createMissing (settings : Settings) (payer : Key) : List Holding → Plan (List Instruction)
  | [] => return []
  | ⟨owner, mint⟩ :: rest => do
    let address := settings.tokenAccount owner mint
    if ← Plan.accountExists address then createMissing settings payer rest
    else
      Plan.note (.creatingTokenAccount owner mint address)
      let later ← createMissing settings payer rest
      return .createTokenAccount settings.tokenProgram payer address owner mint :: later

end TradingPool.Workflow
