import TradingPool.Workflow.Loading
import TradingPool.Pool.Tracker

/-! What can be asked of pools without building an instruction. -/
namespace TradingPool.Workflow

open TradingPool.Derivation

structure PoolInfo where
  seed : Seed
  address : Key
  mint : Key
  state : Pool.State
  deriving DecidableEq, Repr

def poolInfo (settings : Settings) (seed : Seed) : Plan PoolInfo := do
  let (address, state) ← loadPool settings seed
  let mint ← mintAddress settings.program seed
  return ⟨seed, address, mint, state⟩

def amounts : List Key → Plan (List UInt64)
  | [] => return []
  | address :: rest => do
    let data ← Plan.existing address (.accountUnavailable address)
    let account ← Plan.ofOption (TokenAccount.unpack? data) .invalidAccountData
    let later ← amounts rest
    return account.amount :: later

def poolBalances (settings : Settings) (seed : Seed) : Plan (UInt64 × List UInt64) := do
  let (pool, state) ← loadPool settings seed
  let mint ← mintAddress settings.program seed
  let data ← Plan.existing mint (.accountUnavailable mint)
  let tokenMint ← Plan.ofOption (TokenMint.unpack? data) .invalidAccountData
  let balances ← amounts (state.mints.map (settings.tokenAccount pool))
  return (tokenMint.supply, balances)

/-- The seed of an account that is a created pool at the address of its own seed. -/
def poolSeed? (settings : Settings) (signalProvider : Option Key) (address : Key) (data : Bytes) :
    Plan (Option Seed) := do
  match Pool.State.unpack data with
  | .error _ => return none
  | .ok ⟨header, _, _⟩ =>
    let derived ← Plan.create [header.seed.bytes] settings.program
    if header.isInitialized ∧ signalProvider.all (· = header.signalProvider) ∧
        derived = some address then
      return some header.seed
    else return none

def poolSeedsAmong (settings : Settings) (signalProvider : Option Key) :
    List (Key × Bytes) → Plan (List Seed)
  | [] => return []
  | (address, data) :: rest => do
    let seed ← poolSeed? settings signalProvider address data
    let later ← poolSeedsAmong settings signalProvider rest
    return seed.toList ++ later

def poolSeeds (settings : Settings) (signalProvider : Option Key) : Plan (List Seed) := do
  poolSeedsAmong settings signalProvider (← Plan.owned settings.program)

def orderTracker (settings : Settings) (seed : Seed) (openOrders : Key) :
    Plan (Option Pool.Tracker) := do
  let address ← trackerAddress settings.program seed openOrders
  match ← Plan.account address with
  | none => return none
  | some data => do return some (← Plan.ofExcept (Pool.Tracker.unpack data))

end TradingPool.Workflow
