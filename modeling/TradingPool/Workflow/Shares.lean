import TradingPool.Workflow.Loading
import TradingPool.Command.Roster

/-! Pool tokens: buying them with a share of every asset, giving them back for one, and collecting the
fees that are paid in them. -/
namespace TradingPool.Workflow

open TradingPool.Derivation

def depositAccounts (settings : Settings) (pool mint : Key) (state : Pool.State) (sourceOwner : Key) :
    Accounts.Deposit where
  tokenProgram := settings.tokenProgram
  mint
  targetPoolToken := settings.tokenAccount sourceOwner mint
  signalProviderPoolToken := settings.tokenAccount state.header.signalProvider mint
  feePoolToken := settings.tokenAccount settings.feeOwner mint
  burnPoolToken := settings.tokenAccount settings.burnOwner mint
  pool
  poolAssets := state.mints.map (settings.tokenAccount pool)
  sourceOwner
  sourceAssets := state.mints.map (settings.tokenAccount sourceOwner)

/-- Only the depositor's pool token account is made; those that receive fees are named as they are. -/
def deposit (settings : Settings) (payer sourceOwner : Key) (seed : Seed) (poolTokenAmount : UInt64) :
    Plan (List Instruction) := do
  let (pool, state) ← loadPool settings seed
  let mint ← mintAddress settings.program seed
  let creations ← createMissing settings payer [⟨sourceOwner, mint⟩]
  let deposit ← Plan.ofExcept <| Command.deposit.build settings.program
    (depositAccounts settings pool mint state sourceOwner) { seed, poolTokenAmount : Params.Deposit }
  let instructions := creations ++ [deposit]
  Plan.note (.deposit pool instructions.length)
  return instructions

def redeemAccounts (settings : Settings) (pool mint : Key) (state : Pool.State) (sourceOwner : Key) :
    Accounts.Redeem where
  tokenProgram := settings.tokenProgram
  clockSysvar := Programs.clockSysvar
  mint
  sourceOwner
  sourcePoolToken := settings.tokenAccount sourceOwner mint
  pool
  poolAssets := state.mints.map (settings.tokenAccount pool)
  targetAssets := state.mints.map (settings.tokenAccount sourceOwner)

def redeem (settings : Settings) (payer sourceOwner : Key) (seed : Seed) (poolTokenAmount : UInt64) :
    Plan (List Instruction) := do
  let (pool, state) ← loadPool settings seed
  let pending := state.header.status.pendingOrders
  if pending ≠ 0 then Plan.fail (.pendingOrders pending)
  else do
    let mint ← mintAddress settings.program seed
    let creations ← createMissing settings payer (state.mints.map (Holding.mk sourceOwner))
    let redeem ← Plan.ofExcept <| Command.redeem.build settings.program
      (redeemAccounts settings pool mint state sourceOwner) { seed, poolTokenAmount : Params.Redeem }
    let instructions := creations ++ [redeem]
    Plan.note (.redemption pool instructions.length)
    return instructions

def collectAccounts (settings : Settings) (pool mint : Key) (state : Pool.State) : Accounts.CollectFees where
  tokenProgram := settings.tokenProgram
  clockSysvar := Programs.clockSysvar
  pool
  mint
  signalProviderPoolToken := settings.tokenAccount state.header.signalProvider mint
  feePoolToken := settings.tokenAccount settings.feeOwner mint
  burnPoolToken := settings.tokenAccount settings.burnOwner mint

def collectFees (settings : Settings) (payer : Key) (seed : Seed) : Plan (List Instruction) := do
  let (pool, state) ← loadPool settings seed
  let mint ← mintAddress settings.program seed
  let creations ← createMissing settings payer
    [⟨state.header.signalProvider, mint⟩, ⟨settings.feeOwner, mint⟩, ⟨settings.burnOwner, mint⟩]
  let collect ← Plan.ofExcept <| Command.collectFees.build settings.program
    (collectAccounts settings pool mint state) { seed : Params.CollectFees }
  let instructions := creations ++ [collect]
  Plan.note (.feeCollection pool instructions.length)
  return instructions

end TradingPool.Workflow
