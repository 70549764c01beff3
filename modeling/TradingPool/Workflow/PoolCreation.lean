import TradingPool.Workflow.Loading
import TradingPool.Command.Roster

/-! A new pool: the search for its seed, the command that allocates it, its token accounts, and the
command that fills it. -/
namespace TradingPool.Workflow

open TradingPool.Derivation

structure PoolRequest where
  payer : Key
  sourceOwner : Key
  sourceAssets : List Key
  signalProvider : Key
  depositAmounts : List UInt64
  markets : List Key
  feeCollectionPeriod : UInt64
  feeRatio : UInt64
  deriving DecidableEq, Repr

structure CreatedPool where
  seed : Seed
  pool : Key
  mint : Key
  instructions : List Instruction
  deriving DecidableEq, Repr

/-- The mints of the source accounts, which must all differ from each other and from those in `seen`. -/
def sourceMints (seen : List Key) : List Key → Plan (List Key)
  | [] => return []
  | source :: rest => do
    let data ← Plan.existing source (.sourceAssetUnavailable source)
    let account ← Plan.ofOption (TokenAccount.unpack? data) (.sourceAssetUnavailable source)
    if account.mint ∈ seen then Plan.fail (.duplicateAsset account.mint)
    else do
      let later ← sourceMints (account.mint :: seen) rest
      return account.mint :: later

def initAccounts (settings : Settings) (payer pool mint : Key) : Accounts.Init where
  systemProgram := Programs.system
  rentSysvar := Programs.rentSysvar
  tokenProgram := settings.tokenProgram
  pool
  mint
  payer

def initParams (settings : Settings) (request : PoolRequest) (seed : Seed) : Params.Init where
  seed
  maxAssets := settings.maxAssets
  marketCount := UInt16.ofNat request.markets.length

/-- The pool's account for each mint stands where the source account of that mint stands in its list. -/
def createAccounts (settings : Settings) (request : PoolRequest) (pool mint : Key) (mints : List Key) :
    Accounts.Create where
  tokenProgram := settings.tokenProgram
  clockSysvar := Programs.clockSysvar
  mint
  targetPoolToken := settings.tokenAccount request.sourceOwner mint
  pool
  poolAssets := mints.map (settings.tokenAccount pool)
  sourceOwner := request.sourceOwner
  sourceAssets := request.sourceAssets

def createParams (settings : Settings) (request : PoolRequest) (seed : Seed) : Params.Create where
  seed
  venueProgram := settings.venueProgram
  signalProvider := request.signalProvider
  feeCollectionPeriod := request.feeCollectionPeriod
  feeRatio := request.feeRatio
  markets := request.markets
  depositAmounts := request.depositAmounts

def createPool (settings : Settings) (request : PoolRequest) : Plan CreatedPool := do
  if request.depositAmounts.length ≠ request.sourceAssets.length then
    Plan.fail (.malformedLength request.sourceAssets.length request.depositAmounts.length)
  else if 65535 < request.markets.length then
    Plan.fail (.overflow request.markets.length 2)
  else do
    let mints ← sourceMints [] request.sourceAssets
    let ⟨seed, pool, mint⟩ ← newPool settings.program settings.maxSeedAttempts
    let init ← Plan.ofExcept <| Command.init.build settings.program
      (initAccounts settings request.payer pool mint) (initParams settings request seed)
    let creations ← createMissing settings request.payer
      (mints.map (Holding.mk pool) ++ [⟨request.sourceOwner, mint⟩])
    let create ← Plan.ofExcept <| Command.create.build settings.program
      (createAccounts settings request pool mint mints) (createParams settings request seed)
    let instructions := init :: creations ++ [create]
    Plan.note (.poolCreation pool mint instructions.length)
    return ⟨seed, pool, mint, instructions⟩

end TradingPool.Workflow
