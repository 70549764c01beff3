import TradingPool.Workflow.PoolCreation
import TradingPool.Workflow.Shares
import TradingPool.Workflow.Trading
import TradingPool.Workflow.Queries

/-! All that can be asked of a client, as data. Seven operations answer with instructions, four with what
the ledger holds. -/
namespace TradingPool.Workflow

inductive Operation where
  | createPool (request : PoolRequest)
  | deposit (payer sourceOwner : Key) (seed : Seed) (poolTokenAmount : UInt64)
  | createOrder (payer : Key) (seed : Seed) (request : OrderRequest) (openOrders : Key)
  | cancelOrder (seed : Seed) (market openOrders : Key)
  | settleFunds (seed : Seed) (market openOrders : Key) (referrer : Option Key)
  | redeem (payer sourceOwner : Key) (seed : Seed) (poolTokenAmount : UInt64)
  | collectFees (payer : Key) (seed : Seed)
  | poolInfo (seed : Seed)
  | poolBalances (seed : Seed)
  | poolSeeds (signalProvider : Option Key)
  | orderTracker (seed : Seed) (openOrders : Key)
  deriving DecidableEq, Repr

namespace Operation

abbrev Answer : Operation → Type
  | .createPool _ => CreatedPool
  | .createOrder .. => OrderSubmission
  | .deposit .. | .cancelOrder .. | .settleFunds .. | .redeem .. | .collectFees .. => List Instruction
  | .poolInfo _ => PoolInfo
  | .poolBalances _ => UInt64 × List UInt64
  | .poolSeeds _ => List Seed
  | .orderTracker .. => Option Pool.Tracker

def plan (settings : Settings) : (op : Operation) → Plan op.Answer
  | .createPool request => Workflow.createPool settings request
  | .deposit payer sourceOwner seed amount => Workflow.deposit settings payer sourceOwner seed amount
  | .createOrder payer seed request openOrders =>
    Workflow.createOrder settings payer seed request openOrders
  | .cancelOrder seed market openOrders => Workflow.cancelOrder settings seed market openOrders
  | .settleFunds seed market openOrders referrer =>
    Workflow.settleFunds settings seed market openOrders referrer
  | .redeem payer sourceOwner seed amount => Workflow.redeem settings payer sourceOwner seed amount
  | .collectFees payer seed => Workflow.collectFees settings payer seed
  | .poolInfo seed => Workflow.poolInfo settings seed
  | .poolBalances seed => Workflow.poolBalances settings seed
  | .poolSeeds signalProvider => Workflow.poolSeeds settings signalProvider
  | .orderTracker seed openOrders => Workflow.orderTracker settings seed openOrders

def instructions : (op : Operation) → op.Answer → List Instruction
  | .createPool _, created => created.instructions
  | .createOrder .., submission => submission.instructions
  | .deposit .., list | .cancelOrder .., list | .settleFunds .., list | .redeem .., list
  | .collectFees .., list => list
  | .poolInfo _, _ | .poolBalances _, _ | .poolSeeds _, _ | .orderTracker .., _ => []

/-- The seed of the pool that is loaded first, if one is. -/
def poolSeed? : Operation → Option Seed
  | .deposit _ _ seed _ | .createOrder _ seed _ _ | .cancelOrder seed _ _ | .settleFunds seed _ _ _
  | .redeem _ _ seed _ | .collectFees _ seed | .poolInfo seed | .poolBalances seed => some seed
  | .createPool _ | .poolSeeds _ | .orderTracker .. => none

end Operation

end TradingPool.Workflow
