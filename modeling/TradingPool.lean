import TradingPool.Width
import TradingPool.World
import TradingPool.Workflow.PoolCreation
import TradingPool.Workflow.Shares
import TradingPool.Workflow.Trading
import TradingPool.Workflow.Queries
import TradingPool.Proofs.Payload
import TradingPool.Proofs.PoolAccount
import TradingPool.Proofs.Run
import TradingPool.Proofs.PoolIndex
import TradingPool.Proofs.Loading
import TradingPool.Proofs.OrderPlacement
import TradingPool.Proofs.PoolCreation
import TradingPool.Proofs.Offsets
import TradingPool.Proofs.ProgramAddress
import TradingPool.Proofs.TokenAccounts
import TradingPool.Workflow.Operation
import TradingPool.Proofs.Assembly
import TradingPool.Proofs.AccountCreation
import TradingPool.Proofs.FailedReads
import TradingPool.Proofs.PoolIdentity
import TradingPool.Proofs.Refusal
import TradingPool.Proofs.Settlement
import TradingPool.Proofs.ShareAccounts
import TradingPool.Proofs.Signers
import TradingPool.Proofs.PoolListing
import TradingPool.Proofs.CheckedCodec
import TradingPool.Proofs.CreationSettings
import TradingPool.Proofs.LoadingGate
import TradingPool.Proofs.LocalFailures
import TradingPool.Proofs.CreationFailures
import TradingPool.Proofs.Cancellation
import TradingPool.Proofs.JsonTokens
import TradingPool.Proofs.JsonValues
import TradingPool.Proofs.KeyText
import TradingPool.Proofs.SettingsText
import TradingPool.Proofs.DerivedAddresses
import TradingPool.Proofs.AssetSlots
import TradingPool.Proofs.HeaderNormalForm
import TradingPool.Proofs.VenueRecords
import TradingPool.Proofs.ShortAccounts
import TradingPool.Proofs.AssetCapacity
import TradingPool.Proofs.ShareInputs
import TradingPool.Proofs.Balances
import TradingPool.Proofs.IntegerCodec
