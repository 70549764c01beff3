import Mathlib.Data.List.Forall2
import TradingPool.Proofs.Assembly
import TradingPool.Proofs.IntegerCodec

/-! What the lists hold, instruction by instruction: the program that is called, the accounts by position, each with
whether it signs and whether it is written to, and the payload. Nothing is said here by way of how an instruction is
built. -/
namespace TradingPool

open LittleEndian (places)

namespace Instruction

/-- A command of the pool program, with a payload that decodes to the parameters. -/
structure Calls (instruction : Instruction) (program : Key) (c : Command) (accounts : List AccountMeta)
    (params : c.Params) : Prop where
  called : instruction.program = program
  accounts : instruction.accounts = accounts
  payload : c.unpack instruction.data = .ok params

/-- The payer has the account made in which the owner keeps tokens of the mint. -/
structure OpensTokenAccount (instruction : Instruction) (settings : Settings) (payer owner mint : Key) : Prop where
  called : instruction.program = Programs.associatedToken
  accounts : instruction.accounts =
    [⟨payer, true, true⟩, ⟨settings.tokenAccount owner mint, false, true⟩, ⟨owner, false, false⟩,
      ⟨mint, false, false⟩, ⟨Programs.system, false, false⟩, ⟨settings.tokenProgram, false, false⟩]
  payload : instruction.data = [0]

/-- An account that both the payer and the account sign for. Behind the number of the instruction the payload says
what the account is given, how long it is, and which program it belongs to. -/
structure OpensAccount (instruction : Instruction) (payer account : Key) (balance space : UInt64) (owner : Key) :
    Prop where
  called : instruction.program = Programs.system
  accounts : instruction.accounts = [⟨payer, true, true⟩, ⟨account, true, true⟩]
  payload : instruction.data = places 4 0 ++ places 8 balance.toNat ++ places 8 space.toNat ++ owner.bytes

variable {program : Key} {c : Command} {instruction : Instruction}

theorem buildCalls {accounts : c.Accounts} {params : c.Params}
    (built : c.build program accounts params = .ok instruction) :
    instruction.Calls program c (c.metas accounts) params := by
  obtain ⟨called, accounts, payload⟩ := Command.buildEqOk.1 built
  exact ⟨called, accounts, payload⟩

theorem createAccountOpens (payer account : Key) (balance space : UInt64) (owner : Key) :
    (createAccount payer account balance space owner).OpensAccount payer account balance space owner where
  called := rfl
  accounts := rfl
  payload := by
    simp only [← LittleEndian.encodePlaces, List.append_assoc]
    rfl

end Instruction

namespace Workflow

open TradingPool.Derivation
open TradingPool.Plan (Yields)

variable {world : World} {settings : Settings} {payer pool mint : Key} {op : Operation} {answer : op.Answer}

/-- One token account for each holding that has none on the ledger, in the order of the holdings, and nothing for the
others. -/
def OpensMissing (world : World) (settings : Settings) (payer : Key) (wanted : List Holding)
    (made : List Instruction) : Prop :=
  List.Forall₂ (fun holding instruction => instruction.OpensTokenAccount settings payer holding.owner holding.mint)
    (wanted.filter fun holding => (world.account (settings.tokenAccount holding.owner holding.mint)).isNone) made

def writable (keys : List Key) : List AccountMeta := keys.map fun key => ⟨key, false, true⟩

/-- The list of each workflow: what opens it, the token accounts that it wants, and the command of the pool. -/
inductive Listed (world : World) (settings : Settings) (pool mint : Key) : (op : Operation) → op.Answer → Prop where
  | createPool {request seed mints init made last}
      (sources : SourceMints world [] request.sourceAssets mints)
      (opens : init.Calls settings.program .init
        [⟨Programs.system, false, false⟩, ⟨Programs.rentSysvar, false, false⟩, ⟨settings.tokenProgram, false, false⟩,
          ⟨pool, false, true⟩, ⟨mint, false, true⟩, ⟨request.payer, true, true⟩]
        { seed, maxAssets := settings.maxAssets
          marketCount := UInt16.ofNat request.markets.length : Params.Init })
      (makes : OpensMissing world settings request.payer
        (mints.map (Holding.mk pool) ++ [⟨request.sourceOwner, mint⟩]) made)
      (ends : last.Calls settings.program .create
        ([⟨settings.tokenProgram, false, false⟩, ⟨Programs.clockSysvar, false, false⟩, ⟨mint, false, true⟩,
            ⟨settings.tokenAccount request.sourceOwner mint, false, true⟩, ⟨pool, false, true⟩] ++
          writable (mints.map (settings.tokenAccount pool)) ++ [⟨request.sourceOwner, true, false⟩] ++
          writable request.sourceAssets)
        { seed, venueProgram := settings.venueProgram, signalProvider := request.signalProvider
          feeCollectionPeriod := request.feeCollectionPeriod, feeRatio := request.feeRatio
          markets := request.markets, depositAmounts := request.depositAmounts : Params.Create }) :
      Listed world settings pool mint (.createPool request) ⟨seed, pool, mint, [init] ++ made ++ [last]⟩
  | deposit {payer sourceOwner seed amount state made last}
      (loaded : PoolSource world {} settings seed pool state)
      (named : NamesMint world (loadTrace settings seed) settings seed mint)
      (makes : OpensMissing world settings payer [⟨sourceOwner, mint⟩] made)
      (ends : last.Calls settings.program .deposit
        ([⟨settings.tokenProgram, false, false⟩, ⟨mint, false, true⟩,
            ⟨settings.tokenAccount sourceOwner mint, false, true⟩,
            ⟨settings.tokenAccount state.header.signalProvider mint, false, true⟩,
            ⟨settings.tokenAccount settings.feeOwner mint, false, true⟩,
            ⟨settings.tokenAccount settings.burnOwner mint, false, true⟩, ⟨pool, false, true⟩] ++
          writable (state.mints.map (settings.tokenAccount pool)) ++ [⟨sourceOwner, true, false⟩] ++
          writable (state.mints.map (settings.tokenAccount sourceOwner)))
        { seed, poolTokenAmount := amount : Params.Deposit }) :
      Listed world settings pool mint (.deposit payer sourceOwner seed amount) (made ++ [last])
  | createOrder {payer seed request openOrders state market marketIndex sourceIndex source target tracker balance
        first made last}
      (placed : PlacementSource world {} settings seed request pool state market marketIndex sourceIndex)
      (sides : request.side = .bid ∧ source = market.pcMint ∧ target = market.coinMint ∨
        request.side = .ask ∧ source = market.coinMint ∧ target = market.pcMint)
      (told : world.balance settings.openOrdersSize = .ok balance)
      (opens : first.OpensAccount payer openOrders balance settings.openOrdersSize state.header.venueProgram)
      (makes : OpensMissing world settings payer [⟨pool, target⟩] made)
      (ends : last.Calls settings.program .createOrder
        ([⟨state.header.signalProvider, true, false⟩, ⟨request.market, false, true⟩,
            ⟨settings.tokenAccount pool source, false, true⟩, ⟨openOrders, false, true⟩,
            ⟨market.requestQueue, false, true⟩, ⟨pool, false, true⟩, ⟨market.coinVault, false, true⟩,
            ⟨market.pcVault, false, true⟩, ⟨settings.tokenProgram, false, false⟩,
            ⟨Programs.rentSysvar, false, false⟩, ⟨state.header.venueProgram, false, false⟩] ++
          writable request.referrer.toList)
        { seed, side := request.side, limitPrice := request.limitPrice, maxQuantity := request.maxQuantity
          orderType := request.orderType, clientId := request.clientId, selfTrade := request.selfTrade
          sourceIndex := UInt64.ofNat sourceIndex, targetIndex := UInt64.ofNat (state.assetSlot target)
          marketIndex := UInt16.ofNat marketIndex, coinLotSize := market.coinLotSize
          pcLotSize := market.pcLotSize, targetMint := target : Params.CreateOrder }) :
      Listed world settings pool mint (.createOrder payer seed request openOrders)
        ⟨openOrders, tracker, sourceIndex, state.assetSlot target, [first] ++ made ++ [last]⟩
  | cancelOrder {seed market openOrders state info orders orderId last}
      (loaded : PoolSource world {} settings seed pool state)
      (venue : MarketSource world (loadTrace settings seed) market info)
      (resting : OrdersSource world (loadTrace settings seed).afterRead openOrders orders)
      (first : orders.firstOrder? = some orderId)
      (ends : last.Calls settings.program .cancelOrder
        [⟨state.header.signalProvider, true, false⟩, ⟨market, false, false⟩, ⟨openOrders, false, true⟩,
          ⟨info.requestQueue, false, true⟩, ⟨pool, false, false⟩, ⟨state.header.venueProgram, false, false⟩]
        { seed, side := orderId.side, orderId : Params.CancelOrder }) :
      Listed world settings pool mint (.cancelOrder seed market openOrders) [last]
  | settleFunds {seed market openOrders referrer state info coinIndex pcIndex signer last}
      (loaded : PoolSource world {} settings seed pool state)
      (venue : MarketSource world (loadTrace settings seed) market info)
      (coinHeld : state.assetIndex? info.coinMint = some coinIndex)
      (pcHeld : state.assetIndex? info.pcMint = some pcIndex)
      (signs : world.create (loadTrace settings seed).calls
        [market.bytes, places 8 info.vaultSignerNonce.toNat] state.header.venueProgram = some signer)
      (named : NamesMint world
        (signerTrace settings seed market info.vaultSignerNonce state.header.venueProgram) settings seed mint)
      (ends : last.Calls settings.program .settleFunds
        ([⟨market, false, true⟩, ⟨openOrders, false, true⟩, ⟨pool, false, true⟩, ⟨mint, false, false⟩,
            ⟨info.coinVault, false, true⟩, ⟨info.pcVault, false, true⟩,
            ⟨settings.tokenAccount pool info.coinMint, false, true⟩,
            ⟨settings.tokenAccount pool info.pcMint, false, true⟩, ⟨signer, false, false⟩,
            ⟨settings.tokenProgram, false, false⟩, ⟨state.header.venueProgram, false, false⟩] ++
          writable referrer.toList)
        { seed, pcIndex := UInt64.ofNat pcIndex, coinIndex := UInt64.ofNat coinIndex : Params.SettleFunds }) :
      Listed world settings pool mint (.settleFunds seed market openOrders referrer) [last]
  | redeem {payer sourceOwner seed amount state made last}
      (loaded : PoolSource world {} settings seed pool state)
      (named : NamesMint world (loadTrace settings seed) settings seed mint)
      (makes : OpensMissing world settings payer (state.mints.map (Holding.mk sourceOwner)) made)
      (ends : last.Calls settings.program .redeem
        ([⟨settings.tokenProgram, false, false⟩, ⟨Programs.clockSysvar, false, false⟩, ⟨mint, false, true⟩,
            ⟨sourceOwner, true, false⟩, ⟨settings.tokenAccount sourceOwner mint, false, true⟩, ⟨pool, false, true⟩] ++
          writable (state.mints.map (settings.tokenAccount pool)) ++
          writable (state.mints.map (settings.tokenAccount sourceOwner)))
        { seed, poolTokenAmount := amount : Params.Redeem }) :
      Listed world settings pool mint (.redeem payer sourceOwner seed amount) (made ++ [last])
  | collectFees {payer seed state made last}
      (loaded : PoolSource world {} settings seed pool state)
      (named : NamesMint world (loadTrace settings seed) settings seed mint)
      (makes : OpensMissing world settings payer [⟨state.header.signalProvider, mint⟩, ⟨settings.feeOwner, mint⟩,
        ⟨settings.burnOwner, mint⟩] made)
      (ends : last.Calls settings.program .collectFees
        [⟨settings.tokenProgram, false, false⟩, ⟨Programs.clockSysvar, false, false⟩, ⟨pool, false, true⟩,
          ⟨mint, false, true⟩, ⟨settings.tokenAccount state.header.signalProvider mint, false, true⟩,
          ⟨settings.tokenAccount settings.feeOwner mint, false, true⟩,
          ⟨settings.tokenAccount settings.burnOwner mint, false, true⟩]
        { seed : Params.CollectFees }) :
      Listed world settings pool mint (.collectFees payer seed) (made ++ [last])

theorem creationsOpen (world : World) (settings : Settings) (payer : Key) (wanted : List Holding) :
    OpensMissing world settings payer wanted (creations world settings payer wanted) :=
  List.forall₂_map_right_iff.2 (List.forall₂_same.2 fun _ _ => ⟨rfl, rfl, rfl⟩)

theorem Assembled.listed (h : Assembled world settings pool mint op answer) :
    Listed world settings pool mint op answer := by
  have made := creationsOpen world settings
  cases h with
  | createPool sources initBuilt createBuilt =>
    exact .createPool sources (Instruction.buildCalls initBuilt) (made _ _) (Instruction.buildCalls createBuilt)
  | deposit loaded named built => exact .deposit loaded named (made _ _) (Instruction.buildCalls built)
  | createOrder placed told built =>
    exact .createOrder placed (legsOfSide ..) told (Instruction.createAccountOpens ..) (made _ _)
      (Instruction.buildCalls built)
  | cancelOrder loaded venue resting first built =>
    exact .cancelOrder loaded venue resting first (Instruction.buildCalls built)
  | settleFunds loaded venue coinHeld pcHeld signs named built =>
    refine .settleFunds loaded venue coinHeld pcHeld ?_ named (Instruction.buildCalls built)
    rw [← LittleEndian.encodePlaces]
    exact signs
  | redeem loaded idle named built => exact .redeem loaded named (made _ _) (Instruction.buildCalls built)
  | collectFees loaded named built => exact .collectFees loaded named (made _ _) (Instruction.buildCalls built)

end Workflow
end TradingPool
