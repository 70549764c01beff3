import Mathlib.Data.List.Forall2
import TradingPool.Proofs.LoadingGate
import TradingPool.Proofs.AssetSlots
import TradingPool.Proofs.PoolIdentity

/-! The balances of a pool. They are read from the mint and then from the token accounts of the assets one by one, and
the first account that is no good decides what is wrong. With all of them good, a balance stands at the position by
which orders name its asset. -/
namespace TradingPool.Workflow

open TradingPool.Derivation
open TradingPool.Plan (Yields Fails)

variable {ρ : Type}

/-- The account is stored and unpacks to the record. -/
def Holds (world : World) (unpack? : Bytes → Option ρ) (address : Key) (record : ρ) : Prop :=
  ∃ data, world.account address = some data ∧ unpack? data = some record

/-- Nothing is stored at the address, or something that does not unpack. -/
inductive Unreadable (world : World) (unpack? : Bytes → Option ρ) (address : Key) : Failure → Prop where
  | missing (absent : world.account address = none) : Unreadable world unpack? address (.accountUnavailable address)
  | foreign {data} (stored : world.account address = some data) (unread : unpack? data = none) :
      Unreadable world unpack? address .invalidAccountData

/-- What is wrong with the first of the accounts that is no token account in use. -/
inductive FirstUnreadable (world : World) : List Key → Failure → Prop where
  | here {holder holders failure} (fault : Unreadable world TokenAccount.unpack? holder failure) :
      FirstUnreadable world (holder :: holders) failure
  | behind {holder holders record failure} (good : Holds world TokenAccount.unpack? holder record)
      (first : FirstUnreadable world holders failure) : FirstUnreadable world (holder :: holders) failure

/-- What is wrong with the first of the accounts that balances are read from: the mint, then the holders in order. -/
inductive BalancesFault (world : World) (mint : Key) (holders : List Key) : Failure → Prop where
  | supply {failure} (fault : Unreadable world TokenMint.unpack? mint failure) : BalancesFault world mint holders failure
  | amount {supply failure} (good : Holds world TokenMint.unpack? mint supply)
      (first : FirstUnreadable world holders failure) : BalancesFault world mint holders failure

variable {world : World} {trace later : Trace} {settings : Settings} {seed : Seed} {pool mint : Key}
  {state : Pool.State} {failure : Failure} {unpack? : Bytes → Option ρ} {address : Key} {record : ρ}
  {supply : TokenMint} {holders : List Key} {held : List TokenAccount}

theorem holdsOrNot (world : World) (unpack? : Bytes → Option ρ) (address : Key) :
    (∃ record, Holds world unpack? address record) ∨ ∃ failure, Unreadable world unpack? address failure := by
  cases stored : world.account address with
  | none => exact .inr ⟨_, .missing stored⟩
  | some data =>
    cases read : unpack? data with
    | none => exact .inr ⟨_, .foreign stored read⟩
    | some record => exact .inl ⟨record, data, stored, read⟩

/- By induction on the accounts: a good one in front of them leaves the first that is not as it is. -/
theorem allOrFirst (world : World) (holders : List Key) :
    (∃ held, List.Forall₂ (Holds world TokenAccount.unpack?) holders held) ∨
      ∃ failure, FirstUnreadable world holders failure := by
  induction holders with
  | nil => exact .inl ⟨[], .nil⟩
  | cons holder holders ih =>
    rcases holdsOrNot world TokenAccount.unpack? holder with ⟨record, good⟩ | ⟨failure, fault⟩
    · rcases ih with ⟨held, all⟩ | ⟨failure, first⟩
      · exact .inl ⟨record :: held, .cons good all⟩
      · exact .inr ⟨failure, .behind good first⟩
    · exact .inr ⟨failure, .here fault⟩

theorem allOrFault (world : World) (mint : Key) (holders : List Key) :
    (∃ supply held, Holds world TokenMint.unpack? mint supply ∧
      List.Forall₂ (Holds world TokenAccount.unpack?) holders held) ∨
      ∃ failure, BalancesFault world mint holders failure := by
  rcases holdsOrNot world TokenMint.unpack? mint with ⟨supply, good⟩ | ⟨failure, fault⟩
  · rcases allOrFirst world holders with ⟨held, all⟩ | ⟨failure, first⟩
    · exact .inl ⟨supply, held, good, all⟩
    · exact .inr ⟨failure, .amount good first⟩
  · exact .inr ⟨failure, .supply fault⟩

theorem eachHolds : (∃ held, List.Forall₂ (Holds world TokenAccount.unpack?) holders held) ↔
    ∀ holder ∈ holders, ∃ record, Holds world TokenAccount.unpack? holder record := by
  induction holders with
  | nil => exact ⟨fun _ => nofun, fun _ => ⟨[], .nil⟩⟩
  | cons holder holders ih =>
    rw [List.forall_mem_cons, ← ih]
    constructor
    · rintro ⟨_, all⟩
      cases all with
      | cons good rest => exact ⟨⟨_, good⟩, ⟨_, rest⟩⟩
    · rintro ⟨⟨_, good⟩, ⟨_, rest⟩⟩
      exact ⟨_, .cons good rest⟩

def loadRecord (unpack? : Bytes → Option ρ) (address : Key) : Plan ρ := do
  let data ← Plan.existing address (.accountUnavailable address)
  Plan.ofOption (unpack? data) .invalidAccountData

theorem amountsCons (holder : Key) (holders : List Key) :
    amounts (holder :: holders) = (do
      let account ← loadRecord TokenAccount.unpack? holder
      let rest ← amounts holders
      return account.amount :: rest) :=
  (Plan.bindAssoc ..).symm

section Reading

variable (sound : ∀ n, world.fault n = none)
include sound

theorem recordLoaded (good : Holds world unpack? address record) :
    Yields world trace (loadRecord unpack? address) record trace.afterRead := by
  obtain ⟨data, stored, read⟩ := good
  exact (Plan.yieldsExisting.2 ⟨sound _, stored, rfl⟩).thenYields (Plan.yieldsOfOption.2 ⟨read, rfl⟩)

theorem recordRefused (fault : Unreadable world unpack? address failure) :
    Fails world trace (loadRecord unpack? address) failure trace.afterRead := by
  cases fault with
  | missing absent => exact Plan.failsAtOnce (absentFails (sound _) absent)
  | foreign stored unread =>
    exact (Plan.yieldsExisting.2 ⟨sound _, stored, rfl⟩).thenFails (Plan.failsOfOption.2 ⟨unread, rfl, rfl⟩)

theorem amountsRead (all : List.Forall₂ (Holds world TokenAccount.unpack?) holders held) :
    ∃ later, Yields world trace (amounts holders) (held.map TokenAccount.amount) later := by
  induction all generalizing trace with
  | nil => exact ⟨trace, Plan.yieldsPure.2 ⟨rfl, rfl⟩⟩
  | @cons holder record holders held good _ ih =>
    obtain ⟨later, rest⟩ := ih
    rw [amountsCons]
    exact ⟨later, (recordLoaded sound good).thenYields (rest.thenYields (Plan.yieldsPure.2 ⟨rfl, rfl⟩))⟩

theorem amountsRefused (first : FirstUnreadable world holders failure) :
    ∃ later, Fails world trace (amounts holders) failure later := by
  induction first generalizing trace with
  | here fault =>
    rw [amountsCons]
    exact ⟨_, Plan.failsAtOnce (recordRefused sound fault)⟩
  | behind good _ ih =>
    obtain ⟨later, rest⟩ := ih
    rw [amountsCons]
    exact ⟨later, (recordLoaded sound good).thenFails (Plan.failsAtOnce rest)⟩

end Reading

/-- What is read of a pool that is known with its mint. -/
def loadBalances (settings : Settings) (info : PoolInfo) : Plan (UInt64 × List UInt64) := do
  let supply ← loadRecord TokenMint.unpack? info.mint
  let balances ← amounts (info.state.mints.map (settings.tokenAccount info.address))
  return (supply.supply, balances)

theorem balancesBehindInfo (settings : Settings) (seed : Seed) :
    poolBalances settings seed = poolInfo settings seed >>= loadBalances settings := by
  simp only [poolBalances, poolInfo, loadBalances, loadRecord, bind_assoc, pure_bind]

variable {info : PoolInfo}

section Outcomes

variable (sound : ∀ n, world.fault n = none) (told : (poolInfo settings seed).outcome world = .ok info)
include sound told

theorem balancesAnswered (good : Holds world TokenMint.unpack? info.mint supply)
    (all : List.Forall₂ (Holds world TokenAccount.unpack?)
      (info.state.mints.map (settings.tokenAccount info.address)) held) :
    (poolBalances settings seed).outcome world = .ok (supply.supply, held.map TokenAccount.amount) := by
  obtain ⟨known, informed⟩ := Plan.outcomeYields.1 told
  obtain ⟨later, read⟩ : ∃ later, Yields world known.afterRead (amounts _) _ later := amountsRead sound all
  have loads : Yields world known (loadBalances settings info) _ later :=
    (recordLoaded sound good).thenYields (read.thenYields (Plan.yieldsPure.2 ⟨rfl, rfl⟩))
  rw [balancesBehindInfo]
  exact Plan.outcomeYields.2 ⟨later, informed.thenYields loads⟩

theorem balancesRefused
    (fault : BalancesFault world info.mint (info.state.mints.map (settings.tokenAccount info.address)) failure) :
    (poolBalances settings seed).outcome world = .error failure := by
  obtain ⟨known, informed⟩ := Plan.outcomeYields.1 told
  rw [balancesBehindInfo]
  cases fault with
  | supply fault =>
    exact Plan.outcomeFails.2 ⟨_, informed.thenFails (Plan.failsAtOnce (recordRefused sound fault))⟩
  | amount good first =>
    obtain ⟨later, refused⟩ : ∃ later, Fails world known.afterRead (amounts _) failure later :=
      amountsRefused sound first
    have loads : Fails world known (loadBalances settings info) failure later :=
      (recordLoaded sound good).thenFails (Plan.failsAtOnce refused)
    exact Plan.outcomeFails.2 ⟨later, informed.thenFails loads⟩

/- Nothing else can happen, so that both answers tell what was read. -/
theorem balancesRead {answer : UInt64 × List UInt64} (h : (poolBalances settings seed).outcome world = .ok answer) :
    ∃ record held, Holds world TokenMint.unpack? info.mint record ∧
      List.Forall₂ (Holds world TokenAccount.unpack?)
        (info.state.mints.map (settings.tokenAccount info.address)) held ∧
      answer = (record.supply, held.map TokenAccount.amount) := by
  rcases allOrFault world info.mint (info.state.mints.map (settings.tokenAccount info.address)) with
    ⟨record, held, good, all⟩ | ⟨failure, fault⟩
  · exact ⟨record, held, good, all, Except.ok.inj (h.symm.trans (balancesAnswered sound told good all))⟩
  · cases h.symm.trans (balancesRefused sound told fault)

theorem balancesError (h : (poolBalances settings seed).outcome world = .error failure) :
    BalancesFault world info.mint (info.state.mints.map (settings.tokenAccount info.address)) failure := by
  rcases allOrFault world info.mint (info.state.mints.map (settings.tokenAccount info.address)) with
    ⟨record, held, good, all⟩ | ⟨other, fault⟩
  · cases h.symm.trans (balancesAnswered sound told good all)
  · cases h.symm.trans (balancesRefused sound told fault)
    exact fault

end Outcomes

theorem balanceAt {i : Nat} {asset : Pool.Asset}
    (all : List.Forall₂ (Holds world TokenAccount.unpack?) (state.mints.map (settings.tokenAccount pool)) held)
    (stands : state.assets[i]? = some asset) :
    ∃ record, Holds world TokenAccount.unpack? (settings.tokenAccount pool asset.mint) record ∧
      (held.map TokenAccount.amount)[i]? = some record.amount := by
  have place : (state.mints.map (settings.tokenAccount pool))[i]? = some (settings.tokenAccount pool asset.mint) := by
    rw [List.getElem?_map, Pool.State.mints, List.getElem?_map, stands]
    rfl
  obtain ⟨bound, same⟩ := List.getElem?_eq_some_iff.1 place
  have within := all.length_eq ▸ bound
  have good := all.get bound within
  rw [List.get_eq_getElem, same] at good
  refine ⟨_, good, ?_⟩
  rw [List.getElem?_map, List.getElem?_eq_getElem within]
  rfl

theorem orderPays {payer openOrders : Key} {request : OrderRequest} {submission : OrderSubmission}
    (loaded : PoolSource world {} settings seed pool state)
    (h : (createOrder settings payer seed request openOrders).outcome world = .ok submission) :
    ∃ order, ∃ params : Params.CreateOrder, ∃ asset,
      submission.instructions.getLast? = some order ∧ Command.createOrder.unpack order.data = .ok params ∧
      submission.sourceIndex = params.sourceIndex.toNat ∧ state.assets[params.sourceIndex.toNat]? = some asset ∧
      order.accounts[2]? = some (.writing (settings.tokenAccount pool asset.mint)) := by
  obtain ⟨later, h⟩ := Plan.outcomeYields.1 h
  obtain ⟨_, _, market, marketIndex, sourceIndex, source, tracker, _, order, _, built, rfl⟩ := createOrderSteps h
  obtain ⟨rfl, rfl⟩ := loaded.same source.pool
  obtain ⟨_, accounts, payload⟩ := Command.buildEqOk.1 built
  obtain ⟨asset, stands, mint⟩ := Pool.State.mintAt (Pool.State.assetFirst source.held).1
  refine ⟨order, _, asset, List.getLast?_concat .., payload, source.sourceFits.symm, ?_, ?_⟩
  · exact source.sourceFits.symm ▸ stands
  · rw [accounts, mint]
    rfl

/- The pool of the bid at another address, with its mint and the accounts of its two assets, one of them frozen. -/
def suppliedMint : Bytes :=
  TokenMint.stored.write
    { authorityTag := 1, authority := .fill 32 9, supply := 1000, decimals := 6, initialized := 1
      freezeAuthorityTag := 0, freezeAuthority := .zero 32 }

theorem bidSized : bidPool.length < UInt64.size := by decide +kernel

def suppliedLedger : Ledger :=
  let pool := Address.hash [(Block.fill 32 10).bytes] (.fill 32 9)
  [⟨pool, .fill 32 9, bidPool, bidSized⟩,
    ⟨Address.hash [(Block.fill 32 10).bytes, [mintDiscriminator]] (.fill 32 9), Programs.token, suppliedMint,
      by decide +kernel⟩,
    ⟨plainSettings.tokenAccount pool (.fill 32 2), Programs.token, heldData (.fill 32 2) 700 1, by decide +kernel⟩,
    ⟨plainSettings.tokenAccount pool (.fill 32 5), Programs.token, heldData (.fill 32 5) 40 2, by decide +kernel⟩].foldl
    Ledger.store bidLedger

theorem suppliedRun : (poolBalances plainSettings (.fill 32 10)).outcome (World.ofLedger suppliedLedger) =
    .ok (1000, [700, 40]) := by
  decide +kernel

theorem suppliedBid : ((createOrder plainSettings (.fill 32 12) (.fill 32 10) bidRequest (.fill 32 1)).outcome
    (World.ofLedger suppliedLedger)).toOption.map OrderSubmission.sourceIndex = some 1 := by
  decide +kernel

end TradingPool.Workflow
