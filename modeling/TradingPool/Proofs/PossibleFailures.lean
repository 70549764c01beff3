import TradingPool.Proofs.Assembly
import TradingPool.Proofs.CheckedCodec
import TradingPool.Proofs.FailureKinds

/-! What an operation can fail with. Each operation has a short list of kinds, whatever the ledger holds, and a
failure of any other kind is that of a read. Some kinds are on no list, and some on the list of one operation
only. -/
namespace TradingPool

variable {α β : Type} {world : World} {later : Trace} {failure : Failure}

namespace Command

/- Only what has more markets than can be counted cannot be built. -/
theorem builds {c : Command} (program : Key) (accounts : c.Accounts) (params : c.Params)
    (few : ∀ q : Params.Create, (⟨c, params⟩ : (c : Command) × c.Params) = ⟨.create, q⟩ → q.markets.length ≤ 65535) :
    ∃ instruction, c.build program accounts params = .ok instruction := by
  cases packed : c.pack params with
  | error failure =>
    obtain ⟨q, same, many, _⟩ := packFieldsEqError.1 (packEqError.1 packed)
    exact absurd (few q same) (Nat.not_le.2 many)
  | ok data =>
    unfold build
    rw [packed]
    exact ⟨_, rfl⟩

end Command

theorem Pool.Tracker.unpackRefused {data : Bytes} (h : unpack data = .error failure) :
    failure.kind ∈ [.truncatedAccount, .invalidAccountData] := by
  unfold unpack at h
  split at h
  · cases h
    exact .head _
  · split at h <;> cases h
    exact .tail _ (.head _)

theorem Pool.State.unpackRefused {data : Bytes} (h : unpack data = .error failure) :
    failure.kind = .truncatedAccount := by
  rcases unpackEqError.1 h with ⟨_, rfl⟩ | ⟨_, _, rfl⟩ <;> rfl

namespace Workflow

open TradingPool.Derivation
open TradingPool.Plan (Fails FailsOnly)
open Failure (Kind)

variable {kinds : List Kind}

theorem failsOnlyDerive (known : .invalidDerivation ∈ kinds) (seeds : List Bytes) (program : Key) :
    (derive seeds program).FailsOnly kinds :=
  (FailsOnly.create seeds program).bind fun _ => .ofOption known _

theorem failsOnlyTracker (known : .invalidDerivation ∈ kinds) (program : Key) (seed : Seed) (openOrders : Key) :
    (trackerAddress program seed openOrders).FailsOnly kinds :=
  (FailsOnly.find _ program).bind fun _ => .ofOption known _

theorem failsOnlySearch (program : Key) (attempt remaining : Nat) :
    (searchSeed program attempt remaining).FailsOnly kinds := by
  induction remaining generalizing attempt with
  | zero => exact .done _
  | succ remaining ih =>
    unfold searchSeed
    refine FailsOnly.draw.bind fun drawn => (FailsOnly.find _ program).bind fun found => ?_
    cases found with
    | none => exact (FailsOnly.note _).bind fun _ => ih _
    | some found =>
      refine (FailsOnly.create _ program).bind fun named => ?_
      cases named with
      | none => exact (FailsOnly.note _).bind fun _ => ih _
      | some mint => exact (FailsOnly.note _).bind fun _ => .done _

theorem failsOnlyNewPool (known : .seedSearchExhausted ∈ kinds) (program : Key) (maxAttempts : UInt32) :
    (newPool program maxAttempts).FailsOnly kinds :=
  (failsOnlySearch program 1 maxAttempts.toNat).bind fun _ => .ofOption known _

def loadKinds : List Kind := [.invalidDerivation, .poolUnavailable, .truncatedAccount, .uninitializedPool]

theorem failsOnlyLoad (settings : Settings) (seed : Seed) : (loadPool settings seed).FailsOnly loadKinds := by
  unfold loadPool
  have absent : Kind.poolUnavailable ∈ loadKinds := by decide
  have empty : Kind.uninitializedPool ∈ loadKinds := by decide
  refine (failsOnlyDerive (by decide) _ _).bind fun pool => (FailsOnly.existing absent pool).bind fun data => ?_
  refine (FailsOnly.ofExcept fun failure refused => ?_).bind fun state => ?_
  · rw [Pool.State.unpackRefused refused]
    decide
  · split
    · exact .done _
    · exact .refused empty

theorem failsOnlyMarket (absent : .accountUnavailable ∈ kinds) (unread : .invalidAccountData ∈ kinds)
    (address : Key) : (loadMarket address).FailsOnly kinds := by
  refine (FailsOnly.existing absent address).bind fun data => .ofExcept fun failure refused => ?_
  rw [Venue.unframeError (mapEqError.1 refused)]
  exact unread

theorem failsOnlyOrders (absent : .accountUnavailable ∈ kinds) (unread : .invalidAccountData ∈ kinds)
    (address : Key) : (loadOpenOrders address).FailsOnly kinds := by
  refine (FailsOnly.existing absent address).bind fun data => .ofExcept fun failure refused => ?_
  rw [Venue.unframeError (mapEqError.1 refused)]
  exact unread

theorem failsOnlyMissing (settings : Settings) (payer : Key) (wanted : List Holding) :
    (createMissing settings payer wanted).FailsOnly kinds := by
  induction wanted with
  | nil => exact .done _
  | cons holding wanted ih =>
    refine (FailsOnly.accountExists _).bind fun present => ?_
    split
    · exact ih
    · exact (FailsOnly.note _).bind fun _ => ih.bind fun _ => .done _

theorem failsOnlySources (absent : .sourceAssetUnavailable ∈ kinds) (repeated : .duplicateAsset ∈ kinds)
    (seen sources : List Key) : (sourceMints seen sources).FailsOnly kinds := by
  induction sources generalizing seen with
  | nil => exact .done _
  | cons source sources ih =>
    refine (FailsOnly.existing absent source).bind fun data => (FailsOnly.ofOption absent _).bind fun account => ?_
    split
    · exact .refused repeated
    · exact (ih _).bind fun _ => .done _

theorem failsOnlyAmounts (absent : .accountUnavailable ∈ kinds) (unread : .invalidAccountData ∈ kinds)
    (addresses : List Key) : (amounts addresses).FailsOnly kinds := by
  induction addresses with
  | nil => exact .done _
  | cons address addresses ih =>
    refine (FailsOnly.existing absent address).bind fun data => (FailsOnly.ofOption unread _).bind fun account => ?_
    exact ih.bind fun _ => .done _

/- An account that does not decode is passed over. -/
theorem failsOnlySeed (settings : Settings) (signalProvider : Option Key) (address : Key) (data : Bytes) :
    (poolSeed? settings signalProvider address data).FailsOnly kinds := by
  unfold poolSeed?
  split
  · exact .done _
  · refine (FailsOnly.create _ _).bind fun derived => ?_
    split <;> exact .done _

theorem failsOnlySeeds (settings : Settings) (signalProvider : Option Key) (accounts : List (Key × Bytes)) :
    (poolSeedsAmong settings signalProvider accounts).FailsOnly kinds := by
  induction accounts with
  | nil => exact .done _
  | cons account accounts ih =>
    exact (failsOnlySeed settings signalProvider account.1 account.2).bind fun _ => ih.bind fun _ => .done _

/- A new pool is refused for its arguments, for its source accounts, or for want of a seed. -/
def argumentKinds : List Kind := [.malformedLength, .overflow]

def assetKinds : List Kind := [.sourceAssetUnavailable, .duplicateAsset, .seedSearchExhausted]

def creationKinds : List Kind := argumentKinds ++ assetKinds

theorem initBuilds (settings : Settings) (request : PoolRequest) (pool mint : Key) (seed : Seed) :
    ∃ init, Command.init.build settings.program (initAccounts settings request.payer pool mint)
      (initParams settings request seed) = .ok init :=
  Command.builds _ _ _ nofun

/- The markets have been counted before. -/
theorem createBuilds {request : PoolRequest} (few : request.markets.length ≤ 65535) (settings : Settings)
    (pool mint : Key) (mints : List Key) (seed : Seed) :
    ∃ create, Command.create.build settings.program (createAccounts settings request pool mint mints)
      (createParams settings request seed) = .ok create := by
  refine Command.builds _ _ _ fun q same => ?_
  cases same
  exact few

/- The arguments are looked at before anything is asked. -/
theorem createPoolSteps (settings : Settings) (request : PoolRequest) :
    (∃ failure, failure.kind ∈ argumentKinds ∧ createPool settings request = Plan.fail failure) ∨
      (createPool settings request).FailsOnly assetKinds := by
  unfold createPool
  split
  · exact .inl ⟨_, .head _, rfl⟩
  split
  · exact .inl ⟨_, .tail _ (.head _), rfl⟩
  rename_i counted
  refine .inr ((failsOnlySources (by decide) (by decide) [] request.sourceAssets).bind fun mints => ?_)
  refine (failsOnlyNewPool (by decide) settings.program settings.maxSeedAttempts).bind fun ⟨seed, pool, mint⟩ => ?_
  obtain ⟨init, built⟩ := initBuilds settings request pool mint seed
  dsimp only
  rw [built]
  refine (failsOnlyMissing settings request.payer _).bind fun creations => ?_
  exact .built (createBuilds (Nat.le_of_not_lt counted) settings pool mint mints seed)

theorem failsOnlyCreatePool (settings : Settings) (request : PoolRequest) :
    (createPool settings request).FailsOnly creationKinds := by
  rcases createPoolSteps settings request with ⟨failure, known, same⟩ | only
  · rw [same]
    exact .refused (List.mem_append_left assetKinds known)
  · exact only.mono (List.subset_append_right argumentKinds assetKinds)

/-- The pool of the seed is loaded, and then only failures of the given kinds are left. -/
def LoadsFirst (settings : Settings) (seed : Seed) (kinds : List Kind) (plan : Plan α) : Prop :=
  ∃ rest : Key × Pool.State → Plan α, plan = loadPool settings seed >>= rest ∧ ∀ found, (rest found).FailsOnly kinds

theorem LoadsFirst.failsOnly {settings : Settings} {seed : Seed} {plan : Plan α}
    (loads : LoadsFirst settings seed kinds plan) : plan.FailsOnly (loadKinds ++ kinds) := by
  obtain ⟨rest, rfl, only⟩ := loads
  exact ((failsOnlyLoad settings seed).mono (List.subset_append_left _ _)).bind fun found =>
    (only found).mono (List.subset_append_right _ _)

theorem depositLoads (settings : Settings) (payer sourceOwner : Key) (seed : Seed) (amount : UInt64) :
    LoadsFirst settings seed [.invalidDerivation] (deposit settings payer sourceOwner seed amount) := by
  refine ⟨_, rfl, fun ⟨pool, state⟩ => ?_⟩
  refine (failsOnlyDerive (by decide) _ _).bind fun mint => (failsOnlyMissing settings payer _).bind fun creations => ?_
  exact .built (Command.builds _ _ _ nofun)

/- Up to the point where the ledger is asked for the balance of the new account. -/
def placementKinds : List Kind :=
  [.unauthorizedMarket, .accountUnavailable, .invalidAccountData, .unknownPoolAsset, .invalidDerivation]

def orderKinds : List Kind := placementKinds ++ [.ledger]

theorem createOrderLoads (settings : Settings) (payer : Key) (seed : Seed) (request : OrderRequest) (openOrders : Key) :
    LoadsFirst settings seed orderKinds (createOrder settings payer seed request openOrders) := by
  have barred : Kind.unauthorizedMarket ∈ orderKinds := by decide
  have unheld : Kind.unknownPoolAsset ∈ orderKinds := by decide
  refine ⟨_, rfl, fun ⟨pool, state⟩ => ?_⟩
  refine (FailsOnly.ofOption barred _).bind fun index => ?_
  refine (failsOnlyMarket (by decide) (by decide) request.market).bind fun market => ?_
  refine (FailsOnly.ofOption unheld _).bind fun source => (failsOnlyTracker (by decide) _ _ _).bind fun tracker => ?_
  refine (FailsOnly.balance (by decide) settings.openOrdersSize).bind fun balance => ?_
  exact (failsOnlyMissing settings payer _).bind fun creations => .built (Command.builds _ _ _ nofun)

theorem createOrderLedger {settings : Settings} {payer : Key} {seed : Seed} {request : OrderRequest}
    {openOrders : Key} {text : String}
    (h : Fails world {} (createOrder settings payer seed request openOrders) (.ledger text) later) :
    (∃ n, world.fault n = some text) ∨ world.balance settings.openOrdersSize = .error text := by
  have apart : Kind.ledger ∉ placementKinds := by decide
  have barred : Kind.unauthorizedMarket ∈ placementKinds := by decide
  have absent : Kind.accountUnavailable ∈ placementKinds := by decide
  have unread : Kind.invalidAccountData ∈ placementKinds := by decide
  have unheld : Kind.unknownPoolAsset ∈ placementKinds := by decide
  have underived : Kind.invalidDerivation ∈ placementKinds := by decide
  rcases (failsOnlyLoad settings seed).lostOrBehind (by decide) h with lost | ⟨⟨pool, state⟩, _, h⟩
  · exact .inl lost
  rcases (FailsOnly.ofOption barred _).lostOrBehind apart h with lost | ⟨index, _, h⟩
  · exact .inl lost
  rcases (failsOnlyMarket absent unread request.market).lostOrBehind apart h with lost | ⟨market, _, h⟩
  · exact .inl lost
  rcases (FailsOnly.ofOption unheld _).lostOrBehind apart h with lost | ⟨source, _, h⟩
  · exact .inl lost
  rcases (failsOnlyTracker underived _ _ _).lostOrBehind apart h with lost | ⟨tracker, _, h⟩
  · exact .inl lost
  rcases Plan.failsBind.1 h with refused | ⟨balance, _, _, h⟩
  · obtain ⟨_, untold, same, _⟩ := Plan.failsBalance.1 refused
    cases same
    exact .inr untold
  · refine .inl (FailsOnly.readLost ?_ List.not_mem_nil h)
    exact (failsOnlyMissing settings payer _).bind fun creations => .built (Command.builds _ _ _ nofun)

def cancellationKinds : List Kind := [.accountUnavailable, .invalidAccountData, .noOpenOrder]

theorem cancelOrderLoads (settings : Settings) (seed : Seed) (market openOrders : Key) :
    LoadsFirst settings seed cancellationKinds (cancelOrder settings seed market openOrders) := by
  have idle : Kind.noOpenOrder ∈ cancellationKinds := by decide
  refine ⟨_, rfl, fun ⟨pool, state⟩ => ?_⟩
  refine (failsOnlyMarket (by decide) (by decide) market).bind fun info => ?_
  refine (failsOnlyOrders (by decide) (by decide) openOrders).bind fun orders => ?_
  refine (FailsOnly.ofOption idle _).bind fun orderId => ?_
  dsimp only
  split
  · exact (FailsOnly.note _).bind fun _ => .built (Command.builds _ _ _ nofun)
  · exact .built (Command.builds _ _ _ nofun)

def settlementKinds : List Kind := [.accountUnavailable, .invalidAccountData, .unknownPoolAsset, .invalidDerivation]

theorem settleFundsLoads (settings : Settings) (seed : Seed) (market openOrders : Key) (referrer : Option Key) :
    LoadsFirst settings seed settlementKinds (settleFunds settings seed market openOrders referrer) := by
  have unheld : Kind.unknownPoolAsset ∈ settlementKinds := by decide
  refine ⟨_, rfl, fun ⟨pool, state⟩ => ?_⟩
  refine (failsOnlyMarket (by decide) (by decide) market).bind fun info => ?_
  refine (FailsOnly.ofOption unheld _).bind fun coin => (FailsOnly.ofOption unheld _).bind fun pc => ?_
  refine (failsOnlyDerive (by decide) _ _).bind fun signer => (failsOnlyDerive (by decide) _ _).bind fun mint => ?_
  exact .built (Command.builds _ _ _ nofun)

/- Orders in flight are looked at before anything else. -/
theorem redeemSteps (settings : Settings) (payer sourceOwner : Key) (seed : Seed) (amount : UInt64) :
    ∃ rest, redeem settings payer sourceOwner seed amount = loadPool settings seed >>= rest ∧ ∀ pool state,
      (state.header.status.pendingOrders ≠ 0 →
        rest (pool, state) = Plan.fail (.pendingOrders state.header.status.pendingOrders)) ∧
      (state.header.status.pendingOrders = 0 → (rest (pool, state)).FailsOnly [.invalidDerivation]) := by
  refine ⟨_, rfl, fun pool state => ⟨fun busy => if_pos busy, fun idle => ?_⟩⟩
  dsimp only
  rw [if_neg (not_not.2 idle)]
  refine (failsOnlyDerive (.head _) _ _).bind fun mint => ?_
  exact (failsOnlyMissing settings payer _).bind fun creations => .built (Command.builds _ _ _ nofun)

theorem redeemLoads (settings : Settings) (payer sourceOwner : Key) (seed : Seed) (amount : UInt64) :
    LoadsFirst settings seed [.pendingOrders, .invalidDerivation] (redeem settings payer sourceOwner seed amount) := by
  obtain ⟨rest, same, steps⟩ := redeemSteps settings payer sourceOwner seed amount
  refine ⟨rest, same, fun ⟨pool, state⟩ => ?_⟩
  obtain ⟨busy, idle⟩ := steps pool state
  by_cases none : state.header.status.pendingOrders = 0
  · exact (idle none).mono (List.subset_cons_self _ _)
  · rw [busy none]
    exact .refused (.head _)

theorem collectFeesLoads (settings : Settings) (payer : Key) (seed : Seed) :
    LoadsFirst settings seed [.invalidDerivation] (collectFees settings payer seed) := by
  refine ⟨_, rfl, fun ⟨pool, state⟩ => (failsOnlyDerive (by decide) _ _).bind fun mint => ?_⟩
  exact (failsOnlyMissing settings payer _).bind fun creations => .built (Command.builds _ _ _ nofun)

theorem poolInfoLoads (settings : Settings) (seed : Seed) :
    LoadsFirst settings seed [.invalidDerivation] (poolInfo settings seed) :=
  ⟨_, rfl, fun ⟨_, _⟩ => (failsOnlyDerive (by decide) _ _).bind fun _ => .done _⟩

def balanceKinds : List Kind := [.invalidDerivation, .accountUnavailable, .invalidAccountData]

theorem poolBalancesLoads (settings : Settings) (seed : Seed) :
    LoadsFirst settings seed balanceKinds (poolBalances settings seed) := by
  have absent : Kind.accountUnavailable ∈ balanceKinds := by decide
  have unread : Kind.invalidAccountData ∈ balanceKinds := by decide
  refine ⟨_, rfl, fun ⟨pool, state⟩ => (failsOnlyDerive (by decide) _ _).bind fun mint => ?_⟩
  refine (FailsOnly.existing absent mint).bind fun data => (FailsOnly.ofOption unread _).bind fun tokenMint => ?_
  exact (failsOnlyAmounts absent unread _).bind fun _ => .done _

theorem failsOnlyPoolSeeds (settings : Settings) (signalProvider : Option Key) :
    (poolSeeds settings signalProvider).FailsOnly kinds :=
  (FailsOnly.owned settings.program).bind fun accounts => failsOnlySeeds settings signalProvider accounts

def trackerKinds : List Kind := [.invalidDerivation, .truncatedAccount, .invalidAccountData]

theorem failsOnlyOrderTracker (settings : Settings) (seed : Seed) (openOrders : Key) :
    (orderTracker settings seed openOrders).FailsOnly trackerKinds := by
  refine (failsOnlyTracker (by decide) settings.program seed openOrders).bind fun address => ?_
  refine (FailsOnly.account address).bind fun data => ?_
  cases data with
  | none => exact .done _
  | some data =>
    exact (FailsOnly.ofExcept fun _ refused => .tail _ (Pool.Tracker.unpackRefused refused)).bind fun _ => .done _

namespace Operation

/-- What can go wrong apart from loading the pool. -/
def ownKinds : Operation → List Kind
  | .createPool _ => creationKinds
  | .deposit .. | .collectFees .. | .poolInfo _ => [.invalidDerivation]
  | .createOrder .. => orderKinds
  | .cancelOrder .. => cancellationKinds
  | .settleFunds .. => settlementKinds
  | .redeem .. => [.pendingOrders, .invalidDerivation]
  | .poolBalances _ => balanceKinds
  | .poolSeeds _ => []
  | .orderTracker .. => trackerKinds

def failureKinds (op : Operation) : List Kind :=
  if op.poolSeed?.isSome then loadKinds ++ op.ownKinds else op.ownKinds

theorem loadsFirst (settings : Settings) {op : Operation} {seed : Seed} (given : op.poolSeed? = some seed) :
    LoadsFirst settings seed op.ownKinds (op.plan settings) := by
  cases op with
  | deposit payer sourceOwner seed amount =>
    cases given
    exact depositLoads settings payer sourceOwner seed amount
  | createOrder payer seed request openOrders =>
    cases given
    exact createOrderLoads settings payer seed request openOrders
  | cancelOrder seed market openOrders =>
    cases given
    exact cancelOrderLoads settings seed market openOrders
  | settleFunds seed market openOrders referrer =>
    cases given
    exact settleFundsLoads settings seed market openOrders referrer
  | redeem payer sourceOwner seed amount =>
    cases given
    exact redeemLoads settings payer sourceOwner seed amount
  | collectFees payer seed =>
    cases given
    exact collectFeesLoads settings payer seed
  | poolInfo seed =>
    cases given
    exact poolInfoLoads settings seed
  | poolBalances seed =>
    cases given
    exact poolBalancesLoads settings seed
  | createPool | poolSeeds | orderTracker => cases given

theorem failsOnly (settings : Settings) (op : Operation) : (op.plan settings).FailsOnly op.failureKinds := by
  unfold failureKinds
  cases given : op.poolSeed? with
  | some seed => exact (loadsFirst settings given).failsOnly
  | none =>
    cases op with
    | createPool request => exact failsOnlyCreatePool settings request
    | poolSeeds signalProvider => exact failsOnlyPoolSeeds settings signalProvider
    | orderTracker seed openOrders => exact failsOnlyOrderTracker settings seed openOrders
    | _ => cases given

theorem unlisted (op : Operation) :
    ∀ kind ∈ [Kind.invalidStatusByte, .invalidInstruction, .invalidConfiguration], kind ∉ op.failureKinds := by
  cases op <;> exact of_decide_eq_true rfl

variable {op : Operation} {kind : Kind}

theorem creationListed (own : kind ∈ creationKinds) (listed : kind ∈ op.failureKinds) :
    ∃ request, op = .createPool request := by
  have apart : (∃ request, op = .createPool request) ∨ ∀ kind ∈ creationKinds, kind ∉ op.failureKinds := by
    cases op with
    | createPool request => exact .inl ⟨request, rfl⟩
    | _ => exact .inr (of_decide_eq_true rfl)
  exact apart.resolve_right fun none => none kind own listed

theorem cancellationListed (listed : .noOpenOrder ∈ op.failureKinds) :
    ∃ seed market openOrders, op = .cancelOrder seed market openOrders := by
  cases op with
  | cancelOrder seed market openOrders => exact ⟨seed, market, openOrders, rfl⟩
  | _ => exact absurd listed (of_decide_eq_true rfl)

theorem orderListed (listed : .unauthorizedMarket ∈ op.failureKinds) :
    ∃ payer seed request openOrders, op = .createOrder payer seed request openOrders := by
  cases op with
  | createOrder payer seed request openOrders => exact ⟨payer, seed, request, openOrders, rfl⟩
  | _ => exact absurd listed (of_decide_eq_true rfl)

theorem tradeListed (listed : .unknownPoolAsset ∈ op.failureKinds) :
    (∃ payer seed request openOrders, op = .createOrder payer seed request openOrders) ∨
      ∃ seed market openOrders referrer, op = .settleFunds seed market openOrders referrer := by
  cases op with
  | createOrder payer seed request openOrders => exact .inl ⟨payer, seed, request, openOrders, rfl⟩
  | settleFunds seed market openOrders referrer => exact .inr ⟨seed, market, openOrders, referrer, rfl⟩
  | _ => exact absurd listed (of_decide_eq_true rfl)

theorem ledgerReason {settings : Settings} {text : String}
    (h : Fails world {} (op.plan settings) (.ledger text) later) :
    (∃ n, world.fault n = some text) ∨
      (∃ payer seed request openOrders, op = .createOrder payer seed request openOrders) ∧
        world.balance settings.openOrdersSize = .error text := by
  have other : (∃ payer seed request openOrders, op = .createOrder payer seed request openOrders) ∨
      Kind.ledger ∉ op.failureKinds := by
    cases op with
    | createOrder payer seed request openOrders => exact .inl ⟨payer, seed, request, openOrders, rfl⟩
    | _ => exact .inr (of_decide_eq_true rfl)
  rcases other with ⟨payer, seed, request, openOrders, rfl⟩ | unlisted
  · exact (createOrderLedger h).imp_right fun untold => ⟨⟨payer, seed, request, openOrders, rfl⟩, untold⟩
  · exact .inl ((failsOnly settings op).readLost unlisted h)

/-- Which kinds of failures go with which operations. -/
structure Possible (op : Operation) (kind : Kind) : Prop where
  known : kind ∉ [.invalidStatusByte, .invalidInstruction, .invalidConfiguration]
  creating : kind ∈ creationKinds → ∃ request, op = .createPool request
  created : ∀ request, op = .createPool request → kind ∈ creationKinds ∨ kind = .ledger
  cancelling : kind = .noOpenOrder → ∃ seed market openOrders, op = .cancelOrder seed market openOrders
  ordering : kind = .unauthorizedMarket →
    ∃ payer seed request openOrders, op = .createOrder payer seed request openOrders
  trading : kind = .unknownPoolAsset →
    (∃ payer seed request openOrders, op = .createOrder payer seed request openOrders) ∨
      ∃ seed market openOrders referrer, op = .settleFunds seed market openOrders referrer
  listing : ∀ signalProvider, op = .poolSeeds signalProvider → kind = .ledger

theorem possibleListed (listed : kind ∈ op.failureKinds) : op.Possible kind where
  known never := op.unlisted kind never listed
  creating own := creationListed own listed
  created request same := by
    subst same
    exact .inl listed
  cancelling same := cancellationListed (same ▸ listed)
  ordering same := orderListed (same ▸ listed)
  trading same := tradeListed (same ▸ listed)
  listing signalProvider same := by
    subst same
    cases listed

theorem possibleLedger : op.Possible .ledger := by
  constructor <;> simp [creationKinds, argumentKinds, assetKinds]

end Operation

theorem possibleFailures :
    (∀ b : UInt8, Pool.Status.checked b = .ok (.ofByte b)) ∧
    (∀ data : Bytes, Pool.State.checked data = Pool.State.unpack data) ∧
    (∀ data : Bytes, Pool.Tracker.checked data = Pool.Tracker.unpack data) ∧
    (∀ params : Params.Create, params.checkedPack = params.pack) ∧
    (∀ (settings : Settings) (request : PoolRequest) (pool mint : Key) (mints : List Key) (seed : Seed),
      request.markets.length ≤ 65535 →
      (∃ init, Command.init.build settings.program (initAccounts settings request.payer pool mint)
        (initParams settings request seed) = .ok init) ∧
      ∃ create, Command.create.build settings.program (createAccounts settings request pool mint mints)
        (createParams settings request seed) = .ok create) ∧
    ∀ (settings : Settings) (op : Operation) (world : World) (failure : Failure),
      (op.plan settings).outcome world = .error failure →
      op.Possible failure.kind ∧
        (failure.kind ∈ op.failureKinds ∨ ∃ n text, world.fault n = some text ∧ failure = .ledger text) ∧
        ∀ text, failure = .ledger text → (∃ n, world.fault n = some text) ∨
          (∃ payer seed request openOrders, op = .createOrder payer seed request openOrders) ∧
            world.balance settings.openOrdersSize = .error text := by
  refine ⟨Pool.Status.checkedOfByte, Pool.State.checkedUnpack, Pool.Tracker.checkedUnpack,
    Params.Create.checkedPackPack, ?_, ?_⟩
  · intro settings request pool mint mints seed few
    exact ⟨initBuilds settings request pool mint seed, createBuilds few settings pool mint mints seed⟩
  · intro settings op world failure h
    obtain ⟨later, fails⟩ := Plan.outcomeFails.1 h
    have ledger : ∀ text, failure = .ledger text → _ := fun text same => Operation.ledgerReason (same ▸ fails)
    rcases (op.failsOnly settings).reason fails with listed | ⟨text, fault, rfl⟩
    · exact ⟨Operation.possibleListed listed, .inl listed, ledger⟩
    · exact ⟨Operation.possibleLedger, .inr ⟨_, text, fault, rfl⟩, ledger⟩

/- The market of the order is not the one that the pool may trade on. -/
def barredOrder : Operation := .createOrder (.fill 32 12) (.fill 32 10) bidRequest (.fill 32 1)

theorem barredRun : (createOrder plainSettings (.fill 32 12) (.fill 32 10) bidRequest (.fill 32 1)).outcome
    (World.ofLedger investedLedger) = .error (.unauthorizedMarket (.fill 32 21)) := by
  decide +kernel

theorem possibleFailuresBarred :
    (barredOrder.plan plainSettings).outcome (World.ofLedger investedLedger) =
      .error (.unauthorizedMarket (.fill 32 21)) ∧
    barredOrder.Possible .unauthorizedMarket ∧ .unauthorizedMarket ∈ barredOrder.failureKinds := by
  obtain ⟨_, _, _, _, _, reasons⟩ := possibleFailures
  obtain ⟨possible, listed | ⟨_, _, fault, _⟩, _⟩ := reasons plainSettings barredOrder _ _ barredRun
  · exact ⟨barredRun, possible, listed⟩
  · cases fault

end Workflow
end TradingPool
