import TradingPool.Proofs.Payload
import TradingPool.Proofs.Loading
import TradingPool.Proofs.TokenAccounts
import TradingPool.Workflow.PoolCreation

/-! The first and the last instruction of a new pool. They agree on the seed, on the markets and on the
accounts of the pool, and each source account stands where the amount taken from it and the account that
receives it stand in their lists. -/
namespace TradingPool

theorem AccountMeta.writingAt (front back : List AccountMeta) {keys : List Key} {key : Key} {i : Nat}
    (stands : keys[i]? = some key) :
    (front ++ keys.map AccountMeta.writing ++ back)[front.length + i]? = some (.writing key) := by
  have bound : i < keys.length := (List.getElem?_eq_some_iff.1 stands).1
  rw [List.append_assoc, List.getElem?_append_right (Nat.le_add_right _ _), Nat.add_sub_cancel_left,
    List.getElem?_append_left (by rw [List.length_map]; exact bound), List.getElem?_map, stands]
  rfl

theorem AccountMeta.writingAfter (front mid : List AccountMeta) (before : List Key) {keys : List Key} {key : Key}
    {i : Nat} (stands : keys[i]? = some key) :
    (front ++ before.map AccountMeta.writing ++ mid ++ keys.map AccountMeta.writing)[
      front.length + before.length + mid.length + i]? = some (.writing key) := by
  have last := AccountMeta.writingAt (front ++ before.map AccountMeta.writing ++ mid) [] stands
  rwa [List.append_nil, List.length_append, List.length_append, List.length_map] at last

namespace Accounts.Create

variable {accounts : Accounts.Create} {key : Key} {i : Nat}

theorem lengthMetas (accounts : Accounts.Create) :
    accounts.metas.length = 6 + accounts.poolAssets.length + accounts.sourceAssets.length := by
  simp only [metas, List.length_append, List.length_map, List.length_cons, List.length_nil]
  omega

theorem poolAssetAt (stands : accounts.poolAssets[i]? = some key) :
    accounts.metas[5 + i]? = some (.writing key) := by
  unfold metas
  rw [List.append_assoc (_ ++ _)]
  exact AccountMeta.writingAt [_, _, _, _, _] _ stands

theorem sourceAssetAt (stands : accounts.sourceAssets[i]? = some key) :
    accounts.metas[6 + accounts.poolAssets.length + i]? = some (.writing key) := by
  have last := AccountMeta.writingAfter [.plain accounts.tokenProgram, .plain accounts.clockSysvar,
    .writing accounts.mint, .writing accounts.targetPoolToken, .writing accounts.pool]
    [.signing accounts.sourceOwner] accounts.poolAssets stands
  simp only [List.length_cons, List.length_nil] at last
  unfold metas
  rw [← last]
  congr 1
  omega

end Accounts.Create

namespace Workflow

open TradingPool.Plan (Yields)

def HoldsMint (world : World) (source mint : Key) : Prop :=
  ∃ data account, world.account source = some data ∧ TokenAccount.unpack? data = some account ∧
    account.mint = mint

inductive SourceMints (world : World) : List Key → List Key → List Key → Prop where
  | nil (seen : List Key) : SourceMints world seen [] []
  | cons {seen source sources mint mints} (held : HoldsMint world source mint) (fresh : mint ∉ seen)
      (next : SourceMints world (mint :: seen) sources mints) :
      SourceMints world seen (source :: sources) (mint :: mints)

variable {world : World} {trace later : Trace} {settings : Settings} {request : PoolRequest}
  {created : CreatedPool} {seen sources mints : List Key}

theorem sourceMintsSource (h : Yields world trace (sourceMints seen sources) mints later) :
    SourceMints world seen sources mints := by
  induction sources generalizing seen trace mints later with
  | nil =>
    obtain ⟨rfl, _⟩ := Plan.yieldsPure.1 h
    exact .nil seen
  | cons source sources ih =>
    obtain ⟨data, _, read, h⟩ := Plan.yieldsBind.1 h
    obtain ⟨_, stored, _⟩ := Plan.yieldsExisting.1 read
    obtain ⟨account, _, found, h⟩ := Plan.yieldsBind.1 h
    have unpacked := (Plan.yieldsOfOption.1 found).1
    split at h
    · exact absurd h Plan.yieldsFail
    · rename_i fresh
      obtain ⟨rest, _, next, h⟩ := Plan.yieldsBind.1 h
      obtain ⟨rfl, _⟩ := Plan.yieldsPure.1 h
      exact .cons ⟨data, account, stored, unpacked, rfl⟩ fresh (ih next)

namespace SourceMints

theorem sameLength (h : SourceMints world seen sources mints) : mints.length = sources.length := by
  induction h with
  | nil => rfl
  | cons held fresh next ih => simp only [List.length_cons, ih]

theorem mintAt (h : SourceMints world seen sources mints) {i : Nat} {source : Key}
    (stands : sources[i]? = some source) : ∃ mint, mints[i]? = some mint ∧ HoldsMint world source mint := by
  induction h generalizing i with
  | nil => simp at stands
  | cons held fresh next ih =>
    cases i with
    | zero =>
      rw [List.getElem?_cons_zero, Option.some.injEq] at stands
      exact ⟨_, rfl, stands ▸ held⟩
    | succ i => exact ih (by simpa using stands)

theorem collected (h : SourceMints world seen sources mints) {mint : Key} :
    mint ∈ mints ↔ ∃ source ∈ sources, HoldsMint world source mint := by
  induction h with
  | nil => simp
  | @cons _ source _ first _ held _ _ ih =>
    have only : HoldsMint world source mint ↔ mint = first := by
      obtain ⟨data, account, kept, read, rfl⟩ := held
      simp [HoldsMint, kept, read, eq_comm]
    simp [ih, only]

theorem unseen (h : SourceMints world seen sources mints) : ∀ mint ∈ mints, mint ∉ seen := by
  induction h with
  | nil => simp
  | cons held fresh next ih =>
    intro other member
    rcases List.mem_cons.1 member with rfl | rest
    · exact fresh
    · exact fun before => ih other rest (List.mem_cons_of_mem _ before)

theorem nodup (h : SourceMints world seen sources mints) : mints.Nodup := by
  induction h with
  | nil => exact List.nodup_nil
  | cons held fresh next ih =>
    exact List.nodup_cons.2 ⟨fun again => next.unseen _ again (List.mem_cons_self ..), ih⟩

end SourceMints

structure CreationSource (world : World) (settings : Settings) (request : PoolRequest) (created : CreatedPool)
    (mints : List Key) (init : Instruction) (made : List Instruction) (create : Instruction) : Prop where
  paired : request.depositAmounts.length = request.sourceAssets.length
  few : request.markets.length ≤ 65535
  sources : SourceMints world [] request.sourceAssets mints
  addresses : ∃ before after, Yields world before (Derivation.newPool settings.program settings.maxSeedAttempts)
    ⟨created.seed, created.pool, created.mint⟩ after
  initBuilt : Command.init.build settings.program
    (initAccounts settings request.payer created.pool created.mint)
    (initParams settings request created.seed) = .ok init
  missing : made = creations world settings request.payer
    (mints.map (Holding.mk created.pool) ++ [⟨request.sourceOwner, created.mint⟩])
  createBuilt : Command.create.build settings.program
    (createAccounts settings request created.pool created.mint mints)
    (createParams settings request created.seed) = .ok create
  instructions : created.instructions = init :: made ++ [create]

theorem createPoolSource (h : Yields world trace (createPool settings request) created later) :
    ∃ mints init made create, CreationSource world settings request created mints init made create := by
  unfold createPool at h
  split at h
  · exact absurd h Plan.yieldsFail
  rename_i paired
  split at h
  · exact absurd h Plan.yieldsFail
  rename_i few
  obtain ⟨mints, _, collected, h⟩ := Plan.yieldsBind.1 h
  obtain ⟨⟨seed, pool, mint⟩, _, searched, h⟩ := Plan.yieldsBind.1 h
  obtain ⟨init, _, first, h⟩ := Plan.yieldsBind.1 h
  obtain ⟨made, _, bootstrapped, h⟩ := Plan.yieldsBind.1 h
  obtain ⟨create, _, last, h⟩ := Plan.yieldsBind.1 h
  obtain ⟨_, _, _, h⟩ := Plan.yieldsBind.1 h
  obtain ⟨rfl, _⟩ := Plan.yieldsPure.1 h
  exact ⟨mints, init, made, create, ⟨Decidable.not_not.1 paired, Nat.le_of_not_lt few,
    sourceMintsSource collected, ⟨_, _, searched⟩, (Plan.yieldsOfExcept.1 first).1,
    createMissingSource bootstrapped, (Plan.yieldsOfExcept.1 last).1, rfl⟩⟩

/- A pool of two assets, one of which its owner keeps in a frozen account. -/
def pairRequest : PoolRequest where
  payer := .fill 32 12
  sourceOwner := .fill 32 14
  sourceAssets := [.fill 32 41, .fill 32 42]
  signalProvider := .fill 32 11
  depositAmounts := [1000, 18446744073709551615]
  markets := [.fill 32 20, .fill 32 21, .fill 32 20]
  feeCollectionPeriod := 604800
  feeRatio := 100

def heldData (mint : Key) (amount : UInt64) (state : UInt8) : Bytes :=
  TokenAccount.stored.write
    { mint, owner := .fill 32 14, amount, delegateTag := 0, delegate := .zero 32, state, nativeTag := 0
      nativeReserve := 0, delegatedAmount := 0, closeAuthorityTag := 0, closeAuthority := .zero 32 }

def pairWorld : World :=
  (World.ofLedger <| .ofEntries [
    ⟨.fill 32 41, Programs.token, heldData (.fill 32 4) 5000 1, by decide +kernel⟩,
    ⟨.fill 32 42, Programs.token, heldData (.fill 32 5) 0 2, by decide +kernel⟩]).drawing [.fill 32 1]

theorem pairRun :
    ((createPool plainSettings pairRequest).outcome pairWorld).toOption.map
      (fun created => created.instructions.length) = some 5 := by
  decide +kernel

end Workflow
end TradingPool
