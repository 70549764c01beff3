import TradingPool.Proofs.SeedSearch
import TradingPool.Proofs.LoadingGate

/-! How the creation of a pool ends. The arguments are looked at first and nothing is read if they are refused.
Then the source accounts are read one by one, and the first that is no good decides, whatever is wrong with it and
with those behind it. Only with all of them good is a seed searched for, and if one is found nothing else can fail. -/
namespace TradingPool

def Trace.afterReads (trace : Trace) (count : Nat) : Trace := { trace with reads := trace.reads + count }

theorem Trace.afterReadReads (trace : Trace) (count : Nat) :
    trace.afterRead.afterReads count = trace.afterReads (count + 1) := by
  simp only [afterReads, afterRead, Nat.add_assoc, Nat.add_comm 1]

namespace Workflow

open TradingPool.Derivation
open TradingPool.Plan (Yields Fails FailsOnly)

/-- What is wrong with the source account at a position: nothing is stored there, or no token account that is in
use, or one of a mint that is taken, by `seen` or by a source that comes earlier. -/
inductive SourceFault (world : World) (seen sources : List Key) (j : Nat) : Failure → Prop where
  | missing {source} (stands : sources[j]? = some source) (absent : world.account source = none) :
      SourceFault world seen sources j (.sourceAssetUnavailable source)
  | foreign {source data} (stands : sources[j]? = some source) (stored : world.account source = some data)
      (unread : TokenAccount.unpack? data = none) : SourceFault world seen sources j (.sourceAssetUnavailable source)
  | repeated {source mint} (stands : sources[j]? = some source) (held : HoldsMint world source mint)
      (taken : mint ∈ seen ∨ ∃ i < j, ∃ earlier, sources[i]? = some earlier ∧ HoldsMint world earlier mint) :
      SourceFault world seen sources j (.duplicateAsset mint)

variable {world : World} {trace later : Trace} {settings : Settings} {request : PoolRequest} {failure : Failure}
  {seen sources mints : List Key} {source mint : Key} {j : Nat}

theorem HoldsMint.same {other : Key} (held : HoldsMint world source mint) (again : HoldsMint world source other) :
    mint = other := by
  obtain ⟨data, account, stored, read, rfl⟩ := held
  obtain ⟨_, _, kept, decoded, rfl⟩ := again
  cases stored.symm.trans kept
  cases read.symm.trans decoded
  rfl

namespace SourceFault

/- Behind a good source, its mint is taken too. -/
theorem behind (held : HoldsMint world source mint) :
    SourceFault world seen (source :: sources) (j + 1) failure ↔
      SourceFault world (mint :: seen) sources j failure := by
  constructor
  · intro fault
    cases fault with
    | missing stands absent => exact .missing stands absent
    | foreign stands stored unread => exact .foreign stands stored unread
    | repeated stands again taken =>
      refine .repeated stands again ?_
      rcases taken with known | ⟨i, before, earlier, first, other⟩
      · exact .inl (List.mem_cons_of_mem _ known)
      · cases i with
        | zero =>
          cases first
          cases held.same other
          exact .inl (List.mem_cons_self ..)
        | succ i => exact .inr ⟨i, Nat.lt_of_succ_lt_succ before, earlier, first, other⟩
  · intro fault
    cases fault with
    | missing stands absent => exact .missing stands absent
    | foreign stands stored unread => exact .foreign stands stored unread
    | repeated stands again taken =>
      refine .repeated stands again ?_
      rcases taken with known | ⟨i, before, earlier, first, other⟩
      · rcases List.mem_cons.1 known with rfl | known
        · exact .inr ⟨0, Nat.succ_pos j, source, rfl, held⟩
        · exact .inl known
      · exact .inr ⟨i + 1, Nat.succ_lt_succ before, earlier, first, other⟩

theorem good (none : ∀ failure, ¬ SourceFault world seen (source :: sources) 0 failure) :
    ∃ mint, HoldsMint world source mint ∧ mint ∉ seen := by
  cases stored : world.account source with
  | none => exact absurd (.missing rfl stored) (none _)
  | some data =>
    cases read : TokenAccount.unpack? data with
    | none => exact absurd (.foreign rfl stored read) (none _)
    | some account =>
      have held : HoldsMint world source account.mint := ⟨data, account, stored, read, rfl⟩
      exact ⟨account.mint, held, fun known => none _ (.repeated rfl held (.inl known))⟩

theorem noneAtGood (held : HoldsMint world source mint) (fresh : mint ∉ seen) :
    ¬ SourceFault world seen (source :: sources) 0 failure := by
  intro fault
  obtain ⟨data, account, kept, decoded, rfl⟩ := id held
  cases fault with
  | missing stands absent =>
    cases stands
    cases absent.symm.trans kept
  | foreign stands stored unread =>
    cases stands
    cases stored.symm.trans kept
    cases unread.symm.trans decoded
  | repeated stands again taken =>
    cases stands
    cases held.same again
    exact fresh (taken.resolve_right fun ⟨i, before, _⟩ => absurd before (Nat.not_lt_zero i))

end SourceFault

section Sources

variable (sound : ∀ n, world.fault n = none)
include sound

theorem readsSource (held : HoldsMint world source mint) : ∃ data account,
    Yields world trace (Plan.existing source (.sourceAssetUnavailable source)) data trace.afterRead ∧
    Yields world trace.afterRead (Plan.ofOption (TokenAccount.unpack? data) (.sourceAssetUnavailable source)) account
      trace.afterRead ∧ account.mint = mint := by
  obtain ⟨data, account, stored, read, same⟩ := held
  exact ⟨data, account, Plan.yieldsExisting.2 ⟨sound _, stored, rfl⟩, Plan.yieldsOfOption.2 ⟨read, rfl⟩, same⟩

theorem failsHead (fault : SourceFault world seen (source :: sources) 0 failure) :
    Fails world trace (sourceMints seen (source :: sources)) failure trace.afterRead := by
  cases fault with
  | missing stands absent =>
    cases stands
    exact Plan.failsAtOnce (absentFails (sound _) absent)
  | foreign stands stored unread =>
    cases stands
    refine (Plan.yieldsExisting.2 ⟨sound _, stored, rfl⟩).thenFails (Plan.failsAtOnce ?_)
    exact Plan.failsOfOption.2 ⟨unread, rfl, rfl⟩
  | repeated stands held taken =>
    cases stands
    have known : _ ∈ seen := taken.resolve_right fun ⟨i, before, _⟩ => absurd before (Nat.not_lt_zero i)
    obtain ⟨data, account, first, second, rfl⟩ := readsSource sound held
    refine first.thenFails (second.thenFails ?_)
    rw [if_pos known]
    rfl

/- By induction on the sources: those in front are good, and their mints are taken for the others. -/
theorem failsSources (fault : SourceFault world seen sources j failure)
    (first : ∀ i < j, ∀ other, ¬ SourceFault world seen sources i other) :
    Fails world trace (sourceMints seen sources) failure (trace.afterReads (j + 1)) := by
  induction sources generalizing seen j trace with
  | nil => cases fault <;> contradiction
  | cons source sources ih =>
    cases j with
    | zero => exact failsHead sound fault
    | succ j =>
      obtain ⟨mint, held, fresh⟩ := SourceFault.good (first 0 (Nat.succ_pos j))
      obtain ⟨data, account, read, decoded, rfl⟩ := readsSource sound held
      refine read.thenFails (decoded.thenFails ?_)
      rw [if_neg fresh, ← Trace.afterReadReads]
      refine Plan.failsAtOnce (ih ((SourceFault.behind held).1 fault) fun i before other again => ?_)
      exact first (i + 1) (Nat.succ_lt_succ before) other ((SourceFault.behind held).2 again)

theorem yieldsSources (good : ∀ j failure, ¬ SourceFault world seen sources j failure) :
    ∃ mints, Yields world trace (sourceMints seen sources) mints (trace.afterReads sources.length) := by
  induction sources generalizing seen trace with
  | nil => exact ⟨[], rfl⟩
  | cons source sources ih =>
    obtain ⟨mint, held, fresh⟩ := SourceFault.good (good 0)
    obtain ⟨mints, rest⟩ := ih fun j failure fault => good (j + 1) failure ((SourceFault.behind held).2 fault)
    obtain ⟨data, account, read, decoded, rfl⟩ := readsSource sound held
    refine ⟨account.mint :: mints, read.thenYields (decoded.thenYields ?_)⟩
    rw [if_neg fresh, List.length_cons, ← Trace.afterReadReads]
    exact rest.thenYields (Plan.yieldsPure.2 ⟨rfl, rfl⟩)

end Sources

/- Behind the search nothing is left that can fail. -/
theorem createPoolParts (settings : Settings) (paired : request.depositAmounts.length = request.sourceAssets.length)
    (few : request.markets.length ≤ 65535) : ∃ rest : List Key → PoolAddresses → Plan CreatedPool,
      createPool settings request = (do
        let mints ← sourceMints [] request.sourceAssets
        let addresses ← newPool settings.program settings.maxSeedAttempts
        rest mints addresses) ∧ ∀ mints addresses, (rest mints addresses).FailsOnly [] := by
  unfold createPool
  rw [if_neg (Decidable.not_not.2 paired), if_neg (Nat.not_lt.2 few)]
  refine ⟨_, rfl, fun mints ⟨seed, pool, mint⟩ => ?_⟩
  obtain ⟨init, built⟩ := initBuilds settings request pool mint seed
  dsimp only
  rw [built]
  exact (failsOnlyMissing settings request.payer _).bind fun creations =>
    .built (createBuilds few settings pool mint mints seed)

/-- The trace when all source accounts have been read. -/
def sourcesRead (request : PoolRequest) : Trace := { reads := request.sourceAssets.length }

theorem createPoolSearches (sound : ∀ n, world.fault n = none)
    (paired : request.depositAmounts.length = request.sourceAssets.length) (few : request.markets.length ≤ 65535)
    (good : ∀ j failure, ¬ SourceFault world [] request.sourceAssets j failure) :
    ((createPool settings request).outcome world = .error (.seedSearchExhausted settings.maxSeedAttempts) ↔
      ∀ n < settings.maxSeedAttempts.toNat,
        (attemptAt world settings.program (sourcesRead request) n).Rejected) ∧
    ((∃ n < settings.maxSeedAttempts.toNat,
        ¬ (attemptAt world settings.program (sourcesRead request) n).Rejected) →
      ∃ created, (createPool settings request).outcome world = .ok created) := by
  obtain ⟨rest, parts, only⟩ := createPoolParts settings paired few
  obtain ⟨mints, collected⟩ : ∃ mints, Yields world {} (sourceMints [] request.sourceAssets) mints _ :=
    yieldsSources sound good
  have reads : ({} : Trace).afterReads request.sourceAssets.length = sourcesRead request := by
    simp only [Trace.afterReads, sourcesRead, Nat.zero_add]
  rw [reads] at collected
  rcases firstAccepted world settings.program (sourcesRead request) settings.maxSeedAttempts.toNat with
    rejected | ⟨n, below, first, taken⟩
  · have refused : Fails world (sourcesRead request) (newPool settings.program settings.maxSeedAttempts) _ _ :=
      newPoolExhausted rejected rfl
    have run : Fails world {} (createPool settings request) _ _ :=
      parts ▸ collected.thenFails (Plan.failsAtOnce refused)
    exact ⟨⟨fun _ => rejected, fun _ => run.ended.1⟩, fun ⟨n, below, taken⟩ => absurd (rejected n below) taken⟩
  · obtain ⟨pool, bump, mint, found, named⟩ := Attempt.accepted taken
    have searched : Yields world (sourcesRead request) (newPool settings.program settings.maxSeedAttempts) _ _ :=
      newPoolFound first below found named
    obtain ⟨created, later, last⟩ := (only mints _).succeeds sound _
    have run : Yields world {} (createPool settings request) created later := by
      rw [parts]
      exact collected.thenYields (searched.thenYields last)
    have ends := Plan.outcomeYields.2 ⟨later, run⟩
    refine ⟨⟨fun refused => ?_, fun rejected => absurd (rejected n below) taken⟩, fun _ => ⟨created, ends⟩⟩
    cases ends.symm.trans refused

theorem creationOutcome (settings : Settings) (request : PoolRequest) (sound : ∀ n, world.fault n = none) :
    (request.depositAmounts.length ≠ request.sourceAssets.length →
      (createPool settings request).outcome world =
        .error (.malformedLength request.sourceAssets.length request.depositAmounts.length) ∧
      (createPool settings request).trace world = {}) ∧
    (request.depositAmounts.length = request.sourceAssets.length → 65535 < request.markets.length →
      (createPool settings request).outcome world = .error (.overflow request.markets.length 2) ∧
      (createPool settings request).trace world = {}) ∧
    (request.depositAmounts.length = request.sourceAssets.length → request.markets.length ≤ 65535 →
      (∀ j failure, SourceFault world [] request.sourceAssets j failure →
        (∀ i < j, ∀ other, ¬ SourceFault world [] request.sourceAssets i other) →
        (createPool settings request).outcome world = .error failure ∧
        (createPool settings request).trace world = { reads := j + 1 }) ∧
      ((∀ j failure, ¬ SourceFault world [] request.sourceAssets j failure) →
        ((createPool settings request).outcome world = .error (.seedSearchExhausted settings.maxSeedAttempts) ↔
          ∀ n < settings.maxSeedAttempts.toNat,
            (attemptAt world settings.program (sourcesRead request) n).Rejected) ∧
        ((∃ n < settings.maxSeedAttempts.toNat,
            ¬ (attemptAt world settings.program (sourcesRead request) n).Rejected) →
          ∃ created, (createPool settings request).outcome world = .ok created))) := by
  refine ⟨fun unpaired => ?_, fun paired many => ?_, fun paired few => ⟨fun j failure fault first => ?_,
    createPoolSearches sound paired few⟩⟩
  · unfold createPool
    rw [if_pos unpaired]
    exact ⟨rfl, rfl⟩
  · unfold createPool
    rw [if_neg (Decidable.not_not.2 paired), if_pos many]
    exact ⟨rfl, rfl⟩
  · obtain ⟨rest, parts, _⟩ := createPoolParts settings paired few
    have refused : Fails world {} (createPool settings request) failure _ :=
      parts ▸ Plan.failsAtOnce (failsSources sound fault first)
    obtain ⟨outcome, trace⟩ := refused.ended
    rw [trace]
    exact ⟨outcome, by simp only [Trace.afterReads, Nat.zero_add]⟩

theorem pairFirst : HoldsMint pairWorld (.fill 32 41) (.fill 32 4) :=
  ⟨heldData (.fill 32 4) 5000 1, ⟨.fill 32 4, .fill 32 14, 5000⟩, by decide +kernel, by decide +kernel, rfl⟩

theorem pairSecond : HoldsMint pairWorld (.fill 32 42) (.fill 32 5) :=
  ⟨heldData (.fill 32 5) 0 2, ⟨.fill 32 5, .fill 32 14, 0⟩, by decide +kernel, by decide +kernel, rfl⟩

theorem pairGood (others : List Key) : ∀ i < 2, ∀ failure,
    ¬ SourceFault pairWorld [] (.fill 32 41 :: .fill 32 42 :: others) i failure
  | 0, _, _ => SourceFault.noneAtGood pairFirst nofun
  | 1, _, _ => fun fault => SourceFault.noneAtGood pairSecond (by decide) ((SourceFault.behind pairFirst).1 fault)

/- The pair, with its first source named again and one behind it that does not exist. -/
def spoiledRequest : PoolRequest :=
  { pairRequest with
    sourceAssets := [.fill 32 41, .fill 32 42, .fill 32 41, .fill 32 43], depositAmounts := [1, 2, 3, 4] }

theorem creationOutcomeSpoiled :
    (createPool plainSettings spoiledRequest).outcome pairWorld = .error (.duplicateAsset (.fill 32 4)) ∧
    (createPool plainSettings spoiledRequest).trace pairWorld = { reads := 3 } ∧
    (createPool { plainSettings with maxSeedAttempts := 0 } pairRequest).outcome pairWorld =
      .error (.seedSearchExhausted 0) := by
  have sound : ∀ n, pairWorld.fault n = none := fun n => rfl
  have good : ∀ j failure, ¬ SourceFault pairWorld [] pairRequest.sourceAssets j failure
    | 0 => pairGood [] 0 (by decide)
    | 1 => pairGood [] 1 (by decide)
    | j + 2 => fun _ fault => by cases fault <;> contradiction
  obtain ⟨_, _, spoiled⟩ := creationOutcome plainSettings spoiledRequest sound
  obtain ⟨_, _, unsought⟩ := creationOutcome { plainSettings with maxSeedAttempts := 0 } pairRequest sound
  obtain ⟨refused, trace⟩ := (spoiled rfl (by decide)).1 2 _
    (.repeated rfl pairFirst (.inr ⟨0, by decide, _, rfl, pairFirst⟩)) (pairGood _)
  exact ⟨refused, trace, ((unsought rfl (by decide)).2 good).1.2 nofun⟩

end Workflow
end TradingPool
