import TradingPool.Proofs.FailedReads

/-! When local failures are found. Those in the arguments of a new pool come before anything is asked, and come
back on every ledger. The others are found in data that was just read, so they are gone when the read is. -/
namespace TradingPool

variable {α : Type} {world : World} {trace later : Trace} {failure : Failure}

namespace Failure

def localKinds : List Kind :=
  [.malformedLength, .overflow, .truncatedAccount, .invalidStatusByte, .invalidAccountData, .invalidInstruction,
    .invalidConfiguration]

theorem isLocalKind (failure : Failure) : failure.isLocal = true ↔ failure.kind ∈ localKinds := by
  have same : failure.isLocal = decide (failure.kind ∈ localKinds) := by cases failure <;> rfl
  rw [same, decide_eq_true_iff]

end Failure

theorem Plan.askedReads (world : World) (trace : Trace) (address : Key)
    (next : Except String (Option Bytes) → Plan α) :
    trace.reads < ((Plan.ask (.account address) next).run world trace).2.reads := by
  have counted := readsGrow world (next (world.answer trace (.account address)).1)
    (world.answer trace (.account address)).2
  have once : (world.answer trace (.account address)).2 = trace.afterRead := World.readCounts _ _ _
  rw [once] at counted
  simp only [run]
  rw [once]
  exact counted

namespace Workflow

open TradingPool.Derivation
open TradingPool.Plan (Fails)
open Failure (Kind localKinds)

variable {settings : Settings} {seed : Seed} {op : Operation} {kind : Kind}

theorem accountReads {address : Key} {next : Option Bytes → Plan α}
    (h : Fails world trace (Plan.account address >>= next) failure later) : trace.reads < later.reads := by
  have ended : ((Plan.account address >>= next).run world trace).2 = later := congrArg Prod.snd h
  rw [← ended]
  exact Plan.askedReads world trace address fun answer => (Plan.orLedger answer).bind next

/- Before the pool is read, only its address can be missing. -/
theorem refusalReads (h : Fails world {} (loadPool settings seed) failure later) :
    failure = .invalidDerivation ∨ 0 < later.reads := by
  rcases Plan.failsBind.1 h with underived | ⟨pool, mid, _, rest⟩
  · obtain ⟨_, rfl, _⟩ := failsDerive.1 underived
    exact .inl rfl
  · unfold Plan.existing at rest
    rw [bind_assoc] at rest
    exact .inr (Nat.zero_lt_of_lt (accountReads rest))

theorem LoadsFirst.reads {kinds : List Kind} {plan : Plan α} (loads : LoadsFirst settings seed kinds plan)
    (h : Fails world {} plan failure later) : failure = .invalidDerivation ∨ 0 < later.reads := by
  obtain ⟨rest, rfl, _⟩ := loads
  rcases Plan.failsBind.1 h with refused | ⟨⟨pool, state⟩, mid, loaded, last⟩
  · exact refusalReads refused
  · obtain ⟨_, rfl⟩ := poolSource.1 loaded
    have ended : ((rest (pool, state)).run world (loadTrace settings seed)).2 = later := congrArg Prod.snd last
    have grown := Plan.readsGrow world (rest (pool, state)) (loadTrace settings seed)
    rw [ended] at grown
    exact .inr grown

theorem trackerReads {openOrders : Key} (h : Fails world {} (orderTracker settings seed openOrders) failure later) :
    failure = .invalidDerivation ∨ 0 < later.reads := by
  rcases Plan.failsBind.1 h with underived | ⟨address, mid, _, rest⟩
  · rcases Plan.failsBind.1 underived with impossible | ⟨found, mid, _, missing⟩
    · cases impossible
    · obtain ⟨_, rfl, _⟩ := Plan.failsOfOption.1 missing
      exact .inl rfl
  · exact .inr (Nat.zero_lt_of_lt (accountReads rest))

namespace Operation

/- Every operation but one reads before it can fail with what it found. -/
theorem localReads (other : ∀ request, op ≠ .createPool request) (own : failure.isLocal = true)
    (h : Fails world {} (op.plan settings) failure later) : 0 < later.reads := by
  have read : failure = .invalidDerivation ∨ 0 < later.reads := by
    cases given : op.poolSeed? with
    | some seed => exact (loadsFirst settings given).reads h
    | none =>
      cases op with
      | createPool request => exact absurd rfl (other request)
      | poolSeeds signalProvider =>
        rcases (failsOnly settings (.poolSeeds signalProvider)).reason h with listed | ⟨_, _, rfl⟩
        · cases listed
        · cases own
      | orderTracker seed openOrders => exact trackerReads h
      | _ => cases given
  rcases read with rfl | read
  · cases own
  · exact read

theorem localListed (other : ∀ request, op ≠ .createPool request) (own : kind ∈ localKinds)
    (listed : kind ∈ op.failureKinds) : kind ∈ [Kind.truncatedAccount, .invalidAccountData] := by
  have table : (∃ request, op = .createPool request) ∨
      ∀ kind ∈ localKinds, kind ∈ op.failureKinds → kind ∈ [Kind.truncatedAccount, .invalidAccountData] := by
    cases op with
    | createPool request => exact .inl ⟨request, rfl⟩
    | _ => exact .inr (of_decide_eq_true rfl)
  rcases table with ⟨request, same⟩ | apart
  · exact absurd same (other request)
  · exact apart kind own listed

end Operation

theorem createPoolLocal {request : PoolRequest} (own : failure.isLocal = true)
    (h : Fails world {} (createPool settings request) failure later) :
    failure.kind ∈ argumentKinds ∧ createPool settings request = Plan.fail failure := by
  have apart : ∀ kind ∈ localKinds, kind ∉ assetKinds := by decide
  rcases createPoolSteps settings request with ⟨refusal, known, same⟩ | only
  · rw [same] at h ⊢
    cases h
    exact ⟨known, rfl⟩
  · rcases only.reason h with listed | ⟨_, _, rfl⟩
    · exact absurd listed (apart _ (failure.isLocalKind.1 own))
    · cases own

theorem localFailures (h : (op.plan settings).outcome world = .error failure) (own : failure.isLocal = true) :
    (failure.kind ∈ [.malformedLength, .overflow] ∧ (∃ request, op = .createPool request) ∧
      ∀ other, (op.plan settings).outcome other = .error failure ∧ ((op.plan settings).trace other).reads = 0) ∨
    (failure.kind ∈ [.truncatedAccount, .invalidAccountData] ∧ (∀ request, op ≠ .createPool request) ∧
      0 < ((op.plan settings).trace world).reads ∧
      ∀ text, (op.plan settings).outcome (world.failingAt ((op.plan settings).trace world).reads text) =
        .error (.ledger text)) := by
  obtain ⟨later, run⟩ := Plan.outcomeFails.1 h
  by_cases creates : ∃ request, op = .createPool request
  · obtain ⟨request, rfl⟩ := creates
    obtain ⟨known, same⟩ := createPoolLocal own run
    change createPool settings request = _ at same
    refine .inl ⟨known, ⟨request, rfl⟩, fun other => ?_⟩
    change (createPool settings request).outcome other = _ ∧ ((createPool settings request).trace other).reads = 0
    rw [same]
    exact ⟨rfl, rfl⟩
  · have other : ∀ request, op ≠ .createPool request := fun request same => creates ⟨request, same⟩
    have read : 0 < ((op.plan settings).trace world).reads := by
      rw [run.ended.2]
      exact Operation.localReads other own run
    rcases (op.failsOnly settings).reason run with listed | ⟨_, _, rfl⟩
    · refine .inr ⟨Operation.localListed other (failure.isLocalKind.1 own) listed, other, read, fun text => ?_⟩
      exact (((op.surfaces settings).failing world text {} read).1 (Nat.le_refl _)).1
    · cases own

def shortLedger : Ledger :=
  .ofEntries [⟨Address.hash [(Block.fill 32 10).bytes] (.fill 32 9), .fill 32 9, [2, 3, 5], by decide⟩]

def shortDeposit : Operation := .deposit (.fill 32 12) (.fill 32 14) (.fill 32 10) 5

theorem shortRefused : (deposit plainSettings (.fill 32 12) (.fill 32 14) (.fill 32 10) 5).outcome
    (World.ofLedger shortLedger) = .error (.truncatedAccount 117 3) := by
  decide +kernel

theorem shortReads : ((shortDeposit.plan plainSettings).trace (World.ofLedger shortLedger)).reads = 1 := by
  decide +kernel

theorem missingRefused : (deposit plainSettings (.fill 32 12) (.fill 32 14) (.fill 32 10) 5).outcome
    (World.ofLedger (.ofEntries [])) =
      .error (.poolUnavailable (Address.hash [(Block.fill 32 10).bytes] (.fill 32 9))) := by
  decide +kernel

theorem localFailureRead :
    (shortDeposit.plan plainSettings).outcome (World.ofLedger shortLedger) = .error (.truncatedAccount 117 3) ∧
    (Failure.truncatedAccount 117 3).isLocal = true ∧
    ((shortDeposit.plan plainSettings).trace (World.ofLedger shortLedger)).reads = 1 ∧
    (shortDeposit.plan plainSettings).outcome (World.ofLedger (.ofEntries [])) =
      .error (.poolUnavailable (Address.hash [(Block.fill 32 10).bytes] (.fill 32 9))) :=
  ⟨shortRefused, rfl, shortReads, missingRefused⟩

theorem localFailuresShort :
    (shortDeposit.plan plainSettings).outcome (World.ofLedger shortLedger) = .error (.truncatedAccount 117 3) ∧
    ∀ text, (shortDeposit.plan plainSettings).outcome ((World.ofLedger shortLedger).failingAt 1 text) =
      .error (.ledger text) := by
  have refused : (shortDeposit.plan plainSettings).outcome (World.ofLedger shortLedger) =
      .error (.truncatedAccount 117 3) := shortRefused
  rcases localFailures refused rfl with ⟨_, ⟨_, creates⟩, _⟩ | ⟨_, _, _, unread⟩
  · cases creates
  · rw [shortReads] at unread
    exact ⟨refused, unread⟩

end Workflow
end TradingPool
