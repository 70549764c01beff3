import TradingPool.Proofs.Assembly
import TradingPool.Proofs.Refusal

/-! What pool tokens depend on. Buying them, giving them back and collecting fees take from the account of the pool its
signal provider, the number of its orders in flight and the mints that it holds, and of every other account only whether
it is there. On two ledgers that agree in this they ask, log and answer the same. -/
namespace TradingPool

variable {α β : Type} {a b : World} {trace : Trace}

theorem Ledger.isSomeData (ledger : Ledger) (address : Key) :
    (ledger.data? address).isSome = true ↔ address ∈ ledger.entries.map Entry.address := by
  simp [data?, List.mem_map]

/-- Accounts at the same addresses and the same oracle, and no read that fails. -/
structure World.SamePlaces (a b : World) : Prop where
  stored : ∀ address, (a.account address).isSome = (b.account address).isSome
  create : ∀ calls seeds program, a.create calls seeds program = b.create calls seeds program
  sound : ∀ n, a.fault n = none
  soundOther : ∀ n, b.fault n = none

theorem World.SamePlaces.ofLedgers {ledger other : Ledger}
    (same : ledger.entries.map Entry.address = other.entries.map Entry.address) :
    SamePlaces (.ofLedger ledger) (.ofLedger other) := by
  refine ⟨fun address => Bool.eq_iff_iff.2 ?_, fun _ _ _ => rfl, fun _ => rfl, fun _ => rfl⟩
  exact (ledger.isSomeData address).trans (same ▸ (other.isSomeData address).symm)

namespace Plan

/-- Of an account the plan takes in no more than whether it is there. -/
inductive Blind : Plan α → Prop where
  | done (outcome : Except Failure α) : Blind (.done outcome)
  | account {address : Key} {next : (Query.account address).Answer → Plan α}
      (alike : ∀ data other : Option Bytes, data.isSome = other.isSome → next (.ok data) = next (.ok other))
      (rest : ∀ data, Blind (next (.ok data))) : Blind (.ask (.account address) next)
  | create {seeds : List Bytes} {program : Key} {next : (Query.create seeds program).Answer → Plan α}
      (rest : ∀ address, Blind (next address)) : Blind (.ask (.create seeds program) next)
  | note {event : Event} {next : (Query.note event).Answer → Plan α} (rest : Blind (next ())) :
      Blind (.ask (.note event) next)

namespace Blind

/- By induction on the plan: the two runs ask the same, and what they are answered makes no difference. -/
theorem sameRun {plan : Plan α} (blind : plan.Blind) (same : a.SamePlaces b) (trace : Trace) :
    plan.run a trace = plan.run b trace := by
  induction blind generalizing trace with
  | done outcome => rfl
  | @account address next alike rest ih =>
    simp only [run, World.answer, World.readSound (same.sound _), World.readSound (same.soundOther _)]
    rw [ih, alike _ _ (same.stored address)]
  | create rest ih =>
    simp only [run, World.answer, same.create]
    exact ih _ _
  | note rest ih => exact ih _

theorem bind {plan : Plan α} {f : α → Plan β} (first : plan.Blind) (rest : ∀ a, (f a).Blind) :
    (plan >>= f).Blind := by
  change (plan.bind f).Blind
  induction first with
  | done outcome =>
    cases outcome with
    | error failure => exact .done _
    | ok a => exact rest a
  | account alike _ ih => exact .account (fun data other same => congrArg (·.bind f) (alike data other same)) ih
  | create _ ih => exact .create ih
  | note _ ih => exact .note ih

theorem ofExcept (outcome : Except Failure α) : (Plan.ofExcept outcome).Blind := .done outcome

theorem accountExists (address : Key) : (Plan.accountExists address).Blind := by
  refine .account (fun data other same => ?_) fun data => .done _
  change Plan.done (.ok data.isSome) = Plan.done (.ok other.isSome)
  rw [same]

end Blind
end Plan

namespace Workflow

open TradingPool.Derivation
open TradingPool.Plan (Yields Fails Blind)

variable {settings : Settings} {seed : Seed} {pool : Key} {op : Operation}

theorem blindDerive (seeds : List Bytes) (program : Key) : (derive seeds program).Blind := by
  refine Blind.bind (.create fun address => .done _) fun address => ?_
  cases address <;> exact .done _

theorem blindMissing (settings : Settings) (payer : Key) (wanted : List Holding) :
    (createMissing settings payer wanted).Blind := by
  induction wanted with
  | nil => exact .done _
  | cons holding wanted ih =>
    refine (Blind.accountExists _).bind fun present => ?_
    split
    · exact ih
    · exact Blind.bind (.note (.done _)) fun _ => ih.bind fun _ => .done _

/- What the three workflows have in common behind the pool. -/
theorem blindAssembly (settings : Settings) (payer : Key) (seed : Seed) (wanted : Key → List Holding)
    (built : Key → Except Failure Instruction) (event : List Instruction → Event) :
    Blind (do
      let mint ← mintAddress settings.program seed
      let creations ← createMissing settings payer (wanted mint)
      let last ← Plan.ofExcept (built mint)
      Plan.note (event (creations ++ [last]))
      return creations ++ [last]) := by
  refine (blindDerive _ _).bind fun mint => (blindMissing settings payer _).bind fun creations => ?_
  exact (Blind.ofExcept _).bind fun last => .note (.done _)

/-- Two pools that agree in what pool tokens depend on. -/
structure SameForShares (state other : Pool.State) : Prop where
  provider : state.header.signalProvider = other.header.signalProvider
  pending : state.header.status.pendingOrders = other.header.status.pendingOrders
  mints : state.mints = other.mints

/-- The pool is loaded, and what follows looks at little of it and at the contents of no other account. -/
def LoadsBlind (settings : Settings) (seed : Seed) (plan : Plan α) : Prop :=
  ∃ rest : Key × Pool.State → Plan α, plan = loadPool settings seed >>= rest ∧ ∀ pool state,
    (rest (pool, state)).Blind ∧ ∀ other, SameForShares state other → rest (pool, state) = rest (pool, other)

theorem depositBlind (settings : Settings) (payer sourceOwner : Key) (seed : Seed) (amount : UInt64) :
    LoadsBlind settings seed (deposit settings payer sourceOwner seed amount) := by
  refine ⟨_, rfl, fun pool state => ⟨?_, fun other same => ?_⟩⟩
  · exact blindAssembly settings payer seed _ _ fun list => .deposit pool list.length
  · simp only [depositAccounts, same.provider, same.mints]

theorem redeemBlind (settings : Settings) (payer sourceOwner : Key) (seed : Seed) (amount : UInt64) :
    LoadsBlind settings seed (redeem settings payer sourceOwner seed amount) := by
  refine ⟨_, rfl, fun pool state => ⟨?_, fun other same => ?_⟩⟩
  · dsimp only
    split
    · exact .done _
    · exact blindAssembly settings payer seed _ _ fun list => .redemption pool list.length
  · simp only [redeemAccounts, same.pending, same.mints]

theorem collectFeesBlind (settings : Settings) (payer : Key) (seed : Seed) :
    LoadsBlind settings seed (collectFees settings payer seed) := by
  refine ⟨_, rfl, fun pool state => ⟨?_, fun other same => ?_⟩⟩
  · exact blindAssembly settings payer seed _ _ fun list => .feeCollection pool list.length
  · simp only [collectAccounts, same.provider]

/-- The seed of the pool whose tokens are bought, given back or minted as fees. -/
def Operation.sharesSeed? : Operation → Option Seed
  | .deposit _ _ seed _ | .redeem _ _ seed _ | .collectFees _ seed => some seed
  | _ => none

theorem Operation.loadsBlind (settings : Settings) (given : op.sharesSeed? = some seed) :
    LoadsBlind settings seed (op.plan settings) := by
  cases op with
  | deposit payer sourceOwner seed amount =>
    cases given
    exact depositBlind settings payer sourceOwner seed amount
  | redeem payer sourceOwner seed amount =>
    cases given
    exact redeemBlind settings payer sourceOwner seed amount
  | collectFees payer seed =>
    cases given
    exact collectFeesBlind settings payer seed
  | _ => cases given

/-- A pool that has been created stands at the address. -/
def StoredPool (world : World) (pool : Key) (state : Pool.State) : Prop :=
  ∃ data, world.account pool = some data ∧ Pool.State.unpack data = .ok state ∧ state.header.isInitialized = true

theorem StoredPool.loads {world : World} {state : Pool.State} (stored : StoredPool world pool state)
    (derived : world.create #[] [seed.bytes] settings.program = some pool) (sound : ∀ n, world.fault n = none) :
    Yields world {} (loadPool settings seed) (pool, state) (loadTrace settings seed) := by
  obtain ⟨data, kept, read, created⟩ := stored
  exact poolSource.2 ⟨⟨derived, sound 1, ⟨data, kept, read⟩, created⟩, rfl⟩

theorem LoadsBlind.sameRun {plan : Plan α} (loads : LoadsBlind settings seed plan) (places : a.SamePlaces b)
    (pools : ∀ pool, a.create #[] [seed.bytes] settings.program = some pool →
      ∃ state other, StoredPool a pool state ∧ StoredPool b pool other ∧ SameForShares state other) :
    plan.run a {} = plan.run b {} := by
  obtain ⟨rest, rfl, steps⟩ := loads
  change ((loadPool settings seed).bind rest).run a {} = ((loadPool settings seed).bind rest).run b {}
  cases derived : a.create #[] [seed.bytes] settings.program with
  | none =>
    have again := derived
    rw [places.create] at again
    have refused : Fails a {} (loadPool settings seed) .invalidDerivation _ :=
      Plan.failsAtOnce (failsDerive.2 ⟨derived, rfl, rfl⟩)
    have refusedToo : Fails b {} (loadPool settings seed) .invalidDerivation _ :=
      Plan.failsAtOnce (failsDerive.2 ⟨again, rfl, rfl⟩)
    rw [Plan.runBind, Plan.runBind, refused, refusedToo]
  | some pool =>
    obtain ⟨state, other, stored, storedToo, same⟩ := pools pool derived
    have again := derived
    rw [places.create] at again
    have loaded := stored.loads derived places.sound
    have loadedToo := storedToo.loads again places.soundOther
    rw [Plan.runBind, Plan.runBind, loaded, loadedToo]
    obtain ⟨blind, alike⟩ := steps pool state
    dsimp only
    rw [← alike other same]
    exact blind.sameRun places _

theorem sharesDependOn (given : op.sharesSeed? = some seed) (places : a.SamePlaces b)
    (pools : ∀ pool, a.create #[] [seed.bytes] settings.program = some pool →
      ∃ state other, StoredPool a pool state ∧ StoredPool b pool other ∧ SameForShares state other) :
    (op.plan settings).outcome a = (op.plan settings).outcome b ∧
      (op.plan settings).trace a = (op.plan settings).trace b := by
  have same := (Operation.loadsBlind settings given).sameRun places pools
  exact ⟨congrArg Prod.fst same, congrArg Prod.snd same⟩

theorem investedCreated : StoredPool (World.ofLedger investedLedger)
    (Address.hash [(Block.fill 32 10).bytes] (.fill 32 9)) investedState :=
  ⟨investedPool, investedStored, investedDecoded, by decide⟩

/- The pool of the investor as it might be, locked and with another venue, stored seed, market list and fees, other
amounts, and free slots in other places. -/
def reworkedPool : Bytes :=
  Pool.Header.stored.write (.fill 32 7, .fill 32 3, .fill 32 11, 0x80, 2, 25, 0, 86400) ++
    Layout.key.writeAll [.fill 32 30, .fill 32 31] ++
    Pool.Asset.layout.writeAll [⟨.zero 32, 1⟩, ⟨.fill 32 2, 70⟩, ⟨.fill 32 5, 0⟩, ⟨.zero 32, 0⟩]

def reworkedState : Pool.State where
  header := ⟨.fill 32 7, .fill 32 3, .fill 32 11, .active true 0, 2, 25, 0, 86400⟩
  markets := [.fill 32 30, .fill 32 31]
  assets := [⟨.fill 32 2, 70⟩, ⟨.fill 32 5, 0⟩]

def reworkedLedger : Ledger :=
  .ofEntries [⟨Address.hash [(Block.fill 32 10).bytes] (.fill 32 9), .fill 32 9, reworkedPool, by decide +kernel⟩,
    ⟨plainSettings.tokenAccount (.fill 32 14) (.fill 32 2), Programs.token, [1, 2, 3], by decide⟩]

theorem reworkedStored : StoredPool (World.ofLedger reworkedLedger)
    (Address.hash [(Block.fill 32 10).bytes] (.fill 32 9)) reworkedState :=
  ⟨reworkedPool, by decide +kernel, by decide +kernel, by decide⟩

theorem sharesDependOnReworked : investedState.assets ≠ reworkedState.assets ∧ ∃ list : List Instruction,
    (investorRedeems.plan plainSettings).outcome (World.ofLedger investedLedger) = .ok list ∧
    (investorRedeems.plan plainSettings).outcome (World.ofLedger reworkedLedger) = .ok list ∧
    list.length = 2 := by
  have places : World.SamePlaces (.ofLedger investedLedger) (.ofLedger reworkedLedger) :=
    .ofLedgers (by decide +kernel)
  have given : investorRedeems.sharesSeed? = some (.fill 32 10) := rfl
  have pools : ∀ pool,
      (World.ofLedger investedLedger).create #[] [(Block.fill 32 10).bytes] plainSettings.program = some pool →
      ∃ state other, StoredPool (World.ofLedger investedLedger) pool state ∧
        StoredPool (World.ofLedger reworkedLedger) pool other ∧ SameForShares state other := by
    intro pool derived
    rw [createOfLedger] at derived
    have place := Option.some.inj (derived.symm.trans investedAddress)
    subst place
    exact ⟨investedState, reworkedState, investedCreated, reworkedStored, rfl, rfl, rfl⟩
  obtain ⟨answers, _⟩ := sharesDependOn given places pools
  obtain ⟨list, ok, seen⟩ := Failure.answered redemptionRun
  exact ⟨by decide, list, ok, answers.symm.trans ok, congrArg Prod.fst seen⟩

end Workflow
end TradingPool
