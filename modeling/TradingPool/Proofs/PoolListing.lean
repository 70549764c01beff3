import Mathlib.Data.List.Nodup
import TradingPool.Proofs.Refusal
import TradingPool.Proofs.PoolIdentity

/-! The pools of a program, found among all its accounts. An account counts when it decodes to a created pool
and stands at the address of the seed it stores; two of them with one seed would stand at one address, so no
seed is listed twice, and no other account can pass for a pool. What is listed is what can be loaded. -/
namespace TradingPool

/-- No read fails, and addresses are derived by a function of the seeds and the program. -/
def World.serving (ledger : Ledger) (derives : List Bytes → Key → Option Key) : World :=
  { World.ofLedger ledger with create := fun _ => derives }

namespace Ledger

variable {ledger : Ledger} {entry : Entry} {program address : Key} {data : Bytes}

theorem dataStored (member : entry ∈ ledger.entries) : ledger.data? entry.address = some entry.data := by
  unfold data?
  cases found : ledger.entries.find? (·.address = entry.address) with
  | none => simpa using List.find?_eq_none.1 found entry member
  | some other =>
    have same : other.address = entry.address := by simpa using List.find?_some found
    cases List.inj_on_of_nodup_map ledger.distinct (List.mem_of_find?_eq_some found) member same
    rfl

theorem ownedEntry :
    (address, data) ∈ ledger.owned program ↔
      ∃ entry ∈ ledger.entries, entry.owner = program ∧ entry.address = address ∧ entry.data = data := by
  simp [owned, and_assoc]

theorem ownedStored (member : (address, data) ∈ ledger.owned program) : ledger.data? address = some data := by
  obtain ⟨entry, stored, _, rfl, rfl⟩ := ownedEntry.1 member
  exact dataStored stored

theorem ownedApart (ledger : Ledger) (program : Key) :
    (ledger.owned program).Pairwise fun a b => a.1 ≠ b.1 := by
  unfold owned
  rw [List.pairwise_map]
  exact (List.pairwise_map.1 ledger.distinct).filter _

end Ledger

namespace Workflow

open TradingPool.Plan (Yields)
open TradingPool.Derivation

variable {ledger wider : Ledger} {derives : List Bytes → Key → Option Key} {settings : Settings} {trace : Trace}
  {program pool : Key} {state : Pool.State} {account : Key × Bytes} {provider : Option Key} {seed : Seed}

/-- The state of an account that is a created pool at the address of its own seed. -/
def ownPool? (derives : List Bytes → Key → Option Key) (program : Key) (account : Key × Bytes) : Option Pool.State :=
  (Pool.State.unpack account.2).toOption.filter fun state =>
    state.header.isInitialized ∧ derives [state.header.seed.bytes] program = some account.1

theorem ownPoolEqSome :
    ownPool? derives program account = some state ↔
      Pool.State.unpack account.2 = .ok state ∧ state.header.isInitialized = true ∧
        derives [state.header.seed.bytes] program = some account.1 := by
  unfold ownPool?
  cases Pool.State.unpack account.2 <;> simp [Except.toOption, Option.filter_eq_some_iff]

def ownPools (ledger : Ledger) (derives : List Bytes → Key → Option Key) (program : Key) : List Pool.State :=
  (ledger.owned program).filterMap (ownPool? derives program)

def servedBy (provider : Option Key) (state : Pool.State) : Bool := provider.all (· = state.header.signalProvider)

section

variable (ledger : Ledger) (derives : List Bytes → Key → Option Key) (settings : Settings) (provider : Option Key)
  (trace : Trace)

theorem poolSeedYields (account : Key × Bytes) : ∃ later,
    Yields (World.serving ledger derives) trace (poolSeed? settings provider account.1 account.2)
      (((ownPool? derives settings.program account).filter (servedBy provider)).map (·.header.seed)) later := by
  unfold poolSeed?
  cases unpacked : Pool.State.unpack account.2 with
  | error failure =>
    have none : ownPool? derives settings.program account = none := by
      simp [ownPool?, unpacked, Except.toOption]
    rw [none]
    exact ⟨trace, Plan.yieldsPure.2 ⟨rfl, rfl⟩⟩
  | ok state =>
    refine ⟨trace.afterCall (.create [state.header.seed.bytes] settings.program),
      (Plan.yieldsCreate.2 ⟨rfl, rfl⟩).thenYields ?_⟩
    split
    · rename_i own
      obtain ⟨created, serves, address⟩ := own
      have listed : ownPool? derives settings.program account = some state :=
        ownPoolEqSome.2 ⟨unpacked, created, address⟩
      rw [listed]
      exact Plan.yieldsPure.2 ⟨by simp [servedBy, serves], rfl⟩
    · rename_i other
      refine Plan.yieldsPure.2 ⟨?_, rfl⟩
      cases listed : ownPool? derives settings.program account with
      | none => rfl
      | some found =>
        obtain ⟨same, created, address⟩ := ownPoolEqSome.1 listed
        cases unpacked.symm.trans same
        have apart : servedBy provider state = false := by
          by_contra serves
          exact other ⟨created, by simpa [servedBy] using serves, address⟩
        simp [apart]

theorem poolSeedsYield (accounts : List (Key × Bytes)) : ∃ later,
    Yields (World.serving ledger derives) trace (poolSeedsAmong settings provider accounts)
      (((accounts.filterMap (ownPool? derives settings.program)).filter (servedBy provider)).map (·.header.seed))
      later := by
  induction accounts generalizing trace with
  | nil => exact ⟨trace, Plan.yieldsPure.2 ⟨rfl, rfl⟩⟩
  | cons account rest ih =>
    obtain ⟨mid, first⟩ := poolSeedYields ledger derives settings provider trace account
    obtain ⟨later, others⟩ := ih mid
    refine ⟨later, first.thenYields <| others.thenYields <| Plan.yieldsPure.2 ⟨?_, rfl⟩⟩
    cases listed : ownPool? derives settings.program account with
    | none => rw [List.filterMap_cons_none listed]; rfl
    | some state =>
      rw [List.filterMap_cons_some listed]
      cases serves : servedBy provider state <;> simp [Option.filter, serves]

theorem poolSeedsListed :
    (poolSeeds settings provider).outcome (World.serving ledger derives) =
      .ok (((ownPools ledger derives settings.program).filter (servedBy provider)).map (·.header.seed)) := by
  obtain ⟨later, seeds⟩ := poolSeedsYield ledger derives settings provider ({} : Trace).afterRead
    (ledger.owned settings.program)
  exact Plan.outcomeYields.2 ⟨later, (Plan.yieldsOwned.2 ⟨rfl, rfl, rfl⟩).thenYields seeds⟩

end

theorem ownPoolsMember :
    state ∈ ownPools ledger derives program ↔ ∃ address data, (address, data) ∈ ledger.owned program ∧
      Pool.State.unpack data = .ok state ∧ state.header.isInitialized = true ∧
        derives [state.header.seed.bytes] program = some address := by
  unfold ownPools
  rw [List.mem_filterMap]
  simp only [ownPoolEqSome, Prod.exists]

theorem ownPoolLoaded (member : state ∈ ownPools ledger derives settings.program) :
    ∃ pool, PoolSource (World.serving ledger derives) {} settings state.header.seed pool state := by
  obtain ⟨address, data, owned, unpacked, created, derived⟩ := ownPoolsMember.1 member
  exact ⟨address, derived, rfl, ⟨data, Ledger.ownedStored owned, unpacked⟩, created⟩

theorem loadedOwn (loaded : PoolSource (World.serving ledger derives) {} settings seed pool state)
    (same : state.header.seed = seed)
    (owned : ∃ entry ∈ ledger.entries, entry.address = pool ∧ entry.owner = settings.program) :
    state ∈ ownPools ledger derives settings.program := by
  obtain ⟨entry, member, rfl, owner⟩ := owned
  obtain ⟨data, found, unpacked⟩ := loaded.stored
  cases Option.some.inj (found.symm.trans (Ledger.dataStored member))
  refine ownPoolsMember.2 ⟨entry.address, entry.data, ?_, unpacked, loaded.created, ?_⟩
  · exact Ledger.ownedEntry.2 ⟨entry, member, owner, rfl, rfl⟩
  · rw [same]
    exact loaded.address

/- Two pools of one seed would stand at one address. -/
theorem ownPoolsApart (ledger : Ledger) (derives : List Bytes → Key → Option Key) (program : Key) :
    ((ownPools ledger derives program).map (·.header.seed)).Nodup := by
  unfold ownPools
  rw [List.nodup_iff_pairwise_ne, List.pairwise_map, List.pairwise_filterMap]
  refine (ledger.ownedApart program).imp ?_
  intro a b apart first own second other same
  obtain ⟨_, _, here⟩ := ownPoolEqSome.1 own
  obtain ⟨_, _, there⟩ := ownPoolEqSome.1 other
  rw [same] at here
  exact apart (Option.some.inj (here.symm.trans there))

theorem poolInfoAnswers (loaded : PoolSource (World.serving ledger derives) {} settings seed pool state) :
    (∃ mint, derives [seed.bytes, [mintDiscriminator]] settings.program = some mint ∧
        (poolInfo settings seed).outcome (World.serving ledger derives) = .ok ⟨seed, pool, mint, state⟩) ∨
      derives [seed.bytes, [mintDiscriminator]] settings.program = none ∧
        (poolInfo settings seed).outcome (World.serving ledger derives) = .error .invalidDerivation := by
  have loads := poolSource.2 ⟨loaded, rfl⟩
  cases derived : derives [seed.bytes, [mintDiscriminator]] settings.program with
  | some mint =>
    exact .inl ⟨mint, rfl, Plan.outcomeYields.2 ⟨_, loads.thenYields <|
      (yieldsDerive.2 ⟨derived, rfl⟩).thenYields <| Plan.yieldsPure.2 ⟨rfl, rfl⟩⟩⟩
  | none =>
    exact .inr ⟨rfl, Plan.outcomeFails.2 ⟨_, loads.thenFails <|
      Plan.failsAtOnce <| failsDerive.2 ⟨derived, rfl, rfl⟩⟩⟩

def providerOf? (world : World) (settings : Settings) (seed : Seed) : Option Key :=
  ((loadPool settings seed).outcome world).toOption.map fun found => found.2.header.signalProvider

theorem PoolSource.providerIs {world : World} (loaded : PoolSource world {} settings seed pool state) :
    providerOf? world settings seed = some state.header.signalProvider := by
  unfold providerOf?
  rw [Plan.outcomeYields.2 ⟨_, poolSource.2 ⟨loaded, rfl⟩⟩]
  rfl

theorem servedSeeds (p : Key) :
    ((ownPools ledger derives settings.program).filter (servedBy (some p))).map (·.header.seed) =
      ((ownPools ledger derives settings.program).map (·.header.seed)).filter fun seed =>
        providerOf? (World.serving ledger derives) settings seed = some p := by
  rw [List.filter_map]
  refine congrArg _ (List.filter_congr fun state member => ?_)
  obtain ⟨pool, loaded⟩ := ownPoolLoaded member
  simp [servedBy, loaded.providerIs, eq_comm]

theorem ownPoolsAround {front back : List Entry} {entry : Entry} (before : ledger.entries = front ++ back)
    (after : wider.entries = front ++ entry :: back)
    (foreign : ownPool? derives program (entry.address, entry.data) = none) :
    ownPools wider derives program = ownPools ledger derives program := by
  unfold ownPools Ledger.owned
  rw [before, after]
  by_cases own : entry.owner = program <;> simp [own, foreign]

theorem poolListing (ledger : Ledger) (derives : List Bytes → Key → Option Key) (settings : Settings) :
    ∃ seeds, (poolSeeds settings none).outcome (World.serving ledger derives) = .ok seeds ∧ seeds.Nodup ∧
      (∀ seed ∈ seeds, ∃ pool state,
        (loadPool settings seed).outcome (World.serving ledger derives) = .ok (pool, state) ∧
        state.header.seed = seed ∧
        ((∃ mint, derives [seed.bytes, [mintDiscriminator]] settings.program = some mint ∧
            (poolInfo settings seed).outcome (World.serving ledger derives) = .ok ⟨seed, pool, mint, state⟩) ∨
          derives [seed.bytes, [mintDiscriminator]] settings.program = none ∧
            (poolInfo settings seed).outcome (World.serving ledger derives) = .error .invalidDerivation)) ∧
      (∀ seed info, (poolInfo settings seed).outcome (World.serving ledger derives) = .ok info →
        info.state.header.seed = seed →
        (∃ entry ∈ ledger.entries, entry.address = info.address ∧ entry.owner = settings.program) →
        seed ∈ seeds) ∧
      (∀ provider, (poolSeeds settings (some provider)).outcome (World.serving ledger derives) =
        .ok (seeds.filter fun seed =>
          providerOf? (World.serving ledger derives) settings seed = some provider)) ∧
      ∀ (wider : Ledger) (front back : List Entry) (entry : Entry), ledger.entries = front ++ back →
        wider.entries = front ++ entry :: back → entry.owner = settings.program →
        (¬ ∃ state, Pool.State.unpack entry.data = .ok state ∧ state.header.isInitialized = true ∧
          derives [state.header.seed.bytes] settings.program = some entry.address) →
        ∀ provider, (poolSeeds settings provider).outcome (World.serving wider derives) =
          (poolSeeds settings provider).outcome (World.serving ledger derives) := by
  refine ⟨(ownPools ledger derives settings.program).map (·.header.seed), ?_, ownPoolsApart .., ?_, ?_, ?_, ?_⟩
  · have all : (ownPools ledger derives settings.program).filter (servedBy none) =
        ownPools ledger derives settings.program := List.filter_eq_self.2 fun _ _ => rfl
    rw [poolSeedsListed, all]
  · intro seed listed
    obtain ⟨state, member, rfl⟩ := List.mem_map.1 listed
    obtain ⟨pool, loaded⟩ := ownPoolLoaded member
    exact ⟨pool, state, Plan.outcomeYields.2 ⟨_, poolSource.2 ⟨loaded, rfl⟩⟩, rfl, poolInfoAnswers loaded⟩
  · intro seed info ok same owned
    obtain ⟨later, yields⟩ := Plan.outcomeYields.1 ok
    exact List.mem_map.2 ⟨info.state, loadedOwn (poolInfoSource yields).1 same owned, same⟩
  · intro provider
    rw [poolSeedsListed, servedSeeds]
  · intro wider front back entry before after owner foreign provider
    have none : ownPool? derives settings.program (entry.address, entry.data) = none :=
      Option.eq_none_iff_forall_ne_some.2 fun state own => foreign ⟨state, ownPoolEqSome.1 own⟩
    rw [poolSeedsListed, poolSeedsListed, ownPoolsAround before after none]

/- A pool, an account of the program that is too short for one, and between them a copy of the pool. -/
def poolEntry : Entry :=
  ⟨Address.hash [(Block.fill 32 10).bytes] (.fill 32 9), .fill 32 9, investedPool, investedSized⟩

def copyEntry : Entry := ⟨.fill 32 77, .fill 32 9, investedPool, investedSized⟩

def shortEntry : Entry := ⟨.fill 32 78, .fill 32 9, [0, 0, 0], by decide⟩

def listedLedger : Ledger := ⟨[poolEntry, shortEntry], by decide +kernel⟩

def spoofedLedger : Ledger := ⟨[poolEntry, copyEntry, shortEntry], by decide +kernel⟩

theorem listedInfo :
    ((poolInfo plainSettings (.fill 32 10)).outcome (World.serving listedLedger Address.create?)).toOption.map
        (fun info => (info.address, info.state.header.seed)) = some (poolEntry.address, .fill 32 10) := by
  decide +kernel

theorem copyForeign : ¬ ∃ state, Pool.State.unpack copyEntry.data = .ok state ∧
    state.header.isInitialized = true ∧
    Address.create? [state.header.seed.bytes] plainSettings.program = some copyEntry.address := by
  rintro ⟨state, unpacked, _, derived⟩
  cases investedDecoded.symm.trans unpacked
  have here := Option.some.inj (investedAddress.symm.trans derived)
  revert here
  decide +kernel

theorem poolListingSpoofed : ∃ seeds,
    (poolSeeds plainSettings none).outcome (World.serving spoofedLedger Address.create?) = .ok seeds ∧
    .fill 32 10 ∈ seeds ∧ seeds.Nodup ∧
    (poolSeeds plainSettings (some (.fill 32 11))).outcome (World.serving spoofedLedger Address.create?) =
      .ok (seeds.filter fun seed =>
        providerOf? (World.serving listedLedger Address.create?) plainSettings seed = some (.fill 32 11)) := by
  obtain ⟨seeds, listed, once, _, complete, restricted, around⟩ :=
    poolListing listedLedger Address.create? plainSettings
  obtain ⟨info, found, seen⟩ := Failure.answered listedInfo
  obtain ⟨address, named⟩ := Prod.mk.inj seen
  have same := around spoofedLedger [poolEntry] [shortEntry] copyEntry rfl rfl rfl copyForeign
  refine ⟨seeds, (same none).trans listed, ?_, once, (same _).trans (restricted _)⟩
  exact complete _ info found named ⟨poolEntry, by simp [listedLedger], address.symm, rfl⟩

end Workflow
end TradingPool
