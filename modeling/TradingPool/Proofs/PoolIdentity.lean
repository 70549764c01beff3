import TradingPool.Proofs.InstructionLists
import TradingPool.Proofs.Refusal

/-! The seed of a pool leads back to it. The address found for 31 bytes and a bump is the address of the 32
bytes together, so whoever derives from the seed alone arrives at the same pool and the same mint. What is
done with the seed later reads that pool first, and whatever it names is named after that mint. Only the query
for an order goes past the pool, to the tracker of the order. -/
namespace TradingPool

variable {α β : Type} {world : World} {trace later : Trace}

/-- The oracle derives addresses as the runtime does, whatever it was asked before. -/
structure World.Runtime (world : World) : Prop where
  find : ∀ calls seeds program, world.find calls seeds program = Address.find? seeds program
  create : ∀ calls seeds program, world.create calls seeds program = Address.create? seeds program

namespace Derivation

open TradingPool.Plan (Yields)

variable {program pool mint : Key} {seed : Seed} {drawn : Block 32} {bump : UInt8}

structure Identifies (program : Key) (seed : Seed) (pool mint : Key) : Prop where
  bump : ∃ bump, seed.bytes[31]? = some bump ∧ Address.LargestBump [seed.bytes.take 31] program pool bump
  pool : Address.create? [seed.bytes] program = some pool
  mint : Address.create? [seed.bytes, [mintDiscriminator]] program = some mint

theorem lengthStem (drawn : Block 32) : (stem drawn).length = 31 := by
  simp [stem, drawn.lengthBytes]

theorem bumpedIdentifies (found : Address.find? [stem drawn] program = some (pool, bump))
    (named : Address.create? [(bumped drawn bump).bytes, [mintDiscriminator]] program = some mint) :
    Identifies program (bumped drawn bump) pool mint := by
  have largest := Address.findSource found
  have size := lengthStem drawn
  have front : (bumped drawn bump).bytes.take 31 = stem drawn := List.take_left' size
  have last : (bumped drawn bump).bytes[31]? = some bump := by
    rw [← size]
    exact List.getElem?_concat_length
  have together : Address.create? [(bumped drawn bump).bytes] program =
      Address.create? ([stem drawn] ++ [[bump]]) program := by
    refine Address.createSame ?_ ?_ ?_
    · simp [Address.Fits, Address.maxSeeds, Address.maxSeedLength, (bumped drawn bump).lengthBytes]
    · simp [Address.Fits, Address.maxSeeds, Address.maxSeedLength, size]
    · simp [bumped]
  exact ⟨⟨bump, last, front.symm ▸ largest⟩, together.trans largest.derives, named⟩

/- By induction on the attempts that remain: the attempt that succeeds is the only one that counts. -/
theorem searchIdentifies (runtime : world.Runtime) {attempt remaining : Nat}
    (h : Yields world trace (searchSeed program attempt remaining) (some ⟨seed, pool, mint⟩) later) :
    Identifies program seed pool mint := by
  induction remaining generalizing attempt trace with
  | zero =>
    obtain ⟨absurdity, _⟩ := Plan.yieldsPure.1 h
    cases absurdity
  | succ remaining ih =>
    unfold searchSeed at h
    obtain ⟨drawn, _, _, h⟩ := Plan.yieldsBind.1 h
    obtain ⟨found, _, searched, h⟩ := Plan.yieldsBind.1 h
    obtain ⟨searched, _⟩ := Plan.yieldsFind.1 searched
    rw [runtime.find] at searched
    cases found with
    | none =>
      obtain ⟨_, _, _, h⟩ := Plan.yieldsBind.1 h
      exact ih h
    | some found =>
      obtain ⟨address, bump⟩ := found
      obtain ⟨given, _, created, h⟩ := Plan.yieldsBind.1 h
      obtain ⟨created, _⟩ := Plan.yieldsCreate.1 created
      rw [runtime.create] at created
      cases given with
      | none =>
        obtain ⟨_, _, _, h⟩ := Plan.yieldsBind.1 h
        exact ih h
      | some name =>
        obtain ⟨_, _, _, h⟩ := Plan.yieldsBind.1 h
        obtain ⟨same, _⟩ := Plan.yieldsPure.1 h
        cases same
        exact bumpedIdentifies searched created

theorem newPoolIdentifies (runtime : world.Runtime) {maxAttempts : UInt32}
    (h : Yields world trace (newPool program maxAttempts) ⟨seed, pool, mint⟩ later) :
    Identifies program seed pool mint := by
  obtain ⟨found, _, searched, h⟩ := Plan.yieldsBind.1 h
  obtain ⟨rfl, _⟩ := Plan.yieldsOfOption.1 h
  exact searchIdentifies runtime searched

end Derivation

def Query.accounts : Query → List Key
  | .account address => [address]
  | _ => []

namespace Plan

/-- The accounts that a run asks for, in order, whether or not it gets them. -/
def accountsRead (world : World) : Plan α → Trace → List Key
  | .done _, _ => []
  | .ask query next, trace =>
    let (answer, later) := world.answer trace query
    query.accounts ++ (next answer).accountsRead world later

theorem accountsReadBind (world : World) (plan : Plan α) (f : α → Plan β) (trace : Trace) :
    (plan >>= f).accountsRead world trace = plan.accountsRead world trace ++
      match plan.run world trace with
      | (.ok a, later) => (f a).accountsRead world later
      | (.error _, _) => [] := by
  change (plan.bind f).accountsRead world trace = _
  induction plan generalizing trace with
  | done outcome => cases outcome <;> rfl
  | ask query next ih =>
    simp only [bind, accountsRead, run, List.append_assoc, ih]

theorem Yields.accountsRead {plan : Plan α} {a : α} (h : Yields world trace plan a later) (f : α → Plan β) :
    (plan >>= f).accountsRead world trace =
      plan.accountsRead world trace ++ (f a).accountsRead world later := by
  rw [accountsReadBind]
  unfold Yields at h
  rw [h]

theorem Fails.accountsRead {plan : Plan α} {failure : Failure} (h : Fails world trace plan failure later)
    (f : α → Plan β) : (plan >>= f).accountsRead world trace = plan.accountsRead world trace := by
  rw [accountsReadBind]
  unfold Fails at h
  rw [h, List.append_nil]

theorem accountsReadAlone {plan : Plan α} {f : α → Plan β} (silent : ∀ a later, (f a).accountsRead world later = []) :
    (plan >>= f).accountsRead world trace = plan.accountsRead world trace := by
  rw [accountsReadBind]
  split
  · rw [silent, List.append_nil]
  · rw [List.append_nil]

theorem firstRead {plan : Plan α} {address : Key}
    (first : (plan.accountsRead world trace).head? = some address) (f : α → Plan β) :
    ((plan >>= f).accountsRead world trace).head? = some address := by
  rw [accountsReadBind, List.head?_append, first]
  rfl

theorem optionReads (value : Option α) (absent : Failure) (trace : Trace) :
    (ofOption value absent).accountsRead world trace = [] := by
  cases value <;> rfl

theorem existingReads (address : Key) (absent : Failure) :
    (existing address absent).accountsRead world trace = [address] :=
  accountsReadAlone fun _ _ => optionReads ..

end Plan

namespace Workflow

open TradingPool.Derivation
open TradingPool.Plan (Yields)

variable {settings : Settings} {seed : Seed} {pool mint other name : Key}

theorem deriveReads (seeds : List Bytes) (program : Key) : (derive seeds program).accountsRead world trace = [] :=
  Plan.accountsReadAlone fun _ _ => Plan.optionReads ..

theorem loadReads (derived : world.create trace.calls [seed.bytes] settings.program = some pool) :
    (loadPool settings seed).accountsRead world trace = [pool] := by
  have address : Yields world trace (poolAddress settings.program seed) pool _ := yieldsDerive.2 ⟨derived, rfl⟩
  unfold loadPool
  rw [address.accountsRead, Plan.accountsReadAlone, Plan.existingReads]
  · rw [poolAddress, deriveReads, List.nil_append]
  · intro data later
    refine Plan.accountsReadAlone fun state after => ?_
    split <;> rfl

theorem amountsReads {addresses : List Key} {balances : List UInt64}
    (h : Yields world trace (amounts addresses) balances later) :
    (amounts addresses).accountsRead world trace = addresses := by
  induction addresses generalizing trace balances later with
  | nil => rfl
  | cons address addresses ih =>
    unfold amounts at h ⊢
    obtain ⟨data, _, read, h⟩ := Plan.yieldsBind.1 h
    obtain ⟨account, _, decoded, h⟩ := Plan.yieldsBind.1 h
    obtain ⟨rest, _, next, _⟩ := Plan.yieldsBind.1 h
    rw [read.accountsRead, decoded.accountsRead, Plan.existingReads, Plan.optionReads,
      Plan.accountsReadAlone fun _ _ => rfl, ih next]
    rfl

structure Answers (world : World) (settings : Settings) (seed : Seed) (pool mint : Key) : Prop where
  pool : ∀ calls, world.create calls [seed.bytes] settings.program = some pool
  mint : ∀ calls, world.create calls [seed.bytes, [mintDiscriminator]] settings.program = some mint

theorem answersOfIdentity (runtime : world.Runtime) (identity : Identifies settings.program seed pool mint) :
    Answers world settings seed pool mint :=
  ⟨fun _ => (runtime.create ..).trans identity.pool, fun _ => (runtime.create ..).trans identity.mint⟩

structure BalancesSource (world : World) (settings : Settings) (seed : Seed) (pool mint : Key)
    (state : Pool.State) (balances : UInt64 × List UInt64) : Prop where
  loaded : PoolSource world {} settings seed pool state
  named : NamesMint world (loadTrace settings seed) settings seed mint
  supply : ∃ data held, world.account mint = some data ∧ TokenMint.unpack? data = some held ∧
    balances.1 = held.supply
  reads : (poolBalances settings seed).accountsRead world {} =
    pool :: mint :: state.mints.map (settings.tokenAccount pool)

theorem poolBalancesSource {balances : UInt64 × List UInt64}
    (h : Yields world {} (poolBalances settings seed) balances later) :
    ∃ pool mint state, BalancesSource world settings seed pool mint state balances := by
  unfold poolBalances at h
  obtain ⟨⟨pool, state⟩, _, loads, h⟩ := Plan.yieldsBind.1 h
  obtain ⟨loaded, rfl⟩ := poolSource.1 loads
  obtain ⟨mint, _, derives, h⟩ := Plan.yieldsBind.1 h
  obtain ⟨named, rfl⟩ := yieldsDerive.1 derives
  obtain ⟨data, _, read, h⟩ := Plan.yieldsBind.1 h
  obtain ⟨_, stored, _⟩ := Plan.yieldsExisting.1 read
  obtain ⟨held, _, decoded, h⟩ := Plan.yieldsBind.1 h
  have unpacked := (Plan.yieldsOfOption.1 decoded).1
  obtain ⟨amounts, _, rest, h⟩ := Plan.yieldsBind.1 h
  obtain ⟨rfl, _⟩ := Plan.yieldsPure.1 h
  refine ⟨pool, mint, state, loaded, named, ⟨data, held, stored, unpacked, rfl⟩, ?_⟩
  unfold poolBalances
  rw [loads.accountsRead, loadReads loaded.address, derives.accountsRead, read.accountsRead,
    decoded.accountsRead, Plan.existingReads, Plan.optionReads, Plan.accountsReadAlone fun _ _ => rfl,
    amountsReads rest, mintAddress, fixedAddress, deriveReads]
  rfl

theorem poolInfoSource {info : PoolInfo} (h : Yields world {} (poolInfo settings seed) info later) :
    PoolSource world {} settings seed info.address info.state ∧
      NamesMint world (loadTrace settings seed) settings seed info.mint := by
  obtain ⟨⟨pool, state⟩, _, loads, h⟩ := Plan.yieldsBind.1 h
  obtain ⟨loaded, rfl⟩ := poolSource.1 loads
  obtain ⟨mint, _, derives, h⟩ := Plan.yieldsBind.1 h
  obtain ⟨named, rfl⟩ := yieldsDerive.1 derives
  obtain ⟨rfl, _⟩ := Plan.yieldsPure.1 h
  exact ⟨loaded, named⟩

def Operation.Names (world : World) (settings : Settings) (pool mint : Key) : (op : Operation) → op.Answer → Prop
  | .poolInfo _, info => info.address = pool ∧ info.mint = mint
  | .poolBalances seed, balances => ∃ state, BalancesSource world settings seed pool mint state balances
  | op, answer => Listed world settings pool mint op answer

namespace Answers

theorem poolIs {state : Pool.State} (answers : Answers world settings seed pool mint)
    (loaded : PoolSource world trace settings seed other state) : other = pool :=
  Option.some.inj (loaded.address.symm.trans (answers.pool _))

theorem mintIs (answers : Answers world settings seed pool mint)
    (named : NamesMint world trace settings seed name) : name = mint :=
  named.same (answers.mint _)

theorem assembled {op : Operation} {answer : op.Answer} (answers : Answers world settings seed pool mint)
    (given : op.poolSeed? = some seed) (h : Assembled world settings other name op answer) :
    Assembled world settings pool mint op answer := by
  cases h with
  | createPool => cases given
  | deposit loaded named built =>
    cases given
    cases answers.poolIs loaded
    cases answers.mintIs named
    exact .deposit loaded named built
  | createOrder placed told built =>
    cases given
    cases answers.poolIs placed.pool
    exact .createOrder placed told built
  | cancelOrder loaded venue resting first built =>
    cases given
    cases answers.poolIs loaded
    exact .cancelOrder loaded venue resting first built
  | settleFunds loaded venue coinHeld pcHeld signs named built =>
    cases given
    cases answers.poolIs loaded
    cases answers.mintIs named
    exact .settleFunds loaded venue coinHeld pcHeld signs named built
  | redeem loaded idle named built =>
    cases given
    cases answers.poolIs loaded
    cases answers.mintIs named
    exact .redeem loaded idle named built
  | collectFees loaded named built =>
    cases given
    cases answers.poolIs loaded
    cases answers.mintIs named
    exact .collectFees loaded named built

theorem names {op : Operation} {answer : op.Answer} (answers : Answers world settings seed pool mint)
    (given : op.poolSeed? = some seed) (h : Yields world {} (op.plan settings) answer later) :
    op.Names world settings pool mint answer := by
  cases op with
  | poolInfo =>
    cases given
    obtain ⟨loaded, named⟩ := poolInfoSource h
    exact ⟨answers.poolIs loaded, answers.mintIs named⟩
  | poolBalances =>
    cases given
    obtain ⟨pool, mint, state, source⟩ := poolBalancesSource h
    cases answers.poolIs source.loaded
    cases answers.mintIs source.named
    exact ⟨state, source⟩
  | createPool | poolSeeds | orderTracker => cases given
  | deposit | createOrder | cancelOrder | settleFunds | redeem | collectFees =>
    obtain ⟨_, _, made⟩ := Workflow.assembled rfl h
    exact (answers.assembled given made).listed

theorem readsPool {op : Operation} (answers : Answers world settings seed pool mint)
    (given : op.poolSeed? = some seed) :
    ((op.plan settings).accountsRead world {}).head? = some pool := by
  have load := loadReads (answers.pool ({} : Trace).calls)
  have first : ((loadPool settings seed).accountsRead world {}).head? = some pool := by rw [load]; rfl
  cases op with
  | createPool | poolSeeds | orderTracker => cases given
  | deposit | createOrder | cancelOrder | settleFunds | redeem | collectFees | poolInfo | poolBalances =>
    cases given
    exact Plan.firstRead first _

/- The mint is read after the pool, also where what is read there ends the run. -/
theorem readsMint (answers : Answers world settings seed pool mint)
    (second : ((poolBalances settings seed).accountsRead world {})[1]? = some other) : other = mint := by
  unfold poolBalances at second
  rw [Plan.accountsReadBind, loadReads (answers.pool _)] at second
  split at second
  · rename_i state after _
    have named : Yields world after (mintAddress settings.program seed) mint _ :=
      yieldsDerive.2 ⟨answers.mint _, rfl⟩
    rw [named.accountsRead, Plan.accountsReadBind, Plan.existingReads, mintAddress, fixedAddress, deriveReads] at second
    exact (Option.some.inj second).symm
  · cases second

end Answers

/- What is read for an order depends on the pool by its seed alone. -/
theorem orderTrackerReads (runtime : world.Runtime) (openOrders : Key) :
    (orderTracker settings seed openOrders).accountsRead world {} =
      ((Address.find? [seed.bytes, openOrders.bytes] settings.program).map Prod.fst).toList := by
  have found := runtime.find #[] [seed.bytes, openOrders.bytes] settings.program
  have silent : (trackerAddress settings.program seed openOrders).accountsRead world {} = [] :=
    Plan.accountsReadAlone fun _ _ => Plan.optionReads ..
  have asked : Yields world {} (Plan.find [seed.bytes, openOrders.bytes] settings.program) _ _ :=
    Plan.yieldsFind.2 ⟨found, rfl⟩
  cases given : Address.find? [seed.bytes, openOrders.bytes] settings.program with
  | none =>
    rw [given] at asked
    have refused : Plan.Fails world {} (trackerAddress settings.program seed openOrders) .invalidDerivation _ :=
      asked.thenFails (Plan.failsOfOption.2 ⟨rfl, rfl, rfl⟩)
    unfold orderTracker
    rw [refused.accountsRead, silent]
    rfl
  | some answer =>
    rw [given] at asked
    have named : Yields world {} (trackerAddress settings.program seed openOrders) answer.1 _ :=
      asked.thenYields (Plan.yieldsOfOption.2 ⟨rfl, rfl⟩)
    unfold orderTracker
    rw [named.accountsRead, silent, List.nil_append, Plan.accountsReadAlone]
    · rfl
    · rintro (_ | data) later
      · rfl
      · exact Plan.accountsReadAlone fun _ _ => rfl

theorem seedIdentifiesPool (runtime : world.Runtime) :
    (∀ program attempts seed pool mint, (newPool program attempts).outcome world = .ok ⟨seed, pool, mint⟩ →
      (∃ bump, seed.bytes[31]? = some bump ∧ Address.LargestBump [seed.bytes.take 31] program pool bump) ∧
      ∀ after : World, after.Runtime → (poolAddress program seed).outcome after = .ok pool ∧
        (mintAddress program seed).outcome after = .ok mint) ∧
    ∀ settings request created, (createPool settings request).outcome world = .ok created →
      ∀ (after : World) (client : Settings), after.Runtime → client.program = settings.program →
        (∀ op : Operation, op.poolSeed? = some created.seed →
          ((op.plan client).accountsRead after {}).head? = some created.pool ∧
          (∀ other, op = .poolBalances created.seed → ((op.plan client).accountsRead after {})[1]? = some other →
            other = created.mint) ∧
          ∀ answer, (op.plan client).outcome after = .ok answer →
            op.Names after client created.pool created.mint answer) ∧
        ∀ openOrders, ((Operation.orderTracker created.seed openOrders).plan client).accountsRead after {} =
          ((Address.find? [created.seed.bytes, openOrders.bytes] client.program).map Prod.fst).toList := by
  refine ⟨?_, ?_⟩
  · intro program attempts seed pool mint h
    obtain ⟨later, h⟩ := Plan.outcomeYields.1 h
    have identity := newPoolIdentifies runtime h
    refine ⟨identity.bump, ?_⟩
    intro after derives
    exact ⟨deriveOutcome.2 ((derives.create ..).trans identity.pool),
      deriveOutcome.2 ((derives.create ..).trans identity.mint)⟩
  · intro settings request created h after client derives same
    refine ⟨fun op given => ?_, orderTrackerReads derives⟩
    obtain ⟨later, h⟩ := Plan.outcomeYields.1 h
    obtain ⟨mints, init, made, create, source⟩ := createPoolSource h
    obtain ⟨_, _, searched⟩ := source.addresses
    have identity := newPoolIdentifies runtime searched
    rw [← same] at identity
    have answers := answersOfIdentity derives identity
    refine ⟨answers.readsPool given, ?_, ?_⟩
    · intro other balances second
      subst balances
      exact answers.readsMint second
    · intro answer h
      obtain ⟨later, h⟩ := Plan.outcomeYields.1 h
      exact answers.names given h

/- The pool of the pair, some time later. -/
def laterWorld (pool : Key) : World :=
  World.ofLedger (.ofEntries [⟨pool, plainSettings.program, investedPool, investedSized⟩])

theorem laterRun :
    ((createPool plainSettings pairRequest).outcome pairWorld).toOption.map (fun created =>
      ((deposit plainSettings (.fill 32 12) (.fill 32 14) created.seed 5).outcome
        (laterWorld created.pool)).toOption.map List.length) = some (some 2) := by
  decide +kernel

theorem pairRuntime : pairWorld.Runtime := ⟨fun _ _ _ => rfl, fun _ _ _ => rfl⟩

theorem laterStored (pool : Key) : (laterWorld pool).account pool = some investedPool := by
  change (Ledger.store .empty ⟨pool, plainSettings.program, investedPool, investedSized⟩).data? pool = _
  rw [Ledger.dataStore, if_pos rfl]

theorem laterRuntime (pool : Key) : (laterWorld pool).Runtime := ⟨fun _ _ _ => rfl, fun _ _ _ => rfl⟩

theorem seedIdentifiesPoolPair : ∃ created, ∃ list : List Instruction, ∃ last,
    (createPool plainSettings pairRequest).outcome pairWorld = .ok created ∧
    (deposit plainSettings (.fill 32 12) (.fill 32 14) created.seed 5).outcome (laterWorld created.pool) = .ok list ∧
    list.getLast? = some last ∧
    last.accounts[1]? = some ⟨created.mint, false, true⟩ ∧ last.accounts[6]? = some ⟨created.pool, false, true⟩ := by
  obtain ⟨created, ok, run⟩ := Failure.answered laterRun
  obtain ⟨list, deposited, _⟩ := Failure.answered run
  have identified := (seedIdentifiesPool pairRuntime).2 plainSettings pairRequest created ok
    (laterWorld created.pool) plainSettings (laterRuntime _) rfl
  have names := (identified.1 (.deposit (.fill 32 12) (.fill 32 14) created.seed 5) rfl).2.2 list deposited
  cases names with
  | @deposit _ _ _ _ state made last loaded named makes ends =>
    refine ⟨created, made ++ [last], last, ok, deposited, List.getLast?_concat .., ?_, ?_⟩
    · rw [ends.accounts]
      rfl
    · rw [ends.accounts]
      rfl

theorem trackerRun :
    ((createPool plainSettings pairRequest).outcome pairWorld).toOption.map (fun created =>
      (((orderTracker plainSettings created.seed (.fill 32 1)).outcome (laterWorld created.pool)).toOption.map
        Option.isNone,
        decide (created.pool ∈
          (orderTracker plainSettings created.seed (.fill 32 1)).accountsRead (laterWorld created.pool) {}))) =
      some (some true, false) := by
  decide +kernel

/- The pool is there, and yet the query is answered without a look at it. -/
theorem orderTrackerPassesPool : ∃ created,
    (createPool plainSettings pairRequest).outcome pairWorld = .ok created ∧
    (laterWorld created.pool).account created.pool = some investedPool ∧
    (orderTracker plainSettings created.seed (.fill 32 1)).outcome (laterWorld created.pool) = .ok none ∧
    created.pool ∉
      (orderTracker plainSettings created.seed (.fill 32 1)).accountsRead (laterWorld created.pool) {} := by
  obtain ⟨created, ok, seen⟩ := Failure.answered trackerRun
  obtain ⟨told, unread⟩ := Prod.mk.inj seen
  obtain ⟨tracker, told, absent⟩ := Failure.answered told
  cases Option.isNone_iff_eq_none.1 absent
  exact ⟨created, ok, laterStored _, told, of_decide_eq_false unread⟩

end Workflow
end TradingPool
