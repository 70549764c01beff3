import Mathlib.Data.List.Nodup
import TradingPool.Proofs.Assembly

/-! Carrying out the creations of a list, one after the other. A creation fails when its account is there
already, and with it the whole transaction, so no account may be created twice. What a workflow creates is
looked up on the ledger alone: the lists are sound as long as the accounts wanted are all different. -/
namespace TradingPool

theorem Command.unpackTagAlone (c : Command) (params : c.Params) : c.unpack [0] ≠ .ok params := by
  cases c <;> exact nofun

namespace Instruction

def tokenAccount? (instruction : Instruction) : Option Key :=
  if instruction.program = Programs.associatedToken ∧ instruction.data = [0] then
    instruction.accounts[1]?.map AccountMeta.key
  else none

@[simp] theorem createTokenAccountMakes (tokenProgram payer address owner mint : Key) :
    (createTokenAccount tokenProgram payer address owner mint).tokenAccount? = some address := by
  simp [createTokenAccount, tokenAccount?, AccountMeta.writing]

@[simp] theorem createAccountMakes (payer account : Key) (balance space : UInt64) (owner : Key) :
    (createAccount payer account balance space owner).tokenAccount? = none := by
  unfold tokenAccount?
  rw [if_neg]
  intro creation
  have size := congrArg List.length creation.2
  unfold createAccount at size
  rw [Layout.lengthWrite] at size
  contradiction

theorem buildMakes {c : Command} {program : Key} {accounts : c.Accounts} {params : c.Params}
    {instruction : Instruction} (built : c.build program accounts params = .ok instruction) :
    instruction.tokenAccount? = none := by
  obtain ⟨_, _, payload⟩ := Command.buildEqOk.1 built
  unfold tokenAccount?
  rw [if_neg]
  intro creation
  rw [creation.2] at payload
  exact Command.unpackTagAlone c params payload

def tokenAccounts (list : List Instruction) : List Key := list.filterMap tokenAccount?

/-- The accounts that are there in the end. -/
def carryOut (present : Key → Bool) : List Instruction → Option (Key → Bool)
  | [] => some present
  | instruction :: rest =>
    match instruction.tokenAccount? with
    | none => carryOut present rest
    | some address =>
      if present address then none else carryOut (fun other => other = address || present other) rest

theorem carryOutSucceeds {present : Key → Bool} {list : List Instruction} :
    (carryOut present list).isSome = true ↔
      (tokenAccounts list).Nodup ∧ ∀ address ∈ tokenAccounts list, present address = false := by
  induction list generalizing present with
  | nil => simp [carryOut, tokenAccounts]
  | cons instruction rest ih =>
    cases made : instruction.tokenAccount? with
    | none =>
      have same : tokenAccounts (instruction :: rest) = tokenAccounts rest := List.filterMap_cons_none made
      rw [same, ← ih]
      simp only [carryOut, made]
    | some address =>
      have more : tokenAccounts (instruction :: rest) = address :: tokenAccounts rest :=
        List.filterMap_cons_some made
      rw [more, List.nodup_cons]
      simp only [carryOut, made, List.forall_mem_cons]
      by_cases there : present address = true
      · simp [there]
      · rw [if_neg there, ih]
        simp only [Bool.or_eq_false_iff, decide_eq_false_iff_not]
        refine ⟨fun h => ?_, fun h => ?_⟩
        · obtain ⟨once, absent⟩ := h
          exact ⟨⟨fun again => (absent address again).1 rfl, once⟩, by simpa using there,
            fun other member => (absent other member).2⟩
        · obtain ⟨⟨fresh, once⟩, _, absent⟩ := h
          refine ⟨once, fun other member => ⟨?_, absent other member⟩⟩
          intro same
          subst same
          exact fresh member

end Instruction

namespace Workflow

open TradingPool.Instruction (tokenAccounts carryOut)

variable {world : World} {settings : Settings} {payer pool mint : Key} {seed : Seed} {wanted : List Holding}
  {list : List Instruction}

def stored (world : World) (address : Key) : Bool := (world.account address).isSome

/-- The list makes an account for every holding that is wanted and has none, and no other account. -/
structure Wants (world : World) (settings : Settings) (list : List Instruction) (payer : Key)
    (wanted : List Holding) : Prop where
  makes : tokenAccounts list = (missing world settings wanted).map (Holding.address settings)
  sends : ∀ holding ∈ missing world settings wanted, holding.creation settings payer ∈ list

/-- Two different holdings get an account each, and the strings hashed for them collide. -/
def Clash (settings : Settings) (list : List Instruction) : Prop :=
  ∃ payer x y, x ≠ y ∧ Holding.creation settings payer x ∈ list ∧ Holding.creation settings payer y ∈ list ∧
    Holding.Collide settings x y

theorem tokenAccountsCreations (world : World) (settings : Settings) (payer : Key) (wanted : List Holding) :
    tokenAccounts (creations world settings payer wanted) =
      (missing world settings wanted).map (Holding.address settings) := by
  unfold tokenAccounts creations
  rw [List.filterMap_map]
  have each : Instruction.tokenAccount? ∘ Holding.creation settings payer = some ∘ Holding.address settings := by
    funext holding
    simp [Holding.creation]
  rw [each, List.filterMap_eq_map]

theorem wantsBetween (head : List Instruction) (payer : Key) (wanted : List Holding) {last : Instruction}
    (opens : tokenAccounts head = []) (closes : last.tokenAccount? = none) :
    Wants world settings (head ++ creations world settings payer wanted ++ [last]) payer wanted where
  makes := by
    have made := tokenAccountsCreations world settings payer wanted
    unfold tokenAccounts at opens made ⊢
    rw [List.filterMap_append, List.filterMap_append, opens, made, List.filterMap_cons_none closes]
    simp
  sends holding member := by
    have sent : holding.creation settings payer ∈ creations world settings payer wanted :=
      List.mem_map.2 ⟨holding, member, rfl⟩
    simp [sent]

namespace Wants

theorem unstored (wants : Wants world settings list payer wanted) :
    ∀ address ∈ tokenAccounts list, world.account address = none := by
  intro address member
  rw [wants.makes] at member
  obtain ⟨holding, absent, rfl⟩ := List.mem_map.1 member
  exact missingAbsent absent

theorem onceOrClash (wants : Wants world settings list payer wanted)
    (once : (missing world settings wanted).Nodup) : (tokenAccounts list).Nodup ∨ Clash settings list := by
  rw [wants.makes, List.nodup_map_iff_inj_on once]
  by_cases apart : ∀ x ∈ missing world settings wanted, ∀ y ∈ missing world settings wanted,
      x.address settings = y.address settings → x = y
  · exact .inl apart
  · simp only [not_forall] at apart
    obtain ⟨x, hx, y, hy, shared, other⟩ := apart
    exact .inr ⟨payer, x, y, other, wants.sends x hx, wants.sends y hy, Holding.collideOfShared other shared⟩

theorem carriedOut (wants : Wants world settings list payer wanted) :
    (carryOut (stored world) list).isSome = true ↔ (tokenAccounts list).Nodup := by
  rw [Instruction.carryOutSucceeds]
  refine ⟨fun h => h.1, fun once => ⟨once, fun address member => ?_⟩⟩
  simp [stored, wants.unstored address member]

theorem failsTwice (wants : Wants world settings list payer wanted)
    (twice : ¬ (missing world settings wanted).Nodup) : carryOut (stored world) list = none := by
  rw [← Option.not_isSome_iff_eq_none, wants.carriedOut, wants.makes]
  exact fun once => twice (once.of_map _)

end Wants

/- The ledger alone is consulted, so what is wanted twice and not there is made twice. -/
theorem missingTwice :
    ¬ (missing world settings wanted).Nodup ↔
      ∃ holding, [holding, holding].Sublist wanted ∧ world.account (holding.address settings) = none := by
  rw [List.nodup_iff_sublist]
  simp only [not_forall, not_not]
  refine ⟨fun h => ?_, fun h => ?_⟩
  · obtain ⟨holding, twice⟩ := h
    exact ⟨holding, twice.trans List.filter_sublist, missingAbsent (twice.subset (List.mem_cons_self ..))⟩
  · obtain ⟨holding, twice, absent⟩ := h
    have kept := twice.filter fun holding => (world.account (holding.address settings)).isNone
    refine ⟨holding, ?_⟩
    unfold missing
    simpa [absent] using kept

theorem missingTwiceLast {last : Holding} (once : wanted.Nodup) :
    ¬ (missing world settings (wanted ++ [last])).Nodup ↔
      last ∈ wanted ∧ world.account (last.address settings) = none := by
  unfold missing
  rw [List.filter_append, List.nodup_append']
  by_cases absent : world.account (last.address settings) = none <;> simp [absent, once.filter]

/-- An account is wanted twice and is not there: fees go to one owner in two roles, or a pool is its own
source owner and holds its own token. -/
def Operation.WantsTwice (world : World) (settings : Settings) : (op : Operation) → op.Answer → Prop
  | .collectFees _ seed, _ => ∃ pool state mint owner, PoolSource world {} settings seed pool state ∧
    NamesMint world (loadTrace settings seed) settings seed mint ∧
    [owner, owner].Sublist [state.header.signalProvider, settings.feeOwner, settings.burnOwner] ∧
    world.account (settings.tokenAccount owner mint) = none
  | .createPool request, created => request.sourceOwner = created.pool ∧
    (∃ source ∈ request.sourceAssets, HoldsMint world source created.mint) ∧
    world.account (settings.tokenAccount created.pool created.mint) = none
  | _, _ => False

def DistinctAssets (world : World) (settings : Settings) (op : Operation) : Prop :=
  ∀ seed pool state, op.poolSeed? = some seed → PoolSource world {} settings seed pool state →
    state.mints.Nodup

theorem holdingsNodup {owner : Key} {mints : List Key} (h : mints.Nodup) :
    (mints.map (Holding.mk owner)).Nodup :=
  h.map fun _ _ same => (Holding.mk.inj same).2

theorem missingNodup (different : wanted.Nodup) : False ↔ ¬ (missing world settings wanted).Nodup :=
  iff_of_false id (not_not_intro (different.filter _))

theorem feesTwice (world : World) (settings : Settings) (mint : Key) (owners : List Key) :
    ¬ (missing world settings (owners.map fun owner => ⟨owner, mint⟩)).Nodup ↔
      ∃ owner, [owner, owner].Sublist owners ∧ world.account (settings.tokenAccount owner mint) = none := by
  rw [missingTwice]
  refine ⟨fun h => ?_, fun h => ?_⟩
  · obtain ⟨holding, twice, absent⟩ := h
    obtain ⟨owner, _, rfl⟩ := List.mem_map.1 (twice.subset (List.mem_cons_self ..))
    have shared := twice.map Holding.owner
    rw [List.map_map] at shared
    exact ⟨owner, by simpa [Function.comp_def] using shared, absent⟩
  · obtain ⟨owner, twice, absent⟩ := h
    exact ⟨⟨owner, mint⟩, twice.map fun owner => Holding.mk owner mint, absent⟩

/- Only where fees are collected or a pool is created can one account be wanted twice. -/
theorem Assembled.wants {op : Operation} {answer : op.Answer} (h : Assembled world settings pool mint op answer)
    (distinct : DistinctAssets world settings op) :
    ∃ payer wanted, Wants world settings (op.instructions answer) payer wanted ∧
      (op.WantsTwice world settings answer ↔ ¬ (missing world settings wanted).Nodup) := by
  cases h with
  | createPool sources initBuilt createBuilt =>
    refine ⟨_, _, wantsBetween _ _ _ ?_ (Instruction.buildMakes createBuilt), ?_⟩
    · exact List.filterMap_cons_none (Instruction.buildMakes initBuilt)
    · rw [missingTwiceLast (holdingsNodup sources.nodup)]
      simp only [Operation.WantsTwice, ← sources.collected, List.mem_map, Holding.mk.injEq]
      refine ⟨fun h => ?_, fun h => ?_⟩
      · obtain ⟨own, member, absent⟩ := h
        rw [own]
        exact ⟨⟨mint, member, rfl, rfl⟩, absent⟩
      · obtain ⟨⟨_, member, own, rfl⟩, absent⟩ := h
        rw [← own] at absent
        exact ⟨own.symm, member, absent⟩
  | deposit loaded named built =>
    exact ⟨_, _, wantsBetween [] _ _ rfl (Instruction.buildMakes built), missingNodup (List.nodup_singleton _)⟩
  | createOrder placed told built =>
    refine ⟨_, _, wantsBetween _ _ _ ?_ (Instruction.buildMakes built), missingNodup (List.nodup_singleton _)⟩
    exact List.filterMap_cons_none (Instruction.createAccountMakes ..)
  | cancelOrder loaded venue resting first built =>
    exact ⟨default, [], wantsBetween [] default [] rfl (Instruction.buildMakes built), missingNodup List.nodup_nil⟩
  | settleFunds loaded venue coinHeld pcHeld signs named built =>
    exact ⟨default, [], wantsBetween [] default [] rfl (Instruction.buildMakes built), missingNodup List.nodup_nil⟩
  | redeem loaded idle named built =>
    exact ⟨_, _, wantsBetween [] _ _ rfl (Instruction.buildMakes built),
      missingNodup (holdingsNodup (distinct _ _ _ rfl loaded))⟩
  | @collectFees _ _ state _ loaded named built =>
    refine ⟨_, _, wantsBetween [] _ _ rfl (Instruction.buildMakes built), ?_⟩
    have twice := feesTwice world settings mint [state.header.signalProvider, settings.feeOwner, settings.burnOwner]
    refine Iff.trans ?_ twice.symm
    refine ⟨fun h => ?_, fun h => ?_⟩
    · obtain ⟨_, _, _, owner, source, name, shared, absent⟩ := h
      obtain ⟨rfl, rfl⟩ := loaded.same source
      cases named.same name
      exact ⟨owner, shared, absent⟩
    · obtain ⟨owner, shared, absent⟩ := h
      exact ⟨pool, state, mint, owner, loaded, named, shared, absent⟩

theorem tokenAccountsMadeOnce {op : Operation} {answer : op.Answer}
    (h : (op.plan settings).outcome world = .ok answer) (distinct : DistinctAssets world settings op) :
    (∀ address ∈ tokenAccounts (op.instructions answer), world.account address = none) ∧
      (op.WantsTwice world settings answer → carryOut (stored world) (op.instructions answer) = none) ∧
      (¬ op.WantsTwice world settings answer →
        (tokenAccounts (op.instructions answer)).Nodup ∧
            (carryOut (stored world) (op.instructions answer)).isSome = true ∨
          Clash settings (op.instructions answer)) := by
  by_cases workflow : op.isWorkflow = true
  · obtain ⟨later, h⟩ := Plan.outcomeYields.1 h
    obtain ⟨pool, mint, made⟩ := assembled workflow h
    obtain ⟨payer, wanted, wants, twice⟩ := made.wants distinct
    rw [twice]
    refine ⟨wants.unstored, wants.failsTwice, ?_⟩
    intro once
    rcases wants.onceOrClash (not_not.1 once) with once | clash
    · exact .inl ⟨once, wants.carriedOut.2 once⟩
    · exact .inr clash
  · have none : op.instructions answer = [] := op.instructionsOfQuery answer workflow
    rw [none]
    refine ⟨nofun, fun twice => ?_, fun _ => .inl ⟨List.nodup_nil, rfl⟩⟩
    cases op with
    | createPool | collectFees => exact absurd rfl workflow
    | _ => exact twice.elim

theorem investedDistinct {op : Operation} (program : settings.program = .fill 32 9)
    (seed : op.poolSeed? = some (.fill 32 10)) :
    DistinctAssets (World.ofLedger investedLedger) settings op := by
  intro other pool state named loaded
  cases Option.some.inj (named.symm.trans seed)
  obtain ⟨_, rfl⟩ := loaded.same (investedLoaded program)
  decide

theorem tokenAccountsMadeOnceRedemption : ∃ list : List Instruction,
    (investorRedeems.plan plainSettings).outcome (World.ofLedger investedLedger) = .ok list ∧
    DistinctAssets (World.ofLedger investedLedger) plainSettings investorRedeems ∧
    ¬ investorRedeems.WantsTwice (World.ofLedger investedLedger) plainSettings list ∧
    ((tokenAccounts list).Nodup ∧ (carryOut (stored (World.ofLedger investedLedger)) list).isSome = true ∨
      Clash plainSettings list) := by
  obtain ⟨list, ok, _⟩ := Failure.answered redemptionRun
  have distinct : DistinctAssets (World.ofLedger investedLedger) plainSettings investorRedeems :=
    investedDistinct rfl rfl
  obtain ⟨_, _, once⟩ := tokenAccountsMadeOnce ok distinct
  exact ⟨list, ok, distinct, id, once id⟩

/- One owner for two kinds of fees. -/
def sharedSettings : Settings := { plainSettings with burnOwner := plainSettings.feeOwner }

def feesCollected : Operation := .collectFees (.fill 32 12) (.fill 32 10)

def ownAddresses : Option Derivation.PoolAddresses :=
  ((Derivation.newPool plainSettings.program 1000).outcome
    ((World.ofLedger .empty).drawing [.fill 32 1])).toOption

/- The pool of the first seed is its own source owner, and its source holds its own token. -/
def ownRequest : PoolRequest :=
  { pairRequest with
    sourceOwner := (ownAddresses.map (·.pool)).getD default, sourceAssets := [.fill 32 43]
    depositAmounts := [1] }

def ownWorld : World :=
  (World.ofLedger <| .ofEntries [⟨.fill 32 43, Programs.token,
    heldData ((ownAddresses.map (·.mint)).getD default) 5000 1, by decide +kernel⟩]).drawing [.fill 32 1]

def Repeats (world : World) (settings : Settings) (op : Operation) : Prop :=
  ∃ answer, (op.plan settings).outcome world = .ok answer ∧ ¬ (tokenAccounts (op.instructions answer)).Nodup ∧
    carryOut (stored world) (op.instructions answer) = none

theorem repeatsOfRun {op : Operation}
    (run : ((op.plan settings).outcome world).toOption.map (fun answer =>
      (decide (tokenAccounts (op.instructions answer)).Nodup,
        (carryOut (stored world) (op.instructions answer)).isSome)) = some (false, false)) :
    Repeats world settings op := by
  obtain ⟨answer, ok, seen⟩ := Failure.answered run
  obtain ⟨twice, failed⟩ := Prod.mk.inj seen
  exact ⟨answer, ok, of_decide_eq_false twice, Option.not_isSome_iff_eq_none.1 (by simp [failed])⟩

theorem tokenAccountsMadeTwice :
    (Repeats (World.ofLedger investedLedger) sharedSettings feesCollected ∧
      DistinctAssets (World.ofLedger investedLedger) sharedSettings feesCollected) ∧
    Repeats ownWorld plainSettings (.createPool ownRequest) := by
  refine ⟨⟨repeatsOfRun ?_, investedDistinct rfl rfl⟩, repeatsOfRun ?_⟩
  · decide +kernel
  · decide +kernel

end Workflow
end TradingPool
