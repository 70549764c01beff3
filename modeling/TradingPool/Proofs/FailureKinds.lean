import TradingPool.Proofs.Refusal

/-! Kinds of failures, and plans that fail with few of them. A plan is followed through all answers but those of
failed reads, which end it at once; so what it fails with is of a known kind, or it is the failure of the last
read of its run. A balance that is not told is no failed read: a plan that asks for one can fail for want of it. -/
namespace TradingPool

variable {α β : Type} {world : World} {trace later : Trace} {failure : Failure}

namespace Failure

/-- A failure without its figures. -/
inductive Kind where
  | malformedLength
  | overflow
  | truncatedAccount
  | invalidStatusByte
  | invalidAccountData
  | invalidInstruction
  | sourceAssetUnavailable
  | poolUnavailable
  | accountUnavailable
  | uninitializedPool
  | unauthorizedMarket
  | unknownPoolAsset
  | noOpenOrder
  | pendingOrders
  | seedSearchExhausted
  | invalidDerivation
  | ledger
  | invalidConfiguration
  | duplicateAsset
  deriving DecidableEq, Repr

def kind : Failure → Kind
  | .malformedLength .. => .malformedLength
  | .overflow .. => .overflow
  | .truncatedAccount .. => .truncatedAccount
  | .invalidStatusByte _ => .invalidStatusByte
  | .invalidAccountData => .invalidAccountData
  | .invalidInstruction => .invalidInstruction
  | .sourceAssetUnavailable _ => .sourceAssetUnavailable
  | .poolUnavailable _ => .poolUnavailable
  | .accountUnavailable _ => .accountUnavailable
  | .uninitializedPool _ => .uninitializedPool
  | .unauthorizedMarket _ => .unauthorizedMarket
  | .unknownPoolAsset _ => .unknownPoolAsset
  | .noOpenOrder _ => .noOpenOrder
  | .pendingOrders _ => .pendingOrders
  | .seedSearchExhausted _ => .seedSearchExhausted
  | .invalidDerivation => .invalidDerivation
  | .ledger _ => .ledger
  | .invalidConfiguration _ => .invalidConfiguration
  | .duplicateAsset _ => .duplicateAsset

end Failure

/-- The answer is not that of a read that failed. -/
def Query.Granted : (query : Query) → query.Answer → Prop
  | .account _, answer => ∃ data, answer = .ok data
  | .owned _, answer => ∃ accounts, answer = .ok accounts
  | _, _ => True

namespace Plan

/-- If the query is a read that fails, the plan ends there with the failure as it is. -/
def StopsOnFailure : (query : Query) → (query.Answer → Plan α) → Prop
  | .account _, next => ∀ text, next (.error text) = fail (.ledger text)
  | .owned _, next => ∀ text, next (.error text) = fail (.ledger text)
  | _, _ => True

theorem StopsOnFailure.bind {query : Query} {next : query.Answer → Plan α} (h : StopsOnFailure query next)
    (f : α → Plan β) : StopsOnFailure query fun answer => (next answer).bind f := by
  cases query with
  | account | owned =>
    intro text
    dsimp only
    rw [h text]
    rfl
  | balance | find | create | draw | note => trivial

end Plan

theorem World.answerGranted (world : World) (trace : Trace) (query : Query) :
    query.Granted (world.answer trace query).1 ∨
      ∃ text, world.fault (world.answer trace query).2.reads = some text ∧
        ∀ {α : Type} {next : query.Answer → Plan α}, Plan.StopsOnFailure query next →
          next (world.answer trace query).1 = Plan.fail (.ledger text) := by
  cases query with
  | account | owned =>
    simp only [answer]
    cases fault : world.fault (trace.reads + 1) with
    | none =>
      rw [readSound fault]
      exact .inl ⟨_, rfl⟩
    | some text =>
      rw [readFailed fault]
      exact .inr ⟨text, fault, fun stops => stops text⟩
  | balance | find | create | draw | note => exact .inl trivial

namespace Plan

open Failure (Kind)

inductive FailsOnly (kinds : List Kind) : Plan α → Prop where
  | done (a : α) : FailsOnly kinds (.done (.ok a))
  | refused {failure : Failure} (known : failure.kind ∈ kinds) : FailsOnly kinds (.done (.error failure))
  | ask {query : Query} {next : query.Answer → Plan α} (stops : StopsOnFailure query next)
      (rest : ∀ answer, query.Granted answer → FailsOnly kinds (next answer)) : FailsOnly kinds (.ask query next)

namespace FailsOnly

variable {kinds more : List Kind}

/- The read that failed is the last one of the run. -/
theorem reason {plan : Plan α} (only : plan.FailsOnly kinds) (h : Fails world trace plan failure later) :
    failure.kind ∈ kinds ∨ ∃ text, world.fault later.reads = some text ∧ failure = .ledger text := by
  induction only generalizing trace with
  | done a => cases h
  | refused known =>
    cases h
    exact .inl known
  | @ask query next stops _ ih =>
    rcases world.answerGranted trace query with granted | ⟨text, fault, ends⟩
    · exact ih _ granted h
    · unfold Fails run at h
      dsimp only at h
      rw [ends stops] at h
      cases h
      exact .inr ⟨text, fault, rfl⟩

theorem readLost {plan : Plan α} {text : String} (only : plan.FailsOnly kinds) (apart : .ledger ∉ kinds)
    (h : Fails world trace plan (.ledger text) later) : ∃ n, world.fault n = some text := by
  rcases only.reason h with listed | ⟨_, fault, same⟩
  · exact absurd listed apart
  · cases same
    exact ⟨_, fault⟩

theorem lostOrBehind {plan : Plan α} {f : α → Plan β} {text : String} (only : plan.FailsOnly kinds)
    (apart : .ledger ∉ kinds) (h : Fails world trace (plan >>= f) (.ledger text) later) :
    (∃ n, world.fault n = some text) ∨ ∃ a mid, Fails world mid (f a) (.ledger text) later := by
  rcases failsBind.1 h with refused | ⟨a, mid, _, rest⟩
  · exact .inl (only.readLost apart refused)
  · exact .inr ⟨a, mid, rest⟩

theorem succeeds {plan : Plan α} (only : plan.FailsOnly []) (sound : ∀ n, world.fault n = none) (trace : Trace) :
    ∃ a later, Yields world trace plan a later := by
  rcases run : plan.run world trace with ⟨failure | a, later⟩
  · rcases only.reason run with listed | ⟨text, fault, _⟩
    · cases listed
    · cases (sound _).symm.trans fault
  · exact ⟨a, later, run⟩

theorem mono {plan : Plan α} (only : plan.FailsOnly kinds) (wider : kinds ⊆ more) : plan.FailsOnly more := by
  induction only with
  | done a => exact .done a
  | refused known => exact .refused (wider known)
  | ask stops _ ih => exact .ask stops ih

theorem bind {plan : Plan α} {f : α → Plan β} (first : plan.FailsOnly kinds) (rest : ∀ a, (f a).FailsOnly kinds) :
    (plan >>= f).FailsOnly kinds := by
  change (plan.bind f).FailsOnly kinds
  induction first with
  | done a => exact rest a
  | refused known => exact .refused known
  | ask stops _ ih => exact .ask (stops.bind f) ih

theorem ofExcept {outcome : Except Failure α} (known : ∀ failure, outcome = .error failure → failure.kind ∈ kinds) :
    (Plan.ofExcept outcome).FailsOnly kinds := by
  cases outcome with
  | ok a => exact .done a
  | error failure => exact .refused (known failure rfl)

theorem ofOption {absent : Failure} (known : absent.kind ∈ kinds) (value : Option α) :
    (Plan.ofOption value absent).FailsOnly kinds := by
  cases value with
  | none => exact .refused known
  | some a => exact .done a

theorem account (address : Key) : (Plan.account address).FailsOnly kinds := by
  refine .ask (fun _ => rfl) fun answer granted => ?_
  obtain ⟨data, rfl⟩ := granted
  exact .done data

theorem owned (program : Key) : (Plan.owned program).FailsOnly kinds := by
  refine .ask (fun _ => rfl) fun answer granted => ?_
  obtain ⟨accounts, rfl⟩ := granted
  exact .done accounts

theorem balance (known : .ledger ∈ kinds) (length : UInt64) : (Plan.balance length).FailsOnly kinds := by
  refine .ask trivial fun answer _ => ?_
  cases answer with
  | ok balance => exact .done balance
  | error text => exact .refused known

theorem find (seeds : List Bytes) (program : Key) : (Plan.find seeds program).FailsOnly kinds :=
  .ask trivial fun _ _ => .done _

theorem create (seeds : List Bytes) (program : Key) : (Plan.create seeds program).FailsOnly kinds :=
  .ask trivial fun _ _ => .done _

theorem draw : Plan.draw.FailsOnly kinds := .ask trivial fun _ _ => .done _

theorem note (event : Event) : (Plan.note event).FailsOnly kinds := .ask trivial fun _ _ => .done _

theorem existing {absent : Failure} (known : absent.kind ∈ kinds) (address : Key) :
    (Plan.existing address absent).FailsOnly kinds :=
  (account address).bind fun _ => ofOption known _

theorem accountExists (address : Key) : (Plan.accountExists address).FailsOnly kinds :=
  (account address).bind fun _ => .done _

/- How a workflow ends: what can be built is built, and nothing else is left that fails. -/
theorem built {outcome : Except Failure α} {event : α → Event} {answer : α → β} (sound : ∃ a, outcome = .ok a) :
    (Plan.ofExcept outcome >>= fun a => Plan.note (event a) >>= fun _ => pure (answer a)).FailsOnly kinds := by
  obtain ⟨a, rfl⟩ := sound
  exact (note _).bind fun _ => .done _

end FailsOnly
end Plan

end TradingPool
