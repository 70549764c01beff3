import TradingPool.Proofs.PossibleFailures

/-! Reads that fail. A plan surfaces failures when each of its reads, answered by a failure, ends it at once
with that failure and nothing else. Every operation does, so failing one read of a run shows up as it is if
the run gets to that read, and makes no difference if it does not. -/
namespace TradingPool

variable {α : Type} {world : World} {trace : Trace} {text : String} {k : Nat}

namespace Plan

inductive Surfaces : Plan α → Prop where
  | done (outcome : Except Failure α) : Surfaces (.done outcome)
  | ask {query : Query} {next : query.Answer → Plan α} (stops : StopsOnFailure query next)
      (rest : ∀ answer, Surfaces (next answer)) : Surfaces (.ask query next)

/- Also behind a failed read there is nothing but its failure. -/
theorem FailsOnly.surfaces {kinds : List Failure.Kind} {plan : Plan α} (only : plan.FailsOnly kinds) :
    plan.Surfaces := by
  induction only with
  | done a => exact .done _
  | refused known => exact .done _
  | @ask query next stops _ ih =>
    refine .ask stops fun answer => ?_
    cases query with
    | account | owned =>
      cases answer with
      | ok value => exact ih _ ⟨value, rfl⟩
      | error text =>
        rw [stops text]
        exact .done _
    | balance | find | create | draw | note => exact ih _ trivial

end Plan

namespace World

variable {query : Query}

@[simp] theorem readCounts (world : World) (trace : Trace) (value : α) :
    (world.read trace value).2 = trace.afterRead := by
  unfold read
  dsimp only
  split <;> rfl

/- A read that is not the failing one is answered as before. -/
theorem failingElsewhere {value : α} (other : trace.reads + 1 ≠ k) :
    (world.failingAt k text).read trace value = world.read trace value := by
  unfold read failingAt
  dsimp only
  rw [if_neg other]

theorem failingHere {value : α} (here : trace.reads + 1 = k) :
    (world.failingAt k text).read trace value = (.error text, trace.afterRead) :=
  readFailed (if_pos here)

theorem answerReads (world : World) (trace : Trace) (query : Query) :
    trace.reads ≤ (world.answer trace query).2.reads ∧ (world.answer trace query).2.reads ≤ trace.reads + 1 := by
  cases query with
  | account | owned => simp [answer, Trace.afterRead]
  | balance | find | create | draw | note => simp [answer]

theorem answerBefore (before : (world.answer trace query).2.reads < k) :
    (world.failingAt k text).answer trace query = world.answer trace query := by
  cases query with
  | account | owned =>
    simp only [answer, readCounts] at before
    exact failingElsewhere (Nat.ne_of_lt before)
  | balance | find | create | draw | note => rfl

theorem answerFailing {next : query.Answer → Plan α} (stops : Plan.StopsOnFailure query next)
    (started : trace.reads < k) (reached : (world.answer trace query).2.reads = k) :
    next ((world.failingAt k text).answer trace query).1 = Plan.fail (.ledger text) ∧
      ((world.failingAt k text).answer trace query).2.reads = k := by
  cases query with
  | account | owned =>
    simp only [answer, readCounts] at reached ⊢
    rw [failingHere reached]
    exact ⟨stops text, reached⟩
  | balance | find | create | draw | note => exact absurd reached (Nat.ne_of_lt started)

end World

namespace Plan

theorem readsGrow (world : World) (plan : Plan α) (trace : Trace) :
    trace.reads ≤ (plan.run world trace).2.reads := by
  induction plan generalizing trace with
  | done outcome => exact Nat.le_refl _
  | ask query next ih => exact Nat.le_trans (world.answerReads trace query).1 (ih _ _)

/- By induction on the plan: until the failing read is reached both runs get the same answers. -/
theorem Surfaces.failing {plan : Plan α} (surfaces : plan.Surfaces) (world : World) (text : String)
    (trace : Trace) (started : trace.reads < k) :
    (k ≤ (plan.run world trace).2.reads →
      (plan.run (world.failingAt k text) trace).1 = .error (.ledger text) ∧
        (plan.run (world.failingAt k text) trace).2.reads = k) ∧
    ((plan.run world trace).2.reads < k →
      plan.run (world.failingAt k text) trace = plan.run world trace) := by
  induction surfaces generalizing trace with
  | done outcome => exact ⟨fun reached => absurd started (Nat.not_lt.2 reached), fun _ => rfl⟩
  | @ask query next stops rest ih =>
    have bound := (world.answerReads trace query).2
    simp only [run]
    by_cases before : (world.answer trace query).2.reads < k
    · rw [World.answerBefore before]
      exact ih _ _ before
    · have reached : (world.answer trace query).2.reads = k := by omega
      obtain ⟨ends, counted⟩ := World.answerFailing stops started reached
      have grown := readsGrow world (next (world.answer trace query).1) (world.answer trace query).2
      rw [ends]
      exact ⟨fun _ => ⟨rfl, counted⟩, fun few => absurd few (by omega)⟩

end Plan

namespace Workflow

theorem Operation.surfaces (settings : Settings) (op : Operation) : (op.plan settings).Surfaces :=
  (op.failsOnly settings).surfaces

theorem failedReadSurfaces (settings : Settings) (op : Operation) (world : World) (k : Nat) (text : String)
    (counted : 1 ≤ k) :
    (k ≤ ((op.plan settings).trace world).reads →
      (op.plan settings).outcome (world.failingAt k text) = .error (.ledger text) ∧
        ((op.plan settings).trace (world.failingAt k text)).reads = k) ∧
    (((op.plan settings).trace world).reads < k →
      (op.plan settings).outcome (world.failingAt k text) = (op.plan settings).outcome world ∧
        (op.plan settings).trace (world.failingAt k text) = (op.plan settings).trace world) := by
  obtain ⟨reached, beyond⟩ := (op.surfaces settings).failing world text {} counted
  exact ⟨reached, fun few => ⟨congrArg Prod.fst (beyond few), congrArg Prod.snd (beyond few)⟩⟩

theorem redemptionReads : ((investorRedeems.plan plainSettings).trace (World.ofLedger investedLedger)).reads = 3 := by
  decide +kernel

theorem failedReadSurfacesRedemption :
    ((investorRedeems.plan plainSettings).outcome ((World.ofLedger investedLedger).failingAt 2 "lost") =
        .error (.ledger "lost") ∧
      ((investorRedeems.plan plainSettings).trace ((World.ofLedger investedLedger).failingAt 2 "lost")).reads = 2) ∧
    (investorRedeems.plan plainSettings).outcome ((World.ofLedger investedLedger).failingAt 4 "lost") =
      (investorRedeems.plan plainSettings).outcome (World.ofLedger investedLedger) := by
  have second := failedReadSurfaces plainSettings investorRedeems (World.ofLedger investedLedger) 2 "lost" (by decide)
  have fourth := failedReadSurfaces plainSettings investorRedeems (World.ofLedger investedLedger) 4 "lost" (by decide)
  rw [redemptionReads] at second fourth
  exact ⟨second.1 (by decide), (fourth.2 (by decide)).1⟩

end Workflow
end TradingPool
