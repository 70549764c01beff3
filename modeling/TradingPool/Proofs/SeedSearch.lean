import TradingPool.Proofs.Refusal

/-! The search for a seed, one attempt after the other. An attempt draws 32 bytes and asks for an address for the
first 31 of them; only where one is found is the mint asked for, under the seed that ends in the bump. The first
attempt with both answers decides what comes out. Those before it leave behind their draws, their calls and
their notes, and nothing else. -/
namespace TradingPool

def Trace.bytesDrawn (trace : Trace) : Nat := 32 * trace.draws

theorem Trace.callsAfterDraw (trace : Trace) : trace.afterDraw.calls = trace.calls := rfl

theorem Trace.callsAfterCall (trace : Trace) (call : Call) : (trace.afterCall call).calls = trace.calls.push call := rfl

namespace World

/-- The draws of a world are one stream of bytes, cut into blocks. -/
def byte (world : World) (n : Nat) : UInt8 := (world.draw (n / 32)).bytes.getD (n % 32) 0

def bytesFrom (world : World) (start count : Nat) : Bytes := (List.range count).map fun i => world.byte (start + i)

theorem bytesOfDraw (world : World) (n : Nat) : world.bytesFrom (32 * n) 32 = (world.draw n).bytes := by
  refine List.ext_getElem (by simp [bytesFrom, (world.draw n).lengthBytes]) fun i short long => ?_
  have below : i < 32 := (world.draw n).lengthBytes ▸ long
  have block : (32 * n + i) / 32 = n := by omega
  have place : (32 * n + i) % 32 = i := by omega
  simp only [bytesFrom, byte, List.getElem_map, List.getElem_range, block, place, List.getD_eq_getElem?_getD,
    List.getElem?_eq_getElem long, Option.getD_some]

end World

namespace Plan

variable {α : Type} {world : World} {trace : Trace}

theorem runDraw (rest : Block 32 → Plan α) :
    (draw >>= rest).run world trace = (rest (world.draw trace.draws)).run world trace.afterDraw := rfl

theorem runFind (seeds : List Bytes) (program : Key) (rest : Option (Key × UInt8) → Plan α) :
    (find seeds program >>= rest).run world trace =
      (rest (world.find trace.calls seeds program)).run world (trace.afterCall (.find seeds program)) := rfl

theorem runCreate (seeds : List Bytes) (program : Key) (rest : Option Key → Plan α) :
    (create seeds program >>= rest).run world trace =
      (rest (world.create trace.calls seeds program)).run world (trace.afterCall (.create seeds program)) := rfl

end Plan

namespace Derivation

variable {world : World} {program : Key} {start : Trace}

/-- What one attempt draws, and what the oracle answers. The mint is named only where an address was found. -/
structure Attempt where
  drawn : Block 32
  found : Option (Key × UInt8)
  named : Option Key
  deriving DecidableEq, Repr

namespace Attempt

/-- The attempt that follows a trace. -/
def following (world : World) (program : Key) (trace : Trace) : Attempt :=
  let drawn := world.draw trace.draws
  let found := world.find trace.calls [stem drawn] program
  { drawn, found
    named := found.bind fun (_, bump) =>
      world.create (trace.calls.push (.find [stem drawn] program))
        [(bumped drawn bump).bytes, [mintDiscriminator]] program }

/-- The oracle refused the seed. -/
def Rejected (attempt : Attempt) : Prop := attempt.found = none ∨ attempt.named = none

/-- The attempt draws the next 32 bytes of the stream, and holds what the oracle said when it was asked. -/
structure Answered (world : World) (program : Key) (trace : Trace) (attempt : Attempt) : Prop where
  drawn : attempt.drawn.bytes = world.bytesFrom trace.bytesDrawn 32
  found : attempt.found = world.find trace.calls [attempt.drawn.bytes.take 31] program
  named : ∀ pool bump, attempt.found = some (pool, bump) → attempt.named =
    world.create (trace.calls.push (.find [attempt.drawn.bytes.take 31] program))
      [attempt.drawn.bytes.take 31 ++ [bump], [1]] program
  unnamed : attempt.found = none → attempt.named = none

def calls (program : Key) (attempt : Attempt) : List Call :=
  match attempt.found with
  | none => [.find [stem attempt.drawn] program]
  | some (_, bump) =>
    [.find [stem attempt.drawn] program,
      .create [(bumped attempt.drawn bump).bytes, [mintDiscriminator]] program]

def addresses? (attempt : Attempt) : Option PoolAddresses :=
  match attempt.found, attempt.named with
  | some (pool, bump), some mint => some ⟨bumped attempt.drawn bump, pool, mint⟩
  | _, _ => none

def event (number : Nat) (attempt : Attempt) : Event :=
  match attempt.found, attempt.named with
  | none, _ => .noBump number
  | some _, none => .noMint number
  | some (pool, _), some mint => .seedFound number pool mint

def after (program : Key) (number : Nat) (trace : Trace) (attempt : Attempt) : Trace :=
  { trace with
    draws := trace.draws + 1
    calls := trace.calls ++ attempt.calls program
    events := trace.events.push (attempt.event number) }

theorem followingUnfound {trace : Trace}
    (found : world.find trace.calls [stem (world.draw trace.draws)] program = none) :
    following world program trace = ⟨world.draw trace.draws, none, none⟩ := by
  simp only [following, found, Option.bind_none]

theorem followingFound {trace : Trace} {pool : Key} {bump : UInt8}
    (found : world.find trace.calls [stem (world.draw trace.draws)] program = some (pool, bump)) :
    following world program trace = ⟨world.draw trace.draws, some (pool, bump),
      world.create (trace.calls.push (.find [stem (world.draw trace.draws)] program))
        [(bumped (world.draw trace.draws) bump).bytes, [mintDiscriminator]] program⟩ := by
  simp only [following, found, Option.bind_some]

theorem followingAnswered (world : World) (program : Key) (trace : Trace) :
    (following world program trace).Answered world program trace := by
  refine ⟨(world.bytesOfDraw trace.draws).symm, rfl, fun pool bump found => ?_, fun found => ?_⟩
  · rw [followingFound found]
    rfl
  · rw [followingUnfound found]

theorem addressesFound {attempt : Attempt} {pool mint : Key} {bump : UInt8} (found : attempt.found = some (pool, bump))
    (named : attempt.named = some mint) : attempt.addresses? = some ⟨bumped attempt.drawn bump, pool, mint⟩ := by
  simp only [addresses?, found, named]

theorem addressesRejected {attempt : Attempt} : attempt.addresses? = none ↔ attempt.Rejected := by
  unfold addresses? Rejected
  cases attempt.found <;> cases attempt.named <;> simp

theorem accepted {attempt : Attempt} (taken : ¬ attempt.Rejected) :
    ∃ pool bump mint, attempt.found = some (pool, bump) ∧ attempt.named = some mint := by
  obtain ⟨drawn, found, named⟩ := attempt
  rcases found with _ | ⟨pool, bump⟩
  · exact absurd (.inl rfl) taken
  · rcases named with _ | mint
    · exact absurd (.inr rfl) taken
    · exact ⟨pool, bump, mint, rfl, rfl⟩

theorem findsOnce (program : Key) (attempt : Attempt) : (attempt.calls program).countP Call.isFind = 1 := by
  unfold calls
  split <;> rfl

end Attempt

/-- The trace after a number of attempts, whether or not they were rejected. -/
def traceAfter (world : World) (program : Key) (start : Trace) : Nat → Trace
  | 0 => start
  | n + 1 =>
    let trace := traceAfter world program start n
    (Attempt.following world program trace).after program (n + 1) trace

/-- Counted from 0. -/
def attemptAt (world : World) (program : Key) (start : Trace) (n : Nat) : Attempt :=
  .following world program (traceAfter world program start n)

theorem readsAfter (n : Nat) : (traceAfter world program start n).reads = start.reads := by
  induction n with
  | zero => rfl
  | succ n ih => exact ih

theorem drawsAfter (n : Nat) : (traceAfter world program start n).draws = start.draws + n := by
  induction n with
  | zero => rfl
  | succ n ih => exact congrArg (· + 1) ih

theorem callsAfter (n : Nat) : (traceAfter world program start n).calls.toList = start.calls.toList ++
    (List.range n).flatMap fun i => (attemptAt world program start i).calls program := by
  induction n with
  | zero => simp [traceAfter]
  | succ n ih =>
    rw [List.range_succ, List.flatMap_append, ← List.append_assoc, ← ih]
    simp [traceAfter, Attempt.after, attemptAt]

theorem findsAfter (n : Nat) : (traceAfter world program start n).calls.toList.countP Call.isFind =
    start.calls.toList.countP Call.isFind + n := by
  induction n with
  | zero => rfl
  | succ n ih =>
    simp only [traceAfter, Attempt.after, Array.toList_appendList, List.countP_append, ih, Attempt.findsOnce]
    rfl

/- One attempt of the search: it is the last, or the search goes on from the trace it leaves. -/
theorem searchStep (world : World) (program : Key) (trace : Trace) (number remaining : Nat) :
    (searchSeed program number (remaining + 1)).run world trace =
      match (Attempt.following world program trace).addresses? with
      | some addresses => (.ok (some addresses), (Attempt.following world program trace).after program number trace)
      | none => (searchSeed program (number + 1) remaining).run world
          ((Attempt.following world program trace).after program number trace) := by
  rw [searchSeed, Plan.runDraw, Plan.runFind, Trace.callsAfterDraw]
  cases found : world.find trace.calls [stem (world.draw trace.draws)] program with
  | none =>
    rw [Attempt.followingUnfound found]
    rfl
  | some answer =>
    obtain ⟨pool, bump⟩ := answer
    rw [Attempt.followingFound found]
    dsimp only
    rw [Plan.runCreate, Trace.callsAfterCall, Trace.callsAfterDraw]
    cases world.create (trace.calls.push (.find [stem (world.draw trace.draws)] program))
      [(bumped (world.draw trace.draws) bump).bytes, [mintDiscriminator]] program <;> rfl

/- Among any number of attempts there is a first that is not rejected, unless all are. -/
theorem firstAccepted (world : World) (program : Key) (start : Trace) (attempts : Nat) :
    (∀ n < attempts, (attemptAt world program start n).Rejected) ∨
      ∃ n < attempts, (∀ i < n, (attemptAt world program start i).Rejected) ∧
        ¬ (attemptAt world program start n).Rejected := by
  induction attempts with
  | zero => exact .inl nofun
  | succ attempts ih =>
    rcases ih with rejected | ⟨n, below, first⟩
    · by_cases last : (attemptAt world program start attempts).Rejected
      · refine .inl fun n below => ?_
        rcases Nat.lt_succ_iff_lt_or_eq.1 below with before | rfl
        · exact rejected n before
        · exact last
      · exact .inr ⟨attempts, Nat.lt_succ_self _, rejected, last⟩
    · exact .inr ⟨n, Nat.lt_succ_of_lt below, first⟩

section Search

variable {n : Nat} (rejected : ∀ i < n, (attemptAt world program start i).Rejected)
include rejected

/- By induction on the attempts made: each leaves one attempt less, and the trace it leaves. -/
theorem searchPast (remaining : Nat) :
    (searchSeed program 1 (n + remaining)).run world start =
      (searchSeed program (n + 1) remaining).run world (traceAfter world program start n) := by
  induction n generalizing remaining with
  | zero => rw [Nat.zero_add]; rfl
  | succ n ih =>
    have last : (Attempt.following world program (traceAfter world program start n)).addresses? = none :=
      Attempt.addressesRejected.2 (rejected n (Nat.lt_succ_self n))
    rw [Nat.succ_add_eq_add_succ, ih (fun i below => rejected i (Nat.lt_succ_of_lt below)), searchStep, last]
    rfl

theorem newPoolFound {maxAttempts : UInt32} {pool mint : Key} {bump : UInt8} (below : n < maxAttempts.toNat)
    (found : (attemptAt world program start n).found = some (pool, bump))
    (named : (attemptAt world program start n).named = some mint) :
    (newPool program maxAttempts).run world start =
      (.ok ⟨bumped (attemptAt world program start n).drawn bump, pool, mint⟩,
        traceAfter world program start (n + 1)) := by
  obtain ⟨remaining, attempts⟩ := Nat.exists_eq_add_of_lt below
  have last : (Attempt.following world program (traceAfter world program start n)).addresses? = _ :=
    Attempt.addressesFound found named
  have search := searchPast rejected (remaining + 1)
  rw [searchStep, last, ← Nat.add_assoc, ← attempts] at search
  change (Plan.bind _ _).run world start = _
  rw [Plan.runBind, search]
  rfl

theorem newPoolExhausted {maxAttempts : UInt32} (all : n = maxAttempts.toNat) :
    (newPool program maxAttempts).run world start =
      (.error (.seedSearchExhausted maxAttempts), traceAfter world program start n) := by
  have search := searchPast rejected 0
  rw [Nat.add_zero, all] at search
  change (Plan.bind _ _).run world start = _
  rw [Plan.runBind, search, all]
  rfl

end Search

theorem seedSearch (world : World) (program : Key) (maxAttempts : UInt32) (start : Trace) :
    (∀ n, (attemptAt world program start n).Answered world program (traceAfter world program start n)) ∧
    (∀ n, (traceAfter world program start n).bytesDrawn = start.bytesDrawn + 32 * n ∧
      (traceAfter world program start n).reads = start.reads ∧
      (traceAfter world program start n).calls.toList = start.calls.toList ++
        (List.range n).flatMap (fun i => (attemptAt world program start i).calls program) ∧
      (traceAfter world program start n).calls.toList.countP Call.isFind =
        start.calls.toList.countP Call.isFind + n) ∧
    (∀ n pool bump mint, n < maxAttempts.toNat → (∀ i < n, (attemptAt world program start i).Rejected) →
      (attemptAt world program start n).found = some (pool, bump) →
      (attemptAt world program start n).named = some mint →
      (newPool program maxAttempts).run world start =
        (.ok ⟨bumped (attemptAt world program start n).drawn bump, pool, mint⟩,
          traceAfter world program start (n + 1))) ∧
    ((∀ n < maxAttempts.toNat, (attemptAt world program start n).Rejected) →
      (newPool program maxAttempts).run world start =
        (.error (.seedSearchExhausted maxAttempts), traceAfter world program start maxAttempts.toNat)) := by
  refine ⟨fun n => Attempt.followingAnswered .., fun n => ⟨?_, readsAfter n, callsAfter n, findsAfter n⟩,
    fun n pool bump mint below rejected found named => newPoolFound rejected below found named,
    fun rejected => newPoolExhausted rejected rfl⟩
  unfold Trace.bytesDrawn
  rw [drawsAfter, Nat.mul_add]

/- An oracle that refuses the first seed at once, the second when the mint is asked for, and takes the third. -/
def thirdTimeWorld : World :=
  (((World.ofLedger .empty).drawing [.fill 32 1, .fill 32 2, .fill 32 3]).scripted
    [none, some (.fill 32 71, 255), some (.fill 32 72, 9)] [none, some (.fill 32 73)])

theorem seedSearchThird :
    (attemptAt thirdTimeWorld (.fill 32 9) {} 0).Rejected ∧ (attemptAt thirdTimeWorld (.fill 32 9) {} 1).Rejected ∧
    (newPool (.fill 32 9) 5).run thirdTimeWorld {} =
      (.ok ⟨bumped (.fill 32 3) 9, .fill 32 72, .fill 32 73⟩, traceAfter thirdTimeWorld (.fill 32 9) {} 3) ∧
    (newPool (.fill 32 9) 2).run thirdTimeWorld {} =
      (.error (.seedSearchExhausted 2), traceAfter thirdTimeWorld (.fill 32 9) {} 2) := by
  have first : (attemptAt thirdTimeWorld (.fill 32 9) {} 0).Rejected := .inl (by decide +kernel)
  have second : (attemptAt thirdTimeWorld (.fill 32 9) {} 1).Rejected := .inr (by decide +kernel)
  have rejected : ∀ i < 2, (attemptAt thirdTimeWorld (.fill 32 9) {} i).Rejected
    | 0, _ => first
    | 1, _ => second
  obtain ⟨_, _, finds, _⟩ := seedSearch thirdTimeWorld (.fill 32 9) 5 {}
  obtain ⟨_, _, _, exhausts⟩ := seedSearch thirdTimeWorld (.fill 32 9) 2 {}
  have drawn : (attemptAt thirdTimeWorld (.fill 32 9) {} 2).drawn = .fill 32 3 := by decide +kernel
  have run := finds 2 (.fill 32 72) 9 (.fill 32 73) (by decide) rejected (by decide +kernel) (by decide +kernel)
  rw [drawn] at run
  exact ⟨first, second, run, exhausts rejected⟩

end Derivation
end TradingPool
