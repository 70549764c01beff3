import TradingPool.Proofs.PoolIdentity

/-! Addresses of different things are different, or the hash collides. Seeds are hashed without marks between them,
so two derivations are told apart by the hashed strings alone: each kind of address has strings of a length of
its own, and within a kind the string can be cut back into what the address was derived for. -/
namespace TradingPool.Derivation

open TradingPool.Plan (Yields)

theorem yieldsTracker {world : World} {trace later : Trace} {program address openOrders : Key} {seed : Seed} :
    Yields world trace (trackerAddress program seed openOrders) address later ↔
      (∃ bump, world.find trace.calls [seed.bytes, openOrders.bytes] program = some (address, bump)) ∧
        trace.afterCall (.find [seed.bytes, openOrders.bytes] program) = later := by
  unfold trackerAddress
  simp [and_comm]

/-- What an address is derived for. -/
inductive Target where
  | pool (seed : Seed)
  | fixed (seed : Seed) (discriminator : UInt8)
  | tracker (seed : Seed) (openOrders : Key)
  | vaultSigner (market : Key) (nonce : UInt64)
  | tokenAccount (owner mint : Key)
  deriving DecidableEq, Repr

namespace Target

variable {settings : Settings} {x y : Target}

def address (settings : Settings) : Target → Plan Key
  | .pool seed => poolAddress settings.program seed
  | .fixed seed discriminator => fixedAddress settings.program seed discriminator
  | .tracker seed openOrders => trackerAddress settings.program seed openOrders
  | .vaultSigner market nonce => Derivation.vaultSigner settings.venueProgram market nonce
  | .tokenAccount owner mint => return settings.tokenAccount owner mint

def program (settings : Settings) : Target → Key
  | .pool _ | .fixed .. | .tracker .. => settings.program
  | .vaultSigner .. => settings.venueProgram
  | .tokenAccount .. => Programs.associatedToken

def seeds (settings : Settings) : Target → List Bytes
  | .pool seed => [seed.bytes]
  | .fixed seed discriminator => [seed.bytes, [discriminator]]
  | .tracker seed openOrders => [seed.bytes, openOrders.bytes]
  | .vaultSigner market nonce => [market.bytes, LittleEndian.encode 8 nonce.toNat]
  | .tokenAccount owner mint => [owner.bytes, settings.tokenProgram.bytes, mint.bytes]

/-- The bump that is found for the seeds, where one is looked for. -/
def bumpSeed (settings : Settings) : Target → List Bytes
  | .pool _ | .fixed .. | .vaultSigner .. => []
  | target@(.tracker ..) | target@(.tokenAccount ..) =>
    match Address.find? (target.seeds settings) (target.program settings) with
    | some (_, bump) => [[bump]]
    | none => [[0]]

def hashed (settings : Settings) (target : Target) : Bytes :=
  Address.preimage (target.seeds settings ++ target.bumpSeed settings) (target.program settings)

/-- How many bytes of seeds and bump are hashed. -/
def size : Target → Nat
  | .pool _ => 32
  | .fixed .. => 33
  | .vaultSigner .. => 40
  | .tracker .. => 65
  | .tokenAccount .. => 97

theorem lengthBump : (x.bumpSeed settings).flatten.length = match x with
    | .pool _ | .fixed .. | .vaultSigner .. => 0
    | .tracker .. | .tokenAccount .. => 1 := by
  cases x with
  | pool | fixed | vaultSigner => rfl
  | tracker | tokenAccount =>
    simp only [bumpSeed]
    split <;> rfl

theorem lengthHashed : (x.hashed settings).length = x.size + 53 := by
  have last := @lengthBump settings x
  rw [List.length_flatten] at last
  cases x <;> simp [hashed, Address.preimage, Address.marker, seeds, size, Block.lengthBytes, last,
    LittleEndian.lengthEncode]

/- The length says of what kind the address is, and what it was derived for stands at the front. -/
def cut (s : Bytes) : Option Target :=
  match s.length with
  | 85 => (Layout.key.read s).map fun (seed, _) => pool seed
  | 86 => ((Layout.key.pair .u8).read s).map fun ((seed, discriminator), _) => fixed seed discriminator
  | 93 => ((Layout.key.pair .u64).read s).map fun ((market, nonce), _) => vaultSigner market nonce
  | 118 => ((Layout.key.pair .key).read s).map fun ((seed, openOrders), _) => tracker seed openOrders
  | 150 => ((Layout.key.pair (.pair .key .key)).read s).map fun ((owner, _, mint), _) => tokenAccount owner mint
  | _ => none

theorem hashedFront : ∃ rest, x.hashed settings = (x.seeds settings).flatten ++ rest := by
  simp [hashed, Address.preimage]

theorem cutHashed : cut (x.hashed settings) = some x := by
  have length : (x.hashed settings).length = x.size + 53 := lengthHashed
  obtain ⟨rest, front⟩ : ∃ rest, x.hashed settings = (x.seeds settings).flatten ++ rest := hashedFront
  unfold cut
  rw [length, front]
  -- In each case the seeds are what the reader chosen by the length would have written.
  cases x with
  | pool seed =>
    have written : ((pool seed).seeds settings).flatten = Layout.key.write seed := List.append_nil _
    simp [size, written, Layout.readWrite]
  | fixed seed discriminator =>
    have written : ((fixed seed discriminator).seeds settings).flatten =
        (Layout.key.pair .u8).write (seed, discriminator) := by
      simp [seeds, Layout.pair, Layout.key, Layout.block, Layout.writeU8]
    simp [size, written, Layout.readWrite]
  | tracker seed openOrders =>
    have written : ((tracker seed openOrders).seeds settings).flatten =
        (Layout.key.pair .key).write (seed, openOrders) := by
      simp [seeds, Layout.pair, Layout.key, Layout.block]
    simp [size, written, Layout.readWrite]
  | vaultSigner market nonce =>
    have written : ((vaultSigner market nonce).seeds settings).flatten =
        (Layout.key.pair .u64).write (market, nonce) := by
      simp [seeds, Layout.pair, Layout.key, Layout.block, Layout.u64, Layout.map, Layout.bits]
    simp [size, written, Layout.readWrite]
  | tokenAccount owner mint =>
    have written : ((tokenAccount owner mint).seeds settings).flatten =
        (Layout.key.pair (.pair .key .key)).write (owner, settings.tokenProgram, mint) := by
      simp [seeds, Layout.pair, Layout.key, Layout.block]
    simp [size, written, Layout.readWrite]

theorem hashedInjective (h : x.hashed settings = y.hashed settings) : x = y := by
  have again := congrArg cut h
  rw [cutHashed, cutHashed] at again
  exact Option.some.inj again

theorem addressHashed {world : World} {trace later : Trace} {key : Key} (runtime : world.Runtime)
    (h : Yields world trace (x.address settings) key later) : key = Sha256.digest (x.hashed settings) := by
  cases x with
  | pool | fixed | vaultSigner =>
    have given := (Workflow.yieldsDerive.1 h).1
    rw [runtime.create] at given
    exact Address.createHash given
  | tracker seed openOrders =>
    obtain ⟨bump, found⟩ := (yieldsTracker.1 h).1
    rw [runtime.find] at found
    have last : (tracker seed openOrders).bumpSeed settings = [[bump]] := by
      simp [bumpSeed, seeds, program, found]
    rw [hashed, last]
    exact Address.createHash (Address.findSource found).derives
  | tokenAccount owner mint =>
    obtain ⟨rfl, _⟩ := Plan.yieldsPure.1 h
    simp only [Settings.tokenAccount, Address.tokenAccount, Address.tokenAccount?, Address.tokenSeeds, hashed, bumpSeed,
      seeds, program]
    cases found : Address.find? [owner.bytes, settings.tokenProgram.bytes, mint.bytes] Programs.associatedToken with
    | some answer => exact Address.createHash (Address.findSource found).derives
    | none => rfl

end Target

theorem addressesApart (settings : Settings) {world after : World} (runtime : world.Runtime)
    (again : after.Runtime) {trace mid start later : Trace} {x y : Target} {key : Key}
    (first : Yields world trace (x.address settings) key mid)
    (second : Yields after start (y.address settings) key later) :
    Sha256.digest (x.hashed settings) = key ∧
      (x = y ∨ Sha256.Collision (x.hashed settings) (y.hashed settings)) := by
  have hashed := Target.addressHashed runtime first
  have other := Target.addressHashed again second
  refine ⟨hashed.symm, ?_⟩
  by_cases same : x.hashed settings = y.hashed settings
  · exact .inl (Target.hashedInjective same)
  · exact .inr ⟨same, hashed.symm.trans other⟩

/- A tracker, asked for a second time in another world and after another call. -/
theorem addressesApartTracker :
    let x : Target := .tracker (.fill 32 4) (.fill 32 1)
    let y : Target := .tracker (.fill 32 4) (.fill 32 1)
    let start : Trace := Trace.afterCall {} (.create [(Block.fill 32 4).bytes] (.fill 32 9))
    ∃ key mid later, Yields (.ofLedger .empty) {} (x.address Workflow.plainSettings) key mid ∧
      Yields Workflow.pairWorld start (y.address Workflow.plainSettings) key later ∧
      Sha256.digest (x.hashed Workflow.plainSettings) = key ∧
      (x = y ∨ Sha256.Collision (x.hashed Workflow.plainSettings) (y.hashed Workflow.plainSettings)) := by
  intro x y start
  have run : ((x.address Workflow.plainSettings).outcome (.ofLedger .empty)).toOption.map (fun _ => ()) = some () := by
    decide +kernel
  obtain ⟨key, ok, _⟩ := Failure.answered run
  obtain ⟨mid, first⟩ := Plan.outcomeYields.1 ok
  have runtime : (World.ofLedger .empty).Runtime := ⟨fun _ _ _ => rfl, fun _ _ _ => rfl⟩
  have again : Workflow.pairWorld.Runtime := ⟨fun _ _ _ => rfl, fun _ _ _ => rfl⟩
  obtain ⟨bump, found⟩ := (yieldsTracker.1 first).1
  have second : Yields Workflow.pairWorld start (y.address Workflow.plainSettings) key _ :=
    yieldsTracker.2 ⟨⟨bump, (again.find ..).trans ((runtime.find ..).symm.trans found)⟩, rfl⟩
  exact ⟨key, mid, _, first, second, addressesApart Workflow.plainSettings runtime again first second⟩

end TradingPool.Derivation
