import TradingPool.Plan
import TradingPool.Layout

/-! Addresses derived from a pool seed, and the search for a seed that derives them all. -/
namespace TradingPool.Derivation

def mintDiscriminator : UInt8 := 1

def derive (seeds : List Bytes) (program : Key) : Plan Key := do
  Plan.ofOption (← Plan.create seeds program) .invalidDerivation

def fixedAddress (program : Key) (seed : Seed) (discriminator : UInt8) : Plan Key :=
  derive [seed.bytes, [discriminator]] program

def poolAddress (program : Key) (seed : Seed) : Plan Key := derive [seed.bytes] program

def mintAddress (program : Key) (seed : Seed) : Plan Key :=
  fixedAddress program seed mintDiscriminator

def trackerAddress (program : Key) (seed : Seed) (openOrders : Key) : Plan Key := do
  let found ← Plan.find [seed.bytes, openOrders.bytes] program
  Plan.ofOption (found.map Prod.fst) .invalidDerivation

def vaultSigner (venueProgram market : Key) (nonce : UInt64) : Plan Key :=
  derive [market.bytes, Layout.u64.write nonce] venueProgram

structure PoolAddresses where
  /-- Its last byte is the bump of the pool address. -/
  seed : Seed
  pool : Key
  mint : Key
  deriving DecidableEq, Repr

def stem (drawn : Block 32) : Bytes := drawn.bytes.take 31

def bumped (drawn : Block 32) (bump : UInt8) : Seed :=
  ⟨stem drawn ++ [bump], by simp [stem, drawn.lengthBytes]⟩

/-- One draw for each attempt, until one has both a pool address and a mint address. -/
def searchSeed (program : Key) (attempt : Nat) : Nat → Plan (Option PoolAddresses)
  | 0 => return none
  | remaining + 1 => do
    let drawn ← Plan.draw
    match ← Plan.find [stem drawn] program with
    | none =>
      Plan.note (.noBump attempt)
      searchSeed program (attempt + 1) remaining
    | some (pool, bump) =>
      let seed := bumped drawn bump
      match ← Plan.create [seed.bytes, [mintDiscriminator]] program with
      | none =>
        Plan.note (.noMint attempt)
        searchSeed program (attempt + 1) remaining
      | some mint =>
        Plan.note (.seedFound attempt pool mint)
        return some ⟨seed, pool, mint⟩

def newPool (program : Key) (maxAttempts : UInt32) : Plan PoolAddresses := do
  Plan.ofOption (← searchSeed program 1 maxAttempts.toNat) (.seedSearchExhausted maxAttempts)

end TradingPool.Derivation
