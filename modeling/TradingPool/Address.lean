import TradingPool.Sha256
import TradingPool.Edwards25519
import TradingPool.Programs

/-! Addresses that belong to a program: the hash of some seeds, the program and a marker, unless that
hash is a point of the curve, which somebody might hold the secret of. -/
namespace TradingPool.Address

/-- The text `ProgramDerivedAddress`. -/
def marker : Bytes :=
  [0x50, 0x72, 0x6f, 0x67, 0x72, 0x61, 0x6d, 0x44, 0x65, 0x72, 0x69, 0x76, 0x65, 0x64, 0x41, 0x64,
    0x64, 0x72, 0x65, 0x73, 0x73]

/- The seeds are not told apart: only their concatenation is hashed. -/
def preimage (seeds : List Bytes) (program : Key) : Bytes := seeds.flatten ++ program.bytes ++ marker

def hash (seeds : List Bytes) (program : Key) : Key := Sha256.digest (preimage seeds program)

def maxSeeds : Nat := 16
def maxSeedLength : Nat := 32

def create? (seeds : List Bytes) (program : Key) : Option Key :=
  if seeds.length ≤ maxSeeds ∧ ∀ s ∈ seeds, s.length ≤ maxSeedLength then
    let address := hash seeds program
    if Edwards25519.isPoint address then none else some address
  else none

/-- The largest bump from `bump` down to 1 that, as a last seed, makes the seeds an address. -/
def findFrom? (seeds : List Bytes) (program : Key) : Nat → Option (Key × UInt8)
  | 0 => none
  | bump + 1 =>
    let last := UInt8.ofNat (bump + 1)
    match create? (seeds ++ [[last]]) program with
    | some address => some (address, last)
    | none => findFrom? seeds program bump

def find? (seeds : List Bytes) (program : Key) : Option (Key × UInt8) := findFrom? seeds program 255

def tokenSeeds (tokenProgram owner mint : Key) : List Bytes := [owner.bytes, tokenProgram.bytes, mint.bytes]

def tokenAccount? (tokenProgram owner mint : Key) : Option Key :=
  (find? (tokenSeeds tokenProgram owner mint) Programs.associatedToken).map Prod.fst

/-- The search for a token account has no answer to give when it comes to its end: it stops the program. Nothing is
known that gets it there, since 255 digests in a row would have to be points of the curve. For a result in that
unreachable case too there is the hash under bump 0, which the search never returns. -/
def tokenAccount (tokenProgram owner mint : Key) : Key :=
  match tokenAccount? tokenProgram owner mint with
  | some address => address
  | none => hash (tokenSeeds tokenProgram owner mint ++ [[0]]) Programs.associatedToken

end TradingPool.Address
