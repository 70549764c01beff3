import TradingPool.Address

/-! Addresses of programs. Only the concatenation of the seeds counts, so a bump may stand in the last byte
of a seed or after it; the bump found is the largest that can be used. A token account is the hash of a
string that its owner and its mint can be read from. -/
namespace TradingPool

/-- Two different strings with one digest. -/
def Sha256.Collision (s t : Bytes) : Prop := s ≠ t ∧ Sha256.digest s = Sha256.digest t

namespace Address

variable {seeds others : List Bytes} {program address : Key} {bump : UInt8}

def Fits (seeds : List Bytes) : Prop := seeds.length ≤ maxSeeds ∧ ∀ s ∈ seeds, s.length ≤ maxSeedLength

theorem createSame (fits : Fits seeds) (othersFit : Fits others) (same : seeds.flatten = others.flatten) :
    create? seeds program = create? others program := by
  unfold Fits at fits othersFit
  unfold create?
  rw [if_pos fits, if_pos othersFit]
  unfold hash preimage
  rw [same]

theorem createHash (h : create? seeds program = some address) : address = hash seeds program := by
  unfold create? at h
  split at h
  · dsimp only at h
    split at h
    · cases h
    · exact (Option.some.inj h).symm
  · cases h

structure LargestBump (seeds : List Bytes) (program address : Key) (bump : UInt8) : Prop where
  positive : bump ≠ 0
  derives : create? (seeds ++ [[bump]]) program = some address
  above : ∀ higher, bump < higher → create? (seeds ++ [[higher]]) program = none

theorem findFromSource {n : Nat} (small : n < UInt8.size) (h : findFrom? seeds program n = some (address, bump)) :
    bump ≠ 0 ∧ create? (seeds ++ [[bump]]) program = some address ∧
      ∀ higher, bump < higher → higher.toNat ≤ n → create? (seeds ++ [[higher]]) program = none := by
  induction n with
  | zero => cases h
  | succ n ih =>
    have width : (UInt8.ofNat (n + 1)).toNat = n + 1 := UInt8.toNat_ofNat_of_lt' small
    unfold findFrom? at h
    dsimp only at h
    split at h
    · rename_i derived
      cases h
      refine ⟨?_, derived, ?_⟩
      · intro zero
        rw [zero] at width
        cases width
      · intro higher larger bound
        rw [UInt8.lt_iff_toNat_lt, width] at larger
        omega
    · rename_i refused
      obtain ⟨positive, derived, above⟩ := ih (Nat.lt_of_succ_lt small) h
      refine ⟨positive, derived, ?_⟩
      intro higher larger bound
      by_cases top : higher.toNat = n + 1
      · have same : higher = UInt8.ofNat (n + 1) := UInt8.toNat_inj.1 (top.trans width.symm)
        rw [same]
        exact refused
      · exact above higher larger (by omega)

theorem findSource (h : find? seeds program = some (address, bump)) :
    LargestBump seeds program address bump := by
  obtain ⟨positive, derived, above⟩ := findFromSource (by decide) h
  exact ⟨positive, derived, fun higher larger => above higher larger (Nat.le_of_lt_succ higher.toNat_lt)⟩

def tokenPreimage (tokenProgram owner mint : Key) (bump : UInt8) : Bytes :=
  preimage ([owner.bytes, tokenProgram.bytes, mint.bytes] ++ [[bump]]) Programs.associatedToken

theorem tokenAccountHash (tokenProgram owner mint : Key) :
    ∃ bump, tokenAccount tokenProgram owner mint = Sha256.digest (tokenPreimage tokenProgram owner mint bump) := by
  unfold tokenAccount tokenAccount?
  cases found : find? (tokenSeeds tokenProgram owner mint) Programs.associatedToken with
  | some answer => exact ⟨answer.2, createHash (findSource found).derives⟩
  | none => exact ⟨0, rfl⟩

theorem tokenPreimageFields {tokenProgram owner mint owner' mint' : Key} {bump bump' : UInt8}
    (h : tokenPreimage tokenProgram owner mint bump = tokenPreimage tokenProgram owner' mint' bump') :
    owner = owner' ∧ mint = mint' := by
  unfold tokenPreimage preimage at h
  have seeds := List.append_cancel_right (List.append_cancel_right h)
  simp only [List.cons_append, List.nil_append, List.flatten_cons, List.flatten_nil] at seeds
  obtain ⟨owners, seeds⟩ := List.append_inj seeds (by rw [owner.lengthBytes, owner'.lengthBytes])
  have seeds := List.append_cancel_left seeds
  obtain ⟨mints, _⟩ := List.append_inj seeds (by rw [mint.lengthBytes, mint'.lengthBytes])
  exact ⟨Block.ext owners, Block.ext mints⟩

end Address
end TradingPool
