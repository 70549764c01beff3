import TradingPool.Proofs.PoolAccount

/-! Pool accounts that are too short, and the figures that say so. The account is measured against the header first, and
what is left behind the header against the markets, so only the first pair of figures is that of the whole account. Both
pairs differ by the bytes that are missing: an account that has its header is accepted as soon as they are added. -/
namespace TradingPool

theorem LittleEndian.decodeAtAppend {width offset : Nat} {s : Bytes} (within : offset + width ≤ s.length)
    (more : Bytes) : decodeAt width offset (s ++ more) = decodeAt width offset s := by
  have front : offset ≤ s.length := Nat.le_trans (Nat.le_add_right offset width) within
  have rest : width ≤ (s.drop offset).length := by
    rw [List.length_drop]
    omega
  rw [decodeAt, List.drop_append_of_le_length front, List.take_append_of_le_length rest]
  rfl

namespace Pool.State

variable {data : Bytes} {expected actual : Nat}

/-- The figures of a refusal are the length of the account and the length that it must have. -/
def FiguresOfAccount (data : Bytes) : Prop :=
  ∀ expected actual, unpack data = .error (.truncatedAccount expected actual) →
    actual = data.length ∧ actual < expected ∧
      expected = if data.length < 117 then 117 else 117 + 32 * LittleEndian.decodeAt 2 97 data

/- The market count stands in the header, so what is added behind the header leaves the needed length as it is. -/
theorem acceptsExtended (enough : Header.size ≤ data.length) (more : Bytes) :
    (∃ state, unpack (data ++ more) = .ok state) ↔
      Header.size + 32 * LittleEndian.decodeAt 2 97 data ≤ data.length + more.length := by
  have kept : LittleEndian.decodeAt 2 97 (data ++ more) = LittleEndian.decodeAt 2 97 data := by
    refine LittleEndian.decodeAtAppend ?_ more
    unfold Header.size at enough
    omega
  rw [unpackAccepts, kept, List.length_append]
  exact and_iff_right_of_imp fun _ => Nat.le_trans enough (Nat.le_add_right _ _)

theorem figuresOfShortHeader (refused : unpack data = .error (.truncatedAccount expected actual)) :
    FiguresOfAccount data ↔ data.length < 117 := by
  rcases unpackEqError.1 refused with ⟨short, same⟩ | ⟨enough, _, same⟩
  · refine iff_of_true (fun other given again => ?_) short
    cases refused.symm.trans again
    cases same
    exact ⟨rfl, short, (if_pos short).symm⟩
  · refine iff_of_false (fun agree => ?_) (Nat.not_lt.2 enough)
    have figure := (agree expected actual refused).1
    cases same
    unfold Header.size at enough figure
    omega

theorem truncationFigures (refused : unpack data = .error (.truncatedAccount expected actual)) :
    actual < expected ∧
    (data.length < 117 → expected = 117 ∧ actual = data.length) ∧
    (117 ≤ data.length → ∃ header, Header.unpack data = .ok header ∧
      expected = 32 * header.marketCount.toNat ∧ actual + 117 = data.length ∧
      ∀ more, (∃ state, unpack (data ++ more) = .ok state) ↔
        117 + 32 * header.marketCount.toNat ≤ (data ++ more).length) ∧
    (∀ more state, unpack (data ++ more) = .ok state → expected ≤ actual + more.length) ∧
    (FiguresOfAccount data ↔ data.length < 117) := by
  have extent := figuresOfShortHeader refused
  rcases unpackEqError.1 refused with ⟨short, figures⟩ | ⟨enough, short, figures⟩
  · cases figures
    refine ⟨short, fun _ => ⟨rfl, rfl⟩, fun enough => absurd short (Nat.not_lt.2 enough), fun more state read => ?_,
      extent⟩
    have long := ((unpackAccepts _).1 ⟨state, read⟩).1
    rwa [List.length_append] at long
  · cases figures
    obtain ⟨header, front⟩ := (Header.unpackAccepts data).2 enough
    have extended := acceptsExtended enough
    rw [Header.marketCountAt front] at short extended ⊢
    unfold Header.size at enough short extended ⊢
    refine ⟨by omega, fun none => absurd none (Nat.not_lt.2 enough), fun _ => ⟨header, front, rfl, by omega, ?_⟩, ?_,
      extent⟩
    · intro more
      rw [List.length_append]
      exact extended more
    · intro more state read
      have long := (extended more).1 ⟨state, read⟩
      omega

/- A pool of one market that ends in the third byte of the market. -/
def cutPool : Bytes :=
  Header.stored.write (.fill 32 8, .fill 32 10, .fill 32 11, 0x3f, 1, 100, 1600000000, 604800) ++ [20, 20, 20]

theorem cutRefused : unpack cutPool = .error (.truncatedAccount 32 3) := by decide +kernel

theorem truncationFiguresCut :
    unpack cutPool = .error (.truncatedAccount 32 3) ∧
    (∃ state, unpack (cutPool ++ List.replicate 29 20) = .ok state) ∧
    ¬ ∃ state, unpack (cutPool ++ List.replicate 28 20) = .ok state := by
  obtain ⟨_, _, behind, missing, _⟩ := truncationFigures cutRefused
  obtain ⟨header, _, markets, _, accepts⟩ := behind (by decide +kernel)
  refine ⟨cutRefused, (accepts _).2 ?_, ?_⟩
  · rw [← markets]
    decide +kernel
  · rintro ⟨state, read⟩
    exact absurd (missing _ state read) (by decide)

theorem truncationMisstated :
    cutPool.length = 120 ∧ LittleEndian.decodeAt 2 97 cutPool = 1 ∧
    unpack cutPool = .error (.truncatedAccount 32 3) ∧
    (Failure.truncatedAccount 32 3).message = "The account holds 3 bytes, at least 32 are required" ∧
    ¬ FiguresOfAccount cutPool := by
  have length : cutPool.length = 120 := by decide +kernel
  refine ⟨length, by decide +kernel, cutRefused, rfl, ?_⟩
  rw [figuresOfShortHeader cutRefused, length]
  decide

end Pool.State
end TradingPool
