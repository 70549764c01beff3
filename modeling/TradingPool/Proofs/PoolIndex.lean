import TradingPool.Proofs.PoolAccount

/-! Positions in the lists of a pool. A market or a mint is named by the first position at which it stands,
and every position of a stored pool fits the width in which orders write it. -/
namespace TradingPool.Pool

/-- The key stands at the position, and nowhere before it. -/
def FirstAt (keys : List Key) (key : Key) (i : Nat) : Prop :=
  keys[i]? = some key ∧ ∀ j < i, keys[j]? ≠ some key

namespace FirstAt

variable {keys : List Key} {key other : Key} {i : Nat}

theorem below (h : FirstAt keys key i) : i < keys.length :=
  (List.getElem?_eq_some_iff.1 h.1).1

theorem keyUnique (h : FirstAt keys key i) (same : FirstAt keys other i) : key = other :=
  Option.some.inj (h.1.symm.trans same.1)

theorem ofIdxOf (h : keys.idxOf? key = some i) : FirstAt keys key i := by
  obtain ⟨bound, stands, first⟩ := List.idxOf?_eq_some_iff.1 h
  refine ⟨List.getElem?_eq_some_iff.2 ⟨bound, stands⟩, ?_⟩
  intro j before again
  obtain ⟨_, same⟩ := List.getElem?_eq_some_iff.1 again
  exact first j before same

end FirstAt

namespace State

variable {state : State} {data : Bytes} {key : Key} {i : Nat}

theorem marketFirst (h : state.marketIndex? key = some i) : FirstAt state.markets key i :=
  FirstAt.ofIdxOf h

theorem assetFirst (h : state.assetIndex? key = some i) : FirstAt state.mints key i :=
  FirstAt.ofIdxOf h

theorem assetMissing (h : state.assetIndex? key = none) : key ∉ state.mints :=
  List.idxOf?_eq_none_iff.1 h

theorem lengthMints : state.mints.length = state.assets.length := List.length_map _

theorem mintAt (h : state.mints[i]? = some key) : ∃ asset, state.assets[i]? = some asset ∧ asset.mint = key := by
  unfold mints at h
  rw [List.getElem?_map] at h
  exact Option.map_eq_some_iff.1 h

theorem slotFirst (state : State) (key : Key) :
    FirstAt state.mints key (state.assetSlot key) ∨
      key ∉ state.mints ∧ state.assetSlot key = state.assets.length := by
  unfold assetSlot
  cases found : state.assetIndex? key with
  | some i => exact .inl (assetFirst found)
  | none => exact .inr ⟨assetMissing found, rfl⟩

theorem slotBounded (state : State) (key : Key) : state.assetSlot key ≤ state.assets.length := by
  unfold assetSlot
  cases found : state.assetIndex? key with
  | some i =>
    have bound := (assetFirst found).below
    rw [lengthMints] at bound
    exact Nat.le_of_lt bound
  | none => exact Nat.le_refl _

theorem slotHeld (below : state.assetSlot key < state.assets.length) :
    state.assetIndex? key = some (state.assetSlot key) := by
  unfold assetSlot at below ⊢
  cases found : state.assetIndex? key with
  | some i => rfl
  | none =>
    rw [found] at below
    exact absurd below (Nat.lt_irrefl _)

theorem slotFree (last : state.assetSlot key = state.assets.length) : state.assetIndex? key = none := by
  unfold assetSlot at last
  cases found : state.assetIndex? key with
  | some i =>
    have bound := (assetFirst found).below
    rw [lengthMints] at bound
    rw [found] at last
    exact absurd last (Nat.ne_of_lt bound)
  | none => rfl

theorem marketsBounded (h : unpack data = .ok state) : state.markets.length < UInt16.size := by
  obtain ⟨_, slots, taken, _⟩ := unpackEqOk.1 h
  rw [(Layout.key.writeAllOfReadAll taken).1]
  exact state.header.marketCount.toNat_lt

theorem assetsBounded (h : unpack data = .ok state) : Asset.size * state.assets.length ≤ data.length := by
  obtain ⟨_, slots, taken, assets⟩ := unpackEqOk.1 h
  have few : state.assets.length ≤ (Asset.slots slots).length := by
    rw [← assets]
    exact List.length_filter_le _ _
  have whole : Asset.size * (Asset.slots slots).length ≤ slots.length := Asset.slotsBounded slots
  have rest := (Layout.key.readAllRest taken).1
  rw [List.length_drop] at rest
  unfold Asset.size at whole ⊢
  omega

end State
end TradingPool.Pool
