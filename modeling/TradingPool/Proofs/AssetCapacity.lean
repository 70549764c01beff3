import TradingPool.Proofs.AssetSlots
import TradingPool.Proofs.Assembly

/-! Room for assets. A new pool gets as many slots as the settings say, however many assets are put into it. An order
names the slot of what it receives, or the one behind all assets; that one exists as long as some slot is free, and in
a full pool it is the first that the account does not have. -/
namespace TradingPool

namespace Pool

theorem Asset.lengthSlots (data : Bytes) : (slots data).length = data.length / size := by
  obtain ⟨assets, tail, taken⟩ := Layout.coveredReadAll coversLayout (Nat.div_mul_le_self data.length size)
  have found : slots data = assets := by simp only [slots, taken]
  rw [found, (layout.writeAllOfReadAll taken).1]

/-- How many whole slots stand behind the markets, free or held. -/
def slotCount (data : Bytes) : Nat := (data.length - slotsStart data) / Asset.size

theorem lengthAccountSlots (data : Bytes) : (accountSlots data).length = slotCount data := by
  rw [accountSlots, Asset.lengthSlots, List.length_drop]
  rfl

/-- A slot is free or holds the mint. -/
def HasRoom (data : Bytes) (mint : Key) : Prop :=
  ∃ slot ∈ accountSlots data, slot.mint = .zero 32 ∨ slot.mint = mint

namespace State

variable {data : Bytes} {state : State} {mint : Key}

theorem assetsWithin (read : unpack data = .ok state) : state.assets.length ≤ slotCount data := by
  rw [heldSlots read, ← lengthAccountSlots]
  exact List.length_filter_le _ _

/- One free slot is enough for the assets to be fewer than the slots. -/
theorem assetsBelow (read : unpack data = .ok state) {slot : Asset} (member : slot ∈ accountSlots data)
    (free : slot.mint = .zero 32) : state.assets.length < slotCount data := by
  rw [heldSlots read, ← lengthAccountSlots, List.length_filter_lt_length_iff_exists]
  exact ⟨slot, member, by simp [Asset.isInitialized, free]⟩

theorem slotExists (read : unpack data = .ok state) (room : HasRoom data mint) :
    state.assetSlot mint < slotCount data := by
  obtain ⟨slot, member, holds⟩ := room
  by_cases free : slot.mint = .zero 32
  · exact Nat.lt_of_le_of_lt (slotBounded state mint) (assetsBelow read member free)
  · have held : mint ∈ state.mints := by
      rw [heldMints read, ← holds.resolve_left free]
      exact List.mem_filter.2 ⟨List.mem_map_of_mem member, by simpa using free⟩
    rcases slotFirst state mint with first | ⟨absent, _⟩
    · have below := first.below
      rw [lengthMints] at below
      exact Nat.lt_of_lt_of_le below (assetsWithin read)
    · exact absurd held absent

theorem slotMissing (read : unpack data = .ok state) (full : ¬ HasRoom data mint) :
    state.assetSlot mint = slotCount data := by
  have used : ∀ slot ∈ accountSlots data, slot.mint ≠ .zero 32 ∧ slot.mint ≠ mint := fun slot member =>
    ⟨fun free => full ⟨slot, member, .inl free⟩, fun same => full ⟨slot, member, .inr same⟩⟩
  have all : state.assets = accountSlots data := by
    rw [heldSlots read]
    exact List.filter_eq_self.2 fun slot member => by simp [Asset.isInitialized, (used slot member).1]
  have absent : mint ∉ state.mints := by
    intro held
    obtain ⟨slot, member, same⟩ := List.mem_map.1 held
    exact (used slot (all ▸ member)).2 same
  rcases slotFirst state mint with first | ⟨_, last⟩
  · exact absurd (List.mem_of_getElem? first.1) absent
  · rw [last, all, lengthAccountSlots]

theorem slotWithinRoom (read : unpack data = .ok state) :
    state.assetSlot mint ≤ slotCount data ∧ (state.assetSlot mint < slotCount data ↔ HasRoom data mint) := by
  by_cases room : HasRoom data mint
  · have below := slotExists read room
    exact ⟨Nat.le_of_lt below, iff_of_true below room⟩
  · have last := slotMissing read room
    exact ⟨Nat.le_of_eq last, iff_of_false (Nat.not_lt.2 (Nat.le_of_eq last.symm)) room⟩

end State
end Pool

namespace Workflow

/-- The slots that the first instruction of a new pool allocates, and the assets that the last one puts in. -/
def CreatedPool.allotment? (created : CreatedPool) : Option (Nat × Nat) := do
  let init ← created.instructions.head?
  let create ← created.instructions.getLast?
  let allocated : Params.Init ← (Command.init.unpack init.data).toOption
  let filled : Params.Create ← (Command.create.unpack create.data).toOption
  return (allocated.maxAssets.toNat, filled.depositAmounts.length)

theorem createdAllotment {world : World} {settings : Settings} {request : PoolRequest} {created : CreatedPool}
    (h : (createPool settings request).outcome world = .ok created) :
    created.allotment? = some (settings.maxAssets.toNat, request.sourceAssets.length) := by
  obtain ⟨later, h⟩ := Plan.outcomeYields.1 h
  obtain ⟨mints, init, made, create, source⟩ := createPoolSource h
  obtain ⟨_, _, initPayload⟩ := Command.buildEqOk.1 source.initBuilt
  obtain ⟨_, _, createPayload⟩ := Command.buildEqOk.1 source.createBuilt
  have first : created.instructions.head? = some init := by
    rw [source.instructions]
    rfl
  have last : created.instructions.getLast? = some create := by
    rw [source.instructions]
    exact List.getLast?_concat ..
  simp only [CreatedPool.allotment?, first, last, Option.bind_eq_bind, Option.bind_some, initPayload, createPayload,
    ← source.paired]
  rfl

theorem assetCapacity :
    (∀ (settings : Settings) (world : World) (request : PoolRequest) (created : CreatedPool),
      (createPool settings request).outcome world = .ok created →
      ∃ slots deposits, created.allotment? = some (slots, deposits) ∧ slots = settings.maxAssets.toNat ∧
        (deposits ≤ slots ↔ request.sourceAssets.length ≤ settings.maxAssets.toNat)) ∧
    ∀ (settings : Settings) (world : World) (payer : Key) (seed : Seed) (request : OrderRequest) (openOrders : Key)
      (submission : OrderSubmission),
      (createOrder settings payer seed request openOrders).outcome world = .ok submission →
      ∃ pool data order, ∃ params : Params.CreateOrder,
        (Derivation.poolAddress settings.program seed).outcome world = .ok pool ∧ world.account pool = some data ∧
        submission.instructions.getLast? = some order ∧ Command.createOrder.unpack order.data = .ok params ∧
        params.targetIndex.toNat = submission.targetIndex ∧
        submission.targetIndex ≤ Pool.slotCount data ∧
        (submission.targetIndex < Pool.slotCount data ↔ Pool.HasRoom data params.targetMint) := by
  refine ⟨fun settings world request created h => ⟨_, _, createdAllotment h, rfl, Iff.rfl⟩, ?_⟩
  intro settings world payer seed request openOrders submission h
  obtain ⟨later, h⟩ := Plan.outcomeYields.1 h
  obtain ⟨pool, state, market, marketIndex, sourceIndex, source, tracker, _, order, _, built, rfl⟩ := createOrderSteps h
  obtain ⟨data, stored, read⟩ := source.pool.stored
  obtain ⟨_, _, payload⟩ := Command.buildEqOk.1 built
  exact ⟨pool, data, order, _, poolAddressOutcome.2 source.pool.address, stored, List.getLast?_concat .., payload,
    source.targetFits _, Pool.State.slotWithinRoom read⟩

theorem bidAddress : Address.create? [(Block.fill 32 4).bytes] (.fill 32 9) =
    some (Address.hash [(Block.fill 32 4).bytes] (.fill 32 9)) := by
  decide +kernel

theorem bidStored : (World.ofLedger bidLedger).account (Address.hash [(Block.fill 32 4).bytes] (.fill 32 9)) =
    some bidPool := by
  decide +kernel

/- The free slot of the pool is room for the coin that the bid buys. -/
theorem assetCapacityBid : ∃ created submission,
    (createPool plainSettings pairRequest).outcome pairWorld = .ok created ∧
    (∃ slots deposits, created.allotment? = some (slots, deposits) ∧ deposits ≤ slots) ∧
    (createOrder plainSettings (.fill 32 12) (.fill 32 4) bidRequest (.fill 32 1)).outcome
      (World.ofLedger bidLedger) = .ok submission ∧
    submission.targetIndex = 2 ∧ Pool.slotCount bidPool = 3 ∧ ∃ mint, Pool.HasRoom bidPool mint := by
  obtain ⟨created, made, _⟩ := Failure.answered pairRun
  obtain ⟨submission, placed, seen⟩ := mapEqOk.1 bidRun
  have target : submission.targetIndex = 2 := congrArg Prod.snd seen
  obtain ⟨creations, orders⟩ := assetCapacity
  obtain ⟨slots, deposits, allotted, _, fits⟩ := creations _ _ _ _ made
  obtain ⟨pool, data, order, params, address, stored, _, _, _, _, room⟩ := orders _ _ _ _ _ _ _ placed
  have derived := poolAddressOutcome.1 address
  rw [createOfLedger] at derived
  cases Option.some.inj (derived.symm.trans bidAddress)
  cases Option.some.inj (stored.symm.trans bidStored)
  have count : Pool.slotCount bidPool = 3 := by decide +kernel
  refine ⟨created, submission, made, ⟨slots, deposits, allotted, fits.2 (by decide)⟩, placed, target, count,
    params.targetMint, room.1 ?_⟩
  rw [target, count]
  decide

/- Slots for one asset. -/
def tightSettings : Settings := { plainSettings with maxAssets := 1 }

/- The same pool with all its slots held. -/
def fullPool : Bytes :=
  Pool.Header.stored.write (.fill 32 8, .fill 32 4, .fill 32 11, 0x3f, 2, 100, 1600000000, 604800) ++
    Layout.key.writeAll [.fill 32 20, .fill 32 21] ++ Pool.Asset.layout.writeAll [⟨.fill 32 2, 5⟩, ⟨.fill 32 5, 9⟩]

def fullLedger : Ledger :=
  bidLedger.store ⟨Address.hash [(Block.fill 32 4).bytes] (.fill 32 9), .fill 32 9, fullPool, by decide +kernel⟩

theorem tightRun : ((createPool tightSettings pairRequest).outcome pairWorld).toOption.map
    CreatedPool.allotment? = some (some (1, 2)) := by
  decide +kernel

theorem fullRun : ((createOrder plainSettings (.fill 32 12) (.fill 32 4) bidRequest (.fill 32 1)).outcome
    (World.ofLedger fullLedger)).toOption.map OrderSubmission.targetIndex = some 2 := by
  decide +kernel

theorem capacityExceeded :
    (∃ created, (createPool tightSettings pairRequest).outcome pairWorld = .ok created ∧
      created.allotment? = some (1, 2)) ∧
    ∃ submission, (createOrder plainSettings (.fill 32 12) (.fill 32 4) bidRequest (.fill 32 1)).outcome
        (World.ofLedger fullLedger) = .ok submission ∧
      (World.ofLedger fullLedger).account (Address.hash [(Block.fill 32 4).bytes] (.fill 32 9)) = some fullPool ∧
      Pool.slotCount fullPool = 2 ∧ ¬ submission.targetIndex < 2 := by
  obtain ⟨submission, placed, target⟩ := Failure.answered fullRun
  refine ⟨Failure.answered tightRun, submission, placed, by decide +kernel, by decide +kernel, ?_⟩
  rw [target]
  decide

end Workflow
end TradingPool
