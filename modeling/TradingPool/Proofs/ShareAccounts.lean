import TradingPool.Proofs.Assembly

/-! The accounts of a deposit and of a redemption. Both list the pool's accounts for its assets and then the
owner's, slot by slot in the order of the pool account, so that what is put in by one can be drawn by the
other; the pool tokens go through one account of the owner. -/
namespace TradingPool

variable {key : Key} {i : Nat}

namespace Accounts.Deposit

theorem lengthMetas (accounts : Accounts.Deposit) :
    accounts.metas.length = 8 + accounts.poolAssets.length + accounts.sourceAssets.length := by
  simp only [metas, List.length_append, List.length_map, List.length_cons, List.length_nil]
  omega

variable {accounts : Accounts.Deposit}

theorem poolAssetAt (stands : accounts.poolAssets[i]? = some key) :
    accounts.metas[7 + i]? = some (.writing key) := by
  unfold metas
  rw [List.append_assoc (_ ++ _)]
  exact AccountMeta.writingAt [_, _, _, _, _, _, _] _ stands

theorem sourceAssetAt (stands : accounts.sourceAssets[i]? = some key) :
    accounts.metas[8 + accounts.poolAssets.length + i]? = some (.writing key) := by
  have last := AccountMeta.writingAfter [.plain accounts.tokenProgram, .writing accounts.mint,
    .writing accounts.targetPoolToken, .writing accounts.signalProviderPoolToken,
    .writing accounts.feePoolToken, .writing accounts.burnPoolToken, .writing accounts.pool]
    [.signing accounts.sourceOwner] accounts.poolAssets stands
  simp only [List.length_cons, List.length_nil] at last
  unfold metas
  rw [← last]
  congr 1
  omega

end Accounts.Deposit

namespace Accounts.Redeem

theorem lengthMetas (accounts : Accounts.Redeem) :
    accounts.metas.length = 6 + accounts.poolAssets.length + accounts.targetAssets.length := by
  simp only [metas, List.length_append, List.length_map, List.length_cons, List.length_nil]

variable {accounts : Accounts.Redeem}

theorem poolAssetAt (stands : accounts.poolAssets[i]? = some key) :
    accounts.metas[6 + i]? = some (.writing key) :=
  AccountMeta.writingAt [_, _, _, _, _, _] _ stands

theorem targetAssetAt (stands : accounts.targetAssets[i]? = some key) :
    accounts.metas[6 + accounts.poolAssets.length + i]? = some (.writing key) := by
  have last := AccountMeta.writingAfter [.plain accounts.tokenProgram, .plain accounts.clockSysvar,
    .writing accounts.mint, .signing accounts.sourceOwner, .writing accounts.sourcePoolToken,
    .writing accounts.pool] [] accounts.poolAssets stands
  simpa [metas] using last

end Accounts.Redeem

namespace Workflow

open TradingPool.Derivation

variable {world : World} {settings : Settings} {payer sourceOwner other : Key} {seed : Seed} {state : Pool.State}
  {asset : Pool.Asset} {amount returned : UInt64} {deposits redemptions : List Instruction}

theorem assetAccountAt (owner : Key) (stands : state.assets[i]? = some asset) :
    (state.mints.map (settings.tokenAccount owner))[i]? = some (settings.tokenAccount owner asset.mint) := by
  simp [Pool.State.mints, stands]

theorem lengthAssetAccounts (settings : Settings) (state : Pool.State) (owner : Key) :
    (state.mints.map (settings.tokenAccount owner)).length = state.assets.length := by
  rw [List.length_map, Pool.State.lengthMints]

theorem lengthDeposit (settings : Settings) (pool mint : Key) (state : Pool.State) (sourceOwner : Key) :
    (depositAccounts settings pool mint state sourceOwner).metas.length = 8 + 2 * state.assets.length := by
  rw [Accounts.Deposit.lengthMetas]
  change 8 + (state.mints.map (settings.tokenAccount pool)).length +
    (state.mints.map (settings.tokenAccount sourceOwner)).length = _
  rw [lengthAssetAccounts, lengthAssetAccounts]
  omega

theorem lengthRedemption (settings : Settings) (pool mint : Key) (state : Pool.State) (sourceOwner : Key) :
    (redeemAccounts settings pool mint state sourceOwner).metas.length = 6 + 2 * state.assets.length := by
  rw [Accounts.Redeem.lengthMetas]
  change 6 + (state.mints.map (settings.tokenAccount pool)).length +
    (state.mints.map (settings.tokenAccount sourceOwner)).length = _
  rw [lengthAssetAccounts, lengthAssetAccounts]
  omega

/-- The account of every asset stands at `first` and after in the order of the pool, once for the pool and
once for the owner. -/
structure AssetAccounts (settings : Settings) (pool owner : Key) (assets : List Pool.Asset)
    (accounts : List AccountMeta) (poolFirst ownerFirst : Nat) : Prop where
  pool : ∀ i asset, assets[i]? = some asset →
    accounts[poolFirst + i]? = some (.writing (settings.tokenAccount pool asset.mint))
  owner : ∀ i asset, assets[i]? = some asset →
    accounts[ownerFirst + i]? = some (.writing (settings.tokenAccount owner asset.mint))

theorem depositListed (settings : Settings) (pool mint : Key) (state : Pool.State) (sourceOwner : Key) :
    AssetAccounts settings pool sourceOwner state.assets
      (depositAccounts settings pool mint state sourceOwner).metas 7 (8 + state.assets.length) where
  pool i asset stands := Accounts.Deposit.poolAssetAt (assetAccountAt pool stands)
  owner i asset stands := by
    rw [← lengthAssetAccounts settings state pool]
    exact Accounts.Deposit.sourceAssetAt (assetAccountAt sourceOwner stands)

theorem redemptionListed (settings : Settings) (pool mint : Key) (state : Pool.State) (sourceOwner : Key) :
    AssetAccounts settings pool sourceOwner state.assets
      (redeemAccounts settings pool mint state sourceOwner).metas 6 (6 + state.assets.length) where
  pool i asset stands := Accounts.Redeem.poolAssetAt (assetAccountAt pool stands)
  owner i asset stands := by
    rw [← lengthAssetAccounts settings state pool]
    exact Accounts.Redeem.targetAssetAt (assetAccountAt sourceOwner stands)

theorem investorDeposits :
    ((deposit plainSettings (.fill 32 12) (.fill 32 14) (.fill 32 10) 5).outcome
      (World.ofLedger investedLedger)).toOption.map List.length = some 2 := by
  decide +kernel

theorem investedSlots :
    Pool.accountSlots investedPool = [⟨.fill 32 2, 5⟩, ⟨.zero 32, 77⟩, ⟨.fill 32 5, 9⟩] := by
  decide +kernel

end Workflow
end TradingPool
