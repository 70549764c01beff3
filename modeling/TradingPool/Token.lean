import TradingPool.Layout

/-! Accounts of the token program, of which only the mint, the balance and the supply matter here. An
optional field is a tag and a value: the tag is zero or one, and under zero the value is ignored. -/
namespace TradingPool

structure TokenAccount where
  mint : Key
  owner : Key
  amount : UInt64
  deriving DecidableEq, Repr

namespace TokenAccount

structure Stored where
  mint : Key
  owner : Key
  amount : UInt64
  delegateTag : UInt32
  delegate : Key
  state : UInt8
  nativeTag : UInt32
  nativeReserve : UInt64
  delegatedAmount : UInt64
  closeAuthorityTag : UInt32
  closeAuthority : Key
  deriving DecidableEq, Repr

def stored : Layout Stored :=
  Layout.map
    (.pair .key <| .pair .key <| .pair .u64 <| .pair .u32 <| .pair .key <| .pair .u8 <|
      .pair .u32 <| .pair .u64 <| .pair .u64 <| .pair .u32 .key)
    (fun (mint, owner, amount, delegateTag, delegate, state, nativeTag, reserve, delegated, closeTag,
        close) =>
      ⟨mint, owner, amount, delegateTag, delegate, state, nativeTag, reserve, delegated, closeTag,
        close⟩)
    (fun s => (s.mint, s.owner, s.amount, s.delegateTag, s.delegate, s.state, s.nativeTag,
      s.nativeReserve, s.delegatedAmount, s.closeAuthorityTag, s.closeAuthority))
    (fun _ => rfl) (fun _ => rfl)

def size : Nat := 165

theorem sizeStored : stored.size = size := rfl

/-- In use (state 1) or frozen (state 2), with proper tags. -/
def Stored.isValid (s : Stored) : Bool :=
  (s.state = 1 ∨ s.state = 2) ∧ s.delegateTag ≤ 1 ∧ s.nativeTag ≤ 1 ∧ s.closeAuthorityTag ≤ 1

def unpack? (data : Bytes) : Option TokenAccount := do
  let s ← stored.decode data
  if s.isValid then some ⟨s.mint, s.owner, s.amount⟩ else none

end TokenAccount

structure TokenMint where
  supply : UInt64
  decimals : UInt8
  deriving DecidableEq, Repr

namespace TokenMint

structure Stored where
  authorityTag : UInt32
  authority : Key
  supply : UInt64
  decimals : UInt8
  initialized : UInt8
  freezeAuthorityTag : UInt32
  freezeAuthority : Key
  deriving DecidableEq, Repr

def stored : Layout Stored :=
  Layout.map
    (.pair .u32 <| .pair .key <| .pair .u64 <| .pair .u8 <| .pair .u8 <| .pair .u32 .key)
    (fun (tag, authority, supply, decimals, initialized, freezeTag, freeze) =>
      ⟨tag, authority, supply, decimals, initialized, freezeTag, freeze⟩)
    (fun s => (s.authorityTag, s.authority, s.supply, s.decimals, s.initialized,
      s.freezeAuthorityTag, s.freezeAuthority))
    (fun _ => rfl) (fun _ => rfl)

def size : Nat := 82

theorem sizeStored : stored.size = size := rfl

def Stored.isValid (s : Stored) : Bool :=
  s.initialized = 1 ∧ s.authorityTag ≤ 1 ∧ s.freezeAuthorityTag ≤ 1

def unpack? (data : Bytes) : Option TokenMint := do
  let s ← stored.decode data
  if s.isValid then some ⟨s.supply, s.decimals⟩ else none

end TokenMint

end TradingPool
