import TradingPool.Programs
import TradingPool.Layout

/-! Instructions: a program, the accounts it is given in order, and a payload. -/
namespace TradingPool

structure AccountMeta where
  key : Key
  signer : Bool
  writable : Bool
  deriving DecidableEq, Repr

namespace AccountMeta

def plain (key : Key) : AccountMeta := ⟨key, false, false⟩
def signing (key : Key) : AccountMeta := ⟨key, true, false⟩
def writing (key : Key) : AccountMeta := ⟨key, false, true⟩
def paying (key : Key) : AccountMeta := ⟨key, true, true⟩

end AccountMeta

structure Instruction where
  program : Key
  accounts : List AccountMeta
  data : Bytes
  deriving DecidableEq, Repr

namespace Instruction

def createTokenAccount (tokenProgram payer address owner mint : Key) : Instruction where
  program := Programs.associatedToken
  accounts := [.paying payer, .writing address, .plain owner, .plain mint, .plain Programs.system,
    .plain tokenProgram]
  data := [0]

def createAccount (payer account : Key) (balance space : UInt64) (owner : Key) : Instruction where
  program := Programs.system
  accounts := [.paying payer, .paying account]
  data := (Layout.u32.pair <| .pair .u64 <| .pair .u64 .key).write (0, balance, space, owner)

end Instruction

end TradingPool
