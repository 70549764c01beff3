import TradingPool.Base58

/-! Keys of the programs and system accounts that instructions name, with the text of each. -/
namespace TradingPool.Programs

def system : Key := .zero 32

example : system.text = "11111111111111111111111111111111" := by decide +kernel

def rentSysvar : Key :=
  ⟨[0x06, 0xa7, 0xd5, 0x17, 0x19, 0x2c, 0x5c, 0x51, 0x21, 0x8c, 0xc9, 0x4c, 0x3d, 0x4a, 0xf1, 0x7f,
    0x58, 0xda, 0xee, 0x08, 0x9b, 0xa1, 0xfd, 0x44, 0xe3, 0xdb, 0xd9, 0x8a, 0x00, 0x00, 0x00, 0x00],
    rfl⟩

example : rentSysvar.text = "SysvarRent111111111111111111111111111111111" := by decide +kernel

def clockSysvar : Key :=
  ⟨[0x06, 0xa7, 0xd5, 0x17, 0x18, 0xc7, 0x74, 0xc9, 0x28, 0x56, 0x63, 0x98, 0x69, 0x1d, 0x5e, 0xb6,
    0x8b, 0x5e, 0xb8, 0xa3, 0x9b, 0x4b, 0x6d, 0x5c, 0x73, 0x55, 0x5b, 0x21, 0x00, 0x00, 0x00, 0x00],
    rfl⟩

example : clockSysvar.text = "SysvarC1ock11111111111111111111111111111111" := by decide +kernel

def token : Key :=
  ⟨[0x06, 0xdd, 0xf6, 0xe1, 0xd7, 0x65, 0xa1, 0x93, 0xd9, 0xcb, 0xe1, 0x46, 0xce, 0xeb, 0x79, 0xac,
    0x1c, 0xb4, 0x85, 0xed, 0x5f, 0x5b, 0x37, 0x91, 0x3a, 0x8c, 0xf5, 0x85, 0x7e, 0xff, 0x00, 0xa9],
    rfl⟩

example : token.text = "TokenkegQfeZyiNwAJbNbGKPFXCWuBvf9Ss623VQ5DA" := by decide +kernel

def associatedToken : Key :=
  ⟨[0x8c, 0x97, 0x25, 0x8f, 0x4e, 0x24, 0x89, 0xf1, 0xbb, 0x3d, 0x10, 0x29, 0x14, 0x8e, 0x0d, 0x83,
    0x0b, 0x5a, 0x13, 0x99, 0xda, 0xff, 0x10, 0x84, 0x04, 0x8e, 0x7b, 0xd8, 0xdb, 0xe9, 0xf8, 0x59],
    rfl⟩

example : associatedToken.text = "ATokenGPvbdGVxr1b2hvZbsiqW5xWH25efTNsLJA8knL" := by decide +kernel

end TradingPool.Programs
