import TradingPool.LittleEndian
import TradingPool.Failure

/-! Unsigned integers at one of five widths. A value that does not fit is refused, never cut down; a
source that is too short is refused with the length it should have had. -/
namespace TradingPool

inductive Width where
  | u8
  | u16
  | u32
  | u64
  | u128
  deriving DecidableEq, Repr

namespace Width

def size : Width → Nat
  | .u8 => 1
  | .u16 => 2
  | .u32 => 4
  | .u64 => 8
  | .u128 => 16

def max (width : Width) : Nat := LittleEndian.capacity width.size - 1

/-- A value written behind what a buffer holds: the outcome, and the buffer as the write leaves it. -/
def append (buffer : Bytes) (width : Width) (value : Nat) : Except Failure Unit × Bytes :=
  if width.max < value then (.error (.overflow value width.size), buffer)
  else (.ok (), buffer ++ LittleEndian.encode width.size value)

/-- For a caller that gives up with the write when it is refused: the buffer is not looked at again. -/
def extend (buffer : Bytes) (width : Width) (value : Nat) : Except Failure Bytes :=
  let written := append buffer width value
  written.1.map fun () => written.2

def encode (width : Width) (value : Nat) : Except Failure Bytes := extend [] width value

/-- A run of writes, each on the buffer that the one before it leaves, whether that one was refused or
not. -/
def appendAll (buffer : Bytes) : List (Width × Nat) → List (Except Failure Unit × Bytes)
  | [] => []
  | (width, value) :: rest =>
    let written := append buffer width value
    written :: appendAll written.2 rest

def decode (width : Width) (source : Bytes) : Except Failure Nat :=
  if width.size ≤ source.length then .ok (LittleEndian.decode (source.take width.size))
  else .error (.malformedLength width.size source.length)

end Width

def sliceAt (source : Bytes) (offset size : Nat) : Except Failure Bytes :=
  if offset + size ≤ source.length then .ok ((source.drop offset).take size)
  else .error (.malformedLength (offset + size) source.length)

def readNatAt (width : Width) (source : Bytes) (offset : Nat) : Except Failure Nat := do
  width.decode (← sliceAt source offset width.size)

def readU8At (source : Bytes) (offset : Nat) : Except Failure UInt8 :=
  (readNatAt .u8 source offset).map UInt8.ofNat

def readU16At (source : Bytes) (offset : Nat) : Except Failure UInt16 :=
  (readNatAt .u16 source offset).map UInt16.ofNat

def readU64At (source : Bytes) (offset : Nat) : Except Failure UInt64 :=
  (readNatAt .u64 source offset).map UInt64.ofNat

def readKeyAt (source : Bytes) (offset : Nat) : Except Failure Key :=
  if h : offset + 32 ≤ source.length then
    .ok ⟨(source.drop offset).take 32, by rw [List.length_take, List.length_drop]; omega⟩
  else .error (.malformedLength (offset + 32) source.length)

end TradingPool
