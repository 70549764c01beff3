/-! Byte strings, and blocks of a fixed number of bytes. Account keys and pool seeds are blocks of
32 bytes, so a key of any other length cannot be built. -/
namespace TradingPool

abbrev Bytes := List UInt8

structure Block (n : Nat) where
  bytes : Bytes
  lengthBytes : bytes.length = n
  deriving DecidableEq, Repr

abbrev Key := Block 32
abbrev Seed := Block 32

namespace Block

theorem ext {n : Nat} {a b : Block n} (h : a.bytes = b.bytes) : a = b := by
  cases a; cases b; cases h; rfl

def zero (n : Nat) : Block n := ⟨List.replicate n 0, List.length_replicate⟩

def fill (n : Nat) (b : UInt8) : Block n := ⟨List.replicate n b, List.length_replicate⟩

instance {n : Nat} : Inhabited (Block n) := ⟨zero n⟩

def ofBytes? (n : Nat) (s : Bytes) : Option (Block n) :=
  if h : s.length = n then some ⟨s, h⟩ else none

def read (n : Nat) (s : Bytes) : Option (Block n × Bytes) :=
  if h : (s.take n).length = n then some (⟨s.take n, h⟩, s.drop n) else none

theorem readAppend {n : Nat} (a : Block n) (rest : Bytes) :
    read n (a.bytes ++ rest) = some (a, rest) := by
  have front : (a.bytes ++ rest).take n = a.bytes := by simp [← a.lengthBytes]
  have back : (a.bytes ++ rest).drop n = rest := by simp [← a.lengthBytes]
  have h : ((a.bytes ++ rest).take n).length = n := by rw [front, a.lengthBytes]
  simp only [read, dif_pos h, Option.some.injEq, Prod.mk.injEq]
  exact ⟨ext front, back⟩

theorem appendOfRead {n : Nat} {s rest : Bytes} {a : Block n} (h : read n s = some (a, rest)) :
    a.bytes ++ rest = s := by
  unfold read at h
  split at h
  · cases h; exact List.take_append_drop n s
  · cases h

theorem isSomeRead {n : Nat} {s : Bytes} : (read n s).isSome = decide (n ≤ s.length) := by
  have long : (s.take n).length = n ↔ n ≤ s.length := by rw [List.length_take]; omega
  unfold read
  split
  · next h => simp [long.1 h]
  · next h => simp [mt long.2 h]

end Block

end TradingPool
