import TradingPool.Command.Roster
import TradingPool.Proofs.Offsets

/-! Payloads and their fields. Every payload is read back as the fields it was written from, no other
payload is read as the same fields, and no payload belongs to two commands. Only `Create` can fail to be
written, and what it accepts is a matter of the market count and of the length alone. -/
namespace TradingPool
namespace Params.Create

theorem fixedAt {s lists : Bytes} {seed : Seed} {venueProgram signalProvider : Key} {count : UInt16}
    {period ratio : UInt64}
    (h : fixed.read s = some ((seed, venueProgram, signalProvider, count, period, ratio), lists)) :
    lists = s.drop fixedSize ∧ LittleEndian.decodeAt 2 96 s = count.toNat := by
  have rest := fixed.readRest h
  obtain ⟨_, h⟩ := (Layout.pairRead _ _).1 h
  obtain ⟨_, h⟩ := (Layout.pairRead _ _).1 h
  obtain ⟨_, h⟩ := (Layout.pairRead _ _).1 h
  obtain ⟨number, _⟩ := (Layout.pairRead _ _).1 h
  have value := Layout.decodeU16 number
  simp only [List.drop_drop] at value
  exact ⟨rest, value⟩

theorem packEqOk {s : Bytes} {p : Create} :
    p.pack = .ok s ↔ p.markets.length ≤ 65535 ∧
      fixed.write (p.seed, p.venueProgram, p.signalProvider, UInt16.ofNat p.markets.length,
        p.feeCollectionPeriod, p.feeRatio) ++
      (Layout.key.writeAll p.markets ++ Layout.u64.writeAll p.depositAmounts) = s := by
  unfold pack
  split
  · rename_i many
    exact ⟨nofun, fun h => absurd h.1 (by omega)⟩
  · rename_i fits
    simp only [List.append_assoc, Except.ok.injEq]
    exact ⟨fun h => ⟨by omega, h⟩, fun h => h.2⟩

theorem fixedReadAt {s : Bytes} {p : Create} {count : UInt16} :
    fixed.read s = some ((p.seed, p.venueProgram, p.signalProvider, count, p.feeCollectionPeriod, p.feeRatio),
        s.drop fixedSize) ↔
      readKeyAt s 0 = .ok p.seed ∧ readKeyAt s 32 = .ok p.venueProgram ∧
        readKeyAt s 64 = .ok p.signalProvider ∧ readU16At s 96 = .ok count ∧
        readU64At s 98 = .ok p.feeCollectionPeriod ∧ readU64At s 106 = .ok p.feeRatio := by
  unfold fixed
  simp only [Layout.pairRead, keyReadAt, u16ReadAt, u64ReadAt, List.drop_drop, List.drop_zero, Nat.zero_add]
  exact Iff.rfl

/- By offset or field after field, the fixed part is the same. -/
theorem unpackSource {s : Bytes} {p : Create} :
    unpack s = .ok p ↔ ∃ count amounts tail,
      fixed.read s = some ((p.seed, p.venueProgram, p.signalProvider, count, p.feeCollectionPeriod,
        p.feeRatio), s.drop fixedSize) ∧
      Layout.key.readAll count.toNat (s.drop fixedSize) = some (p.markets, amounts) ∧
      amounts.length % 8 = 0 ∧
      Layout.u64.readAll (amounts.length / 8) amounts = some (p.depositAmounts, tail) := by
  refine ⟨fun h => ?_, fun h => ?_⟩
  · unfold unpack at h
    split at h
    · contradiction
    obtain ⟨seed, first, h⟩ := bindEqOk.1 h
    obtain ⟨count, number, h⟩ := bindEqOk.1 h
    split at h
    · contradiction
    rename_i markets amounts taken
    split at h
    · rename_i whole
      split at h
      · rename_i depositAmounts tail given
        obtain ⟨venueProgram, second, h⟩ := bindEqOk.1 h
        obtain ⟨signalProvider, third, h⟩ := bindEqOk.1 h
        obtain ⟨period, fourth, h⟩ := bindEqOk.1 h
        obtain ⟨ratio, fifth, h⟩ := bindEqOk.1 h
        cases h
        exact ⟨count, amounts, tail, fixedReadAt.2 ⟨first, second, third, number, fourth, fifth⟩, taken, whole,
          given⟩
      · contradiction
    · contradiction
  · obtain ⟨count, amounts, tail, front, taken, whole, given⟩ := h
    have long : ¬ s.length < fixedSize := by
      have len := fixed.sizeOfRead front
      rw [sizeFixed] at len
      omega
    obtain ⟨first, second, third, number, fourth, fifth⟩ := fixedReadAt.1 front
    unfold unpack
    rw [if_neg long]
    refine bindEqOk.2 ⟨_, first, bindEqOk.2 ⟨_, number, ?_⟩⟩
    simp only [taken, if_pos whole, given]
    exact bindEqOk.2 ⟨_, second, bindEqOk.2 ⟨_, third, bindEqOk.2 ⟨_, fourth, bindEqOk.2 ⟨_, fifth, rfl⟩⟩⟩⟩

theorem packOfUnpack {s : Bytes} {p : Create} (h : unpack s = .ok p) : p.pack = .ok s := by
  obtain ⟨count, amounts, tail, front, taken, whole, given⟩ := unpackSource.1 h
  obtain ⟨number, marketBytes⟩ := Layout.key.writeAllOfReadAll taken
  obtain ⟨_, amountBytes⟩ := Layout.u64.writeAllOfReadAll given
  have left : amounts.length / 8 * 8 + tail.length = amounts.length := (Layout.u64.readAllRest given).1
  have empty : tail = [] := List.eq_nil_of_length_eq_zero (by omega)
  have fits : p.markets.length ≤ 65535 := by
    have small := count.toNat_lt
    omega
  have same : UInt16.ofNat p.markets.length = count := by rw [number, UInt16.ofNat_toNat]
  rw [empty, List.append_nil] at amountBytes
  refine packEqOk.2 ⟨fits, ?_⟩
  rw [same, amountBytes, marketBytes, fixed.writeOfRead _ _ _ front]

theorem unpackOfPack {s : Bytes} {p : Create} (h : p.pack = .ok s) : unpack s = .ok p := by
  obtain ⟨fits, bytes⟩ := packEqOk.1 h
  have count : (UInt16.ofNat p.markets.length).toNat = p.markets.length := by
    rw [UInt16.toNat_ofNat']
    omega
  have front := (Layout.readEqSome _).2 bytes
  have rest := fixed.readRest front
  have taken := Layout.key.readAllWriteAll p.markets (Layout.u64.writeAll p.depositAmounts)
  have len : (Layout.u64.writeAll p.depositAmounts).length = p.depositAmounts.length * 8 :=
    Layout.u64.lengthWriteAll _
  have number : (Layout.u64.writeAll p.depositAmounts).length / 8 = p.depositAmounts.length := by omega
  have given := Layout.u64.readAllWriteAll p.depositAmounts []
  rw [List.append_nil, ← number] at given
  rw [rest] at front taken
  rw [← count] at taken
  exact unpackSource.2 ⟨_, _, _, front, taken, by omega, given⟩

theorem unpackEqOk {s : Bytes} {p : Create} : unpack s = .ok p ↔ p.pack = .ok s :=
  ⟨packOfUnpack, unpackOfPack⟩

theorem coversFixed : fixed.Covers :=
  Layout.coversPair Layout.coversKey <| Layout.coversPair Layout.coversKey <|
    Layout.coversPair Layout.coversKey <| Layout.coversPair Layout.coversU16 <|
    Layout.coversPair Layout.coversU64 Layout.coversU64

/- The market count stands at offset 96. The markets must be there in full, and what follows them must be
whole amounts. -/
theorem unpackAccepts (s : Bytes) :
    (∃ p, unpack s = .ok p) ↔
      fixedSize + 32 * LittleEndian.decodeAt 2 96 s ≤ s.length ∧
        (s.length - (fixedSize + 32 * LittleEndian.decodeAt 2 96 s)) % 8 = 0 := by
  constructor
  · intro h
    obtain ⟨p, h⟩ := h
    obtain ⟨fits, bytes⟩ := packEqOk.1 (packOfUnpack h)
    have count := (fixedAt ((Layout.readEqSome _).2 bytes)).2
    have len := congrArg List.length bytes
    have marketLength : (Layout.key.writeAll p.markets).length = p.markets.length * 32 :=
      Layout.key.lengthWriteAll _
    have amountLength : (Layout.u64.writeAll p.depositAmounts).length = p.depositAmounts.length * 8 :=
      Layout.u64.lengthWriteAll _
    rw [UInt16.toNat_ofNat'] at count
    simp only [List.length_append, fixed.lengthWrite, sizeFixed, marketLength, amountLength] at len
    omega
  · intro h
    obtain ⟨long, whole⟩ := h
    obtain ⟨⟨seed, venueProgram, signalProvider, count, period, ratio⟩, front⟩ :=
      Layout.coveredRead (s := s) coversFixed (by rw [sizeFixed]; omega)
    rw [(fixedAt front).2] at long whole
    have lists : (s.drop fixed.size).length = s.length - fixedSize := by rw [List.length_drop, sizeFixed]
    obtain ⟨markets, amounts, taken⟩ := Layout.coveredReadAll Layout.coversKey
      (show count.toNat * 32 ≤ (s.drop fixed.size).length by omega)
    have left : count.toNat * 32 + amounts.length = (s.drop fixed.size).length :=
      (Layout.key.readAllRest taken).1
    have divides : amounts.length % 8 = 0 := by omega
    obtain ⟨depositAmounts, tail, given⟩ := Layout.coveredReadAll Layout.coversU64
      (show amounts.length / 8 * 8 ≤ amounts.length by omega)
    exact ⟨⟨seed, venueProgram, signalProvider, period, ratio, markets, depositAmounts⟩,
      unpackSource.2 ⟨count, amounts, tail, front, taken, divides, given⟩⟩

end Params.Create

namespace Command

theorem splitEqOk {data fields : Bytes} {c : Command} :
    split data = .ok (c, fields) ↔ data = c.tag :: fields := by
  constructor
  · intro h
    unfold split at h
    split at h
    · contradiction
    · split at h
      · rename_i tag rest found known
        cases h
        rw [tagOfOfTag known]
      · contradiction
  · intro same
    subst same
    simp only [split, ofTagTag]

theorem fieldsEqOk {c : Command} {data fields : Bytes} :
    c.fields data = .ok fields ↔ data = c.tag :: fields := by
  unfold Command.fields
  split
  · rename_i found rest parted
    have bytes := splitEqOk.1 parted
    split
    · rename_i same
      subst same
      rw [bytes, List.cons.injEq, Except.ok.injEq]
      exact ⟨fun h => ⟨rfl, h⟩, fun h => h.2⟩
    · rename_i different
      refine ⟨nofun, fun h => absurd ?_ different⟩
      have both := parted.symm.trans (splitEqOk.2 h)
      cases both
      rfl
  · rename_i fault refused
    refine ⟨nofun, fun h => ?_⟩
    rw [splitEqOk.2 h] at refused
    contradiction

theorem decodeFieldsEqOk {α : Type} {layout : Layout α} {s : Bytes} {p : α} :
    decodeFields layout s = .ok p ↔ layout.write p = s := by
  rw [← layout.decodeEqSome]
  unfold decodeFields
  split
  · rename_i found
    rw [found, Except.ok.injEq, Option.some.injEq]
  · rename_i missing
    rw [missing]
    exact ⟨nofun, nofun⟩

theorem unpackFieldsEqOk {c : Command} {s : Bytes} {p : c.Params} :
    c.unpackFields s = .ok p ↔ c.packFields p = .ok s := by
  cases c
  case create => exact Params.Create.unpackEqOk
  all_goals exact decodeFieldsEqOk.trans (Except.ok.injEq _ _ ▸ Iff.rfl)

theorem packEqOk {c : Command} {p : c.Params} {data : Bytes} :
    c.pack p = .ok data ↔ ∃ fields, c.packFields p = .ok fields ∧ data = c.tag :: fields := by
  unfold pack
  rw [bindEqOk]
  refine exists_congr fun fields => and_congr_right fun _ => ?_
  exact ⟨fun h => (Except.ok.inj h).symm, fun h => congrArg Except.ok h.symm⟩

theorem unpackOfFields (c : Command) (data : Bytes) :
    c.unpack data =
      match c.fields data with
      | .ok fields => c.unpackFields fields
      | .error fault => .error fault.failure := by
  unfold unpack
  cases c.fields data with
  | error fault => rfl
  | ok fields => rfl

theorem unpackEqOk {c : Command} {data : Bytes} {p : c.Params} :
    c.unpack data = .ok p ↔ c.pack p = .ok data := by
  rw [packEqOk, unpackOfFields]
  constructor
  · intro h
    split at h
    · rename_i fields parted
      exact ⟨fields, unpackFieldsEqOk.1 h, fieldsEqOk.1 parted⟩
    · contradiction
  · intro h
    obtain ⟨fields, packed, bytes⟩ := h
    rw [fieldsEqOk.2 bytes]
    exact unpackFieldsEqOk.2 packed

theorem unpackTag {c : Command} {data : Bytes} {p : c.Params} (h : c.unpack data = .ok p) :
    ∃ fields, data = c.tag :: fields ∧ c.unpackFields fields = .ok p := by
  obtain ⟨fields, packed, bytes⟩ := packEqOk.1 (unpackEqOk.1 h)
  exact ⟨fields, bytes, unpackFieldsEqOk.2 packed⟩

theorem tagInjective {c other : Command} (h : c.tag = other.tag) : c = other := by
  have same := congrArg ofTag? h
  rw [ofTagTag, ofTagTag] at same
  exact Option.some.inj same

theorem packFieldsEqError {c : Command} {p : c.Params} {failure : Failure} :
    c.packFields p = .error failure ↔
      ∃ q : Params.Create, (⟨c, p⟩ : (c : Command) × c.Params) = ⟨.create, q⟩ ∧
        65535 < q.markets.length ∧ failure = .overflow q.markets.length 2 := by
  cases c
  case create =>
    change Params.Create.pack p = .error failure ↔ _
    unfold Params.Create.pack
    constructor
    · intro h
      split at h
      · rename_i many
        cases h
        exact ⟨p, rfl, many, rfl⟩
      · contradiction
    · intro h
      obtain ⟨q, same, many, rfl⟩ := h
      cases same
      rw [if_pos many]
  all_goals
    refine ⟨nofun, fun h => ?_⟩
    obtain ⟨q, same, _⟩ := h
    cases same

theorem packEqError {c : Command} {p : c.Params} {failure : Failure} :
    c.pack p = .error failure ↔ c.packFields p = .error failure := by
  unfold pack
  cases h : c.packFields p with
  | error other => rfl
  | ok fields => exact ⟨nofun, nofun⟩

/- The data of an instruction is taken for what it is read as, not for what was put in. -/
theorem buildEqOk {c : Command} {program : Key} {accounts : c.Accounts} {params : c.Params}
    {instruction : Instruction} :
    c.build program accounts params = .ok instruction ↔
      instruction.program = program ∧ instruction.accounts = c.metas accounts ∧
        c.unpack instruction.data = .ok params := by
  unfold build
  rw [unpackEqOk, bindEqOk]
  refine ⟨fun h => ?_, fun h => ?_⟩
  · obtain ⟨data, packed, h⟩ := h
    cases h
    exact ⟨rfl, rfl, packed⟩
  · obtain ⟨rfl, metas, packed⟩ := h
    exact ⟨instruction.data, packed, by rw [← metas]; rfl⟩

theorem payloadCodec :
    (∀ (c : Command) (p : c.Params) (data : Bytes), c.pack p = .ok data → c.unpack data = .ok p) ∧
    (∀ (c : Command) (p : c.Params) (failure : Failure), c.pack p = .error failure ↔
      ∃ q : Params.Create, (⟨c, p⟩ : (c : Command) × c.Params) = ⟨.create, q⟩ ∧
        65535 < q.markets.length ∧ failure = .overflow q.markets.length 2) ∧
    (∀ (c : Command) (data : Bytes) (p : c.Params), c.unpack data = .ok p → c.pack p = .ok data) ∧
    (∀ (c : Command) (data other : Bytes) (p : c.Params),
      c.unpack data = .ok p → c.unpack other = .ok p → data = other) ∧
    (∀ (c other : Command) (data : Bytes) (p : c.Params) (q : other.Params),
      c.unpack data = .ok p → other.unpack data = .ok q → c = other) ∧
    (∀ data : Bytes, (∃ p, create.unpack data = .ok p) ↔
      ∃ fields, data = create.tag :: fields ∧
        114 + 32 * LittleEndian.decodeAt 2 96 fields ≤ fields.length ∧
        8 ∣ fields.length - (114 + 32 * LittleEndian.decodeAt 2 96 fields)) := by
  refine ⟨fun c p data => unpackEqOk.2, fun c p failure => packEqError.trans packFieldsEqError,
    fun c data p => unpackEqOk.1, ?_, ?_, ?_⟩
  · intro c data other p left right
    have same := (unpackEqOk.1 left).symm.trans (unpackEqOk.1 right)
    exact Except.ok.inj same
  · intro c other data p q left right
    obtain ⟨_, bytes, _⟩ := unpackTag left
    obtain ⟨_, same, _⟩ := unpackTag right
    rw [bytes, List.cons.injEq] at same
    exact tagInjective same.1
  · intro data
    constructor
    · intro h
      obtain ⟨p, h⟩ := h
      obtain ⟨fields, bytes, read⟩ := unpackTag h
      obtain ⟨long, whole⟩ := (Params.Create.unpackAccepts fields).1 ⟨p, read⟩
      exact ⟨fields, bytes, long, Nat.dvd_of_mod_eq_zero whole⟩
    · intro h
      obtain ⟨fields, bytes, long, whole⟩ := h
      obtain ⟨p, read⟩ := (Params.Create.unpackAccepts fields).2 ⟨long, Nat.mod_eq_zero_of_dvd whole⟩
      refine ⟨p, unpackEqOk.2 (packEqOk.2 ⟨fields, ?_, bytes⟩)⟩
      exact unpackFieldsEqOk.1 read

def twoMarkets : Params.Create where
  seed := .zero 32
  venueProgram := Programs.system
  signalProvider := Programs.token
  feeCollectionPeriod := 604800
  feeRatio := 258
  markets := [Programs.token, Programs.associatedToken]
  depositAmounts := [1000, 18446744073709551615, 0]

theorem payloadCodecTwoMarkets :
    ∃ data, create.pack twoMarkets = .ok data ∧ create.unpack data = .ok twoMarkets ∧
      (∀ other q, other.unpack data = .ok q → create = other) ∧ data.length = 203 := by
  have packed : create.pack twoMarkets = .ok _ := rfl
  have read := payloadCodec.1 create twoMarkets _ packed
  exact ⟨_, packed, read, fun other q => payloadCodec.2.2.2.2.1 create other _ twoMarkets q read, rfl⟩

end Command
end TradingPool
