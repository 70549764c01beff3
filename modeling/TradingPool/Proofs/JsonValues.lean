import Mathlib.Data.List.TakeWhile
import TradingPool.Json.Text
import TradingPool.Proofs.JsonTokens

/-! Values as text. The reader takes the tokens of a value off the front of what is left and goes on with the value in
hand, whatever is open around it. So every value is read back from its text, with blanks wherever tokens meet. -/
namespace TradingPool.Json

namespace Reader

variable {frames : List Frame} {rest : List Token}

theorem stepOn {reader next : Reader} {token : Token} (step : reader.step? token = some next) :
    (token :: rest).foldlM step? reader = rest.foldlM step? next := by
  rw [List.foldlM_cons, step]
  rfl

/- No value begins with the end of an array, so behind its beginning an item is read like any other value. -/
theorem readFirst (frames : List Frame) (rest : List Token) (value : Value) :
    (value.tokens ++ rest).foldlM step? (.reading .valueOrEnd (.array [] :: frames)) =
      (value.tokens ++ rest).foldlM step? (.reading .value (.array [] :: frames)) := by
  have same {token : Token} {more : List Token} (item : token ≠ .closeArray) :
      (token :: more).foldlM step? (.reading .valueOrEnd (.array [] :: frames)) =
        (token :: more).foldlM step? (.reading .value (.array [] :: frames)) := by
    have goesOn : end? (.array [] :: frames) token = none := by
      cases token <;> first | rfl | exact absurd rfl item
    rw [List.foldlM_cons, List.foldlM_cons, step?, step?, goesOn]
    rfl
  cases value <;> exact same nofun

theorem firstItem (item : Value) (items : List Value) :
    ∃ more, Value.itemTokens (item :: items) = item.tokens ++ more := by
  cases items with
  | nil => exact ⟨[], (List.append_nil _).symm⟩
  | cons next items => exact ⟨_, rfl⟩

theorem firstMember (name : List Char) (value : Value) (members : List (List Char × Value)) : ∃ more,
    Value.memberTokens ((name, value) :: members) = .string name :: .colon :: more := by
  cases members with
  | nil => exact ⟨_, rfl⟩
  | cons next members => exact ⟨_, rfl⟩

theorem readName {expect : Expect} (begins : expect = .name ∨ expect = .nameOrEnd)
    (read : List (List Char × Value)) (last name : List Char) :
    (.string name :: .colon :: rest).foldlM step? (.reading expect (.object read last :: frames)) =
      rest.foldlM step? (.reading .value (.object read name :: frames)) := by
  have named : step? (.reading expect (.object read last :: frames)) (.string name) =
      some (.reading .colon (.object read name :: frames)) := by
    rcases begins with rfl | rfl <;> rfl
  have turns : step? (.reading .colon (.object read name :: frames)) .colon =
      some (.reading .value (.object read name :: frames)) := rfl
  rw [stepOn named, stepOn turns]

mutual

theorem readValue (frames : List Frame) (rest : List Token) : (value : Value) →
    (value.tokens ++ rest).foldlM step? (.reading .value frames) = rest.foldlM step? (close value frames)
  | .null => stepOn rfl
  | .bool _ => stepOn rfl
  | .number _ => stepOn rfl
  | .string _ => stepOn rfl
  | .array [] => (stepOn rfl).trans (stepOn rfl)
  | .array (item :: items) => by
    obtain ⟨more, front⟩ := firstItem item items
    have begins : step? (.reading .value frames) .openArray = some (.reading .valueOrEnd (.array [] :: frames)) := rfl
    have items := readItems frames rest [] (item :: items) nofun
    rw [front, List.append_assoc, ← readFirst, ← List.append_assoc, ← front] at items
    rw [Value.tokens, List.append_assoc, List.cons_append, stepOn begins]
    exact items
  | .object [] => (stepOn rfl).trans (stepOn rfl)
  | .object ((name, value) :: members) => by
    obtain ⟨more, front⟩ := firstMember name value members
    have begins : step? (.reading .value frames) .openObject = some (.reading .nameOrEnd (.object [] [] :: frames)) :=
      rfl
    have members := readMembers frames rest [] [] ((name, value) :: members) nofun
    rw [front, List.cons_append, List.cons_append, readName (.inl rfl)] at members
    rw [Value.tokens, List.append_assoc, List.cons_append, stepOn begins, front, List.cons_append, List.cons_append,
      readName (.inr rfl)]
    exact members

theorem readItems (frames : List Frame) (rest : List Token) (read : List Value) :
    (items : List Value) → items ≠ [] →
    (Value.itemTokens items ++ .closeArray :: rest).foldlM step? (.reading .value (.array read :: frames)) =
      rest.foldlM step? (close (.array (read.reverse ++ items)) frames)
  | [], full => absurd rfl full
  | [item], _ => by
    have ends : step? (close item (.array read :: frames)) .closeArray =
        some (close (.array (item :: read).reverse) frames) := rfl
    rw [Value.itemTokens, readValue (.array read :: frames) _ item, stepOn ends, List.reverse_cons]
  | item :: next :: items, _ => by
    have goesOn : step? (close item (.array read :: frames)) .comma =
        some (.reading .value (.array (item :: read) :: frames)) := rfl
    rw [Value.itemTokens, List.append_assoc, readValue (.array read :: frames) _ item, List.cons_append,
      stepOn goesOn, readItems frames rest (item :: read) (next :: items) nofun, List.reverse_cons, List.append_assoc]
    · rfl
    · nofun

theorem readMembers (frames : List Frame) (rest : List Token) (read : List (List Char × Value)) (last : List Char) :
    (members : List (List Char × Value)) → members ≠ [] →
    (Value.memberTokens members ++ .closeObject :: rest).foldlM step? (.reading .name (.object read last :: frames)) =
      rest.foldlM step? (close (.object (read.reverse ++ members)) frames)
  | [], full => absurd rfl full
  | [(name, value)], _ => by
    have ends : step? (close value (.object read name :: frames)) .closeObject =
        some (close (.object ((name, value) :: read).reverse) frames) := rfl
    rw [Value.memberTokens, List.cons_append, List.cons_append, readName (.inl rfl),
      readValue (.object read name :: frames) _ value, stepOn ends, List.reverse_cons]
  | (name, value) :: next :: members, _ => by
    have goesOn : step? (close value (.object read name :: frames)) .comma =
        some (.reading .name (.object ((name, value) :: read) name :: frames)) := rfl
    rw [Value.memberTokens, List.append_assoc, List.cons_append, List.cons_append, readName (.inl rfl),
      readValue (.object read name :: frames) _ value, List.cons_append, stepOn goesOn,
      readMembers frames rest ((name, value) :: read) name (next :: members) nofun, List.reverse_cons,
      List.append_assoc]
    · rfl
    · nofun

end

end Reader

namespace Token

variable {first second : List Token} {separator : Token}

theorem apartOf (closed : separator.isOpen = false) (token : Token) :
    Apart token separator ∧ Apart separator token := by
  simp [Apart, closed]

theorem chainCons (closed : separator.isOpen = false) (chain : second.IsChain Apart) :
    (separator :: second).IsChain Apart :=
  List.isChain_cons.2 ⟨fun token _ => (apartOf closed token).2, chain⟩

theorem chainJoin (closed : separator.isOpen = false) (before : first.IsChain Apart) (behind : second.IsChain Apart) :
    (first ++ separator :: second).IsChain Apart := by
  refine List.isChain_append.2 ⟨before, chainCons closed behind, fun token _ other stands => ?_⟩
  cases stands
  exact (apartOf closed token).1

end Token

namespace Value

/- Between two numbers or words there is always a token of another kind. -/
mutual

theorem tokensApart : (value : Value) → value.tokens.IsChain Token.Apart
  | .null | .bool _ | .number _ | .string _ => .singleton _
  | .array items => Token.chainJoin rfl (Token.chainCons rfl (itemsApart items)) .nil
  | .object members => Token.chainJoin rfl (Token.chainCons rfl (membersApart members)) .nil

theorem itemsApart : (items : List Value) → (itemTokens items).IsChain Token.Apart
  | [] => .nil
  | [item] => tokensApart item
  | item :: next :: items => Token.chainJoin rfl (tokensApart item) (itemsApart (next :: items))

theorem membersApart : (members : List (List Char × Value)) → (memberTokens members).IsChain Token.Apart
  | [] => .nil
  | [(_, value)] => Token.chainCons rfl (Token.chainCons rfl (tokensApart value))
  | (_, value) :: next :: members =>
    Token.chainJoin rfl (Token.chainCons rfl (Token.chainCons rfl (tokensApart value)))
      (membersApart (next :: members))

end

theorem membersFormed {members : List (List Char × Value)}
    (formed : ∀ member ∈ members, Body member.1 ∧ ∀ token ∈ member.2.tokens, token.WellFormed) :
    ∀ token ∈ memberTokens members, token.WellFormed := by
  have named {name : List Char} {value : Value} (h : Body name ∧ ∀ token ∈ value.tokens, token.WellFormed) :
      ∀ token ∈ .string name :: .colon :: value.tokens, token.WellFormed :=
    List.forall_mem_cons.2 ⟨h.1, List.forall_mem_cons.2 ⟨trivial, h.2⟩⟩
  induction members with
  | nil => nofun
  | cons member members ih =>
    obtain ⟨first, others⟩ := List.forall_mem_cons.1 formed
    cases members with
    | nil => exact named first
    | cons next members =>
      exact List.forall_mem_append.2 ⟨named first, List.forall_mem_cons.2 ⟨trivial, ih others⟩⟩

theorem objectFormed {members : List (List Char × Value)}
    (formed : ∀ member ∈ members, Body member.1 ∧ ∀ token ∈ member.2.tokens, token.WellFormed) :
    ∀ token ∈ (object members).tokens, token.WellFormed :=
  List.forall_mem_append.2
    ⟨List.forall_mem_cons.2 ⟨trivial, membersFormed formed⟩, List.forall_mem_singleton.2 trivial⟩

theorem ofTokensTokens (value : Value) : ofTokens? value.tokens = some value := by
  have read := Reader.readValue [] [] value
  rw [List.append_nil] at read
  rw [ofTokens?, read]
  rfl

theorem ofSpelled {value : Value} {s : List Char} (spelled : Spelled value.tokens s)
    (formed : ∀ token ∈ value.tokens, token.WellFormed) : ofChars? s = some value := by
  rw [ofChars?, tokensSpelled spelled formed (tokensApart value)]
  exact ofTokensTokens value

end Value

/-- A character that stands for itself in a string. -/
def Plain (c : Char) : Prop := c ≠ '"' ∧ c ≠ '\\' ∧ ¬ c < ' '

instance : DecidablePred Plain := fun c => inferInstanceAs (Decidable (c ≠ '"' ∧ c ≠ '\\' ∧ ¬ c < ' '))

theorem bodyPlain {s : List Char} (plain : ∀ c ∈ s, Plain c) : Body s := by
  induction s with
  | nil => exact .nil
  | cons c s ih =>
    obtain ⟨⟨quote, backslash, printed⟩, others⟩ := List.forall_mem_cons.1 plain
    exact .plain quote backslash printed (ih others)

theorem unescapePlain {s : List Char} (plain : ∀ c ∈ s, Plain c) : unescape? s = some s := by
  induction s with
  | nil => rfl
  | cons c s ih =>
    obtain ⟨⟨_, backslash, _⟩, others⟩ := List.forall_mem_cons.1 plain
    rw [unescape?, ih others]
    · rfl
    · exact fun _ _ _ _ _ same => absurd same backslash
    · exact fun _ _ same => absurd same backslash

section Decimals

theorem decimalDigits (n : Nat) : ∀ c ∈ Nat.toDigits 10 n, c.isDigit = true :=
  fun _ member => Nat.isDigit_of_mem_toDigits (by decide) (by decide) member

theorem leadingDigit (n : Nat) (positive : n ≠ 0) : (Nat.toDigits 10 n).head? ≠ some '0' := by
  induction n using Nat.strong_induction_on with
  | h n ih =>
    rw [Nat.toDigits_eq_if (by decide)]
    split
    · rename_i below
      have first : ∀ d < 10, d ≠ 0 → Nat.digitChar d ≠ '0' := by decide
      exact fun same => first n below positive (Option.some.inj same)
    · rename_i large
      rw [List.head?_append_of_ne_nil _ Nat.toDigits_ne_nil]
      exact ih (n / 10) (by omega) (by omega)

theorem wholeDecimal (n : Nat) : isWhole (Nat.toDigits 10 n) = true := by
  by_cases zero : n = 0
  · subst zero
    rfl
  · have leads := leadingDigit n zero
    unfold isWhole
    split
    · rfl
    · rename_i same
      exact absurd (congrArg List.head? same) leads
    · simp [digitsOnly, List.all_eq_true.2 (decimalDigits n)]

theorem spanAll {p : Char → Bool} {s : List Char} (all : ∀ c ∈ s, p c = true) : s.span p = (s, []) := by
  rw [List.span_eq_takeWhile_dropWhile, List.takeWhile_eq_self_iff.2 all, List.dropWhile_eq_nil_iff.2 all]

theorem numberDecimal (n : Nat) : isNumber (Nat.toDigits 10 n) = true := by
  have unmarked : ∀ c ∈ Nat.toDigits 10 n, (!isExponentMark c) = true := by
    intro c member
    have digit := decimalDigits n c member
    rw [Bool.not_eq_true', Bool.eq_false_iff]
    intro mark
    have letter : c = 'e' ∨ c = 'E' := of_decide_eq_true mark
    rcases letter with rfl | rfl <;> cases digit
  have undotted : ∀ c ∈ Nat.toDigits 10 n, decide (c ≠ '.') = true := by
    intro c member
    have digit := decimalDigits n c member
    refine decide_eq_true ?_
    rintro rfl
    cases digit
  unfold isNumber
  split
  · rename_i rest same
    have digit := decimalDigits n '-' (same ▸ List.mem_cons_self)
    cases digit
  · rw [isUnsigned, spanAll unmarked]
    dsimp only
    rw [isDecimal, spanAll undotted]
    exact wholeDecimal n

theorem Value.naturalOfNat {n max : Nat} (fits : n ≤ max) : (Value.ofNat n).natural? max = some n := by
  have value : (Nat.toDigits 10 n).foldl (fun n c => 10 * n + (c.toNat - 48)) 0 = n := Nat.ofDigitChars_ten_toDigits
  rw [Value.ofNat, Value.natural?, if_pos (List.all_eq_true.2 (decimalDigits n))]
  dsimp only
  rw [value, if_pos fits]

end Decimals

end TradingPool.Json
