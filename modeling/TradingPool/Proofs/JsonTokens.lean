import Mathlib.Data.List.Chain
import Mathlib.Data.List.TakeDrop
import TradingPool.Json.Value

/-! Tokens as text. However many blanks stand around them, tokens are read back from the characters they are written
with, as long as no number or word meets another: these two kinds have no end of their own, and run on to the first
character that cannot belong to them. -/
namespace TradingPool.Json

/-- What may stand between the quotes of a string. -/
inductive Body : List Char → Prop where
  | nil : Body []
  | plain {c : Char} {body : List Char} (quote : c ≠ '"') (backslash : c ≠ '\\') (printed : ¬ c < ' ')
      (rest : Body body) : Body (c :: body)
  | short {c : Char} {body : List Char} (known : isShortEscape c = true) (rest : Body body) : Body ('\\' :: c :: body)
  | hex {a b c d : Char} {body : List Char} (digits : ∀ x ∈ [a, b, c, d], isHexDigit x = true) (rest : Body body) :
      Body ('\\' :: 'u' :: a :: b :: c :: d :: body)

namespace Token

def WellFormed : Token → Prop
  | .number lexeme => isNumber lexeme = true
  | .string body => Body body
  | _ => True

/-- Numbers and words end only where something else begins. -/
def isOpen : Token → Bool
  | .number _ | .null | .bool _ => true
  | _ => false

def Apart (first second : Token) : Prop := ¬ (first.isOpen = true ∧ second.isOpen = true)

end Token

/-- The texts of some tokens, with any blanks around them. -/
inductive Spelled : List Token → List Char → Prop where
  | nil : Spelled [] []
  | blank {c : Char} {tokens : List Token} {s : List Char} (blank : isBlank c = true) (rest : Spelled tokens s) :
      Spelled tokens (c :: s)
  | token {t : Token} {tokens : List Token} {s : List Char} (rest : Spelled tokens s) :
      Spelled (t :: tokens) (t.chars ++ s)

theorem spelledChars (tokens : List Token) : Spelled tokens (tokens.flatMap Token.chars) := by
  induction tokens with
  | nil => exact .nil
  | cons t tokens ih => exact .token ih

def Ends (c : Char) : Prop := isNumberChar c = false ∧ c.isLower = false

section Lexemes

variable {s : List Char}

theorem digitNumberChar {c : Char} (digit : c.isDigit = true) : isNumberChar c = true := by
  simp [isNumberChar, digit]

def DigitsFirst (s : List Char) : Prop :=
  ∃ digits rest, s = digits ++ rest ∧ digitsOnly digits = true ∧ ∀ c ∈ rest, isNumberChar c = true

theorem digitsChars (h : digitsOnly s = true) : s ≠ [] ∧ ∀ c ∈ s, c.isDigit = true := by
  simpa [digitsOnly] using h

theorem wholeDigits (h : isWhole s = true) : digitsOnly s = true := by
  unfold isWhole at h
  split at h
  · rfl
  · cases h
  · exact h

theorem spanParts (p : Char → Bool) {front rest : List Char} (h : s.span p = (front, rest)) : s = front ++ rest := by
  rw [List.span_eq_takeWhile_dropWhile] at h
  cases h
  exact List.takeWhile_append_dropWhile.symm

theorem spanHead (p : Char → Bool) {front rest : List Char} {c : Char} (h : s.span p = (front, c :: rest)) :
    p c = false := by
  rw [List.span_eq_takeWhile_dropWhile] at h
  have first := List.head?_dropWhile_not p s
  rw [(Prod.mk.inj h).2] at first
  simpa using first

theorem decimalChars (h : isDecimal s = true) : DigitsFirst s := by
  unfold isDecimal at h
  split at h
  · rename_i whole cut
    exact ⟨whole, [], spanParts _ cut, wholeDigits h, nofun⟩
  · rename_i whole point fraction cut
    obtain ⟨first, second⟩ := Bool.and_eq_true_iff.1 h
    have dot : point = '.' := by simpa using spanHead _ cut
    refine ⟨whole, point :: fraction, spanParts _ cut, wholeDigits first, List.forall_mem_cons.2 ⟨?_, ?_⟩⟩
    · rw [dot]
      rfl
    · exact fun c member => digitNumberChar ((digitsChars second).2 c member)

theorem exponentChars (h : isExponent s = true) : ∀ c ∈ s, isNumberChar c = true := by
  unfold isExponent at h
  split at h
  · exact List.forall_mem_cons.2 ⟨rfl, fun c member => digitNumberChar ((digitsChars h).2 c member)⟩
  · exact List.forall_mem_cons.2 ⟨rfl, fun c member => digitNumberChar ((digitsChars h).2 c member)⟩
  · exact fun c member => digitNumberChar ((digitsChars h).2 c member)

theorem unsignedChars (h : isUnsigned s = true) : DigitsFirst s := by
  unfold isUnsigned at h
  split at h
  · rename_i decimal cut
    rw [spanParts _ cut, List.append_nil]
    exact decimalChars h
  · rename_i decimal mark exponent cut
    obtain ⟨first, second⟩ := Bool.and_eq_true_iff.1 h
    obtain ⟨digits, rest, rfl, only, chars⟩ := decimalChars first
    have known : isNumberChar mark = true := by
      have marks : isExponentMark mark = true := by simpa using spanHead _ cut
      have letter : mark = 'e' ∨ mark = 'E' := of_decide_eq_true marks
      rcases letter with rfl | rfl <;> rfl
    refine ⟨digits, rest ++ mark :: exponent, ?_, only, List.forall_mem_append.2 ⟨chars, ?_⟩⟩
    · rw [spanParts _ cut, List.append_assoc]
    · exact List.forall_mem_cons.2 ⟨known, exponentChars second⟩

theorem numberChars (h : isNumber s = true) : ∃ c rest, s = c :: rest ∧ (c.isDigit ∨ c = '-') ∧
    ∀ d ∈ rest, isNumberChar d = true := by
  have first {s : List Char} (h : DigitsFirst s) : ∃ c rest, s = c :: rest ∧ c.isDigit ∧
      ∀ d ∈ rest, isNumberChar d = true := by
    obtain ⟨digits, rest, rfl, only, chars⟩ := h
    obtain ⟨some, all⟩ := digitsChars only
    obtain ⟨c, more, rfl⟩ := List.exists_cons_of_ne_nil some
    obtain ⟨digit, others⟩ := List.forall_mem_cons.1 all
    exact ⟨c, more ++ rest, rfl, digit,
      List.forall_mem_append.2 ⟨fun d member => digitNumberChar (others d member), chars⟩⟩
  unfold isNumber at h
  split at h
  · rename_i rest
    obtain ⟨c, more, rfl, digit, chars⟩ := first (unsignedChars h)
    exact ⟨'-', c :: more, rfl, .inr rfl, List.forall_mem_cons.2 ⟨digitNumberChar digit, chars⟩⟩
  · obtain ⟨c, rest, rfl, digit, chars⟩ := first (unsignedChars h)
    exact ⟨c, rest, rfl, .inl digit, chars⟩

end Lexemes

namespace Mode

variable {mode next : Mode} {tokens : List Token} {token : Token} {c : Char} {s : List Char}

theorem scanStep (step : mode.step? c = some (next, tokens)) :
    mode.scan? (c :: s) = (next.scan? s).map (tokens ++ ·) := by
  rw [scan?, step]
  change ((next.scan? s).bind fun later => some (tokens ++ later)) = _
  cases next.scan? s <;> rfl

theorem scanOn (step : mode.step? c = some (next, [])) : mode.scan? (c :: s) = next.scan? s :=
  (scanStep step).trans Option.map_id'

/- A number or a word is taken as it stands when it has come to its end. -/
theorem scanEnd (ended : mode.finish? = some [token])
    (follows : ∀ c, Ends c → mode.step? c = (start? c).map fun (next, tokens) => (next, token :: tokens))
    (ends : ∀ c, s.head? = some c → Ends c) : mode.scan? s = (between.scan? s).map (token :: ·) := by
  cases s with
  | nil =>
    rw [scan?, ended]
    rfl
  | cons c s =>
    rw [scan?, scan?, follows c (ends c rfl)]
    change _ = Option.map _ ((start? c).bind _)
    cases start? c with
    | none => rfl
    | some found =>
      change ((found.1.scan? s).bind _) = Option.map _ ((found.1.scan? s).bind _)
      cases found.1.scan? s <;> rfl

theorem scanNumberChars {lexeme more : List Char} (chars : ∀ d ∈ more, isNumberChar d = true) :
    (number lexeme).scan? (more ++ s) = (number (more.reverse ++ lexeme)).scan? s := by
  induction more generalizing lexeme with
  | nil => rfl
  | cons d more ih =>
    obtain ⟨known, others⟩ := List.forall_mem_cons.1 chars
    have step : (number lexeme).step? d = some (number (d :: lexeme), []) := if_pos known
    rw [List.cons_append, scanOn step, ih others, List.reverse_cons, List.append_assoc]
    rfl

theorem scanWordChars {letters more : List Char} (chars : ∀ d ∈ more, d.isLower = true) :
    (word letters).scan? (more ++ s) = (word (more.reverse ++ letters)).scan? s := by
  induction more generalizing letters with
  | nil => rfl
  | cons d more ih =>
    obtain ⟨known, others⟩ := List.forall_mem_cons.1 chars
    have step : (word letters).step? d = some (word (d :: letters), []) := if_pos known
    rw [List.cons_append, scanOn step, ih others, List.reverse_cons, List.append_assoc]
    rfl

theorem scanBody {done body : List Char} (h : Body body) :
    (text done).scan? (body ++ '"' :: s) = (between.scan? s).map (.string (done.reverse ++ body) :: ·) := by
  induction h generalizing done with
  | nil =>
    have step : (text done).step? '"' = some (between, [.string done.reverse]) := rfl
    rw [List.append_nil]
    exact scanStep step
  | @plain c body quote backslash printed _ ih =>
    have step : (text done).step? c = some (text (c :: done), []) := by
      simp only [step?, if_neg quote, if_neg backslash, if_neg printed]
    rw [List.cons_append, scanOn step, ih, List.reverse_cons, List.append_assoc]
    rfl
  | @short c body known _ ih =>
    have first : (text done).step? '\\' = some (escape ('\\' :: done), []) := rfl
    have second : (escape ('\\' :: done)).step? c = some (text (c :: '\\' :: done), []) := by
      have other : c ≠ 'u' := by
        rintro rfl
        cases known
      simp only [step?, if_neg other, if_pos known]
    rw [List.cons_append, List.cons_append, scanOn first, scanOn second, ih, List.reverse_cons, List.reverse_cons,
      List.append_assoc, List.append_assoc]
    rfl
  | @hex a b c d body digits _ ih =>
    have known {x : Char} (member : x ∈ [a, b, c, d]) : isHexDigit x = true := digits x member
    have first : (text done).step? '\\' = some (escape ('\\' :: done), []) := rfl
    have second : (escape ('\\' :: done)).step? 'u' = some (hex 4 ('u' :: '\\' :: done), []) := rfl
    have third (read : List Char) : (hex 4 read).step? a = some (hex 3 (a :: read), []) := if_pos (known (by simp))
    have fourth (read : List Char) : (hex 3 read).step? b = some (hex 2 (b :: read), []) := if_pos (known (by simp))
    have fifth (read : List Char) : (hex 2 read).step? c = some (hex 1 (c :: read), []) := if_pos (known (by simp))
    have sixth (read : List Char) : (hex 1 read).step? d = some (text (d :: read), []) := if_pos (known (by simp))
    simp only [List.cons_append]
    rw [scanOn first, scanOn second, scanOn (third _), scanOn (fourth _), scanOn (fifth _), scanOn (sixth _), ih]
    simp only [List.reverse_cons, List.append_assoc, List.cons_append, List.nil_append]

theorem scanPunctuation (known : punctuation? c = some token) :
    between.scan? (c :: s) = (between.scan? s).map (token :: ·) := by
  have step : between.step? c = some (between, [token]) := by
    rw [step?, start?, known]
  exact scanStep step

theorem startNumber (leads : c.isDigit ∨ c = '-') : between.step? c = some (number [c], []) := by
  have mark : punctuation? c = none := by
    unfold punctuation?
    split <;> first | rfl | exact absurd leads (by decide)
  have blank : isBlank c = false := by
    refine Bool.eq_false_iff.2 fun blank => absurd leads ?_
    have space : c = ' ' ∨ c = '\n' ∨ c = '\t' ∨ c = '\r' := of_decide_eq_true blank
    rcases space with rfl | rfl | rfl | rfl <;> decide
  have quote : c ≠ '"' := by
    rintro rfl
    exact absurd leads (by decide)
  simp only [step?, start?, mark, blank, Bool.false_eq_true, if_false, if_neg quote, if_pos leads]

theorem scanNumber {lexeme : List Char} (formed : isNumber lexeme = true) (ends : ∀ c, s.head? = some c → Ends c) :
    between.scan? (lexeme ++ s) = (between.scan? s).map (.number lexeme :: ·) := by
  obtain ⟨c, rest, rfl, leads, chars⟩ := numberChars formed
  have whole : numberToken? (rest.reverse ++ [c]) = some (.number (c :: rest)) := by
    unfold numberToken?
    rw [List.reverse_append, List.reverse_reverse]
    exact if_pos formed
  rw [List.cons_append, scanOn (startNumber leads), scanNumberChars chars]
  refine scanEnd ?_ (fun d ends => ?_) ends
  · rw [finish?, whole]
    rfl
  · have stops : ¬ isNumberChar d = true := by rw [ends.1]; exact Bool.false_ne_true
    rw [step?, if_neg stops, whole]
    change (start? d).bind _ = _
    cases start? d <;> rfl

theorem scanWord {rest : List Char} (step : between.step? c = some (word [c], []))
    (chars : ∀ d ∈ rest, d.isLower = true) (whole : wordToken? (rest.reverse ++ [c]) = some token)
    (ends : ∀ c, s.head? = some c → Ends c) :
    between.scan? (c :: (rest ++ s)) = (between.scan? s).map (token :: ·) := by
  rw [scanOn step, scanWordChars chars]
  refine scanEnd ?_ (fun d ends => ?_) ends
  · rw [finish?, whole]
    rfl
  · have stops : ¬ d.isLower = true := by rw [ends.2]; exact Bool.false_ne_true
    rw [step?, if_neg stops, whole]
    change (start? d).bind _ = _
    cases start? d <;> rfl

theorem scanToken (formed : token.WellFormed) (ends : token.isOpen = true → ∀ c, s.head? = some c → Ends c) :
    between.scan? (token.chars ++ s) = (between.scan? s).map (token :: ·) := by
  cases token with
  | openObject | closeObject | openArray | closeArray | comma | colon => exact scanPunctuation rfl
  | null => exact scanWord rfl (List.all_eq_true.1 rfl) rfl (ends rfl)
  | bool value => cases value <;> exact scanWord rfl (List.all_eq_true.1 rfl) rfl (ends rfl)
  | number lexeme => exact scanNumber formed (ends rfl)
  | string body =>
    have step : between.step? '"' = some (text [], []) := rfl
    change between.scan? ('"' :: (body ++ ['"']) ++ s) = _
    rw [List.cons_append, List.append_assoc, scanOn step]
    exact scanBody formed

end Mode

section Spelling

variable {tokens : List Token} {s : List Char} {c : Char}

theorem blankIs (blank : isBlank c = true) : c = ' ' ∨ c = '\n' ∨ c = '\t' ∨ c = '\r' := of_decide_eq_true blank

/- The first token is no number and no word, or there are blanks before it. -/
theorem spelledEnds (spelled : Spelled tokens s) (closed : ∀ t, tokens.head? = some t → t.isOpen = false) :
    ∀ c, s.head? = some c → Ends c := by
  intro c first
  cases spelled with
  | nil => cases first
  | blank blank _ =>
    cases first
    rcases blankIs blank with rfl | rfl | rfl | rfl <;> exact ⟨rfl, rfl⟩
  | @token t _ _ _ =>
    cases t with
    | number | null | bool => cases closed _ rfl
    | _ =>
      cases first
      exact ⟨rfl, rfl⟩

theorem tokensSpelled (spelled : Spelled tokens s) (formed : ∀ t ∈ tokens, t.WellFormed)
    (apart : tokens.IsChain Token.Apart) : tokens? s = some tokens := by
  unfold tokens?
  induction spelled with
  | nil => rfl
  | @blank c tokens s blank _ ih =>
    have step : Mode.between.step? c = some (.between, []) := by
      rcases blankIs blank with rfl | rfl | rfl | rfl <;> rfl
    rw [Mode.scanOn step]
    exact ih formed apart
  | @token t tokens s rest ih =>
    obtain ⟨first, others⟩ := List.forall_mem_cons.1 formed
    obtain ⟨next, later⟩ := List.isChain_cons.1 apart
    rw [Mode.scanToken first fun isOpen => spelledEnds rest fun other stands => ?_, ih others later]
    · rfl
    · exact Bool.eq_false_iff.2 fun again => next other stands ⟨isOpen, again⟩

end Spelling

end TradingPool.Json
