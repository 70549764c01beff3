import Mathlib.Data.List.Forall2
import TradingPool.Settings
import TradingPool.Proofs.JsonValues
import TradingPool.Proofs.KeyText

/-! Settings as text. Whatever stands for the members of some settings is read as these settings, in any order, with
blanks and escapes as the writer likes them and with members of any other names; a member with its default value may
be missing. -/
namespace TradingPool

namespace Json

/-- Both stand for the same text, or both for the same number. -/
def Value.Same (first second : Value) : Prop :=
  first.text? = second.text? ∧ ∀ max, first.natural? max = second.natural? max

theorem Value.Same.refl (value : Value) : value.Same value := ⟨rfl, fun _ => rfl⟩

/-- Members spelled in another way: escapes in a name or in a text stand for what is meant. -/
def Reads (written meant : List (List Char × Value)) : Prop :=
  List.Forall₂ (fun member other => unescape? member.1 = some other.1 ∧ member.2.Same other.2) written meant

end Json

open Json

namespace Settings

/-- The members of settings as they are written. -/
def members (settings : Settings) : List (List Char × Value) :=
  (memberNames.map String.toList).zip settings.memberValues

/-- The members that may be missing, with the values that they then have. -/
def defaultMembers : List (List Char × Value) :=
  [("token_program_id".toList, .ofString Programs.token.text), ("max_number_of_assets".toList, .ofNat 10),
    ("max_seed_attempts".toList, .ofNat 1000), ("open_orders_len".toList, .ofNat 3228)]

/-- The members of settings in any order, each once. What is missing has its default value. -/
structure Holds (settings : Settings) (held : List (List Char × Value)) : Prop where
  known : ∀ member ∈ held, member ∈ settings.members
  once : (held.map Prod.fst).Nodup
  complete : ∀ member ∈ settings.members, member ∈ held ∨ member ∈ defaultMembers

/-- Those of some members that are settings. -/
def ownMembers (held : List (List Char × Value)) : List (List Char × Value) :=
  held.filter fun member => member.1 ∈ memberNames.map String.toList

variable {settings : Settings} {held named written : List (List Char × Value)} {name : String} {value : Value}

theorem namesOnce (settings : Settings) : (settings.members.map Prod.fst).Nodup := by
  have names : settings.members.map Prod.fst = memberNames.map String.toList := rfl
  rw [names]
  decide

theorem defaultsOnce : (defaultMembers.map Prod.fst).Nodup := by decide

theorem holdsAll (settings : Settings) : settings.Holds settings.members :=
  ⟨fun _ member => member, namesOnce settings, fun _ member => .inl member⟩

/-- Members whose names are as meant, and whose values stand for the same. -/
abbrev Named (named held : List (List Char × Value)) : Prop :=
  List.Forall₂ (fun member other => member.1 = other.1 ∧ member.2.Same other.2) named held

theorem namesRead (reads : Reads written held) : ∃ named : List (List Char × Value),
    (written.mapM fun (name, value) => (unescape? name).map fun name => (name, value)) = some named ∧
      Named named held := by
  induction reads with
  | nil => exact ⟨[], rfl, .nil⟩
  | @cons member other written held first _ ih =>
    obtain ⟨named, rest, pairs⟩ := ih
    obtain ⟨name, value⟩ := member
    obtain ⟨meant, same⟩ : unescape? name = some other.1 ∧ value.Same other.2 := first
    refine ⟨(other.1, value) :: named, ?_, .cons ⟨rfl, same⟩ pairs⟩
    rw [List.mapM_cons, rest]
    dsimp only
    rw [meant]
    rfl

theorem othersPassed (pairs : Named named held) (free : name.toList ∉ held.map Prod.fst) :
    named.filter (·.1 = name.toList) = [] := by
  induction pairs with
  | nil => rfl
  | @cons member other named held first _ ih =>
    rw [List.map_cons, List.mem_cons, not_or] at free
    have apart : ¬ member.1 = name.toList := fun same => free.1 (same.symm.trans first.1)
    rw [List.filter_cons_of_neg (by simpa using apart)]
    exact ih free.2

theorem memberFound (pairs : Named named held) (once : (held.map Prod.fst).Nodup)
    (stands : (name.toList, value) ∈ held) :
    ∃ other : Value, member? named name = some (some other) ∧ other.Same value := by
  obtain ⟨other, only, same⟩ : ∃ other : Value,
      named.filter (·.1 = name.toList) = [(name.toList, other)] ∧ other.Same value := by
    induction pairs with
    | nil => cases stands
    | @cons member other named held first rest ih =>
      obtain ⟨fresh, once⟩ := List.nodup_cons.1 once
      rcases List.mem_cons.1 stands with rfl | later
      · refine ⟨member.2, ?_, first.2⟩
        rw [List.filter_cons_of_pos (by simpa using first.1), othersPassed rest fresh]
        exact congrArg (fun name => [(name, member.2)]) first.1
      · have apart : ¬ member.1 = name.toList := by
          intro same
          exact fresh (List.mem_map.2 ⟨_, later, same.symm.trans first.1⟩)
        rw [List.filter_cons_of_neg (by simpa using apart)]
        exact ih once later
  refine ⟨other, ?_, same⟩
  rw [member?, only]

theorem memberOwn (known : name.toList ∈ memberNames.map String.toList) (named : List (List Char × Value)) :
    member? (ownMembers named) name = member? named name := by
  have same : (ownMembers named).filter (·.1 = name.toList) = named.filter (·.1 = name.toList) := by
    rw [ownMembers, List.filter_filter]
    refine List.filter_congr fun member _ => ?_
    by_cases here : member.1 = name.toList
    · simp [here, known]
    · simp [here]
  rw [member?, member?, same]

theorem namedOwn (pairs : Named named held) : Named (ownMembers named) (ownMembers held) :=
  List.rel_filter (fun _ _ same => by simp only [same.1]) pairs

theorem textPlain (key : Key) : ∀ c ∈ key.text.toList, Plain c := by
  intro c member
  rw [Block.text, String.toList_ofList] at member
  obtain ⟨d, small, rfl⟩ := Base58.charsOfEncode key.bytes c member
  have all : ∀ d < 58, Plain (Base58.char d) := by decide
  exact all d small

theorem keySame {key : Key} (same : value.Same (.ofString key.text)) : key? value = some key := by
  have text : (Value.ofString key.text).text? = some (Base58.encode key.bytes) := by
    rw [← String.toList_ofList (l := Base58.encode key.bytes)]
    exact unescapePlain (textPlain key)
  rw [key?, same.1, text]
  exact Base58.decodeEncode key

theorem u32Same {n : UInt32} (same : value.Same (.ofNat n.toNat)) :
    (value.natural? (UInt32.size - 1)).map UInt32.ofNat = some n := by
  rw [same.2, Value.naturalOfNat (Nat.le_sub_one_of_lt n.toNat_lt), Option.map_some, UInt32.ofNat_toNat]

theorem u64Same {n : UInt64} (same : value.Same (.ofNat n.toNat)) :
    (value.natural? (UInt64.size - 1)).map UInt64.ofNat = some n := by
  rw [same.2, Value.naturalOfNat (Nat.le_sub_one_of_lt n.toNat_lt), Option.map_some, UInt64.ofNat_toNat]

section Members

variable (pairs : Named (ownMembers named) held) (holds : settings.Holds held)
include pairs holds

theorem memberRead (stands : (name.toList, value) ∈ settings.members) :
    (∃ other : Value, member? named name = some (some other) ∧ other.Same value) ∨
      member? named name = some none ∧ (name.toList, value) ∈ defaultMembers := by
  rw [← memberOwn (List.of_mem_zip stands).1 named]
  by_cases here : (name.toList, value) ∈ held
  · exact .inl (memberFound pairs holds.once here)
  · refine .inr ⟨?_, (holds.complete _ stands).resolve_left here⟩
    have free : name.toList ∉ held.map Prod.fst := by
      intro present
      obtain ⟨⟨_, other⟩, again, rfl⟩ := List.mem_map.1 present
      have same := List.inj_on_of_nodup_map (namesOnce settings) stands (holds.known _ again) rfl
      exact here (same ▸ again)
    rw [member?, othersPassed pairs free]

/- A member without a default is never missing. -/
theorem keyRead (name : String) (i : Nat) {key : Key}
    (stands : settings.members[i]? = some (name.toList, .ofString key.text))
    (needed : name.toList ∉ defaultMembers.map Prod.fst) :
    ∃ other : Value, member? named name = some (some other) ∧ key? other = some key := by
  rcases memberRead pairs holds (List.mem_of_getElem? stands) with ⟨other, found, same⟩ | ⟨_, defaulted⟩
  · exact ⟨other, found, keySame same⟩
  · exact absurd (List.mem_map_of_mem defaulted) needed

theorem optionalRead (name : String) (i j : Nat) {α : Type} {default meant : α} {read : Value → Option α}
    {usual : Value} (stands : settings.members[i]? = some (name.toList, value))
    (missing : defaultMembers[j]? = some (name.toList, usual))
    (reads : ∀ other : Value, other.Same value → read other = some meant) (readsUsual : read usual = some default) :
    ∃ other, member? named name = some other ∧ orDefault default read other = some meant := by
  rcases memberRead pairs holds (List.mem_of_getElem? stands) with ⟨other, found, same⟩ | ⟨free, defaulted⟩
  · exact ⟨some other, found, reads other same⟩
  · cases List.inj_on_of_nodup_map defaultsOnce defaulted (List.mem_of_getElem? missing) rfl
    exact ⟨none, free, readsUsual.symm.trans (reads value (.refl value))⟩

theorem membersRead : (memberNames.mapM (member? named)).bind ofValues? = some settings := by
  obtain ⟨program, first, programKey⟩ := keyRead pairs holds "program_id" 0 rfl (by decide)
  obtain ⟨venue, second, venueKey⟩ := keyRead pairs holds "venue_program_id" 1 rfl (by decide)
  obtain ⟨fees, third, feesKey⟩ := keyRead pairs holds "fee_owner" 2 rfl (by decide)
  obtain ⟨burns, fourth, burnsKey⟩ := keyRead pairs holds "burn_owner" 3 rfl (by decide)
  obtain ⟨token, fifth, tokenKey⟩ := optionalRead pairs holds "token_program_id" 4 0 rfl rfl
    (fun other same => keySame same) (keySame (.refl _))
  obtain ⟨assets, sixth, assetsNumber⟩ := optionalRead pairs holds "max_number_of_assets" 5 1 rfl rfl
    (fun other same => u32Same same) (u32Same (n := 10) (.refl _))
  obtain ⟨attempts, seventh, attemptsNumber⟩ := optionalRead pairs holds "max_seed_attempts" 6 2 rfl rfl
    (fun other same => u32Same same) (u32Same (n := 1000) (.refl _))
  obtain ⟨size, eighth, sizeNumber⟩ := optionalRead pairs holds "open_orders_len" 7 3 rfl rfl
    (fun other same => u64Same same) (u64Same (n := 3228) (.refl _))
  have values : memberNames.mapM (member? named) =
      some [some program, some venue, some fees, some burns, token, assets, attempts, size] := by
    simp only [memberNames, List.mapM_cons, List.mapM_nil, first, second, third, fourth, fifth, sixth, seventh, eighth]
    rfl
  rw [values, Option.bind_some, ofValues?, programKey, venueKey, feesKey, burnsKey]
  change (orDefault Programs.token key? token).bind _ = _
  rw [tokenKey]
  change (orDefault 10 _ assets).bind _ = _
  rw [assetsNumber]
  change (orDefault 1000 _ attempts).bind _ = _
  rw [attemptsNumber]
  change (orDefault 3228 _ size).bind _ = _
  rw [sizeNumber]
  rfl

end Members

theorem ofJsonHolds (reads : Reads written held) (holds : settings.Holds (ownMembers held)) :
    ofJson? (.object written) = some settings := by
  obtain ⟨named, names, pairs⟩ := namesRead reads
  rw [ofJson?, names]
  exact membersRead (namedOwn pairs) holds

theorem namesPlain : ∀ name ∈ memberNames.map String.toList, ∀ c ∈ name, Plain c := by
  simp [memberNames, Plain]

theorem ownMembersHolds (holds : settings.Holds held) : settings.Holds (ownMembers held) := by
  have all : ownMembers held = held :=
    List.filter_eq_self.2 fun member stands => decide_eq_true (List.of_mem_zip (holds.known member stands)).1
  rwa [all]

theorem readsSelf (holds : settings.Holds held) : Reads held held := by
  refine List.forall₂_same.2 fun member stands => ⟨unescapePlain ?_, .refl _⟩
  exact namesPlain _ (List.of_mem_zip (holds.known _ stands)).1

theorem membersFormed (settings : Settings) : ∀ member ∈ settings.members,
    Body member.1 ∧ ∀ token ∈ member.2.tokens, token.WellFormed := by
  have text (key : Key) : ∀ token ∈ (Value.ofString key.text).tokens, token.WellFormed :=
    List.forall_mem_singleton.2 (bodyPlain (textPlain key))
  have number (n : Nat) : ∀ token ∈ (Value.ofNat n).tokens, token.WellFormed :=
    List.forall_mem_singleton.2 (numberDecimal n)
  have values : ∀ value ∈ settings.memberValues, ∀ token ∈ value.tokens, token.WellFormed := by
    simp only [memberValues, List.forall_mem_cons]
    exact ⟨text _, text _, text _, text _, text _, number _, number _, number _, nofun⟩
  intro member stands
  obtain ⟨name, value⟩ := List.of_mem_zip stands
  exact ⟨bodyPlain (namesPlain _ name), values _ value⟩

theorem settingsRoundTrip (settings : Settings) :
    ofText settings.text = .ok settings ∧
    (∀ held (s : List Char), settings.Holds held → Spelled (Value.object held).tokens s →
      ofText (String.ofList s) = .ok settings) ∧
    ∀ written held (s : String), Value.ofChars? s.toList = some (.object written) → Reads written held →
      settings.Holds (ownMembers held) → ofText s = .ok settings := by
  have read {written held : List (List Char × Value)} {s : String}
      (object : Value.ofChars? s.toList = some (.object written)) (reads : Reads written held)
      (holds : settings.Holds (ownMembers held)) : ofText s = .ok settings := by
    rw [ofText, object, Option.bind_some, ofJsonHolds reads holds]
    rfl
  have spelled {held : List (List Char × Value)} {s : List Char} (holds : settings.Holds held)
      (spelled : Spelled (Value.object held).tokens s) : ofText (String.ofList s) = .ok settings := by
    refine read ?_ (readsSelf holds) (ownMembersHolds holds)
    rw [String.toList_ofList]
    exact Value.ofSpelled spelled (Value.objectFormed fun member stands =>
      membersFormed settings member (holds.known _ stands))
  exact ⟨spelled (holdsAll settings) (spelledChars _), fun held s => spelled, fun written held s => read⟩

/- Settings that differ from the default in what has no default only. -/
def bareSettings : Settings :=
  { program := .zero 32, venueProgram := .fill 32 8, feeOwner := .fill 32 7, burnOwner := .fill 32 6 }

theorem bareHolds : bareSettings.Holds (bareSettings.members.take 4).reverse := by
  have parts : bareSettings.members = bareSettings.members.take 4 ++ defaultMembers := rfl
  refine ⟨fun member stands => List.mem_of_mem_take (List.mem_reverse.1 stands), by decide, fun member stands => ?_⟩
  rw [parts] at stands
  exact (List.mem_append.1 stands).imp_left List.mem_reverse.2

/- The same with an escape in the name of the first member, behind a member that is passed over. -/
def escapedMembers : List (List Char × Value) :=
  ("note".toList, .null) :: ("\\u0070rogram_id".toList, .ofString bareSettings.program.text) ::
    bareSettings.members.tail

theorem escapedRead : Value.ofChars? (Value.object escapedMembers).chars = some (.object escapedMembers) := by
  have formed := membersFormed bareSettings
  have others : ∀ member ∈ bareSettings.members.tail,
      Body member.1 ∧ ∀ token ∈ member.2.tokens, token.WellFormed :=
    fun member stands => formed member (List.mem_of_mem_tail stands)
  have note : Body "note".toList := bodyPlain (by simp [Plain])
  have rest : Body "rogram_id".toList := bodyPlain (by simp [Plain])
  have name : Body "\\u0070rogram_id".toList := .hex (List.all_eq_true.1 rfl) rest
  refine Value.ofSpelled (spelledChars _) (Value.objectFormed (List.forall_mem_cons.2 ⟨⟨note, ?_⟩,
    List.forall_mem_cons.2 ⟨⟨name, ?_⟩, others⟩⟩))
  · exact List.forall_mem_singleton.2 trivial
  · exact (formed ("program_id".toList, _) (List.mem_of_getElem? (rfl : bareSettings.members[0]? = _))).2

theorem escapedMeant : Reads escapedMembers (("note".toList, .null) :: bareSettings.members) := by
  have parts : bareSettings.members =
      ("program_id".toList, .ofString bareSettings.program.text) :: bareSettings.members.tail := rfl
  have note : unescape? "note".toList = some "note".toList := unescapePlain (by simp [Plain])
  have name : unescape? "\\u0070rogram_id".toList = some "program_id".toList := by decide +kernel
  have others := readsSelf (holdsAll bareSettings)
  rw [parts] at others ⊢
  exact .cons ⟨note, .refl _⟩ (.cons ⟨name, .refl _⟩ (List.forall₂_cons.1 others).2)

theorem escapedHolds : bareSettings.Holds (ownMembers (("note".toList, .null) :: bareSettings.members)) := by
  have other : ("note".toList, Value.null).1 ∉ memberNames.map String.toList := by decide
  rw [ownMembers, List.filter_cons_of_neg (by simpa using other)]
  exact ownMembersHolds (holdsAll bareSettings)

theorem settingsRoundTripBare :
    ofText (String.ofList (' ' :: (Value.object (bareSettings.members.take 4).reverse).chars)) = .ok bareSettings ∧
    ofText (String.ofList (Value.object escapedMembers).chars) = .ok bareSettings := by
  obtain ⟨_, ordered, escaped⟩ := settingsRoundTrip bareSettings
  refine ⟨ordered _ _ bareHolds (.blank rfl (spelledChars _)), escaped _ _ _ ?_ escapedMeant escapedHolds⟩
  rw [String.toList_ofList]
  exact escapedRead

end Settings
end TradingPool
