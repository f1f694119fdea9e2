import BipaNodes.Lib.Json
import Mathlib.Data.List.DropRight
import Mathlib.Data.List.TakeWhile

/-!
# The parser of JSON texts

What the parser reads is derived by the grammar, and what the grammar derives
is read. So a text has one tree at most.
-/

set_option autoImplicit false

namespace Json

/-!
## White space
-/

theorem skipSpace_split (text : List Char) :
    ∃ space, Space space ∧ text = space ++ skipSpace text := by
  refine ⟨text.takeWhile isSpace, ?_, List.takeWhile_append_dropWhile.symm⟩
  intro char member
  exact List.mem_takeWhile_imp member

theorem skipSpace_append {space : List Char} (isSpace : Space space) (text : List Char) :
    skipSpace (space ++ text) = skipSpace text :=
  List.dropWhile_append_of_pos isSpace

theorem skipSpace_cons {char : Char} (notSpace : isSpace char = false) (text : List Char) :
    skipSpace (char :: text) = char :: text :=
  List.dropWhile_cons_of_neg (by rw [notSpace]; decide)

theorem isDigit_not_space {char : Char} (isDigit : char.isDigit = true) :
    isSpace char = false := by
  unfold isSpace
  simp only [Bool.or_eq_false_iff, decide_eq_false_iff_not]
  refine ⟨⟨⟨?_, ?_⟩, ?_⟩, ?_⟩ <;> intro same <;> rw [same] at isDigit <;> cases isDigit

/-!
## Numbers
-/

/-- What comes next is no part of the number before it. -/
def NumberEnds (rest : List Char) : Prop :=
  ∀ char ∈ rest.head?, char.isDigit = false ∧ char ≠ '.' ∧ char ≠ 'e' ∧ char ≠ 'E'

theorem scanDigits_sound {text digits rest : List Char}
    (scanned : scanDigits text = some (digits, rest)) :
    digits ≠ [] ∧ Decimal.AllDigits digits ∧ text = digits ++ rest := by
  unfold scanDigits at scanned
  split at scanned
  · cases scanned
  · next nonempty =>
      cases scanned
      refine ⟨nonempty, ?_, List.takeWhile_append_dropWhile.symm⟩
      intro digit member
      exact List.mem_takeWhile_imp member

theorem scanDigits_complete {digits rest : List Char} (nonempty : digits ≠ [])
    (all : Decimal.AllDigits digits) (ends : ∀ char ∈ rest.head?, char.isDigit = false) :
    scanDigits (digits ++ rest) = some (digits, rest) := by
  have stops : rest.takeWhile Char.isDigit = [] ∧ rest.dropWhile Char.isDigit = rest := by
    cases rest with
    | nil => exact ⟨rfl, rfl⟩
    | cons char rest =>
        have notDigit := ends char rfl
        constructor
        · exact List.takeWhile_cons_of_neg (by rw [notDigit]; decide)
        · exact List.dropWhile_cons_of_neg (by rw [notDigit]; decide)
  unfold scanDigits
  rw [List.takeWhile_append_of_pos all, List.dropWhile_append_of_pos all, stops.1, stops.2,
    List.append_nil, if_neg nonempty]

theorem scanMinus_sound (text : List Char) :
    ∃ minus, MinusText (scanMinus text).1 minus ∧ text = minus ++ (scanMinus text).2 := by
  unfold scanMinus
  split
  · exact ⟨_, .present, rfl⟩
  · exact ⟨_, .absent, rfl⟩

theorem scanMinus_complete {negative : Bool} {minus rest : List Char}
    (isMinus : MinusText negative minus) (ends : ∀ char ∈ rest.head?, char ≠ '-') :
    scanMinus (minus ++ rest) = (negative, rest) := by
  cases isMinus with
  | present => rfl
  | absent =>
      cases rest with
      | nil => rfl
      | cons char rest =>
          have notMinus := ends char rfl
          unfold scanMinus
          split
          · next same => exact absurd (List.cons.inj same).1 notMinus
          · rfl

theorem scanWhole_sound {text whole rest : List Char}
    (scanned : scanWhole text = some (whole, rest)) :
    WholeText whole ∧ text = whole ++ rest := by
  unfold scanWhole at scanned
  split at scanned
  · cases scanned
    exact ⟨.zero, rfl⟩
  · next notZero =>
      obtain ⟨nonempty, all, split⟩ := scanDigits_sound scanned
      refine ⟨?_, split⟩
      cases whole with
      | nil => exact absurd rfl nonempty
      | cons leading digits =>
          refine .digits ?_ all
          intro zero
          subst zero
          exact notZero _ split

theorem WholeText.allDigits {whole : List Char} (isWhole : WholeText whole) :
    whole ≠ [] ∧ Decimal.AllDigits whole := by
  cases isWhole with
  | zero => exact ⟨nofun, by decide⟩
  | digits _ all => exact ⟨nofun, all⟩

theorem scanWhole_complete {whole rest : List Char} (isWhole : WholeText whole)
    (ends : ∀ char ∈ rest.head?, char.isDigit = false) :
    scanWhole (whole ++ rest) = some (whole, rest) := by
  obtain ⟨nonempty, all⟩ := isWhole.allDigits
  have scanned := scanDigits_complete nonempty all ends
  cases isWhole with
  | zero => rfl
  | digits notZero _ =>
      unfold scanWhole
      split
      · next same => exact absurd (List.cons.inj same).1 notZero
      · exact scanned

theorem scanFraction_sound {text digits rest : List Char}
    (scanned : scanFraction text = some (digits, rest)) :
    ∃ fraction, FractionText digits fraction ∧ text = fraction ++ rest := by
  unfold scanFraction at scanned
  split at scanned
  · obtain ⟨nonempty, all, rfl⟩ := scanDigits_sound scanned
    exact ⟨_, .present nonempty all, rfl⟩
  · cases scanned
    exact ⟨_, .absent, rfl⟩

theorem scanFraction_complete {digits fraction rest : List Char}
    (isFraction : FractionText digits fraction)
    (ends : ∀ char ∈ rest.head?, char.isDigit = false ∧ char ≠ '.') :
    scanFraction (fraction ++ rest) = some (digits, rest) := by
  cases isFraction with
  | present nonempty all =>
      exact scanDigits_complete nonempty all fun char head => (ends char head).1
  | absent =>
      unfold scanFraction
      split
      · next same => exact absurd rfl (ends '.' (by rw [List.nil_append] at same; rw [same]; rfl)).2
      · rfl

theorem scanSign_sound (text : List Char) :
    ∃ sign, SignText (scanSign text).1 sign ∧ text = sign ++ (scanSign text).2 := by
  unfold scanSign
  split
  · exact ⟨_, .plus, rfl⟩
  · exact ⟨_, .minus, rfl⟩
  · exact ⟨_, .absent, rfl⟩

theorem scanSign_complete {negative : Bool} {sign digits : List Char}
    (isSign : SignText negative sign) (nonempty : digits ≠ []) (all : Decimal.AllDigits digits)
    (rest : List Char) : scanSign (sign ++ (digits ++ rest)) = (negative, digits ++ rest) := by
  cases isSign with
  | plus | minus => rfl
  | absent =>
      cases digits with
      | nil => exact absurd rfl nonempty
      | cons digit digits =>
          have isDigit := all digit List.mem_cons_self
          unfold scanSign
          split
          · next same =>
              obtain rfl := (List.cons.inj same).1
              cases isDigit
          · next same =>
              obtain rfl := (List.cons.inj same).1
              cases isDigit
          · rfl

theorem scanExponent_sound {text digits rest : List Char} {negative : Bool}
    (scanned : scanExponent text = some (negative, digits, rest)) :
    ∃ exponent, ExponentText negative digits exponent ∧ text = exponent ++ rest := by
  cases text with
  | nil =>
      cases scanned
      exact ⟨_, .absent, rfl⟩
  | cons char text =>
      rw [scanExponent] at scanned
      split at scanned
      · next isMark =>
          obtain ⟨scannedDigits, digitsScanned, same⟩ := Option.map_eq_some_iff.mp scanned
          cases same
          obtain ⟨nonempty, all, split⟩ := scanDigits_sound digitsScanned
          obtain ⟨sign, isSign, signSplit⟩ := scanSign_sound text
          refine ⟨_, .present isMark isSign nonempty all, ?_⟩
          rw [List.append_assoc, ← split, List.cons_append, ← signSplit]
      · cases scanned
        exact ⟨_, .absent, rfl⟩

theorem scanExponent_complete {negative : Bool} {digits exponent rest : List Char}
    (isExponent : ExponentText negative digits exponent) (ends : NumberEnds rest) :
    scanExponent (exponent ++ rest) = some (negative, digits, rest) := by
  cases isExponent with
  | absent =>
      cases rest with
      | nil => rfl
      | cons char rest =>
          obtain ⟨_, _, notLower, notUpper⟩ := ends char rfl
          exact if_neg (not_or.mpr ⟨notLower, notUpper⟩)
  | @present mark _ sign _ isMark isSign nonempty all =>
      rw [List.cons_append, List.cons_append, List.append_assoc, scanExponent, if_pos isMark,
        scanSign_complete isSign nonempty all,
        scanDigits_complete nonempty all fun char head => (ends char head).1]
      rfl

theorem scanNumber_sound {text rest : List Char} {literal : Literal}
    (scanned : scanNumber text = some (literal, rest)) :
    ∃ used, NumberText literal used ∧ text = used ++ rest := by
  obtain ⟨minus, isMinus, minusSplit⟩ := scanMinus_sound text
  unfold scanNumber at scanned
  generalize scanMinus text = minusScan at isMinus minusSplit scanned
  obtain ⟨negative, afterMinus⟩ := minusScan
  obtain ⟨⟨whole, afterWhole⟩, wholeScanned, scanned⟩ := Option.bind_eq_some_iff.mp scanned
  obtain ⟨⟨fraction, afterFraction⟩, fractionScanned, scanned⟩ :=
    Option.bind_eq_some_iff.mp scanned
  obtain ⟨⟨exponentNegative, exponent, afterExponent⟩, exponentScanned, built⟩ :=
    Option.bind_eq_some_iff.mp scanned
  cases built
  obtain ⟨isWhole, rfl⟩ := scanWhole_sound wholeScanned
  obtain ⟨fractionText, isFraction, rfl⟩ := scanFraction_sound fractionScanned
  obtain ⟨exponentText, isExponent, rfl⟩ := scanExponent_sound exponentScanned
  refine ⟨_, .mk isMinus isWhole isFraction isExponent, ?_⟩
  rw [minusSplit]
  simp only [List.append_assoc]

theorem ExponentText.ends {negative : Bool} {digits exponent : List Char}
    (isExponent : ExponentText negative digits exponent) {rest : List Char}
    (ends : NumberEnds rest) :
    ∀ char ∈ (exponent ++ rest).head?, char.isDigit = false ∧ char ≠ '.' := by
  cases isExponent with
  | absent =>
      intro char head
      exact ⟨(ends char head).1, (ends char head).2.1⟩
  | present isMark =>
      intro char head
      cases head
      rcases isMark with rfl | rfl <;> decide

theorem FractionText.ends {digits fraction : List Char} (isFraction : FractionText digits fraction)
    {rest : List Char} (ends : ∀ char ∈ rest.head?, char.isDigit = false) :
    ∀ char ∈ (fraction ++ rest).head?, char.isDigit = false := by
  cases isFraction with
  | absent => exact ends
  | present =>
      intro char head
      cases head
      decide

theorem WholeText.not_minus {whole : List Char} (isWhole : WholeText whole) (rest : List Char) :
    ∀ char ∈ (whole ++ rest).head?, char ≠ '-' := by
  cases isWhole with
  | zero =>
      intro char head
      cases head
      decide
  | digits _ all =>
      intro char head minus
      cases head
      have isDigit := all _ List.mem_cons_self
      rw [minus] at isDigit
      cases isDigit

theorem scanNumber_complete {literal : Literal} {text rest : List Char}
    (isNumber : NumberText literal text) (ends : NumberEnds rest) :
    scanNumber (text ++ rest) = some (literal, rest) := by
  cases isNumber with
  | mk isMinus isWhole isFraction isExponent =>
      have afterFraction := isExponent.ends ends
      have afterWhole := isFraction.ends fun char head => (afterFraction char head).1
      unfold scanNumber
      simp only [List.append_assoc]
      rw [scanMinus_complete isMinus (isWhole.not_minus _)]
      dsimp only
      rw [scanWhole_complete isWhole afterWhole]
      dsimp only [Option.bind_eq_bind, Option.bind_some]
      rw [scanFraction_complete isFraction afterFraction]
      dsimp only [Option.bind_some]
      rw [scanExponent_complete isExponent ends]
      rfl

/-!
## Strings
-/

theorem scanItems_sound {text rest : List Char} {items : List Item}
    (scanned : scanItems text = some (items, rest)) :
    ∃ used, ItemsText items used ∧ text = used ++ '"' :: rest := by
  fun_induction scanItems text generalizing items rest with
  | case1 => cases scanned
  | case2 tail =>
      cases scanned
      exact ⟨[], .nil, rfl⟩
  | case3 first second third fourth tail ih =>
      simp only [Option.bind_eq_bind, Option.bind_eq_some_iff, Option.some.injEq, Prod.exists,
        Prod.mk.injEq] at scanned
      obtain ⟨a, isA, b, isB, c, isC, d, isD, others, _, tailScanned, rfl, rfl⟩ := scanned
      obtain ⟨used, itemsUsed, rfl⟩ := ih tailScanned
      exact ⟨_, .cons (.unicode isA isB isC isD) itemsUsed, rfl⟩
  | case4 char tail _ known ih =>
      simp only [Option.bind_eq_bind, Option.bind_eq_some_iff, Option.some.injEq, Prod.exists,
        Prod.mk.injEq] at scanned
      obtain ⟨others, _, tailScanned, rfl, rfl⟩ := scanned
      obtain ⟨used, itemsUsed, rfl⟩ := ih tailScanned
      exact ⟨_, .cons (.escape known) itemsUsed, rfl⟩
  | case5 => cases scanned
  | case6 char tail notQuote _ _ allowed ih =>
      simp only [Option.bind_eq_bind, Option.bind_eq_some_iff, Option.some.injEq, Prod.exists,
        Prod.mk.injEq] at scanned
      obtain ⟨others, _, tailScanned, rfl, rfl⟩ := scanned
      obtain ⟨used, itemsUsed, rfl⟩ := ih tailScanned
      exact ⟨_, .cons (.plain allowed.1 notQuote allowed.2) itemsUsed, rfl⟩
  | case7 => cases scanned

theorem scanItems_item {item : Item} {text : List Char} (isItem : ItemText item text)
    (rest : List Char) :
    scanItems (text ++ rest) =
      (scanItems rest).map fun (items, rest) => (item :: items, rest) := by
  cases isItem with
  | @plain char allowed notQuote notEscape =>
      have scanned : scanItems (char :: rest) =
          (if 32 ≤ char.toNat ∧ char ≠ '\\' then do
            let (items, rest) ← scanItems rest
            some (.plain char :: items, rest)
          else none) := by
        rw [scanItems]
        all_goals intros; contradiction
      rw [List.cons_append, List.nil_append, scanned, if_pos ⟨allowed, notEscape⟩]
      cases scanItems rest <;> rfl
  | @escape char known =>
      have notUnicode : char ≠ 'u' := by
        intro same
        rw [same] at known
        exact absurd known (by decide)
      rw [List.cons_append, List.cons_append, List.nil_append, scanItems]
      · rw [if_pos known]
        cases scanItems rest <;> rfl
      · intro _ _ _ _ _ isUnicode _
        exact notUnicode isUnicode
  | unicode isA isB isC isD =>
      simp only [List.cons_append, List.nil_append]
      rw [scanItems, isA, isB, isC, isD]
      cases scanItems rest <;> rfl

theorem scanItems_complete {items : List Item} {text : List Char} (isItems : ItemsText items text)
    (rest : List Char) : scanItems (text ++ '"' :: rest) = some (items, rest) := by
  induction isItems with
  | nil => simp [scanItems]
  | cons isItem _ ih =>
      rw [List.append_assoc, scanItems_item isItem, ih]
      rfl

/-!
## Soundness
-/

/-- A reader of values that reads what the grammar derives. -/
def Reads (value : List Char → Option (Json × List Char)) : Prop :=
  ∀ {text rest json}, value text = some (json, rest) →
    ∃ used, Derives (.value json) used ∧ text = used ++ rest

theorem parseElement_sound {value : List Char → Option (Json × List Char)} (reads : Reads value)
    {text rest : List Char} {json : Json}
    (parsed : parseElement value text = some (json, rest)) :
    ∃ used, Derives (.element json) used ∧ text = used ++ rest := by
  simp only [parseElement, Option.bind_eq_bind, Option.bind_eq_some_iff, Option.some.injEq,
    Prod.exists, Prod.mk.injEq] at parsed
  obtain ⟨read, afterValue, valueRead, rfl, rfl⟩ := parsed
  obtain ⟨before, beforeSpace, split⟩ := skipSpace_split text
  obtain ⟨used, derived, valueSplit⟩ := reads valueRead
  obtain ⟨after, afterSpace, afterSplit⟩ := skipSpace_split afterValue
  refine ⟨_, .element beforeSpace derived afterSpace, ?_⟩
  rw [List.append_assoc, List.append_assoc, ← afterSplit, ← valueSplit, ← split]

theorem parseMember_sound {value : List Char → Option (Json × List Char)} (reads : Reads value)
    {text rest : List Char} {entry : List Item × Json}
    (parsed : parseMember value text = some (entry, rest)) :
    ∃ used, Derives (.member entry.1 entry.2) used ∧ text = used ++ rest := by
  unfold parseMember at parsed
  obtain ⟨before, beforeSpace, split⟩ := skipSpace_split text
  split at parsed
  · next afterQuote quoted =>
      simp only [Option.bind_eq_bind, Option.bind_eq_some_iff, Prod.exists] at parsed
      obtain ⟨name, afterName, nameScanned, parsed⟩ := parsed
      obtain ⟨nameText, nameItems, rfl⟩ := scanItems_sound nameScanned
      obtain ⟨after, afterSpace, afterSplit⟩ := skipSpace_split afterName
      split at parsed
      · next afterColon colon =>
          simp only [Option.bind_eq_some_iff, Option.some.injEq, Prod.exists,
            Prod.mk.injEq] at parsed
          obtain ⟨json, _, elementParsed, rfl, rfl⟩ := parsed
          obtain ⟨used, derived, rfl⟩ := parseElement_sound reads elementParsed
          refine ⟨_, .member beforeSpace nameItems afterSpace derived, ?_⟩
          rw [split, quoted, afterSplit, colon]
          simp only [List.append_assoc, List.cons_append]
      · cases parsed
  · cases parsed

/-- A reader of the elements of an array, up to the closing bracket. -/
def ReadsElements (elements : List Char → Option (List Json × List Char)) : Prop :=
  ∀ {text rest jsons}, elements text = some (jsons, rest) →
    ∃ used, Derives (.elements jsons) used ∧ text = used ++ ']' :: rest

/-- A reader of the members of an object, up to the closing brace. -/
def ReadsMembers (members : List Char → Option (List (List Item × Json) × List Char)) : Prop :=
  ∀ {text rest entries}, members text = some (entries, rest) →
    ∃ used, Derives (.members entries) used ∧ text = used ++ '\x7d' :: rest

section Step

variable {fuel : Nat}

theorem parseValue_sound (elementsSound : ReadsElements (parseElements fuel))
    (membersSound : ReadsMembers (parseMembers fuel)) : Reads (parseValue (fuel + 1)) := by
  intro text rest json parsed
  unfold parseValue at parsed
  dsimp only at parsed
  split at parsed
  · cases parsed
    exact ⟨_, .literalNull, rfl⟩
  · cases parsed
    exact ⟨_, .literalTrue, rfl⟩
  · cases parsed
    exact ⟨_, .literalFalse, rfl⟩
  · next afterQuote =>
      obtain ⟨⟨items, _⟩, scanned, same⟩ := Option.map_eq_some_iff.mp parsed
      cases same
      obtain ⟨used, isItems, rfl⟩ := scanItems_sound scanned
      exact ⟨_, .string isItems, by simp⟩
  · next afterBracket =>
      split at parsed
      · next closed =>
          cases parsed
          obtain ⟨space, isSpace, split⟩ := skipSpace_split afterBracket
          refine ⟨_, .emptyArray isSpace, ?_⟩
          rw [split, closed]
          simp
      · obtain ⟨⟨jsons, _⟩, elementsParsed, same⟩ := Option.map_eq_some_iff.mp parsed
        cases same
        obtain ⟨used, derived, rfl⟩ := elementsSound elementsParsed
        exact ⟨_, .array derived, by simp⟩
  · next afterBrace =>
      split at parsed
      · next closed =>
          cases parsed
          obtain ⟨space, isSpace, split⟩ := skipSpace_split afterBrace
          refine ⟨_, .emptyObject isSpace, ?_⟩
          rw [split, closed]
          simp
      · obtain ⟨⟨entries, _⟩, membersParsed, same⟩ := Option.map_eq_some_iff.mp parsed
        cases same
        obtain ⟨used, derived, rfl⟩ := membersSound membersParsed
        exact ⟨_, .object derived, by simp⟩
  · obtain ⟨⟨literal, _⟩, scanned, same⟩ := Option.map_eq_some_iff.mp parsed
    cases same
    obtain ⟨used, isNumber, rfl⟩ := scanNumber_sound scanned
    exact ⟨_, .number isNumber, rfl⟩

theorem parseElements_sound (reads : Reads (parseValue fuel))
    (elementsSound : ReadsElements (parseElements fuel)) :
    ReadsElements (parseElements (fuel + 1)) := by
  intro text rest jsons parsed
  simp only [parseElements, Option.bind_eq_bind, Option.bind_eq_some_iff, Prod.exists] at parsed
  obtain ⟨json, afterElement, elementParsed, parsed⟩ := parsed
  obtain ⟨used, derived, rfl⟩ := parseElement_sound reads elementParsed
  split at parsed
  · cases parsed
    exact ⟨_, .lastElement derived, rfl⟩
  · obtain ⟨⟨others, _⟩, othersParsed, same⟩ := Option.map_eq_some_iff.mp parsed
    cases same
    obtain ⟨othersUsed, othersDerived, rfl⟩ := elementsSound othersParsed
    exact ⟨_, .elements derived othersDerived, by simp⟩
  · cases parsed

theorem parseMembers_sound (reads : Reads (parseValue fuel))
    (membersSound : ReadsMembers (parseMembers fuel)) :
    ReadsMembers (parseMembers (fuel + 1)) := by
  intro text rest entries parsed
  simp only [parseMembers, Option.bind_eq_bind, Option.bind_eq_some_iff, Prod.exists] at parsed
  obtain ⟨name, json, afterMember, memberParsed, parsed⟩ := parsed
  obtain ⟨used, derived, rfl⟩ := parseMember_sound reads memberParsed
  split at parsed
  · cases parsed
    exact ⟨_, .lastMember derived, rfl⟩
  · obtain ⟨⟨others, _⟩, othersParsed, same⟩ := Option.map_eq_some_iff.mp parsed
    cases same
    obtain ⟨othersUsed, othersDerived, rfl⟩ := membersSound othersParsed
    exact ⟨_, .members derived othersDerived, by simp⟩
  · cases parsed

end Step

theorem parse_sound_of_fuel (fuel : Nat) :
    Reads (parseValue fuel) ∧ ReadsElements (parseElements fuel) ∧
      ReadsMembers (parseMembers fuel) := by
  induction fuel with
  | zero => exact ⟨nofun, nofun, nofun⟩
  | succ fuel ih =>
      obtain ⟨reads, elementsSound, membersSound⟩ := ih
      exact ⟨parseValue_sound elementsSound membersSound,
        parseElements_sound reads elementsSound, parseMembers_sound reads membersSound⟩

/-!
## Completeness
-/

theorem NumberText.head {literal : Literal} {text : List Char} (isNumber : NumberText literal text) :
    ∃ char tail, text = char :: tail ∧ (char = '-' ∨ char.isDigit = true) := by
  cases isNumber with
  | mk isMinus isWhole isFraction isExponent =>
      cases isMinus with
      | present => exact ⟨_, _, rfl, .inl rfl⟩
      | absent =>
          obtain ⟨nonempty, all⟩ := isWhole.allDigits
          obtain ⟨char, tail, rfl⟩ := List.exists_cons_of_ne_nil nonempty
          exact ⟨char, _, rfl, .inr (all char List.mem_cons_self)⟩

theorem Derives.value_head {json : Json} {text : List Char} (derived : Derives (.value json) text) :
    ∃ char tail, text = char :: tail ∧ isSpace char = false ∧ char ≠ ']' := by
  cases derived with
  | number isNumber =>
      obtain ⟨char, tail, same, minus | isDigit⟩ := isNumber.head
      · exact ⟨char, tail, same, by rw [minus]; decide, by rw [minus]; decide⟩
      · refine ⟨char, tail, same, isDigit_not_space isDigit, ?_⟩
        intro bracket
        rw [bracket] at isDigit
        cases isDigit
  | _ => exact ⟨_, _, rfl, by decide, by decide⟩

theorem Derives.element_head {json : Json} {text : List Char}
    (derived : Derives (.element json) text) (rest : List Char) :
    ∃ char tail, skipSpace (text ++ rest) = char :: tail ∧ char ≠ ']' := by
  cases derived with
  | @element _ _ _ after beforeSpace valueDerived afterSpace =>
      obtain ⟨char, tail, rfl, notSpace, notBracket⟩ := valueDerived.value_head
      refine ⟨char, tail ++ (after ++ rest), ?_, notBracket⟩
      rw [List.append_assoc, List.append_assoc, skipSpace_append beforeSpace, List.cons_append,
        skipSpace_cons notSpace]

theorem Derives.elements_head {jsons : List Json} {text : List Char}
    (derived : Derives (.elements jsons) text) (rest : List Char) :
    ∃ char tail, skipSpace (text ++ rest) = char :: tail ∧ char ≠ ']' := by
  cases derived with
  | lastElement derived => exact derived.element_head rest
  | elements derived =>
      rw [List.append_assoc]
      exact derived.element_head _

theorem Derives.member_head {name : List Item} {json : Json} {text : List Char}
    (derived : Derives (.member name json) text) (rest : List Char) :
    ∃ tail, skipSpace (text ++ rest) = '"' :: tail := by
  cases derived with
  | member beforeSpace =>
      simp only [List.append_assoc, List.cons_append]
      rw [skipSpace_append beforeSpace, skipSpace_cons (by decide)]
      exact ⟨_, rfl⟩

theorem Derives.members_head {entries : List (List Item × Json)} {text : List Char}
    (derived : Derives (.members entries) text) (rest : List Char) :
    ∃ tail, skipSpace (text ++ rest) = '"' :: tail := by
  cases derived with
  | lastMember derived => exact derived.member_head rest
  | members derived =>
      rw [List.append_assoc]
      exact derived.member_head _

theorem parseValue_number {char : Char} (head : char = '-' ∨ char.isDigit = true)
    (fuel : Nat) (tail : List Char) :
    parseValue (fuel + 1) (char :: tail) =
      (scanNumber (char :: tail)).map fun (literal, rest) => (.number literal, rest) := by
  unfold parseValue
  dsimp only
  split
  case h_7 => rfl
  all_goals
    rename_i same
    obtain rfl := (List.cons.inj same).1
    rcases head with minus | isDigit
    · cases minus
    · cases isDigit

theorem parseValue_bracket (fuel : Nat) (rest : List Char) :
    parseValue (fuel + 1) ('[' :: rest) =
      match skipSpace rest with
      | ']' :: rest => some (.array [], rest)
      | _ => (parseElements fuel rest).map fun (jsons, rest) => (.array jsons, rest) := rfl

theorem parseValue_brace (fuel : Nat) (rest : List Char) :
    parseValue (fuel + 1) ('\x7b' :: rest) =
      match skipSpace rest with
      | '\x7d' :: rest => some (.object [], rest)
      | _ => (parseMembers fuel rest).map fun (entries, rest) => (.object entries, rest) := rfl

theorem parseValue_array {rest tail : List Char} {char : Char}
    (head : skipSpace rest = char :: tail) (notBracket : char ≠ ']') (fuel : Nat) :
    parseValue (fuel + 1) ('[' :: rest) =
      (parseElements fuel rest).map fun (jsons, rest) => (.array jsons, rest) := by
  rw [parseValue_bracket]
  split
  · next closed =>
      rw [head] at closed
      exact absurd (List.cons.inj closed).1 notBracket
  · rfl

theorem parseValue_object {rest tail : List Char} {char : Char}
    (head : skipSpace rest = char :: tail) (notBrace : char ≠ '\x7d') (fuel : Nat) :
    parseValue (fuel + 1) ('\x7b' :: rest) =
      (parseMembers fuel rest).map fun (entries, rest) => (.object entries, rest) := by
  rw [parseValue_brace]
  split
  · next closed =>
      rw [head] at closed
      exact absurd (List.cons.inj closed).1 notBrace
  · rfl

theorem parseValue_emptyArray {space : List Char} (isSpaces : Space space) (fuel : Nat)
    (rest : List Char) :
    parseValue (fuel + 1) ('[' :: (space ++ ']' :: rest)) = some (.array [], rest) := by
  rw [parseValue_bracket, skipSpace_append isSpaces, skipSpace_cons (by decide)]
  rfl

theorem parseValue_emptyObject {space : List Char} (isSpaces : Space space) (fuel : Nat)
    (rest : List Char) :
    parseValue (fuel + 1) ('\x7b' :: (space ++ '\x7d' :: rest)) = some (.object [], rest) := by
  rw [parseValue_brace, skipSpace_append isSpaces, skipSpace_cons (by decide)]
  rfl

/-- With enough fuel the parser reads every text that the grammar derives, up to
where the phrase ends. -/
def Complete (phrase : Phrase) (text : List Char) : Prop :=
  match phrase with
  | .value json => ∀ fuel rest, 2 * text.length ≤ fuel → NumberEnds rest →
      parseValue fuel (text ++ rest) = some (json, rest)
  | .element json => ∀ fuel rest, 2 * text.length ≤ fuel → NumberEnds rest →
      skipSpace rest = rest → parseElement (parseValue fuel) (text ++ rest) = some (json, rest)
  | .elements jsons => ∀ fuel rest, 2 * text.length < fuel →
      parseElements fuel (text ++ ']' :: rest) = some (jsons, rest)
  | .member name json => ∀ fuel rest, 2 * text.length ≤ fuel → NumberEnds rest →
      skipSpace rest = rest →
        parseMember (parseValue fuel) (text ++ rest) = some ((name, json), rest)
  | .members entries => ∀ fuel rest, 2 * text.length < fuel →
      parseMembers fuel (text ++ '\x7d' :: rest) = some (entries, rest)

theorem numberEnds_cons {char : Char} (notDigit : char.isDigit = false) (notPoint : char ≠ '.')
    (notLower : char ≠ 'e') (notUpper : char ≠ 'E') (rest : List Char) :
    NumberEnds (char :: rest) := by
  intro other head
  cases head
  exact ⟨notDigit, notPoint, notLower, notUpper⟩

theorem NumberEnds.space_append {space rest : List Char} (isSpaces : Space space)
    (ends : NumberEnds rest) : NumberEnds (space ++ rest) := by
  cases space with
  | nil => exact ends
  | cons char space =>
      have spaceChar := isSpaces char List.mem_cons_self
      apply numberEnds_cons
      · rw [← Bool.not_eq_true]
        intro isDigit
        rw [isDigit_not_space isDigit] at spaceChar
        cases spaceChar
      all_goals
        intro same
        rw [same] at spaceChar
        cases spaceChar

theorem parseElement_complete {value : List Char → Option (Json × List Char)}
    {before text after rest : List Char} {json : Json} (beforeSpace : Space before)
    (derived : Derives (.value json) text) (afterSpace : Space after)
    (noSpace : skipSpace rest = rest)
    (parsed : value (text ++ (after ++ rest)) = some (json, after ++ rest)) :
    parseElement value (before ++ text ++ after ++ rest) = some (json, rest) := by
  obtain ⟨char, tail, rfl, notSpace, _⟩ := derived.value_head
  unfold parseElement
  rw [List.append_assoc, List.append_assoc, skipSpace_append beforeSpace, List.cons_append,
    skipSpace_cons notSpace]
  rw [List.cons_append] at parsed
  rw [parsed]
  change some (json, skipSpace (after ++ rest)) = _
  rw [skipSpace_append afterSpace, noSpace]

theorem parseMember_complete {value : List Char → Option (Json × List Char)}
    {text afterQuote afterName afterColon rest : List Char} {name : List Item} {json : Json}
    (quoted : skipSpace text = '"' :: afterQuote)
    (scanned : scanItems afterQuote = some (name, afterName))
    (colon : skipSpace afterName = ':' :: afterColon)
    (parsed : parseElement value afterColon = some (json, rest)) :
    parseMember value text = some ((name, json), rest) := by
  simp only [parseMember, quoted, scanned, colon, parsed, Option.bind_eq_bind, Option.bind_some]

theorem parseElements_closed {fuel : Nat} {text rest : List Char} {json : Json}
    (parsed : parseElement (parseValue fuel) text = some (json, ']' :: rest)) :
    parseElements (fuel + 1) text = some ([json], rest) := by
  simp only [parseElements, parsed, Option.bind_eq_bind, Option.bind_some]

theorem parseElements_comma {fuel : Nat} {text others rest : List Char} {json : Json}
    {jsons : List Json}
    (parsed : parseElement (parseValue fuel) text = some (json, ',' :: others))
    (othersParsed : parseElements fuel others = some (jsons, rest)) :
    parseElements (fuel + 1) text = some (json :: jsons, rest) := by
  simp only [parseElements, parsed, othersParsed, Option.bind_eq_bind, Option.bind_some,
    Option.map_some]

theorem parseMembers_closed {fuel : Nat} {text rest : List Char} {entry : List Item × Json}
    (parsed : parseMember (parseValue fuel) text = some (entry, '\x7d' :: rest)) :
    parseMembers (fuel + 1) text = some ([entry], rest) := by
  simp only [parseMembers, parsed, Option.bind_eq_bind, Option.bind_some]

theorem parseMembers_comma {fuel : Nat} {text others rest : List Char} {entry : List Item × Json}
    {entries : List (List Item × Json)}
    (parsed : parseMember (parseValue fuel) text = some (entry, ',' :: others))
    (othersParsed : parseMembers fuel others = some (entries, rest)) :
    parseMembers (fuel + 1) text = some (entry :: entries, rest) := by
  simp only [parseMembers, parsed, othersParsed, Option.bind_eq_bind, Option.bind_some,
    Option.map_some]

section Phrases

variable {json : Json} {jsons : List Json} {name : List Item} {entries : List (List Item × Json)}
  {text others : List Char}

theorem Complete.array (derived : Derives (.elements jsons) text)
    (complete : Complete (.elements jsons) text) :
    Complete (.value (.array jsons)) ('[' :: text ++ [']']) := by
  intro fuel rest enough _
  cases fuel with
  | zero => cases enough
  | succ fuel =>
      obtain ⟨char, tail, head, notBracket⟩ := derived.elements_head (']' :: rest)
      simp only [List.length_append, List.length_cons, List.length_nil] at enough
      have parsed := complete fuel rest (by omega)
      have shape : '[' :: text ++ [']'] ++ rest = '[' :: (text ++ ']' :: rest) := by simp
      rw [shape, parseValue_array head notBracket, parsed]
      rfl

theorem Complete.object (derived : Derives (.members entries) text)
    (complete : Complete (.members entries) text) :
    Complete (.value (.object entries)) ('\x7b' :: text ++ ['\x7d']) := by
  intro fuel rest enough _
  cases fuel with
  | zero => cases enough
  | succ fuel =>
      obtain ⟨tail, head⟩ := derived.members_head ('\x7d' :: rest)
      simp only [List.length_append, List.length_cons, List.length_nil] at enough
      have parsed := complete fuel rest (by omega)
      have shape : '\x7b' :: text ++ ['\x7d'] ++ rest = '\x7b' :: (text ++ '\x7d' :: rest) := by
        simp
      rw [shape, parseValue_object head (by decide), parsed]
      rfl

theorem Complete.lastElement (complete : Complete (.element json) text) :
    Complete (.elements [json]) text := by
  intro fuel rest enough
  cases fuel with
  | zero => cases enough
  | succ fuel =>
      apply parseElements_closed
      exact complete fuel (']' :: rest) (by omega)
        (numberEnds_cons (by decide) (by decide) (by decide) (by decide) rest)
        (skipSpace_cons (by decide) rest)

theorem Complete.elements (complete : Complete (.element json) text)
    (othersComplete : Complete (.elements jsons) others) :
    Complete (.elements (json :: jsons)) (text ++ ',' :: others) := by
  intro fuel rest enough
  cases fuel with
  | zero => cases enough
  | succ fuel =>
      simp only [List.length_append, List.length_cons] at enough
      have parsed := complete fuel (',' :: (others ++ ']' :: rest)) (by omega)
        (numberEnds_cons (by decide) (by decide) (by decide) (by decide) _)
        (skipSpace_cons (by decide) _)
      have othersParsed := othersComplete fuel rest (by omega)
      rw [List.append_assoc, List.cons_append]
      exact parseElements_comma parsed othersParsed

theorem Complete.member {before nameText after : List Char} (beforeSpace : Space before)
    (isName : ItemsText name nameText) (afterSpace : Space after)
    (complete : Complete (.element json) text) :
    Complete (.member name json) (before ++ '"' :: nameText ++ '"' :: after ++ ':' :: text) := by
  intro fuel rest enough ends noSpace
  simp only [List.length_append, List.length_cons] at enough
  have parsed := complete fuel rest (by omega) ends noSpace
  simp only [List.append_assoc, List.cons_append]
  have quoted (tail : List Char) : skipSpace (before ++ '"' :: tail) = '"' :: tail := by
    rw [skipSpace_append beforeSpace, skipSpace_cons (by decide)]
  have colon (tail : List Char) : skipSpace (after ++ ':' :: tail) = ':' :: tail := by
    rw [skipSpace_append afterSpace, skipSpace_cons (by decide)]
  exact parseMember_complete (quoted _) (scanItems_complete isName _) (colon _) parsed

theorem Complete.lastMember (complete : Complete (.member name json) text) :
    Complete (.members [(name, json)]) text := by
  intro fuel rest enough
  cases fuel with
  | zero => cases enough
  | succ fuel =>
      apply parseMembers_closed
      exact complete fuel ('\x7d' :: rest) (by omega)
        (numberEnds_cons (by decide) (by decide) (by decide) (by decide) rest)
        (skipSpace_cons (by decide) rest)

theorem Complete.members (complete : Complete (.member name json) text)
    (othersComplete : Complete (.members entries) others) :
    Complete (.members ((name, json) :: entries)) (text ++ ',' :: others) := by
  intro fuel rest enough
  cases fuel with
  | zero => cases enough
  | succ fuel =>
      simp only [List.length_append, List.length_cons] at enough
      have parsed := complete fuel (',' :: (others ++ '\x7d' :: rest)) (by omega)
        (numberEnds_cons (by decide) (by decide) (by decide) (by decide) _)
        (skipSpace_cons (by decide) _)
      have othersParsed := othersComplete fuel rest (by omega)
      rw [List.append_assoc, List.cons_append]
      exact parseMembers_comma parsed othersParsed

end Phrases

theorem complete {phrase : Phrase} {text : List Char} (derived : Derives phrase text) :
    Complete phrase text := by
  induction derived with
  | literalNull | literalTrue | literalFalse =>
      intro fuel rest enough _
      cases fuel with
      | zero => cases enough
      | succ fuel => rfl
  | number isNumber =>
      intro fuel rest enough ends
      obtain ⟨char, tail, rfl, head⟩ := isNumber.head
      cases fuel with
      | zero => cases enough
      | succ fuel =>
          rw [List.cons_append, parseValue_number head, ← List.cons_append,
            scanNumber_complete isNumber ends]
          rfl
  | @string items text isItems =>
      intro fuel rest enough _
      cases fuel with
      | zero => cases enough
      | succ fuel =>
          have closed : text ++ ['"'] ++ rest = text ++ '"' :: rest := by simp
          change (scanItems (text ++ ['"'] ++ rest)).map _ = _
          rw [closed, scanItems_complete isItems]
          rfl
  | emptyArray isSpaces =>
      intro fuel rest enough _
      cases fuel with
      | zero => cases enough
      | succ fuel =>
          have parsed := parseValue_emptyArray isSpaces fuel rest
          simpa using parsed
  | array derived ih => exact ih.array derived
  | emptyObject isSpaces =>
      intro fuel rest enough _
      cases fuel with
      | zero => cases enough
      | succ fuel =>
          have parsed := parseValue_emptyObject isSpaces fuel rest
          simpa using parsed
  | object derived ih => exact ih.object derived
  | element beforeSpace derived afterSpace ih =>
      intro fuel rest enough ends noSpace
      apply parseElement_complete beforeSpace derived afterSpace noSpace
      simp only [List.length_append] at enough
      exact ih fuel _ (by omega) (ends.space_append afterSpace)
  | lastElement _ ih => exact ih.lastElement
  | elements _ _ ih othersIH => exact ih.elements othersIH
  | member beforeSpace isName afterSpace _ ih => exact ih.member beforeSpace isName afterSpace
  | lastMember _ ih => exact ih.lastMember
  | members _ _ ih othersIH => exact ih.members othersIH

/-- The parser reads exactly the JSON texts, each as its tree. -/
theorem parse_eq_some {text : List Char} {json : Json} :
    parse text = some json ↔ IsText json text := by
  constructor
  · intro parsed
    unfold parse at parsed
    split at parsed
    · next elementParsed =>
        cases parsed
        obtain ⟨used, derived, rfl⟩ :=
          parseElement_sound (parse_sound_of_fuel _).1 elementParsed
        rw [List.append_nil]
        exact derived
    · cases parsed
  · intro derived
    have parsed := complete derived (2 * text.length) [] le_rfl nofun rfl
    rw [List.append_nil] at parsed
    rw [parse, parsed]

/-- A text has one tree at most. -/
theorem IsText.unique {text : List Char} {left right : Json} (leftText : IsText left text)
    (rightText : IsText right text) : left = right :=
  Option.some.inj ((parse_eq_some.mpr leftText).symm.trans (parse_eq_some.mpr rightText))

end Json
