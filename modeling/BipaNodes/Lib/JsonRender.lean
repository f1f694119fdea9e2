import BipaNodes.Lib.JsonProperties

/-!
# Compact JSON texts

One text without white space for every tree that has a text at all.
-/

set_option autoImplicit false

namespace Json

/-!
## Rendering
-/

def hexChars (unit : Nat) : List Char :=
  [Nat.digitChar (unit / 16 / 16 / 16), Nat.digitChar (unit / 16 / 16 % 16),
    Nat.digitChar (unit / 16 % 16), Nat.digitChar (unit % 16)]

def Item.render : Item → List Char
  | .plain char => [char]
  | .escape char => ['\\', char]
  | .unicode unit => '\\' :: 'u' :: hexChars unit

def renderItems (items : List Item) : List Char := items.flatMap Item.render

def renderFraction (fraction : List Char) : List Char :=
  if fraction = [] then [] else '.' :: fraction

def renderExponent (negative : Bool) (exponent : List Char) : List Char :=
  if exponent = [] then [] else 'e' :: (if negative then ['-'] else []) ++ exponent

def Literal.render (literal : Literal) : List Char :=
  (if literal.negative then ['-'] else []) ++ literal.whole ++
    renderFraction literal.fraction ++ renderExponent literal.exponentNegative literal.exponent

mutual

def render : Json → List Char
  | .null => ['n', 'u', 'l', 'l']
  | .bool true => ['t', 'r', 'u', 'e']
  | .bool false => ['f', 'a', 'l', 's', 'e']
  | .number literal => literal.render
  | .string items => '"' :: renderItems items ++ ['"']
  | .array [] => ['[', ']']
  | .array (json :: jsons) => '[' :: (render json ++ renderOthers jsons) ++ [']']
  | .object [] => ['\x7b', '\x7d']
  | .object ((name, json) :: entries) =>
      '\x7b' :: ('"' :: renderItems name ++ '"' :: ':' :: render json ++ renderEntries entries) ++
        ['\x7d']

/-- The elements after the first. -/
def renderOthers : List Json → List Char
  | [] => []
  | json :: jsons => ',' :: render json ++ renderOthers jsons

/-- The members after the first. -/
def renderEntries : List (List Item × Json) → List Char
  | [] => []
  | (name, json) :: entries =>
      ',' :: ('"' :: renderItems name ++ '"' :: ':' :: render json) ++ renderEntries entries

end

/-!
## Trees with a text
-/

def Item.Valid : Item → Prop
  | .plain char => 32 ≤ char.toNat ∧ char ≠ '"' ∧ char ≠ '\\'
  | .escape char => char ∈ ['"', '\\', '/', 'b', 'f', 'n', 'r', 't']
  | .unicode unit => unit < 0x10000

structure Literal.Valid (literal : Literal) : Prop where
  whole : WholeText literal.whole
  fraction : Decimal.AllDigits literal.fraction
  exponent : Decimal.AllDigits literal.exponent
  positive_of_absent : literal.exponent = [] → literal.exponentNegative = false

inductive Valid : Json → Prop where
  | null : Valid .null
  | bool {value : Bool} : Valid (.bool value)
  | number {literal : Literal} : literal.Valid → Valid (.number literal)
  | string {items : List Item} : (∀ item ∈ items, item.Valid) → Valid (.string items)
  | array {elements : List Json} : (∀ element ∈ elements, Valid element) → Valid (.array elements)
  | object {members : List (List Item × Json)} :
      (∀ member ∈ members, ∀ item ∈ member.1, item.Valid) →
      (∀ member ∈ members, Valid member.2) → Valid (.object members)

theorem hexDigit_digitChar {digit : Nat} (small : digit < 16) :
    Decimal.hexDigit (Nat.digitChar digit) = some digit := by
  revert digit
  decide

theorem itemText_render {item : Item} (valid : item.Valid) : ItemText item item.render := by
  cases item with
  | plain char => exact .plain valid.1 valid.2.1 valid.2.2
  | escape char => exact .escape valid
  | unicode unit =>
      have small : unit < 0x10000 := valid
      have leading : unit / 16 / 16 / 16 < 16 := by omega
      have text := ItemText.unicode (hexDigit_digitChar leading)
        (hexDigit_digitChar (Nat.mod_lt (unit / 16 / 16) (by decide)))
        (hexDigit_digitChar (Nat.mod_lt (unit / 16) (by decide)))
        (hexDigit_digitChar (Nat.mod_lt unit (by decide)))
      have value : ((unit / 16 / 16 / 16 * 16 + unit / 16 / 16 % 16) * 16 + unit / 16 % 16) * 16 +
          unit % 16 = unit := by
        omega
      rw [value] at text
      exact text

theorem itemsText_render {items : List Item} (valid : ∀ item ∈ items, item.Valid) :
    ItemsText items (renderItems items) := by
  induction items with
  | nil => exact .nil
  | cons item items ih =>
      obtain ⟨itemValid, othersValid⟩ := List.forall_mem_cons.mp valid
      exact .cons (itemText_render itemValid) (ih othersValid)

theorem numberText_render {literal : Literal} (valid : literal.Valid) :
    NumberText literal literal.render := by
  obtain ⟨negative, whole, fraction, exponentNegative, exponent⟩ := literal
  have minus : MinusText negative (if negative then ['-'] else []) := by
    cases negative with
    | false => exact .absent
    | true => exact .present
  have fractionText : FractionText fraction (renderFraction fraction) := by
    cases fraction with
    | nil => exact .absent
    | cons digit digits => exact .present (List.cons_ne_nil digit digits) valid.fraction
  have exponentText : ExponentText exponentNegative exponent
      (renderExponent exponentNegative exponent) := by
    cases exponent with
    | nil =>
        have positive := valid.positive_of_absent rfl
        simp only at positive
        rw [positive]
        exact .absent
    | cons digit digits =>
        have sign : SignText exponentNegative (if exponentNegative then ['-'] else []) := by
          cases exponentNegative with
          | false => exact .absent
          | true => exact .minus
        exact .present (.inl rfl) sign (List.cons_ne_nil digit digits) valid.exponent
  exact .mk minus valid.whole fractionText exponentText

theorem space_nil : Space [] := by simp [Space]

theorem Derives.element_of_value {json : Json} {text : List Char}
    (derived : Derives (.value json) text) : Derives (.element json) text := by
  have element : Derives (.element json) ([] ++ text ++ []) :=
    .element space_nil derived space_nil
  rwa [List.nil_append, List.append_nil] at element

theorem Derives.member_of_value {name : List Item} {json : Json} {text : List Char}
    (valid : ∀ item ∈ name, item.Valid) (derived : Derives (.value json) text) :
    Derives (.member name json) ('"' :: renderItems name ++ '"' :: ':' :: text) := by
  have member := Derives.member space_nil (itemsText_render valid) space_nil
    derived.element_of_value
  simpa using member

mutual

theorem derives_render {json : Json} (valid : Valid json) :
    Derives (.value json) (render json) := by
  cases json with
  | null => exact .literalNull
  | bool value =>
      cases value with
      | false => exact .literalFalse
      | true => exact .literalTrue
  | number literal =>
      cases valid with
      | number literalValid => exact .number (numberText_render literalValid)
  | string items =>
      cases valid with
      | string itemsValid => exact .string (itemsText_render itemsValid)
  | array elements =>
      cases valid with
      | array elementsValid =>
          cases elements with
          | nil => exact .emptyArray space_nil
          | cons json jsons =>
              obtain ⟨valid, othersValid⟩ := List.forall_mem_cons.mp elementsValid
              exact .array (derives_renderOthers (derives_render valid) othersValid)
  | object members =>
      cases valid with
      | object namesValid valuesValid =>
          cases members with
          | nil => exact .emptyObject space_nil
          | cons member entries =>
              obtain ⟨nameValid, otherNames⟩ := List.forall_mem_cons.mp namesValid
              obtain ⟨valueValid, otherValues⟩ := List.forall_mem_cons.mp valuesValid
              exact .object (derives_renderEntries
                (.member_of_value nameValid (derives_render valueValid)) otherNames otherValues)

theorem derives_renderOthers {json : Json} {jsons : List Json} {text : List Char}
    (derived : Derives (.value json) text) (valid : ∀ element ∈ jsons, Valid element) :
    Derives (.elements (json :: jsons)) (text ++ renderOthers jsons) := by
  cases jsons with
  | nil =>
      rw [renderOthers, List.append_nil]
      exact .lastElement derived.element_of_value
  | cons next others =>
      obtain ⟨nextValid, othersValid⟩ := List.forall_mem_cons.mp valid
      exact .elements derived.element_of_value
        (derives_renderOthers (derives_render nextValid) othersValid)

theorem derives_renderEntries {name : List Item} {json : Json}
    {entries : List (List Item × Json)} {text : List Char}
    (derived : Derives (.member name json) text)
    (namesValid : ∀ member ∈ entries, ∀ item ∈ member.1, item.Valid)
    (valuesValid : ∀ member ∈ entries, Valid member.2) :
    Derives (.members ((name, json) :: entries)) (text ++ renderEntries entries) := by
  cases entries with
  | nil =>
      rw [renderEntries, List.append_nil]
      exact .lastMember derived
  | cons next others =>
      obtain ⟨nextName, otherNames⟩ := List.forall_mem_cons.mp namesValid
      obtain ⟨nextValue, otherValues⟩ := List.forall_mem_cons.mp valuesValid
      exact .members derived (derives_renderEntries
        (.member_of_value nextName (derives_render nextValue)) otherNames otherValues)

end

theorem isText_render {json : Json} (valid : Valid json) : IsText json (render json) :=
  (derives_render valid).element_of_value

end Json
