import BipaNodes.Lib.Decimal

/-!
# JSON texts

The syntax trees of JSON, the grammar that relates them to texts, and a parser.
White space is attached to elements and member names, on either side.
-/

set_option autoImplicit false

namespace Json

/-- A number as it is written. Fraction and exponent have no digits when they
are absent. -/
structure Literal where
  negative : Bool
  whole : List Char
  fraction : List Char
  exponentNegative : Bool
  exponent : List Char
  deriving DecidableEq, Repr

/-- A character of a string, or an escape in the place of one. -/
inductive Item where
  | plain (char : Char)
  | escape (char : Char)
  | unicode (unit : Nat)
  deriving DecidableEq, Repr

end Json

inductive Json where
  | null
  | bool (value : Bool)
  | number (literal : Json.Literal)
  | string (items : List Json.Item)
  | array (elements : List Json)
  | object (members : List (List Json.Item × Json))
  deriving Repr

namespace Json

/-!
## Grammar
-/

def isSpace (char : Char) : Bool := char = ' ' || char = '\t' || char = '\n' || char = '\r'

def Space (text : List Char) : Prop := ∀ char ∈ text, isSpace char = true

inductive MinusText : Bool → List Char → Prop where
  | absent : MinusText false []
  | present : MinusText true ['-']

inductive WholeText : List Char → Prop where
  | zero : WholeText ['0']
  | digits {leading : Char} {rest : List Char} : leading ≠ '0' →
      Decimal.AllDigits (leading :: rest) → WholeText (leading :: rest)

inductive FractionText : List Char → List Char → Prop where
  | absent : FractionText [] []
  | present {digits : List Char} : digits ≠ [] → Decimal.AllDigits digits →
      FractionText digits ('.' :: digits)

inductive SignText : Bool → List Char → Prop where
  | absent : SignText false []
  | plus : SignText false ['+']
  | minus : SignText true ['-']

inductive ExponentText : Bool → List Char → List Char → Prop where
  | absent : ExponentText false [] []
  | present {mark : Char} {negative : Bool} {sign digits : List Char} : mark = 'e' ∨ mark = 'E' →
      SignText negative sign → digits ≠ [] → Decimal.AllDigits digits →
      ExponentText negative digits (mark :: sign ++ digits)

inductive NumberText : Literal → List Char → Prop where
  | mk {negative exponentNegative : Bool}
      {minus whole fraction fractionText exponent exponentText : List Char} :
      MinusText negative minus → WholeText whole → FractionText fraction fractionText →
      ExponentText exponentNegative exponent exponentText →
      NumberText { negative, whole, fraction, exponentNegative, exponent }
        (minus ++ whole ++ fractionText ++ exponentText)

inductive ItemText : Item → List Char → Prop where
  | plain {char : Char} : 32 ≤ char.toNat → char ≠ '"' → char ≠ '\\' →
      ItemText (.plain char) [char]
  | escape {char : Char} : char ∈ ['"', '\\', '/', 'b', 'f', 'n', 'r', 't'] →
      ItemText (.escape char) ['\\', char]
  | unicode {first second third fourth : Char} {a b c d : Nat} :
      Decimal.hexDigit first = some a → Decimal.hexDigit second = some b →
      Decimal.hexDigit third = some c → Decimal.hexDigit fourth = some d →
      ItemText (.unicode (((a * 16 + b) * 16 + c) * 16 + d))
        ['\\', 'u', first, second, third, fourth]

inductive ItemsText : List Item → List Char → Prop where
  | nil : ItemsText [] []
  | cons {item : Item} {items : List Item} {text rest : List Char} : ItemText item text →
      ItemsText items rest → ItemsText (item :: items) (text ++ rest)

/-- The nonterminals of the grammar, with the trees they stand for. -/
inductive Phrase where
  | value (json : Json)
  | element (json : Json)
  | elements (jsons : List Json)
  | member (name : List Item) (json : Json)
  | members (entries : List (List Item × Json))

inductive Derives : Phrase → List Char → Prop where
  | literalNull : Derives (.value .null) ['n', 'u', 'l', 'l']
  | literalTrue : Derives (.value (.bool true)) ['t', 'r', 'u', 'e']
  | literalFalse : Derives (.value (.bool false)) ['f', 'a', 'l', 's', 'e']
  | number {literal : Literal} {text : List Char} : NumberText literal text →
      Derives (.value (.number literal)) text
  | string {items : List Item} {text : List Char} : ItemsText items text →
      Derives (.value (.string items)) ('"' :: text ++ ['"'])
  | emptyArray {space : List Char} : Space space →
      Derives (.value (.array [])) ('[' :: space ++ [']'])
  | array {jsons : List Json} {text : List Char} : Derives (.elements jsons) text →
      Derives (.value (.array jsons)) ('[' :: text ++ [']'])
  | emptyObject {space : List Char} : Space space →
      Derives (.value (.object [])) ('\x7b' :: space ++ ['\x7d'])
  | object {entries : List (List Item × Json)} {text : List Char} :
      Derives (.members entries) text →
      Derives (.value (.object entries)) ('\x7b' :: text ++ ['\x7d'])
  | element {json : Json} {before text after : List Char} : Space before →
      Derives (.value json) text → Space after → Derives (.element json) (before ++ text ++ after)
  | lastElement {json : Json} {text : List Char} : Derives (.element json) text →
      Derives (.elements [json]) text
  | elements {json : Json} {jsons : List Json} {text rest : List Char} :
      Derives (.element json) text → Derives (.elements jsons) rest →
      Derives (.elements (json :: jsons)) (text ++ ',' :: rest)
  | member {name : List Item} {json : Json} {before nameText after text : List Char} :
      Space before → ItemsText name nameText → Space after → Derives (.element json) text →
      Derives (.member name json) (before ++ '"' :: nameText ++ '"' :: after ++ ':' :: text)
  | lastMember {name : List Item} {json : Json} {text : List Char} :
      Derives (.member name json) text → Derives (.members [(name, json)]) text
  | members {name : List Item} {json : Json} {entries : List (List Item × Json)}
      {text rest : List Char} : Derives (.member name json) text →
      Derives (.members entries) rest →
      Derives (.members ((name, json) :: entries)) (text ++ ',' :: rest)

/-- A JSON text is one element. -/
def IsText (json : Json) (text : List Char) : Prop := Derives (.element json) text

/-!
## Scanners
-/

def skipSpace (text : List Char) : List Char := text.dropWhile isSpace

def scanMinus : List Char → Bool × List Char
  | '-' :: rest => (true, rest)
  | text => (false, text)

/-- At least one digit. -/
def scanDigits (text : List Char) : Option (List Char × List Char) :=
  if text.takeWhile Char.isDigit = [] then none
  else some (text.takeWhile Char.isDigit, text.dropWhile Char.isDigit)

def scanWhole : List Char → Option (List Char × List Char)
  | '0' :: rest => some (['0'], rest)
  | text => scanDigits text

def scanFraction : List Char → Option (List Char × List Char)
  | '.' :: rest => scanDigits rest
  | text => some ([], text)

def scanSign : List Char → Bool × List Char
  | '+' :: rest => (false, rest)
  | '-' :: rest => (true, rest)
  | text => (false, text)

def scanExponent : List Char → Option (Bool × List Char × List Char)
  | [] => some (false, [], [])
  | char :: rest =>
      if char = 'e' ∨ char = 'E' then
        (scanDigits (scanSign rest).2).map fun (digits, rest') =>
          ((scanSign rest).1, digits, rest')
      else
        some (false, [], char :: rest)

def scanNumber (text : List Char) : Option (Literal × List Char) := do
  let (negative, rest) := scanMinus text
  let (whole, rest) ← scanWhole rest
  let (fraction, rest) ← scanFraction rest
  let (exponentNegative, exponent, rest) ← scanExponent rest
  some ({ negative, whole, fraction, exponentNegative, exponent }, rest)

/-- The characters of a string up to the closing quote. -/
def scanItems : List Char → Option (List Item × List Char)
  | [] => none
  | '"' :: rest => some ([], rest)
  | '\\' :: 'u' :: first :: second :: third :: fourth :: rest => do
      let a ← Decimal.hexDigit first
      let b ← Decimal.hexDigit second
      let c ← Decimal.hexDigit third
      let d ← Decimal.hexDigit fourth
      let (items, rest) ← scanItems rest
      some (.unicode (((a * 16 + b) * 16 + c) * 16 + d) :: items, rest)
  | '\\' :: char :: rest =>
      if char ∈ ['"', '\\', '/', 'b', 'f', 'n', 'r', 't'] then do
        let (items, rest) ← scanItems rest
        some (.escape char :: items, rest)
      else
        none
  | char :: rest =>
      if 32 ≤ char.toNat ∧ char ≠ '\\' then do
        let (items, rest) ← scanItems rest
        some (.plain char :: items, rest)
      else
        none

/-!
## Parser
-/

def parseElement (value : List Char → Option (Json × List Char)) (text : List Char) :
    Option (Json × List Char) := do
  let (json, rest) ← value (skipSpace text)
  some (json, skipSpace rest)

def parseMember (value : List Char → Option (Json × List Char)) (text : List Char) :
    Option ((List Item × Json) × List Char) :=
  match skipSpace text with
  | '"' :: rest => do
      let (name, rest) ← scanItems rest
      match skipSpace rest with
      | ':' :: rest =>
          let (json, rest) ← parseElement value rest
          some ((name, json), rest)
      | _ => none
  | _ => none

mutual

def parseValue (fuel : Nat) (text : List Char) : Option (Json × List Char) :=
  match fuel with
  | 0 => none
  | fuel + 1 =>
      match text with
      | 'n' :: 'u' :: 'l' :: 'l' :: rest => some (.null, rest)
      | 't' :: 'r' :: 'u' :: 'e' :: rest => some (.bool true, rest)
      | 'f' :: 'a' :: 'l' :: 's' :: 'e' :: rest => some (.bool false, rest)
      | '"' :: rest => (scanItems rest).map fun (items, rest) => (.string items, rest)
      | '[' :: rest =>
          match skipSpace rest with
          | ']' :: rest => some (.array [], rest)
          | _ => (parseElements fuel rest).map fun (jsons, rest) => (.array jsons, rest)
      | '\x7b' :: rest =>
          match skipSpace rest with
          | '\x7d' :: rest => some (.object [], rest)
          | _ => (parseMembers fuel rest).map fun (entries, rest) => (.object entries, rest)
      | text => (scanNumber text).map fun (literal, rest) => (.number literal, rest)

/-- The elements of an array up to the closing bracket. -/
def parseElements (fuel : Nat) (text : List Char) : Option (List Json × List Char) :=
  match fuel with
  | 0 => none
  | fuel + 1 => do
      let (json, rest) ← parseElement (parseValue fuel) text
      match rest with
      | ']' :: rest => some ([json], rest)
      | ',' :: rest => (parseElements fuel rest).map fun (jsons, rest) => (json :: jsons, rest)
      | _ => none

/-- The members of an object up to the closing brace. -/
def parseMembers (fuel : Nat) (text : List Char) :
    Option (List (List Item × Json) × List Char) :=
  match fuel with
  | 0 => none
  | fuel + 1 => do
      let (entry, rest) ← parseMember (parseValue fuel) text
      match rest with
      | '\x7d' :: rest => some ([entry], rest)
      | ',' :: rest => (parseMembers fuel rest).map fun (entries, rest) => (entry :: entries, rest)
      | _ => none

end

def parse (text : List Char) : Option Json :=
  match parseElement (parseValue (2 * text.length)) text with
  | some (json, []) => some json
  | _ => none

end Json
