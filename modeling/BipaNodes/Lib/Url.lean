import BipaNodes.Lib.Decimal
import Mathlib.Data.List.Forall2

/-!
# URLs

The record that a URL is parsed into, its serialization, its user info, and the
pieces of a query in the form encoding. An empty password is no password.
-/

set_option autoImplicit false

inductive Url.Path where
  /-- The path of a URL that cannot be a base. -/
  | text (path : String)
  | segments (names : List String)
  deriving DecidableEq, Repr

/-- The components as they are written: percent-encoded, the host serialized. -/
structure Url where
  scheme : String
  username : String
  password : String
  host : Option String
  port : Option Nat
  path : Url.Path
  query : Option String
  fragment : Option String
  deriving DecidableEq, Repr

namespace Url

/-!
## Serialization
-/

def userInfo (url : Url) : String :=
  if url.username = "" ∧ url.password = "" then ""
  else url.username ++ (if url.password = "" then "" else ":" ++ url.password) ++ "@"

def portText (port : Option Nat) : String :=
  match port with
  | none => ""
  | some port => ":" ++ toString port

/-- The path would read as a host if it followed the scheme. -/
def Path.startsEmpty : Path → Bool
  | .text _ => false
  | .segments names => decide (1 < names.length ∧ names.head? = some "")

def authority (url : Url) : String :=
  match url.host with
  | some host => "//" ++ url.userInfo ++ host ++ portText url.port
  | none => if url.path.startsEmpty then "/." else ""

def Path.serialize : Path → String
  | .text path => path
  | .segments names => String.join (names.map ("/" ++ ·))

def marked (mark : String) (part : Option String) : String :=
  match part with
  | none => ""
  | some part => mark ++ part

def serialize (url : Url) : String :=
  url.scheme ++ ":" ++ url.authority ++ url.path.serialize ++ marked "?" url.query ++
    marked "#" url.fragment

/-- Only the query tells these two apart. -/
theorem serialize_eq_iff_query {left right : Url} (scheme : left.scheme = right.scheme)
    (authority : left.authority = right.authority) (path : left.path = right.path)
    (fragment : left.fragment = right.fragment)
    (present : left.query.isSome = right.query.isSome) :
    left.serialize = right.serialize ↔ left.query = right.query := by
  unfold serialize
  rw [scheme, authority, path, fragment, String.append_left_inj, String.append_right_inj]
  cases leftQuery : left.query <;> cases rightQuery : right.query <;>
    rw [leftQuery, rightQuery] at present
  · exact iff_of_true rfl rfl
  · cases present
  · cases present
  · rw [Option.some.injEq]
    exact String.append_right_inj "?"

/-!
## User info
-/

def password? (url : Url) : Option String :=
  if url.password = "" then none else some url.password

/-- The URLs that have a place for user info. -/
def TakesUserInfo (url : Url) : Prop :=
  url.host.any (· ≠ "") = true ∧ url.scheme ≠ "file"

instance (url : Url) : Decidable url.TakesUserInfo := inferInstanceAs (Decidable (_ ∧ _))

/-- Replaces the password by one that needs no encoding. -/
def setPassword (url : Url) (password : String) : Option Url :=
  if url.TakesUserInfo then some { url with password } else none

/-!
## Form-encoded queries
-/

/-- The bytes that a name or a value of a query stands for. -/
def formDecode : List Char → List UInt8
  | [] => []
  | '+' :: rest => 32 :: formDecode rest
  | '%' :: high :: low :: rest =>
      match Decimal.hexDigit high, Decimal.hexDigit low with
      | some high, some low => UInt8.ofNat (16 * high + low) :: formDecode rest
      | _, _ => 37 :: formDecode (high :: low :: rest)
  | char :: rest => String.utf8EncodeChar char ++ formDecode rest

def pieces (query : String) : List (List Char) := query.toList.splitOn '&'

def pieceName (piece : List Char) : List Char := piece.takeWhile (· ≠ '=')

def pieceValue (piece : List Char) : List Char := (piece.dropWhile (· ≠ '=')).drop 1

/-- The piece sets the parameter `name`. -/
def Names (name : String) (piece : List Char) : Prop :=
  formDecode (pieceName piece) = name.toList.flatMap String.utf8EncodeChar

instance (name : String) (piece : List Char) : Decidable (Names name piece) :=
  inferInstanceAs (Decidable (_ = _))

/-- The values of the parameter `name`, as they are written. -/
def parameters (name : String) (query : String) : List (List Char) :=
  ((pieces query).filter (Names name ·)).map pieceValue

/-- Pieces that differ at most in a non-empty value of the parameter `name`. -/
inductive PieceVaries (name : String) : List Char → List Char → Prop where
  | same (piece : List Char) : PieceVaries name piece piece
  | value {left right : List Char} : Names name left → pieceName left = pieceName right →
      pieceValue left ≠ [] → pieceValue right ≠ [] → PieceVaries name left right

/-- Queries that differ at most in non-empty values of the parameter `name`. -/
def QueryVaries (name : String) (left right : String) : Prop :=
  List.Forall₂ (PieceVaries name) (pieces left) (pieces right)

theorem pieces_injective : Function.Injective pieces := by
  intro left right same
  have joined := congrArg (['&'].intercalate ·) same
  simp only [pieces, List.intercalate_splitOn] at joined
  exact String.toList_inj.mp joined

/-- A piece with a value is its name, the equals sign and the value. -/
theorem eq_name_value {piece : List Char} (nonempty : pieceValue piece ≠ []) :
    piece = pieceName piece ++ '=' :: pieceValue piece := by
  induction piece with
  | nil => exact absurd rfl nonempty
  | cons char piece ih =>
      unfold pieceName pieceValue at *
      by_cases equals : char = '='
      · rw [equals, List.takeWhile_cons_of_neg (by decide), List.dropWhile_cons_of_neg (by decide)]
        rfl
      · rw [List.dropWhile_cons_of_pos (by simpa using equals)] at nonempty ⊢
        rw [List.takeWhile_cons_of_pos (by simpa using equals), List.cons_append, ← ih nonempty]

theorem PieceVaries.names_iff {name : String} {left right : List Char}
    (varies : PieceVaries name left right) : Names name left ↔ Names name right := by
  cases varies with
  | same => exact Iff.rfl
  | value names sameName => rw [Names, Names, sameName]

theorem PieceVaries.eq_of_value {name : String} {left right : List Char}
    (varies : PieceVaries name left right) (sameValue : pieceValue left = pieceValue right) :
    left = right := by
  cases varies with
  | same => rfl
  | value names sameName leftNonempty rightNonempty =>
      rw [eq_name_value leftNonempty, eq_name_value rightNonempty, sameName, sameValue]

theorem PieceVaries.eq_of_not_names {name : String} {left right : List Char}
    (varies : PieceVaries name left right) (other : ¬ Names name left) : left = right := by
  cases varies with
  | same => rfl
  | value names => exact absurd names other

theorem pieces_eq_of_values {name : String} {lefts rights : List (List Char)}
    (varies : List.Forall₂ (PieceVaries name) lefts rights)
    (sameValues : (lefts.filter (Names name ·)).map pieceValue =
      (rights.filter (Names name ·)).map pieceValue) : lefts = rights := by
  induction varies with
  | nil => rfl
  | @cons left right lefts rights varies rest ih =>
      by_cases names : Names name left
      · have otherNames := varies.names_iff.mp names
        rw [List.filter_cons_of_pos (by simpa using names),
          List.filter_cons_of_pos (by simpa using otherNames), List.map_cons,
          List.map_cons] at sameValues
        obtain ⟨sameValue, sameRest⟩ := List.cons.inj sameValues
        rw [varies.eq_of_value sameValue, ih sameRest]
      · have otherNames := fun otherNames => names (varies.names_iff.mpr otherNames)
        rw [List.filter_cons_of_neg (by simpa using names),
          List.filter_cons_of_neg (by simpa using otherNames)] at sameValues
        rw [varies.eq_of_not_names names, ih sameValues]

/-- Such queries are the same when they give the parameter the same values. -/
theorem QueryVaries.eq_iff {name left right : String} (varies : QueryVaries name left right) :
    left = right ↔ parameters name left = parameters name right := by
  constructor
  · intro same
    rw [same]
  · intro sameValues
    exact pieces_injective (pieces_eq_of_values varies sameValues)

end Url
