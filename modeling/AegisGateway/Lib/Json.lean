import Mathlib.Data.Rat.Defs
import Mathlib.Data.List.Sort
import Mathlib.Data.Nat.Digits.Defs

/-!
# JSON values and their text

The values that `json.loads` returns and the text that `json.dumps` writes with
`sort_keys`, as in the calls that hash a value. Both go beyond JSON in that they know floats
that are not finite. The text of a float is a parameter, the `floatstr` of the encoder.
-/

namespace JsonText

/-- A float of Python. Zero has a sign. -/
inductive PyFloat where
  | exact (x : ℚ)
  | negZero
  | nan
  | infinity (negative : Bool)
  deriving DecidableEq

def PyFloat.isFinite : PyFloat → Bool
  | .exact _ | .negZero => true
  | .nan | .infinity _ => false

inductive Json where
  | null
  | bool (b : Bool)
  | int (n : Int)
  | float (x : PyFloat)
  | str (s : String)
  | arr (items : List Json)
  | obj (fields : List (String × Json))

@[match_pattern]
abbrev Json.real (x : ℚ) : Json := .float (.exact x)

abbrev Object : Type := List (String × Json)

/-! ## Sorting keys -/

def keyLe (a b : String × Json) : Prop := a.1 ≤ b.1

instance : DecidableRel keyLe := fun a b => inferInstanceAs (Decidable (a.1 ≤ b.1))

mutual

def sortKeys : Json → Json
  | .arr items => .arr (sortKeysItems items)
  | .obj fields => .obj ((sortKeysFields fields).insertionSort keyLe)
  | j => j

def sortKeysItems : List Json → List Json
  | [] => []
  | j :: js => sortKeys j :: sortKeysItems js

def sortKeysFields : List (String × Json) → List (String × Json)
  | [] => []
  | (k, j) :: fs => (k, sortKeys j) :: sortKeysFields fs

end

/-! ## Text -/

def quote : Char := Char.ofNat 34

def backslash : Char := Char.ofNat 92

def hexDigit (n : Nat) : Char := Nat.digitChar (n % 16)

def hex4 (n : Nat) : List Char :=
  [hexDigit (n / 4096), hexDigit (n / 256), hexDigit (n / 16), hexDigit n]

/-- The short escapes that JSON has besides `\u`. -/
def shortEscape (c : Char) : Option Char :=
  if c = quote then some quote
  else if c = backslash then some backslash
  else if c.toNat = 10 then some 'n'
  else if c.toNat = 13 then some 'r'
  else if c.toNat = 9 then some 't'
  else if c.toNat = 12 then some 'f'
  else if c.toNat = 8 then some 'b'
  else none

/-- The separators of one call of `json.dumps`, and its `ensure_ascii`. -/
structure Style where
  item : List Char
  key : List Char
  ascii : Bool := true

def Style.standard : Style := ⟨[',', ' '], [':', ' '], true⟩

def Style.compact : Style := ⟨[','], [':'], true⟩

def Style.canonical : Style := ⟨[','], [':'], false⟩

/-- Without `ensure_ascii` only the control characters are left to escape. With it everything
outside the printable ASCII range is, a character above the basic plane as two surrogates. -/
def escapeChar (ascii : Bool) (c : Char) : List Char :=
  match shortEscape c with
  | some e => [backslash, e]
  | none =>
    if 32 ≤ c.toNat ∧ (c.toNat ≤ 126 ∨ ascii = false) then [c]
    else if c.toNat < 65536 then backslash :: 'u' :: hex4 c.toNat
    else
      backslash :: 'u' :: hex4 (55296 + (c.toNat - 65536) / 1024) ++
        backslash :: 'u' :: hex4 (56320 + (c.toNat - 65536) % 1024)

def strText (ascii : Bool) (s : String) : List Char :=
  quote :: s.toList.flatMap (escapeChar ascii) ++ [quote]

def natText (n : Nat) : List Char :=
  if n = 0 then ['0'] else (Nat.digits 10 n).reverse.map Nat.digitChar

def intText : Int → List Char
  | .ofNat n => natText n
  | .negSucc n => '-' :: natText (n + 1)

mutual

def text (repr : PyFloat → List Char) (st : Style) : Json → List Char
  | .null => ['n', 'u', 'l', 'l']
  | .bool true => ['t', 'r', 'u', 'e']
  | .bool false => ['f', 'a', 'l', 's', 'e']
  | .int n => intText n
  | .float x => repr x
  | .str s => strText st.ascii s
  | .arr items => '[' :: itemsText repr st items ++ [']']
  | .obj fields => Char.ofNat 123 :: fieldsText repr st fields ++ [Char.ofNat 125]

def itemsText (repr : PyFloat → List Char) (st : Style) : List Json → List Char
  | [] => []
  | [j] => text repr st j
  | j :: js => text repr st j ++ st.item ++ itemsText repr st js

def fieldsText (repr : PyFloat → List Char) (st : Style) : List (String × Json) → List Char
  | [] => []
  | [(k, j)] => strText st.ascii k ++ st.key ++ text repr st j
  | (k, j) :: fs => strText st.ascii k ++ st.key ++ text repr st j ++ st.item ++ fieldsText repr st fs

end

/-- `json.dumps(value, sort_keys=True)`. -/
def dumps (repr : PyFloat → List Char) (st : Style) (j : Json) : String :=
  String.ofList (text repr st (sortKeys j))

end JsonText
