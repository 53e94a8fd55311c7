import AegisGateway.Lib.JsonReading

/-!
# Values as text for a reader

What Python's `str` and `repr` write for a value that has been read from JSON. Which characters
outside ASCII are printable is a parameter, as the text of a float is. Of a float that is not finite
`repr` writes another text than `json.dumps`.
-/

namespace JsonText

def apostrophe : Char := Char.ofNat 39

def hex2 (n : Nat) : List Char := [hexDigit (n / 16), hexDigit n]

section

variable (floatRepr : PyFloat → List Char) (isPrintable : Char → Bool)

def reprChar (mark c : Char) : List Char :=
  if c = mark ∨ c = backslash then [backslash, c]
  else if c.toNat = 9 then [backslash, 't']
  else if c.toNat = 10 then [backslash, 'n']
  else if c.toNat = 13 then [backslash, 'r']
  else if 32 ≤ c.toNat ∧ c.toNat < 127 ∨ 127 < c.toNat ∧ isPrintable c = true then [c]
  else if c.toNat < 256 then backslash :: 'x' :: hex2 c.toNat
  else if c.toNat < 65536 then backslash :: 'u' :: hex4 c.toNat
  else backslash :: 'U' :: hex4 (c.toNat / 65536) ++ hex4 c.toNat

/-- Apostrophes around it, unless it has some of them and no quotes. -/
def reprString (s : String) : List Char :=
  let mark := if apostrophe ∈ s.toList ∧ quote ∉ s.toList then quote else apostrophe
  mark :: s.toList.flatMap (reprChar isPrintable mark) ++ [mark]

def reprFloat : PyFloat → List Char
  | .nan => ['n', 'a', 'n']
  | .infinity false => ['i', 'n', 'f']
  | .infinity true => ['-', 'i', 'n', 'f']
  | x => floatRepr x

mutual

def reprValue : Json → List Char
  | .null => ['N', 'o', 'n', 'e']
  | .bool true => ['T', 'r', 'u', 'e']
  | .bool false => ['F', 'a', 'l', 's', 'e']
  | .int n => intText n
  | .float x => reprFloat floatRepr x
  | .str s => reprString isPrintable s
  | .arr items => '[' :: reprItems items ++ [']']
  | .obj fields => Char.ofNat 123 :: reprFields fields ++ [Char.ofNat 125]

def reprItems : List Json → List Char
  | [] => []
  | [j] => reprValue j
  | j :: js => reprValue j ++ ',' :: ' ' :: reprItems js

def reprFields : List (String × Json) → List Char
  | [] => []
  | [(k, j)] => reprString isPrintable k ++ ':' :: ' ' :: reprValue j
  | (k, j) :: fs =>
    reprString isPrintable k ++ ':' :: ' ' :: reprValue j ++ ',' :: ' ' :: reprFields fs

end

/-- `str(value)`. -/
def strValue : Json → List Char
  | .str s => s.toList
  | j => reprValue floatRepr isPrintable j

end

example : String.ofList (strValue (fun _ => []) (fun _ => true)
    (.obj [("a", .arr [.null, .int (-2)]), ("it's", .str "\n")])) =
      "\x7b'a': [None, -2], \"it's\": '\\n'\x7d" := by decide +kernel

theorem strValue_str (floatRepr : PyFloat → List Char) (isPrintable : Char → Bool) (s : String) :
    strValue floatRepr isPrintable (.str s) = s.toList := rfl

theorem bracket_mem_strValue (floatRepr : PyFloat → List Char) (isPrintable : Char → Bool) :
    (∀ items, '[' ∈ strValue floatRepr isPrintable (.arr items)) ∧
      ∀ fields, Char.ofNat 123 ∈ strValue floatRepr isPrintable (.obj fields) := by
  constructor
  · intro items
    simp [strValue, reprValue]
  · intro fields
    simp [strValue, reprValue]

end JsonText
