import Slideo.Lib.Js

/-! `JSON.parse` on text. String literals are read as UTF-16 units, so that two escapes can form one
    character; a surrogate without its partner becomes U+FFFD. -/

namespace Js

/-! ### String literals -/

/-- The UTF-16 units of a character. -/
def units (c : Char) : List Nat :=
  if c.toNat < 0x10000 then [c.toNat]
  else [0xD800 + (c.toNat - 0x10000) / 0x400, 0xDC00 + (c.toNat - 0x10000) % 0x400]

/-- The character of a unit that is not part of a pair. Half a pair is none, and is told from U+FFFD in JavaScript
    until it is encoded, but not here. -/
def ofUnit (u : Nat) : Char := if 0xD800 ≤ u ∧ u ≤ 0xDFFF then Char.ofNat 0xFFFD else Char.ofNat u

/-- The characters of a list of units. -/
def ofUnits : List Nat → List Char
  | [] => []
  | [u] => [ofUnit u]
  | hi :: lo :: us =>
    if (0xD800 ≤ hi ∧ hi ≤ 0xDBFF) ∧ (0xDC00 ≤ lo ∧ lo ≤ 0xDFFF) then
      Char.ofNat (0x10000 + (hi - 0xD800) * 0x400 + (lo - 0xDC00)) :: ofUnits us
    else ofUnit hi :: ofUnits (lo :: us)

/-- The unit of an escape of one letter. -/
def escapeUnit : Char → Option Nat
  | '"' => some 0x22
  | '\\' => some 0x5C
  | '/' => some 0x2F
  | 'b' => some 0x8
  | 'f' => some 0xC
  | 'n' => some 0xA
  | 'r' => some 0xD
  | 't' => some 0x9
  | _ => none

/-- The units of a string literal after its opening quote, and the text after its closing one. -/
def parseUnits : List Char → Option (List Nat × List Char)
  | [] => none
  | '"' :: cs => some ([], cs)
  | '\\' :: 'u' :: a :: b :: c :: d :: cs =>
    if [a, b, c, d].all (fun x => (digitVal 16 x).isSome) then
      (parseUnits cs).map fun (us, rest) => (digitsVal 16 [a, b, c, d] :: us, rest)
    else none
  | '\\' :: e :: cs => do
    let u ← escapeUnit e
    let (us, rest) ← parseUnits cs
    return (u :: us, rest)
  | c :: cs =>
    if c.toNat < 0x20 ∨ c = '\\' then none
    else (parseUnits cs).map fun (us, rest) => (units c ++ us, rest)

/-- A string literal after its opening quote. -/
def parseString (cs : List Char) : Option (String × List Char) :=
  (parseUnits cs).map fun (us, rest) => (String.ofList (ofUnits us), rest)

/-! ### Numbers -/

/-- An optional fraction: a point needs a digit. -/
def parseFraction : List Char → Option (List Char × List Char)
  | '.' :: cs => match cs.takeWhile isDigit with
    | [] => none
    | ds => some (ds, cs.dropWhile isDigit)
  | cs => some ([], cs)

/-- A number without its sign: no leading zero, then a fraction and an exponent. -/
def parseUnsigned (cs : List Char) : Option (Rat × List Char) := do
  let whole ← match cs.takeWhile isDigit with
    | [] => none
    | '0' :: _ :: _ => none
    | ds => some ds
  let (frac, rest) ← parseFraction (cs.dropWhile isDigit)
  let (e, rest) ← parseExponent rest
  return (scale (digitsVal 10 (whole ++ frac)) (e - frac.length), rest)

def parseNumber : List Char → Option (Rat × List Char)
  | '-' :: cs => (parseUnsigned cs).map fun (q, rest) => (-q, rest)
  | cs => parseUnsigned cs

/-! ### Values -/

/-- White space between the tokens of a JSON text. -/
def isJsonSpace (c : Char) : Bool := c = ' ' || c = '\t' || c = '\n' || c = '\r'

def skipSpace (cs : List Char) : List Char := cs.dropWhile isJsonSpace

/-- Sets a property: a later duplicate replaces the value of an earlier one. -/
def setField (fields : List (String × Json)) (name : String) (v : Json) : List (String × Json) :=
  if fields.any (·.1 == name) then fields.map fun f => if f.1 == name then (name, v) else f
  else fields ++ [(name, v)]

theorem find?_setField_self {fields : List (String × Json)} {name : String} {v : Json} :
    ((setField fields name v).find? (·.1 == name)).map (·.2) = some v := by
  unfold setField
  split
  · rename_i hany
    induction fields with
    | nil => cases hany
    | cons f fields ih =>
      by_cases hf : f.1 = name
      · simp [hf]
      · have hrest : fields.any (·.1 == name) = true := by simpa [hf] using hany
        simpa [hf] using ih hrest
  · rename_i hany
    have hnone : fields.find? (·.1 == name) = none :=
      List.find?_eq_none.mpr fun f hf hname => hany (List.any_eq_true.mpr ⟨f, hf, hname⟩)
    simp [List.find?_append, hnone]

theorem find?_setField_ne {fields : List (String × Json)} {name k : String} {v : Json} (hk : k ≠ name) :
    (setField fields name v).find? (·.1 == k) = fields.find? (·.1 == k) := by
  unfold setField
  split
  · rename_i hany
    clear hany
    induction fields with
    | nil => rfl
    | cons f fields ih =>
      by_cases hf : f.1 = name
      · simpa [hf, Ne.symm hk] using ih
      · by_cases hfk : f.1 = k
        · simp [hfk, hk]
        · simpa [hf, hfk] using ih
  · simp [List.find?_append, Ne.symm hk]

mutual
/-- A value and the text after it. Each character of the text needs at most two steps of the fuel. -/
def parseValue : Nat → List Char → Option (Json × List Char)
  | 0, _ => none
  | fuel + 1, cs =>
    match skipSpace cs with
    | 'n' :: 'u' :: 'l' :: 'l' :: rest => some (.null, rest)
    | 't' :: 'r' :: 'u' :: 'e' :: rest => some (.bool true, rest)
    | 'f' :: 'a' :: 'l' :: 's' :: 'e' :: rest => some (.bool false, rest)
    | '"' :: rest => (parseString rest).map fun (s, rest) => (.str s, rest)
    | '[' :: rest => match skipSpace rest with
      | ']' :: rest => some (.arr [], rest)
      | rest => (parseItems fuel rest).map fun (items, rest) => (.arr items, rest)
    | '\x7b' :: rest => match skipSpace rest with
      | '\x7d' :: rest => some (.obj [], rest)
      | rest => (parseFields fuel [] rest).map fun (fields, rest) => (.obj fields, rest)
    | rest => (parseNumber rest).map fun (q, rest) => (.num q, rest)

/-- The items of an array up to its closing bracket. -/
def parseItems : Nat → List Char → Option (List Json × List Char)
  | 0, _ => none
  | fuel + 1, cs => do
    let (v, rest) ← parseValue fuel cs
    match skipSpace rest with
    | ']' :: rest => some ([v], rest)
    | ',' :: rest => do
      let (items, rest) ← parseItems fuel rest
      return (v :: items, rest)
    | _ => none

/-- The fields of an object up to its closing brace, added to those before them. -/
def parseFields : Nat → List (String × Json) → List Char → Option (List (String × Json) × List Char)
  | 0, _, _ => none
  | fuel + 1, fields, cs =>
    match skipSpace cs with
    | '"' :: rest => do
      let (name, rest) ← parseString rest
      match skipSpace rest with
      | ':' :: rest => do
        let (v, rest) ← parseValue fuel rest
        match skipSpace rest with
        | '\x7d' :: rest => some (setField fields name v, rest)
        | ',' :: rest => parseFields fuel (setField fields name v) rest
        | _ => none
      | _ => none
    | _ => none
end

/-- `JSON.parse(text)` on characters; `none` where it throws. -/
def parseChars (cs : List Char) : Option Json :=
  match parseValue (2 * cs.length + 2) cs with
  | some (v, rest) => if skipSpace rest = [] then some v else none
  | none => none

end Js
