import Mathlib.Data.Rat.Floor

/-! JavaScript values as they arrive in JSON: the values, truthiness, property reads, and the
    conversions to strings and numbers. A number is the exact decimal that its literal denotes: nothing is
    rounded to a double, and no literal is too large for one. A conversion or a property read that throws a
    `TypeError` gives `none`. -/

namespace Js

/-- A JSON value. Its numbers are exact and finite, where a parser reads a literal like `1e400` as `Infinity`.
    The fields of an object have distinct names when it comes from a parser; reads take the first. -/
inductive Json where
  | null
  | bool (b : Bool)
  | num (q : Rat)
  | str (s : String)
  | arr (items : List Json)
  | obj (fields : List (String × Json))

/-- A value that may be `undefined`. -/
abbrev Val := Option Json

/-! ### Equality -/

mutual
def Json.decEq : (a b : Json) → Decidable (a = b)
  | .null, b => match b with
    | .null => isTrue rfl
    | .bool _ | .num _ | .str _ | .arr _ | .obj _ => isFalse nofun
  | .bool x, b => match b with
    | .bool y => if h : x = y then isTrue (h ▸ rfl) else isFalse (fun e => h (Json.bool.inj e))
    | .null | .num _ | .str _ | .arr _ | .obj _ => isFalse nofun
  | .num x, b => match b with
    | .num y => if h : x = y then isTrue (h ▸ rfl) else isFalse (fun e => h (Json.num.inj e))
    | .null | .bool _ | .str _ | .arr _ | .obj _ => isFalse nofun
  | .str x, b => match b with
    | .str y => if h : x = y then isTrue (h ▸ rfl) else isFalse (fun e => h (Json.str.inj e))
    | .null | .bool _ | .num _ | .arr _ | .obj _ => isFalse nofun
  | .arr x, b => match b with
    | .arr y => match Json.decEqList x y with
      | isTrue h => isTrue (h ▸ rfl)
      | isFalse h => isFalse (fun e => h (Json.arr.inj e))
    | .null | .bool _ | .num _ | .str _ | .obj _ => isFalse nofun
  | .obj x, b => match b with
    | .obj y => match Json.decEqFields x y with
      | isTrue h => isTrue (h ▸ rfl)
      | isFalse h => isFalse (fun e => h (Json.obj.inj e))
    | .null | .bool _ | .num _ | .str _ | .arr _ => isFalse nofun

def Json.decEqList : (a b : List Json) → Decidable (a = b)
  | [], [] => isTrue rfl
  | [], _ :: _ | _ :: _, [] => isFalse nofun
  | x :: xs, y :: ys => match Json.decEq x y with
    | isFalse h => isFalse (fun e => h (List.cons.inj e).1)
    | isTrue h => match Json.decEqList xs ys with
      | isTrue h' => isTrue (h ▸ h' ▸ rfl)
      | isFalse h' => isFalse (fun e => h' (List.cons.inj e).2)

def Json.decEqFields : (a b : List (String × Json)) → Decidable (a = b)
  | [], [] => isTrue rfl
  | [], _ :: _ | _ :: _, [] => isFalse nofun
  | (k, x) :: xs, (l, y) :: ys =>
    if hk : k = l then
      match Json.decEq x y with
      | isFalse h => isFalse (fun e => h (Prod.mk.inj (List.cons.inj e).1).2)
      | isTrue h => match Json.decEqFields xs ys with
        | isTrue h' => isTrue (hk ▸ h ▸ h' ▸ rfl)
        | isFalse h' => isFalse (fun e => h' (List.cons.inj e).2)
    else isFalse (fun e => hk (Prod.mk.inj (List.cons.inj e).1).1)
end

instance : DecidableEq Json := Json.decEq

/-! ### Strings -/

/-- White space and line terminators, as `trim` and `parseInt` skip them. -/
def isSpace (c : Char) : Bool :=
  [0x9, 0xA, 0xB, 0xC, 0xD, 0x20, 0xA0, 0x1680, 0x2028, 0x2029, 0x202F, 0x205F, 0x3000, 0xFEFF].contains c.toNat ||
    (0x2000 ≤ c.toNat && c.toNat ≤ 0x200A)

/-- `String.prototype.trim` on characters. -/
def trim (cs : List Char) : List Char :=
  ((cs.dropWhile isSpace).reverse.dropWhile isSpace).reverse

/-- `s.startsWith(t)`. -/
def startsWith (s t : String) : Bool := t.toList.isPrefixOf s.toList

/-- `s.endsWith(t)`. -/
def endsWith (s t : String) : Bool := t.toList.isSuffixOf s.toList

/-- The pieces of a character list between the separators `sep`. -/
def splitChars (sep : Char) : List Char → List (List Char)
  | [] => [[]]
  | c :: cs =>
    if c = sep then [] :: splitChars sep cs
    else match splitChars sep cs with
      | [] => [[c]]
      | p :: ps => (c :: p) :: ps

/-- `s.split(sep)` for a separator of one character. -/
def split (s : String) (sep : Char) : List String := (splitChars sep s.toList).map String.ofList

/-- Drops every occurrence of `pat`, scanning left to right: `s.replace(/pat/g, '')`. The count
    bounds the scan, and the length of the text is enough. -/
def removeAll (pat : List Char) : Nat → List Char → List Char
  | 0, cs => cs
  | _ + 1, [] => []
  | n + 1, c :: cs =>
    if pat.isPrefixOf (c :: cs) then removeAll pat n ((c :: cs).drop pat.length)
    else c :: removeAll pat n cs

/-- `s.replace(pat, '')` for a string pattern: only the first occurrence goes. -/
def removeFirst (pat : List Char) : List Char → List Char
  | [] => []
  | c :: cs => if pat.isPrefixOf (c :: cs) then (c :: cs).drop pat.length else c :: removeFirst pat cs

/-- The length of a string in UTF-16 units. -/
def utf16Length (s : String) : Nat := (s.toList.map fun c => if c.toNat < 0x10000 then 1 else 2).sum

/-! ### Reading values -/

/-- Whether a value counts as true in a condition. -/
def truthy : Val → Bool
  | none | some .null => false
  | some (.bool b) => b
  | some (.num q) => q != 0
  | some (.str s) => s != ""
  | some (.arr _) | some (.obj _) => true

/-- `a || b`. -/
def or (a b : Val) : Val := if truthy a then a else b

/-- `v.name`: reading a property of `undefined` or `null` throws. -/
def get (v : Val) (name : String) : Option Val :=
  match v with
  | none | some .null => none
  | some (.obj fields) => some ((fields.find? (·.1 == name)).map (·.2))
  | some (.arr items) => some (if name = "length" then some (.num items.length) else none)
  | some (.str s) => some (if name = "length" then some (.num (utf16Length s)) else none)
  | some (.bool _) | some (.num _) => some none

/-- `v?.name`: `undefined` where `v.name` throws. -/
def getOpt (v : Val) (name : String) : Val := (get v name).getD none

/-- `Array.isArray(v)`, with the items. -/
def asArray : Val → Option (List Json)
  | some (.arr items) => some items
  | _ => none

/-! ### Conversion to a string -/

/-- The least number of decimals that write `q` exactly, up to `fuel`. -/
def decimals (q : Rat) : Nat → Nat → Nat
  | 0, j => j
  | fuel + 1, j => if (q * 10 ^ j).den = 1 then j else decimals q fuel (j + 1)

/-- `Number::toString` on the decimal digits `digits` of a positive number `0.digits * 10 ^ n`. -/
def formatDigits (digits : List Char) (n : Int) : List Char :=
  let k := digits.length
  let zeros (m : Int) := List.replicate m.toNat '0'
  if k ≤ n ∧ n ≤ 21 then digits ++ zeros (n - k)
  else if 0 < n ∧ n ≤ 21 then digits.take n.toNat ++ '.' :: digits.drop n.toNat
  else if -6 < n ∧ n ≤ 0 then '0' :: '.' :: zeros (-n) ++ digits
  else
    let e := n - 1
    let mant := if k = 1 then digits else digits.take 1 ++ '.' :: digits.drop 1
    mant ++ 'e' :: (if e < 0 then '-' else '+') :: Nat.toDigits 10 e.natAbs

/-- `String(q)` for a number. -/
def numToString (q : Rat) : String :=
  if q = 0 then "0"
  else
    let a := if q < 0 then -q else q
    let j := decimals a (Nat.log2 a.den + 1) 0
    let ds := Nat.toDigits 10 (a * 10 ^ j).floor.toNat
    let n : Int := ds.length - j
    let cs := formatDigits (ds.reverse.dropWhile (· == '0')).reverse n
    String.ofList (if q < 0 then '-' :: cs else cs)

mutual
/-- `String(v)`. An object that overrides `toString` by a non-function throws. -/
def Json.toStr : Json → Option String
  | .null => some "null"
  | .bool b => some (if b then "true" else "false")
  | .num q => some (numToString q)
  | .str s => some s
  | .arr items => (Json.toStrItems items).map (String.intercalate ",")
  | .obj fields => if fields.any (·.1 == "toString") then none else some "[object Object]"

/-- The items of an array as `join` writes them. -/
def Json.toStrItems : List Json → Option (List String)
  | [] => some []
  | .null :: items => (Json.toStrItems items).map ("" :: ·)
  | item :: items => do return (← Json.toStr item) :: (← Json.toStrItems items)
end

/-- `String(v)` for a value that may be `undefined`. -/
def toStr : Val → Option String
  | none => some "undefined"
  | some j => j.toStr

/-! ### Conversion to a number -/

/-- A number, with the values that no JSON text denotes. -/
inductive Number where
  | nan
  | infinite (negative : Bool)
  | finite (q : Rat)
  deriving DecidableEq

/-- The value of a digit in a base up to 16. -/
def digitVal (base : Nat) (c : Char) : Option Nat :=
  let d := if '0' ≤ c ∧ c ≤ '9' then some (c.toNat - '0'.toNat)
    else if 'a' ≤ c ∧ c ≤ 'f' then some (c.toNat - 'a'.toNat + 10)
    else if 'A' ≤ c ∧ c ≤ 'F' then some (c.toNat - 'A'.toNat + 10)
    else none
  d.filter (· < base)

def isDigit (c : Char) : Bool := (digitVal 10 c).isSome

/-- The number that a list of digits writes in a base. -/
def digitsVal (base : Nat) (cs : List Char) : Nat :=
  cs.foldl (fun n c => n * base + (digitVal base c).getD 0) 0

/-- A sign in front of a numeral. -/
def takeSign : List Char → Bool × List Char
  | '-' :: cs => (true, cs)
  | '+' :: cs => (false, cs)
  | cs => (false, cs)

/-- `parseInt(s, 10)`: the longest run of digits after white space and a sign; `none` is `NaN`. -/
def parseIntChars (cs : List Char) : Option Int :=
  let (negative, cs) := takeSign (cs.dropWhile isSpace)
  match cs.takeWhile isDigit with
  | [] => none
  | ds => some (if negative then -(digitsVal 10 ds : Int) else digitsVal 10 ds)

/-- `parseInt(v, 10)`. The conversion of `v` to a string may throw. -/
def parseInt (v : Val) : Option (Option Int) := (toStr v).map fun s => parseIntChars s.toList

/-- `n || d` for a number that may be `NaN`. -/
def intOr (d : Int) : Option Int → Int
  | none | some 0 => d
  | some n => n

/-- `parseInt(v, 10) || d`. -/
def parseIntOr (v : Val) (d : Int) : Option Int := (parseInt v).map (intOr d)

/-- `parseInt(s)`: without a base, `0x` starts a hexadecimal numeral. -/
def parseIntAutoChars (cs : List Char) : Option Int :=
  let (negative, rest) := takeSign (cs.dropWhile isSpace)
  match rest with
  | '0' :: 'x' :: ds | '0' :: 'X' :: ds =>
    match ds.takeWhile fun c => (digitVal 16 c).isSome with
    | [] => none
    | ds => some (if negative then -(digitsVal 16 ds : Int) else digitsVal 16 ds)
  | _ => parseIntChars cs

/-- `parseInt(v) || d`. -/
def parseIntAutoOr (v : Val) (d : Int) : Option Int :=
  (toStr v).map fun s => intOr d (parseIntAutoChars s.toList)

/-- `m * 10 ^ e`. -/
def scale (m : Rat) (e : Int) : Rat := if 0 ≤ e then m * 10 ^ e.toNat else m / 10 ^ (-e).toNat

/-- An exponent part, or nothing. -/
def parseExponent : List Char → Option (Int × List Char)
  | c :: cs =>
    if c = 'e' ∨ c = 'E' then
      let (negative, cs) := takeSign cs
      match cs.takeWhile isDigit with
      | [] => none
      | ds => some (if negative then -(digitsVal 10 ds : Int) else digitsVal 10 ds, cs.dropWhile isDigit)
    else some (0, c :: cs)
  | [] => some (0, [])

/-- An unsigned decimal: whole digits, a fraction and an exponent. One of the first two is there. -/
def parseDecimal (cs : List Char) : Option (Rat × List Char) :=
  let whole := cs.takeWhile isDigit
  let rest := cs.dropWhile isDigit
  let (frac, rest) := match rest with
    | '.' :: rest' => (rest'.takeWhile isDigit, rest'.dropWhile isDigit)
    | _ => ([], rest)
  if whole = [] ∧ frac = [] then none
  else (parseExponent rest).map fun (e, rest) =>
    (scale (digitsVal 10 (whole ++ frac)) (e - frac.length), rest)

/-- A numeral in a base after its `0x`, `0o` or `0b`. -/
def parseRadix (base : Nat) (cs : List Char) : Number :=
  if cs ≠ [] ∧ cs.all (fun c => (digitVal base c).isSome) then .finite (digitsVal base cs) else .nan

/-- `Number(s)`. -/
def stringToNumber (s : String) : Number :=
  match trim s.toList with
  | [] => .finite 0
  | '0' :: 'x' :: cs | '0' :: 'X' :: cs => parseRadix 16 cs
  | '0' :: 'o' :: cs | '0' :: 'O' :: cs => parseRadix 8 cs
  | '0' :: 'b' :: cs | '0' :: 'B' :: cs => parseRadix 2 cs
  | cs =>
    let (negative, cs) := takeSign cs
    if cs = "Infinity".toList then .infinite negative
    else match parseDecimal cs with
      | some (q, []) => .finite (if negative then -q else q)
      | _ => .nan

/-- `Number(v)`. -/
def toNumber : Val → Option Number
  | none => some .nan
  | some .null => some (.finite 0)
  | some (.bool b) => some (.finite (if b then 1 else 0))
  | some (.num q) => some (.finite q)
  | some (.str s) => some (stringToNumber s)
  | some (.arr items) => (Json.arr items).toStr.map stringToNumber
  | some (.obj fields) => (Json.obj fields).toStr.map stringToNumber

/-- `n > 0`. -/
def Number.positive : Number → Bool
  | .nan => false
  | .infinite negative => !negative
  | .finite q => 0 < q

end Js
