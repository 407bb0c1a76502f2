import Slideo.Lib.JsonText
import Mathlib.Data.List.Nodup
import Mathlib.Tactic.IntervalCases

/-! The grammar of JSON texts as a type: every text with its white space, escapes and numerals, and the value that
    it denotes. `JSON.parse` reads each text of the grammar as its value. -/

namespace Js

/-! ### Tokens -/

/-- White space between tokens. -/
structure Space where
  chars : List Char
  blank : ∀ c ∈ chars, isJsonSpace c = true

/-- A piece of a string literal. -/
inductive Piece where
  | raw (c : Char) (printable : 0x20 ≤ c.toNat) (quote : c ≠ '"') (backslash : c ≠ '\\')
  | escape (c : Char) (u : Nat) (known : escapeUnit c = some u)
  | hex (a b c d : Char) (digits : [a, b, c, d].all (fun x => (digitVal 16 x).isSome) = true)

def Piece.print : Piece → List Char
  | .raw c _ _ _ => [c]
  | .escape c _ _ => ['\\', c]
  | .hex a b c d _ => ['\\', 'u', a, b, c, d]

def Piece.units : Piece → List Nat
  | .raw c _ _ _ => Js.units c
  | .escape _ u _ => [u]
  | .hex a b c d _ => [digitsVal 16 [a, b, c, d]]

/-- The inside of a string literal. -/
def printPieces (pieces : List Piece) : List Char := pieces.flatMap Piece.print

/-- The string that a literal denotes. -/
def literal (pieces : List Piece) : String := String.ofList (ofUnits (pieces.flatMap Piece.units))

/-- An exponent: its letter, a sign or none, and digits. -/
structure Exponent where
  mark : Char
  sign : List Char
  digits : List Char
  mark_eq : mark = 'e' ∨ mark = 'E'
  sign_eq : sign = [] ∨ sign = ['-'] ∨ sign = ['+']
  digits_ne : digits ≠ []
  all_digits : ∀ c ∈ digits, isDigit c = true

def Exponent.print (e : Exponent) : List Char := e.mark :: (e.sign ++ e.digits)

def Exponent.value (e : Exponent) : Int :=
  if e.sign = ['-'] then -(digitsVal 10 e.digits : Int) else digitsVal 10 e.digits

/-- A numeral; without digits after the point there is no point. -/
structure Numeral where
  negative : Bool
  whole : List Char
  frac : List Char
  exponent : Option Exponent
  whole_ne : whole ≠ []
  whole_digits : ∀ c ∈ whole, isDigit c = true
  no_zero : ∀ c cs, whole ≠ '0' :: c :: cs
  frac_digits : ∀ c ∈ frac, isDigit c = true

namespace Numeral

def printFraction (n : Numeral) : List Char := if n.frac = [] then [] else '.' :: n.frac

def printExponent (n : Numeral) : List Char := (n.exponent.map Exponent.print).getD []

def print (n : Numeral) : List Char :=
  (if n.negative then ['-'] else []) ++ (n.whole ++ (n.printFraction ++ n.printExponent))

def magnitude (n : Numeral) : Rat :=
  scale (digitsVal 10 (n.whole ++ n.frac)) ((n.exponent.map Exponent.value).getD 0 - n.frac.length)

def value (n : Numeral) : Rat := if n.negative then -n.magnitude else n.magnitude

end Numeral

/-! ### Texts -/

mutual
/-- A value without the white space around it. -/
inductive Doc where
  | null
  | bool (b : Bool)
  | num (n : Numeral)
  | str (pieces : List Piece)
  | emptyArr (inside : Space)
  | arr (items : Items)
  | emptyObj (inside : Space)
  | obj (fields : Fields)

/-- The items of an array, each with white space on both sides. -/
inductive Items where
  | last (before : Space) (item : Doc) (after : Space)
  | cons (before : Space) (item : Doc) (after : Space) (rest : Items)

/-- The fields of an object: a name, a colon and a value, with white space around each. -/
inductive Fields where
  | last (before : Space) (name : List Piece) (colon : Space) (space : Space) (item : Doc) (after : Space)
  | cons (before : Space) (name : List Piece) (colon : Space) (space : Space)
      (item : Doc) (after : Space) (rest : Fields)
end

mutual
def Doc.print : Doc → List Char
  | .null => ['n', 'u', 'l', 'l']
  | .bool true => ['t', 'r', 'u', 'e']
  | .bool false => ['f', 'a', 'l', 's', 'e']
  | .num n => n.print
  | .str pieces => '"' :: (printPieces pieces ++ ['"'])
  | .emptyArr inside => '[' :: (inside.chars ++ [']'])
  | .arr items => '[' :: (items.print ++ [']'])
  | .emptyObj inside => '\x7b' :: (inside.chars ++ ['\x7d'])
  | .obj fields => '\x7b' :: (fields.print ++ ['\x7d'])

def Items.print : Items → List Char
  | .last before item after => before.chars ++ (item.print ++ after.chars)
  | .cons before item after rest => before.chars ++ (item.print ++ (after.chars ++ ',' :: rest.print))

def Fields.print : Fields → List Char
  | .last before name colon space item after =>
    before.chars ++ '"' :: (printPieces name ++
      '"' :: (colon.chars ++ ':' :: (space.chars ++ (item.print ++ after.chars))))
  | .cons before name colon space item after rest =>
    before.chars ++ '"' :: (printPieces name ++ '"' :: (colon.chars ++ ':' ::
      (space.chars ++ (item.print ++ (after.chars ++ ',' :: rest.print)))))
end

mutual
/-- The value that a text denotes. -/
def Doc.value : Doc → Json
  | .null => .null
  | .bool b => .bool b
  | .num n => .num n.value
  | .str pieces => .str (literal pieces)
  | .emptyArr _ => .arr []
  | .arr items => .arr items.values
  | .emptyObj _ => .obj []
  | .obj fields => .obj (fields.values.foldl (fun before f => setField before f.1 f.2) [])

def Items.values : Items → List Json
  | .last _ item _ => [item.value]
  | .cons _ item _ rest => item.value :: rest.values

/-- The fields in the order of the text. -/
def Fields.values : Fields → List (String × Json)
  | .last _ name _ _ item _ => [(literal name, item.value)]
  | .cons _ name _ _ item _ rest => (literal name, item.value) :: rest.values
end

/-! ### Reading tokens -/

section Tokens
variable {rest : List Char}

theorem skipSpace_append (s : Space) (rest : List Char) : skipSpace (s.chars ++ rest) = skipSpace rest :=
  List.dropWhile_append_of_pos s.blank

theorem skipSpace_cons {c : Char} (hc : isJsonSpace c = false) (rest : List Char) :
    skipSpace (c :: rest) = c :: rest := by
  simp [skipSpace, hc]

theorem parseUnits_raw {c : Char} {cs : List Char} (printable : 0x20 ≤ c.toNat)
    (quote : c ≠ '"') (backslash : c ≠ '\\') :
    parseUnits (c :: cs) = (parseUnits cs).map fun (us, rest) => (units c ++ us, rest) := by
  rw [parseUnits]
  · rw [if_neg (by simp [backslash, printable])]
  all_goals grind

theorem parseUnits_escape {c : Char} {u : Nat} {cs : List Char} (known : escapeUnit c = some u) :
    parseUnits ('\\' :: c :: cs) = (parseUnits cs).map fun (us, rest) => (u :: us, rest) := by
  have hu : c ≠ 'u' := by
    rintro rfl
    cases known
  rw [parseUnits]
  · rw [known]
    cases parseUnits cs <;> rfl
  · grind

theorem printPieces_cons (p : Piece) (pieces : List Piece) :
    printPieces (p :: pieces) = p.print ++ printPieces pieces :=
  List.flatMap_cons

theorem parseUnits_print (pieces : List Piece) (rest : List Char) :
    parseUnits (printPieces pieces ++ '"' :: rest) = some (pieces.flatMap Piece.units, rest) := by
  induction pieces with
  | nil => rfl
  | cons p pieces ih =>
    rw [printPieces_cons, List.append_assoc, List.flatMap_cons]
    cases p with
    | raw c printable quote backslash =>
      simp only [Piece.print, List.cons_append, List.nil_append]
      rw [parseUnits_raw printable quote backslash, ih]
      rfl
    | escape c u known =>
      simp only [Piece.print, List.cons_append, List.nil_append]
      rw [parseUnits_escape known, ih]
      rfl
    | hex a b c d digits =>
      simp only [Piece.print, List.cons_append, List.nil_append]
      rw [parseUnits, if_pos digits, ih]
      rfl

theorem parseString_print (pieces : List Piece) (rest : List Char) :
    parseString (printPieces pieces ++ '"' :: rest) = some (literal pieces, rest) := by
  rw [parseString, parseUnits_print]
  rfl

/-- A character that continues no numeral. -/
def Stops (rest : List Char) : Prop := ∀ c cs, rest = c :: cs → isDigit c = false ∧ c ≠ '.' ∧ c ≠ 'e' ∧ c ≠ 'E'

theorem takeWhile_digits {ds : List Char} (hds : ∀ c ∈ ds, isDigit c = true)
    (hrest : ∀ c cs, rest = c :: cs → isDigit c = false) :
    (ds ++ rest).takeWhile isDigit = ds ∧ (ds ++ rest).dropWhile isDigit = rest := by
  have hstop : rest.takeWhile isDigit = [] ∧ rest.dropWhile isDigit = rest := by
    cases rest with
    | nil => exact ⟨rfl, rfl⟩
    | cons c cs => simp [hrest c cs rfl]
  rw [List.takeWhile_append_of_pos hds, List.dropWhile_append_of_pos hds, hstop.1, hstop.2, List.append_nil]
  exact ⟨rfl, rfl⟩

theorem parseExponent_print (e : Exponent) (hrest : Stops rest) :
    parseExponent (e.print ++ rest) = some (e.value, rest) := by
  obtain ⟨mark, sign, digits, hmark, hsign, hne, hdigits⟩ := e
  obtain ⟨htake, hdrop⟩ := takeWhile_digits hdigits fun c cs h => (hrest c cs h).1
  cases digits with
  | nil => exact absurd rfl hne
  | cons d ds =>
    have hd := hdigits d List.mem_cons_self
    have hsigned : takeSign (sign ++ (d :: ds ++ rest)) = (decide (sign = ['-']), d :: ds ++ rest) := by
      rcases hsign with rfl | rfl | rfl
      · have hminus : d ≠ '-' := by
          rintro rfl
          revert hd
          decide
        have hplus : d ≠ '+' := by
          rintro rfl
          revert hd
          decide
        simp [takeSign, hminus, hplus]
      · rfl
      · rfl
    simp only [Exponent.print, List.cons_append, List.append_assoc] at hsigned ⊢
    simp only [List.cons_append] at htake hdrop
    simp only [parseExponent, if_pos hmark, hsigned, htake, hdrop, Exponent.value, decide_eq_true_eq]

theorem parseExponent_nil (hrest : Stops rest) : parseExponent rest = some (0, rest) := by
  cases rest with
  | nil => rfl
  | cons c cs =>
    obtain ⟨-, -, he, hE⟩ := hrest c cs rfl
    simp [parseExponent, he, hE]

theorem parseFraction_print (n : Numeral) (hrest : ∀ c cs, rest = c :: cs → isDigit c = false ∧ c ≠ '.') :
    parseFraction (n.printFraction ++ rest) = some (n.frac, rest) := by
  obtain ⟨htake, hdrop⟩ := takeWhile_digits n.frac_digits fun c cs h => (hrest c cs h).1
  unfold Numeral.printFraction
  cases hfrac : n.frac with
  | nil =>
    cases rest with
    | nil => rfl
    | cons c cs => simp [parseFraction, (hrest c cs rfl).2]
  | cons d ds =>
    rw [hfrac] at htake hdrop
    simp only [List.cons_append] at htake hdrop
    simp [parseFraction, htake, hdrop]

/-- What follows the fraction of a numeral is an exponent, or what follows the numeral. -/
theorem stops_exponent (n : Numeral) (hrest : Stops rest) :
    ∀ c cs, n.printExponent ++ rest = c :: cs → isDigit c = false ∧ c ≠ '.' := by
  intro c cs h
  unfold Numeral.printExponent at h
  cases hexp : n.exponent with
  | none =>
    rw [hexp] at h
    obtain ⟨hdigit, hpoint, -⟩ := hrest c cs h
    exact ⟨hdigit, hpoint⟩
  | some e =>
    rw [hexp] at h
    have hmark : e.mark = c := (List.cons.inj h).1
    rcases e.mark_eq with he | he <;> (rw [← hmark, he]; decide)

theorem stops_fraction (n : Numeral) (hrest : Stops rest) :
    ∀ c cs, n.printFraction ++ (n.printExponent ++ rest) = c :: cs → isDigit c = false := by
  intro c cs h
  unfold Numeral.printFraction at h
  split at h
  · exact (stops_exponent n hrest c cs h).1
  · rw [← (List.cons.inj h).1]
    decide

theorem parseUnsigned_print (n : Numeral) (hrest : Stops rest) :
    parseUnsigned (n.whole ++ (n.printFraction ++ (n.printExponent ++ rest))) = some (n.magnitude, rest) := by
  obtain ⟨htake, hdrop⟩ := takeWhile_digits n.whole_digits (stops_fraction n hrest)
  have hexponent : parseExponent (n.printExponent ++ rest) = some
    ((n.exponent.map Exponent.value).getD 0, rest) := by
    unfold Numeral.printExponent
    cases n.exponent with
    | none => exact parseExponent_nil hrest
    | some e => exact parseExponent_print e hrest
  unfold parseUnsigned
  rw [htake, hdrop, parseFraction_print n (stops_exponent n hrest)]
  split
  · exact absurd ‹_› n.whole_ne
  · exact absurd ‹_› (n.no_zero _ _)
  · simp only [Option.bind_eq_bind, Option.bind_some, hexponent, Numeral.magnitude]
    rfl

theorem parseNumber_print (n : Numeral) (hrest : Stops rest) :
    parseNumber (n.print ++ rest) = some (n.value, rest) := by
  have hunsigned := parseUnsigned_print n hrest
  unfold Numeral.print Numeral.value
  rw [List.append_assoc, List.append_assoc, List.append_assoc]
  cases n.negative with
  | true =>
    simp only [if_true, List.cons_append, List.nil_append]
    rw [parseNumber, hunsigned]
    rfl
  | false =>
    simp only [Bool.false_eq_true, if_false, List.nil_append]
    rw [← hunsigned]
    cases hwhole : n.whole with
    | nil => exact absurd hwhole n.whole_ne
    | cons d ds =>
      have hd : d ≠ '-' := by
        rintro rfl
        have hdigit := n.whole_digits '-' (hwhole ▸ List.mem_cons_self)
        revert hdigit
        decide
      simp [parseNumber, hd]

/-- A digit is one of ten characters. -/
theorem mem_of_isDigit {c : Char} (h : isDigit c = true) :
    c ∈ ['0', '1', '2', '3', '4', '5', '6', '7', '8', '9'] := by
  have hrange : '0' ≤ c ∧ c ≤ '9' := by
    by_contra hnot
    unfold isDigit digitVal at h
    rw [if_neg hnot] at h
    split at h
    · simp at h
    · split at h <;> simp at h
  have hlo : 48 ≤ c.toNat := hrange.1
  have hhi : c.toNat ≤ 57 := hrange.2
  have hchar : c = Char.ofNat c.toNat := (Char.ofNat_toNat c).symm
  rw [hchar]
  generalize c.toNat = k at hlo hhi
  interval_cases k <;> decide

/-- The characters that a numeral can begin with. -/
def numeralHeads : List Char := ['-', '0', '1', '2', '3', '4', '5', '6', '7', '8', '9']

theorem head_numeral (n : Numeral) : ∃ c cs, n.print = c :: cs ∧ c ∈ numeralHeads := by
  unfold Numeral.print
  cases n.negative with
  | true => exact ⟨'-', _, rfl, List.mem_cons_self⟩
  | false =>
    cases hwhole : n.whole with
    | nil => exact absurd hwhole n.whole_ne
    | cons d ds =>
      have hd := n.whole_digits d (hwhole ▸ List.mem_cons_self)
      exact ⟨d, _, rfl, List.mem_cons_of_mem _ (mem_of_isDigit hd)⟩

theorem numeralHeads_spec : ∀ c ∈ numeralHeads, isJsonSpace c = false ∧ c ≠ ']' := by
  simp [numeralHeads, isJsonSpace]

end Tokens

/-! ### Reading texts -/

/-- The next character ends a value. -/
def Ends (rest : List Char) : Prop := ∀ c cs, rest = c :: cs → isJsonSpace c = true ∨ c ∈ [',', ']', '\x7d']

section Values
variable {rest : List Char} {n : Nat}

theorem Ends.stops (h : Ends rest) : Stops rest := by
  intro c cs hcons
  have hall : ∀ c ∈ ['0', '1', '2', '3', '4', '5', '6', '7', '8', '9', '.', 'e', 'E'],
      isJsonSpace c = false ∧ c ∉ [',', ']', '\x7d'] := by
    simp [isJsonSpace]
  have hnot : ∀ c' ∈ ['0', '1', '2', '3', '4', '5', '6', '7', '8', '9', '.', 'e', 'E'], c ≠ c' := by
    rintro c' hc' rfl
    obtain ⟨hblank, hend⟩ := hall c hc'
    rcases h c cs hcons with hspace | hmem
    · rw [hspace] at hblank
      cases hblank
    · exact hend hmem
  refine ⟨?_, hnot '.' (by decide), hnot 'e' (by decide), hnot 'E' (by decide)⟩
  rw [Bool.eq_false_iff]
  intro hdigit
  exact hnot c (List.mem_append_left ['.', 'e', 'E'] (mem_of_isDigit hdigit)) rfl

theorem ends_append (s : Space) (h : Ends rest) : Ends (s.chars ++ rest) := by
  obtain ⟨chars, hblank⟩ := s
  cases chars with
  | nil => exact h
  | cons c chars =>
    intro c' cs' hcons
    rw [← (List.cons.inj hcons).1]
    exact Or.inl (hblank c List.mem_cons_self)

theorem parseValue_append (s : Space) (n : Nat) (rest : List Char) :
    parseValue n (s.chars ++ rest) = parseValue n rest := by
  cases n with
  | zero => rfl
  | succ n => rw [parseValue, parseValue, skipSpace_append]

theorem parseValue_numeral (k : Nat) (num : Numeral) (h : Ends rest) :
    parseValue (k + 1) (num.print ++ rest) = some (.num num.value, rest) := by
  obtain ⟨c, cs, hprint, hc⟩ := head_numeral num
  have hnumber := parseNumber_print num h.stops
  rw [hprint, List.cons_append] at hnumber ⊢
  have hvalue : parseValue (k + 1) (c :: (cs ++ rest)) = (parseNumber (c :: (cs ++ rest))).map fun x =>
    (.num x.1, x.2) := by
    rw [parseValue, skipSpace_cons (numeralHeads_spec c hc).1]
    simp only [numeralHeads, List.mem_cons, List.not_mem_nil, or_false] at hc
    rcases hc with rfl | rfl | rfl | rfl | rfl | rfl | rfl | rfl | rfl | rfl | rfl <;> rfl
  rw [hvalue, hnumber]
  rfl

/-- No value begins with white space or with the bracket that closes an empty array. -/
theorem head_print (d : Doc) : ∃ c cs, d.print = c :: cs ∧ isJsonSpace c = false ∧ c ≠ ']' := by
  cases d with
  | num num =>
    obtain ⟨c, cs, hprint, hc⟩ := head_numeral num
    exact ⟨c, cs, by rw [Doc.print, hprint], numeralHeads_spec c hc⟩
  | bool b => cases b <;> exact ⟨_, _, rfl, by decide, by decide⟩
  | null | str | emptyArr | arr | emptyObj | obj => exact ⟨_, _, rfl, by decide, by decide⟩

/-- Items begin, after white space, with what is not the bracket that closes an empty array. -/
theorem skipSpace_items (items : Items) (rest : List Char) :
    ∃ c cs, skipSpace (items.print ++ rest) = c :: cs ∧ c ≠ ']' ∧
    ∀ n, parseItems n (c :: cs) = parseItems n (items.print ++ rest) := by
  have hitem : ∀ (before : Space) (d : Doc) (tail : List Char),
      ∃ c cs, skipSpace (before.chars ++ (d.print ++ tail)) = c :: cs ∧ c ≠ ']' ∧
        ∀ n, parseItems n (c :: cs) = parseItems n (before.chars ++ (d.print ++ tail)) := by
    intro before d tail
    obtain ⟨c, cs, hprint, hspace, hc⟩ := head_print d
    refine ⟨c, cs ++ tail, ?_, hc, fun n => ?_⟩
    · rw [skipSpace_append, hprint]
      exact skipSpace_cons hspace _
    · cases n with
      | zero => rfl
      | succ n =>
        rw [parseItems, parseItems, parseValue_append, hprint]
        rfl
  cases items with
  | last before item after => simpa [Items.print] using hitem before item (after.chars ++ rest)
  | cons before item after items =>
    simpa [Items.print] using hitem before item (after.chars ++ ',' :: (items.print ++ rest))

theorem skipSpace_fields (fields : Fields) (rest : List Char) :
    ∃ cs, skipSpace (fields.print ++ rest) = '"' :: cs ∧
      ∀ n done, parseFields n done ('"' :: cs) = parseFields n done (fields.print ++ rest) := by
  have hname : ∀ (before : Space) (tail : List Char), skipSpace (before.chars ++ '"' :: tail) = '"' :: tail ∧
      ∀ n done, parseFields n done ('"' :: tail) = parseFields n done (before.chars ++ '"' :: tail) := by
    intro before tail
    have hskip : skipSpace (before.chars ++ '"' :: tail) = '"' :: tail := by
      rw [skipSpace_append]
      exact skipSpace_cons (by decide) _
    refine ⟨hskip, fun n done => ?_⟩
    cases n with
    | zero => rfl
    | succ n =>
      rw [parseFields, parseFields, hskip, skipSpace_cons (by decide)]
  cases fields with
  | last before name colon space item after =>
    simp only [Fields.print, List.append_assoc, List.cons_append]
    exact ⟨_, hname before _⟩
  | cons before name colon space item after fields =>
    simp only [Fields.print, List.append_assoc, List.cons_append]
    exact ⟨_, hname before _⟩

mutual
/-- A text of the grammar is read as its value. -/
theorem parseValue_print : ∀ (d : Doc) {n : Nat} {rest : List Char}, 2 * d.print.length ≤ n → Ends rest →
    parseValue n (d.print ++ rest) = some (d.value, rest)
  | .null, n + 1, rest, hn, _ => by
    rfl
  | .bool true, n + 1, rest, hn, _ => by
    rfl
  | .bool false, n + 1, rest, hn, _ => by
    rfl
  | .num num, n + 1, rest, hn, h => by
    exact parseValue_numeral n num h
  | .str pieces, n + 1, rest, hn, h => by
    have hstring := parseString_print pieces rest
    simp only [Doc.print, List.cons_append, List.append_assoc, List.nil_append]
    rw [parseValue, skipSpace_cons (by decide)]
    simp only [hstring, Option.map_some, Doc.value]
  | .emptyArr inside, n + 1, rest, hn, h => by
    simp only [Doc.print, List.cons_append, List.append_assoc, List.nil_append]
    rw [parseValue, skipSpace_cons (by decide)]
    simp only [skipSpace_append]
    rw [skipSpace_cons (by decide)]
    rfl
  | .arr items, n + 1, rest, hn, h => by
    have hlen : 2 * items.print.length + 1 ≤ n := by
      simp [Doc.print] at hn
      omega
    have hitems : parseItems n (items.print ++ ']' :: rest) = some (items.values, rest) :=
      parseItems_print items hlen
    simp only [Doc.print, List.cons_append, List.append_assoc, List.nil_append]
    obtain ⟨c, cs, hskip, hc, hsame⟩ := skipSpace_items items (']' :: rest)
    rw [parseValue, skipSpace_cons (by decide)]
    simp only [hskip]
    rw [← hsame] at hitems
    split
    · rename_i heq
      exact absurd (List.cons.inj heq).1 hc
    · rw [hitems]
      rfl
  | .emptyObj inside, n + 1, rest, hn, h => by
    simp only [Doc.print, List.cons_append, List.append_assoc, List.nil_append]
    rw [parseValue, skipSpace_cons (by decide)]
    simp only [skipSpace_append]
    rw [skipSpace_cons (by decide)]
    rfl
  | .obj fields, n + 1, rest, hn, h => by
    have hlen : 2 * fields.print.length + 1 ≤ n := by
      simp [Doc.print] at hn
      omega
    have hfields : parseFields n [] (fields.print ++ '\x7d' :: rest) = some (_, rest) :=
      parseFields_print fields [] hlen
    simp only [Doc.print, List.cons_append, List.append_assoc, List.nil_append]
    obtain ⟨cs, hskip, hsame⟩ := skipSpace_fields fields ('\x7d' :: rest)
    rw [parseValue, skipSpace_cons (by decide)]
    simp only [hskip]
    rw [← hsame] at hfields
    show (parseFields n [] ('"' :: cs)).map _ = _
    rw [hfields]
    rfl
  | d, 0, rest, hn, h => by
    obtain ⟨c, cs, hprint, -⟩ := head_print d
    rw [hprint] at hn
    simp at hn

theorem parseItems_print : ∀ (items : Items) {n : Nat} {rest : List Char}, 2 * items.print.length + 1 ≤ n →
    parseItems n (items.print ++ ']' :: rest) = some (items.values, rest)
  | .last before item after, n + 1, rest, hn => by
    have hlen : 2 * item.print.length ≤ n := by
      simp [Items.print] at hn
      omega
    have hends : Ends (after.chars ++ ']' :: rest) := ends_append after fun c cs h =>
      Or.inr (by simp [(List.cons.inj h).1.symm])
    have hvalue := parseValue_print item hlen hends
    simp only [Items.print, List.append_assoc]
    rw [parseItems, parseValue_append, hvalue]
    simp only [Option.bind_eq_bind, Option.bind_some, skipSpace_append]
    rw [skipSpace_cons (by decide)]
    rfl
  | .cons before item after items, n + 1, rest, hn => by
    have hlen : 2 * item.print.length ≤ n ∧ 2 * items.print.length + 1 ≤ n := by
      simp [Items.print] at hn
      omega
    have hends : Ends (after.chars ++ ',' :: (items.print ++ ']' :: rest)) :=
      ends_append after fun c cs h => Or.inr (by simp [(List.cons.inj h).1.symm])
    have hvalue := parseValue_print item hlen.1 hends
    have hitems : parseItems n (items.print ++ ']' :: rest) = some (items.values, rest) :=
      parseItems_print items hlen.2
    simp only [Items.print, List.append_assoc, List.cons_append]
    rw [parseItems, parseValue_append, hvalue]
    simp only [Option.bind_eq_bind, Option.bind_some, skipSpace_append]
    rw [skipSpace_cons (by decide)]
    simp only [hitems, Option.bind_some, Items.values]
    rfl
  | _, 0, rest, hn => by
    omega

theorem parseFields_print : ∀ (fields : Fields) {n : Nat} {rest : List Char} (done : List (String × Json)),
    2 * fields.print.length + 1 ≤ n → parseFields n done (fields.print ++ '\x7d' :: rest) =
      some (fields.values.foldl (fun before f => setField before f.1 f.2) done, rest)
  | .last before name colon space item after, n + 1, rest, done, hn => by
    have hlen : 2 * item.print.length ≤ n := by
      simp [Fields.print] at hn
      omega
    have hends : Ends (after.chars ++ '\x7d' :: rest) := ends_append after fun c cs h =>
      Or.inr (by simp [(List.cons.inj h).1.symm])
    have hvalue := parseValue_print item hlen hends
    simp only [Fields.print, List.append_assoc, List.cons_append]
    rw [parseFields, skipSpace_append, skipSpace_cons (by decide)]
    simp only [parseString_print, Option.bind_eq_bind, Option.bind_some, skipSpace_append]
    rw [skipSpace_cons (by decide)]
    simp only [parseValue_append, hvalue, Option.bind_some, skipSpace_append]
    rw [skipSpace_cons (by decide)]
    rfl
  | .cons before name colon space item after fields, n + 1, rest, done, hn => by
    have hlen : 2 * item.print.length ≤ n ∧ 2 * fields.print.length + 1 ≤ n := by
      simp [Fields.print] at hn
      omega
    have hends : Ends (after.chars ++ ',' :: (fields.print ++ '\x7d' :: rest)) :=
      ends_append after fun c cs h => Or.inr (by simp [(List.cons.inj h).1.symm])
    have hvalue := parseValue_print item hlen.1 hends
    have hfields : parseFields n (setField done (literal name) item.value)
      (fields.print ++ '\x7d' :: rest) = some (_, rest) :=
      parseFields_print fields _ hlen.2
    simp only [Fields.print, List.append_assoc, List.cons_append]
    rw [parseFields, skipSpace_append, skipSpace_cons (by decide)]
    simp only [parseString_print, Option.bind_eq_bind, Option.bind_some, skipSpace_append]
    rw [skipSpace_cons (by decide)]
    simp only [parseValue_append, hvalue, Option.bind_some, skipSpace_append]
    rw [skipSpace_cons (by decide)]
    simp only [hfields, Fields.values, List.foldl_cons]
  | _, 0, rest, done, hn => by
    omega
end

/-- `JSON.parse` on a text of the grammar with white space around it. -/
theorem parseChars_print (lead : Space) (d : Doc) (trail : Space) :
    parseChars (lead.chars ++ (d.print ++ trail.chars)) = some d.value := by
  have hends : Ends trail.chars := by
    have hnil : Ends (trail.chars ++ []) := ends_append trail fun c cs h => by cases h
    rwa [List.append_nil] at hnil
  have hvalue : parseValue (2 * (lead.chars ++ (d.print ++ trail.chars)).length + 2) (d.print ++ trail.chars) =
      some (d.value, trail.chars) := by
    refine parseValue_print d ?_ hends
    simp
    omega
  have hskip : skipSpace trail.chars = [] := by
    have hnil := skipSpace_append trail []
    rwa [List.append_nil] at hnil
  unfold parseChars
  rw [parseValue_append, hvalue]
  simp [hskip]

end Values

/-! ### Weight -/

mutual
/-- The number of UTF-16 units in all strings of a value. -/
def Json.weight : Json → Nat
  | .null | .bool _ | .num _ => 0
  | .str s => utf16Length s
  | .arr items => itemsWeight items
  | .obj fields => fieldsWeight fields

def itemsWeight : List Json → Nat
  | [] => 0
  | item :: items => item.weight + itemsWeight items

def fieldsWeight : List (String × Json) → Nat
  | [] => 0
  | (name, v) :: fields => utf16Length name + v.weight + fieldsWeight fields
end

def piecesWeight (pieces : List Piece) : Nat := (pieces.flatMap Piece.units).length

mutual
/-- The number of UTF-16 units in all string literals of a text. -/
def Doc.weight : Doc → Nat
  | .null | .bool _ | .num _ | .emptyArr _ | .emptyObj _ => 0
  | .str pieces => piecesWeight pieces
  | .arr items => items.weight
  | .obj fields => fields.weight

def Items.weight : Items → Nat
  | .last _ item _ => item.weight
  | .cons _ item _ rest => item.weight + rest.weight

def Fields.weight : Fields → Nat
  | .last _ name _ _ item _ => piecesWeight name + item.weight
  | .cons _ name _ _ item _ rest => piecesWeight name + item.weight + rest.weight
end

mutual
/-- No object of the text has two fields of one name. -/
def Doc.Distinct : Doc → Prop
  | .null | .bool _ | .num _ | .str _ | .emptyArr _ | .emptyObj _ => True
  | .arr items => items.Distinct
  | .obj fields => (fields.values.map (·.1)).Nodup ∧ fields.Distinct

def Items.Distinct : Items → Prop
  | .last _ item _ => item.Distinct
  | .cons _ item _ rest => item.Distinct ∧ rest.Distinct

def Fields.Distinct : Fields → Prop
  | .last _ _ _ _ item _ => item.Distinct
  | .cons _ _ _ _ item _ rest => item.Distinct ∧ rest.Distinct
end

section Weight
variable {pieces : List Piece} {name : String} {v : Json} {fields : List (String × Json)}

theorem utf16Length_ofList (cs : List Char) :
    utf16Length (String.ofList cs) = (cs.map fun c => if c.toNat < 0x10000 then 1 else 2).sum := by
  rw [utf16Length, String.toList_ofList]

theorem toNat_of_valid {k : Nat} (h : k.isValidChar) : (Char.ofNat k).toNat = k := by
  rw [Char.ofNat, dif_pos h]
  rfl

/-- Reading units into characters keeps their number. -/
theorem length_ofUnits : ∀ {us : List Nat}, (∀ u ∈ us, u < 0x10000) →
    ((ofUnits us).map fun c => if c.toNat < 0x10000 then 1 else 2).sum = us.length := by
  intro us
  have hsingle : ∀ u, u < 0x10000 → (ofUnit u).toNat < 0x10000 := by
    intro u hu
    unfold ofUnit
    split
    · decide
    · rename_i hsurrogate
      rwa [toNat_of_valid (by unfold Nat.isValidChar; omega)]
  fun_induction ofUnits us with
  | case1 => exact fun _ => rfl
  | case2 u => exact fun h => by simp [hsingle u (h u (by simp))]
  | case3 hi lo us hpair ih =>
    intro h
    have hchar : ¬ (Char.ofNat (0x10000 + (hi - 0xD800) * 0x400 + (lo - 0xDC00))).toNat < 0x10000 := by
      rw [toNat_of_valid (by unfold Nat.isValidChar; omega)]
      omega
    rw [List.map_cons, List.sum_cons, if_neg hchar, ih fun u hu => h u (by simp [hu])]
    simp only [List.length_cons]
    omega
  | case4 hi lo us hpair ih =>
    intro h
    rw [List.map_cons, List.sum_cons, if_pos (hsingle hi (h hi (by simp))), ih fun u hu =>
      h u (List.mem_cons_of_mem hi hu)]
    simp only [List.length_cons]
    omega

theorem digitVal_lt {base d : Nat} {c : Char} (h : digitVal base c = some d) : d < base := by
  exact of_decide_eq_true (Option.filter_eq_some_iff.mp h).2

theorem units_lt (p : Piece) : ∀ u ∈ p.units, u < 0x10000 := by
  cases p with
  | raw c printable quote backslash =>
    intro u hu
    have hc : c.toNat < 0x110000 := by
      have hvalid := c.valid
      unfold UInt32.isValidChar Nat.isValidChar at hvalid
      show c.val.toNat < _
      omega
    rw [Piece.units, Js.units] at hu
    split at hu
    · rename_i hsmall
      rwa [List.mem_singleton.mp hu]
    · simp only [List.mem_cons, List.not_mem_nil, or_false] at hu
      omega
  | escape c u known =>
    intro u' hu'
    rw [Piece.units, List.mem_singleton] at hu'
    subst hu'
    unfold escapeUnit at known
    split at known <;> cases known <;> decide
  | hex a b c d digits =>
    intro u hu
    rw [Piece.units, List.mem_singleton] at hu
    subst hu
    have hdigit : ∀ x, (digitVal 16 x).getD 0 < 16 := by
      intro x
      cases hx : digitVal 16 x with
      | none => decide
      | some d => exact digitVal_lt hx
    have ha := hdigit a
    have hb := hdigit b
    have hc := hdigit c
    have hd := hdigit d
    simp only [digitsVal, List.foldl_cons, List.foldl_nil]
    omega

theorem utf16Length_literal (pieces : List Piece) : utf16Length (literal pieces) = piecesWeight pieces := by
  rw [literal, utf16Length_ofList, length_ofUnits, piecesWeight]
  intro u hu
  obtain ⟨p, -, hp⟩ := List.mem_flatMap.mp hu
  exact units_lt p u hp

theorem fieldsWeight_append (fields more : List (String × Json)) :
    fieldsWeight (fields ++ more) = fieldsWeight fields + fieldsWeight more := by
  induction fields with
  | nil => simp [fieldsWeight]
  | cons f fields ih =>
    obtain ⟨name, v⟩ := f
    simp only [List.cons_append, fieldsWeight, ih]
    omega

theorem names_setField (h : (fields.map (·.1)).Nodup) (name : String) (v : Json) :
    ((setField fields name v).map (·.1)).Nodup := by
  unfold setField
  split
  · have hnames : (fields.map fun f => if f.1 == name then (name, v) else f).map (·.1) = fields.map (·.1) := by
      rw [List.map_map]
      refine List.map_congr_left fun f _ => ?_
      by_cases hf : f.1 = name <;> simp [hf]
    rwa [hnames]
  · rename_i hnew
    rw [List.map_append]
    refine List.nodup_append.mpr ⟨h, List.nodup_singleton _, ?_⟩
    intro a ha b hb
    obtain ⟨f, hf, rfl⟩ := List.mem_map.mp ha
    rw [List.mem_singleton.mp hb]
    exact fun heq => hnew (List.any_eq_true.mpr ⟨f, hf, beq_iff_eq.mpr heq⟩)

/-- A field that takes the place of another adds at most its own weight. -/
theorem fieldsWeight_setField (h : (fields.map (·.1)).Nodup) (name : String) (v : Json) :
    fieldsWeight (setField fields name v) ≤ fieldsWeight fields + (utf16Length name + v.weight) := by
  unfold setField
  split
  · rename_i hany
    clear hany
    induction fields with
    | nil => simp [fieldsWeight]
    | cons f fields ih =>
      obtain ⟨x, w⟩ := f
      obtain ⟨hx, hrest⟩ := List.nodup_cons.mp h
      by_cases hname : x = name
      · -- No other field has this name.
        have hsame : (fields.map fun f => if f.1 == name then (name, v) else f) = fields := by
          refine (List.map_congr_left fun f hf => ?_).trans (List.map_id fields)
          have hne : f.1 ≠ name := fun heq => hx (List.mem_map.mpr ⟨f, hf, heq.trans hname.symm⟩)
          simp [hne]
        simp only [List.map_cons, hname, beq_self_eq_true, if_true, hsame, fieldsWeight]
        omega
      · have hrec := ih hrest
        simp only [List.map_cons, beq_iff_eq, hname, if_false, fieldsWeight] at hrec ⊢
        omega
  · simp [fieldsWeight_append, fieldsWeight]

theorem fieldsWeight_foldl {done : List (String × Json)} (h : (done.map (·.1)).Nodup) :
    fieldsWeight (fields.foldl (fun before f => setField before f.1 f.2) done) ≤
      fieldsWeight done + fieldsWeight fields := by
  induction fields generalizing done with
  | nil => simp [fieldsWeight]
  | cons f fields ih =>
    obtain ⟨x, w⟩ := f
    have hset := fieldsWeight_setField h x w
    have hrest := ih (names_setField h x w)
    simp only [List.foldl_cons, fieldsWeight]
    omega

/-- Fields of different names all stay. -/
theorem foldl_setField {done : List (String × Json)} (h : ((done ++ fields).map (·.1)).Nodup) :
    fields.foldl (fun before f => setField before f.1 f.2) done = done ++ fields := by
  induction fields generalizing done with
  | nil => simp
  | cons f fields ih =>
    have hnew : done.any (·.1 == f.1) = false := by
      rw [List.any_eq_false]
      intro g hg heq
      rw [List.map_append, List.nodup_append] at h
      exact h.2.2 _ (List.mem_map_of_mem hg) _ (List.mem_map_of_mem List.mem_cons_self) (beq_iff_eq.mp heq)
    have hset : setField done f.1 f.2 = done ++ [f] := by
      unfold setField
      rw [hnew]
      rfl
    rw [List.foldl_cons, hset, ih (by simpa using h), List.append_assoc]
    rfl

mutual
/-- A value weighs at most as much as its text. -/
theorem weight_value_le : ∀ d : Doc, d.value.weight ≤ d.weight
  | .null | .bool _ | .num _ | .emptyArr _ | .emptyObj _ => Nat.zero_le _
  | .str pieces => (utf16Length_literal pieces).le
  | .arr items => itemsWeight_values_le items
  | .obj fields => by
    have hfields := fieldsWeight_values_le fields
    have hfold : fieldsWeight (fields.values.foldl (fun before f => setField before f.1 f.2) []) ≤
      0 + fieldsWeight fields.values :=
      fieldsWeight_foldl List.nodup_nil
    simp only [Doc.value, Json.weight, Doc.weight]
    omega

theorem itemsWeight_values_le : ∀ items : Items, itemsWeight items.values ≤ items.weight
  | .last _ item _ => by
    have hitem := weight_value_le item
    simpa [Items.values, itemsWeight, Items.weight] using hitem
  | .cons _ item _ rest => by
    have hitem := weight_value_le item
    have hrest := itemsWeight_values_le rest
    simp only [Items.values, itemsWeight, Items.weight]
    omega

theorem fieldsWeight_values_le : ∀ fields : Fields, fieldsWeight fields.values ≤ fields.weight
  | .last _ name _ _ item _ => by
    have hitem := weight_value_le item
    simp only [Fields.values, fieldsWeight, Fields.weight, utf16Length_literal]
    omega
  | .cons _ name _ _ item _ rest => by
    have hitem := weight_value_le item
    have hrest := fieldsWeight_values_le rest
    simp only [Fields.values, fieldsWeight, Fields.weight, utf16Length_literal]
    omega
end

mutual
/-- A value weighs as much as its text if no field replaces another. -/
theorem weight_value : ∀ d : Doc, d.Distinct → d.value.weight = d.weight
  | .null, _ | .bool _, _ | .num _, _ | .emptyArr _, _ | .emptyObj _, _ => rfl
  | .str pieces, _ => utf16Length_literal pieces
  | .arr items, h => itemsWeight_values items h
  | .obj fields, h => by
    show fieldsWeight (fields.values.foldl _ []) = fields.weight
    rw [foldl_setField h.1]
    exact fieldsWeight_values fields h.2

theorem itemsWeight_values : ∀ items : Items, items.Distinct → itemsWeight items.values = items.weight
  | .last _ item _, h => by
    have hitem := weight_value item h
    simpa [Items.values, itemsWeight, Items.weight] using hitem
  | .cons _ item _ rest, h => by
    have hitem := weight_value item h.1
    have hrest := itemsWeight_values rest h.2
    simp only [Items.values, itemsWeight, Items.weight, hitem, hrest]

theorem fieldsWeight_values : ∀ fields : Fields, fields.Distinct → fieldsWeight fields.values = fields.weight
  | .last _ name _ _ item _, h => by
    have hitem := weight_value item h
    simp only [Fields.values, fieldsWeight, Fields.weight, utf16Length_literal, hitem]
    omega
  | .cons _ name _ _ item _ rest, h => by
    have hitem := weight_value item h.1
    have hrest := fieldsWeight_values rest h.2
    simp only [Fields.values, fieldsWeight, Fields.weight, utf16Length_literal, hitem, hrest]
end

end Weight

end Js
