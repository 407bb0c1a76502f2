import Slideo.Ai
import Slideo.Lib.JsonGrammar
import Slideo.Lib.Removal

/-! The model's text before it is parsed. The cleanup takes every fence out of the text, also out of the string
    literals of the JSON, and then trims it. -/

namespace Slideo
open Js

/-! ### Removing from a text of the grammar -/

def tick : Char := Char.ofNat 96

/-- The rest of a pattern has only characters that a literal writes as they are. -/
def Unescaped (p : List Char) : Prop := ∀ x ∈ p, x.toNat < 0x10000 ∧ x ≠ '"' ∧ x ≠ '\\'

/-- The pattern `pat` goes out of `xs`, whatever follows, and `xs'` stays; each character that goes weighs one
    unit. -/
structure Cleans (pat xs xs' : List Char) (w w' : Nat) : Prop where
  remove : ∀ tail, Js.remove pat (xs ++ tail) = xs' ++ Js.remove pat tail
  weight : w' + xs.length = w + xs'.length

section Cleans
variable {pat p xs xs' ys ys' : List Char} {w w' v v' : Nat}

theorem Cleans.append (h : Cleans pat xs xs' w w') (h' : Cleans pat ys ys' v v') :
    Cleans pat (xs ++ ys) (xs' ++ ys') (w + v) (w' + v') where
  remove tail := by rw [List.append_assoc, h.remove, h'.remove, List.append_assoc]
  weight := by
    have hw := h.weight
    have hv := h'.weight
    simp only [List.length_append]
    omega

theorem Cleans.same (h : tick ∉ xs) : Cleans (tick :: p) xs xs 0 0 := ⟨fun _ => remove_append h, rfl⟩

theorem tick_notMem_space (s : Space) : tick ∉ s.chars := by
  intro h
  have hblank := s.blank tick h
  revert hblank
  decide

/-- A plain text at the start of a literal consists of whole pieces. -/
theorem pieces_of_prefix (hp : Unescaped p) : ∀ {pieces : List Piece} {tail : List Char},
    p <+: printPieces pieces ++ '"' :: tail →
    ∃ rest, printPieces pieces = p ++ printPieces rest ∧ piecesWeight pieces = p.length + piecesWeight rest ∧
      pieces.length = p.length + rest.length := by
  induction p with
  | nil => exact fun {pieces _} _ => ⟨pieces, rfl, by simp, by simp⟩
  | cons x p ih =>
    intro pieces tail h
    obtain ⟨hunit, hquote, hbackslash⟩ := hp x List.mem_cons_self
    cases pieces with
    | nil => exact absurd (List.cons_prefix_cons.mp h).1 hquote
    | cons piece pieces =>
      rw [printPieces_cons, List.append_assoc] at h
      cases piece with
      | raw c printable quote backslash =>
        obtain ⟨rfl, hrest⟩ := List.cons_prefix_cons.mp h
        obtain ⟨rest, hprint, hweight, hlen⟩ := ih (fun y hy => hp y (List.mem_cons_of_mem x hy)) hrest
        refine ⟨rest, ?_, ?_, by simp [hlen]; omega⟩
        · rw [printPieces_cons, hprint]
          rfl
        · have hunits : (Piece.raw x printable quote backslash).units = [x.toNat] := by
            rw [Piece.units, units, if_pos hunit]
          unfold piecesWeight at hweight ⊢
          rw [List.flatMap_cons, hunits, List.length_append, hweight, List.length_cons, List.length_cons]
          simp only [List.length_nil]
          omega
      | escape c u known => exact absurd (List.cons_prefix_cons.mp h).1 hbackslash
      | hex a b c d digits => exact absurd (List.cons_prefix_cons.mp h).1 hbackslash

theorem Cleans.add (h : Cleans pat xs xs' w w') (u : Nat) : Cleans pat xs xs' (u + w) (u + w') where
  remove := h.remove
  weight := by
    have hw := h.weight
    omega

/-- Escapes have no tick. -/
theorem tick_notMem_piece (piece : Piece) (h : ∀ c printable quote backslash,
    piece ≠ .raw c printable quote backslash) :
    tick ∉ piece.print := by
  cases piece with
  | raw c printable quote backslash => exact absurd rfl (h c printable quote backslash)
  | escape c u known =>
    simp only [Piece.print, List.mem_cons, List.not_mem_nil, or_false, not_or]
    refine ⟨by decide, ?_⟩
    rintro rfl
    cases known
  | hex a b c d digits =>
    have hnot : (digitVal 16 tick).isSome = false := by decide
    have hne : ∀ x ∈ [a, b, c, d], tick ≠ x := by
      rintro x hx rfl
      have hdigit := List.all_eq_true.mp digits tick hx
      rw [hnot] at hdigit
      cases hdigit
    simp only [Piece.print, List.mem_cons, List.not_mem_nil, or_false, not_or]
    exact ⟨by decide, by decide, hne a (by simp), hne b (by simp), hne c (by simp), hne d (by simp)⟩

/-- A piece of a literal at which the pattern does not begin stays. -/
theorem cleans_piece {piece : Piece} {pieces pieces' : List Piece} {w w' : Nat} (hpat : Unescaped (tick :: p))
    (hbegins : ¬ tick :: p <+: printPieces (piece :: pieces) ++ ['"'])
    (hclean : Cleans (tick :: p) (printPieces pieces ++ ['"']) (printPieces pieces' ++ ['"']) w w') :
    Cleans (tick :: p) (piece.print ++ (printPieces pieces ++ ['"']))
      (piece.print ++ (printPieces pieces' ++ ['"'])) w w' := by
  cases piece with
  | raw c printable quote backslash =>
    refine ⟨fun tail => ?_, ?_⟩
    · have hnot : ¬ tick :: p <+: c :: ((printPieces pieces ++ ['"']) ++ tail) := by
        intro h
        have hlong : tick :: p <+: printPieces (.raw c printable quote backslash :: pieces) ++ '"' :: tail := by
          simpa [printPieces_cons, Piece.print] using h
        obtain ⟨rest, hprint, -⟩ := pieces_of_prefix hpat hlong
        exact hbegins (by rw [hprint, List.append_assoc]; exact List.prefix_append _ _)
      have hcons := remove_cons hnot
      rw [hclean.remove] at hcons
      exact hcons
    · have hw := hclean.weight
      simp only [Piece.print, List.length_append, List.length_cons] at hw ⊢
      omega
  | escape c u known => simpa using (Cleans.same (tick_notMem_piece _ (by simp))).append hclean
  | hex a b c d digits => simpa using (Cleans.same (tick_notMem_piece _ (by simp))).append hclean

/-- What goes out of a literal are whole pieces. -/
theorem cleans_literal (hp : Unescaped p) (pieces : List Piece) :
    ∃ pieces', Cleans (tick :: p) (printPieces pieces ++ ['"'])
    (printPieces pieces' ++ ['"']) (piecesWeight pieces) (piecesWeight pieces') := by
  have hpat : Unescaped (tick :: p) := List.forall_mem_cons.mpr ⟨by decide, hp⟩
  have hne : tick :: p ≠ [] := List.cons_ne_nil _ _
  induction hlen : pieces.length using Nat.strong_induction_on generalizing pieces with
  | _ k ih =>
    subst hlen
    by_cases hbegins : tick :: p <+: printPieces pieces ++ '"' :: []
    · obtain ⟨rest, hprint, hweight, hlen⟩ := pieces_of_prefix hpat hbegins
      obtain ⟨pieces', hclean⟩ := ih rest.length (by simp at hlen; omega) rest rfl
      refine ⟨pieces', fun tail => ?_, ?_⟩
      · rw [hprint, List.append_assoc, List.append_assoc, remove_append_self hne,
          ← List.append_assoc, hclean.remove]
      · have hw := hclean.weight
        rw [hprint, hweight]
        simp only [List.length_append, List.length_cons] at hw ⊢
        omega
    · cases pieces with
      | nil => exact ⟨[], Cleans.same (by decide)⟩
      | cons piece pieces =>
        obtain ⟨pieces', hclean⟩ := ih pieces.length (by simp) pieces rfl
        refine ⟨piece :: pieces', ?_⟩
        have hweight : ∀ pieces, piecesWeight (piece :: pieces) = piece.units.length + piecesWeight pieces := by
          simp [piecesWeight]
        rw [printPieces_cons, printPieces_cons, List.append_assoc, List.append_assoc, hweight, hweight]
        exact (cleans_piece hpat hbegins hclean).add _

theorem tick_notMem_digits {ds : List Char} (h : ∀ c ∈ ds, isDigit c = true) : tick ∉ ds := by
  intro hmem
  have hdigit := h tick hmem
  revert hdigit
  decide

theorem tick_notMem_numeral (n : Numeral) : tick ∉ n.print := by
  have hsign : tick ∉ (if n.negative then ['-'] else []) := by cases n.negative <;> decide
  have hfraction : tick ∉ n.printFraction := by
    unfold Numeral.printFraction
    split
    · simp
    · simp [tick_notMem_digits n.frac_digits, show tick ≠ '.' by decide]
  have hexponent : tick ∉ n.printExponent := by
    unfold Numeral.printExponent
    cases n.exponent with
    | none => simp
    | some e =>
      have hmark : tick ≠ e.mark := by rcases e.mark_eq with h | h <;> (rw [h]; decide)
      have hsign : tick ∉ e.sign := by rcases e.sign_eq with h | h | h <;> (rw [h]; decide)
      simp [Exponent.print, hmark, hsign, tick_notMem_digits e.all_digits]
  unfold Numeral.print
  simp only [List.mem_append, not_or]
  exact ⟨hsign, tick_notMem_digits n.whole_digits, hfraction, hexponent⟩

theorem cleans_space (s : Space) : Cleans (tick :: p) s.chars s.chars 0 0 := Cleans.same (tick_notMem_space s)

theorem cleans_char {c : Char} (h : tick ≠ c) : Cleans (tick :: p) [c] [c] 0 0 := Cleans.same (by simpa using h)

mutual
/-- A text of the grammar stays one, and what goes out of it goes out of its literals. -/
theorem cleans_doc (hp : Unescaped p) : ∀ d : Doc, ∃ d' : Doc,
    Cleans (tick :: p) d.print d'.print d.weight d'.weight
  | .null => ⟨.null, Cleans.same (by decide)⟩
  | .bool true => ⟨.bool true, Cleans.same (by decide)⟩
  | .bool false => ⟨.bool false, Cleans.same (by decide)⟩
  | .num n => ⟨.num n, Cleans.same (tick_notMem_numeral n)⟩
  | .emptyArr inside => ⟨.emptyArr inside, by
      have hclean := (cleans_char (show tick ≠ '[' by decide)).append
        ((cleans_space inside).append (cleans_char (p := p) (show tick ≠ ']' by decide)))
      simpa [Doc.print, Doc.weight] using hclean⟩
  | .emptyObj inside => ⟨.emptyObj inside, by
      have hclean := (cleans_char (show tick ≠ '\x7b' by decide)).append
        ((cleans_space inside).append (cleans_char (p := p) (show tick ≠ '\x7d' by decide)))
      simpa [Doc.print, Doc.weight] using hclean⟩
  | .str pieces => by
    obtain ⟨pieces', hpieces⟩ := cleans_literal hp pieces
    have hclean := (cleans_char (show tick ≠ '"' by decide)).append hpieces
    exact ⟨.str pieces', by simpa [Doc.print, Doc.weight] using hclean⟩
  | .arr items => by
    obtain ⟨items', hitems⟩ := cleans_items hp items
    have hclean := (cleans_char (show tick ≠ '[' by decide)).append
      (hitems.append (cleans_char (show tick ≠ ']' by decide)))
    exact ⟨.arr items', by simpa [Doc.print, Doc.weight] using hclean⟩
  | .obj fields => by
    obtain ⟨fields', hfields⟩ := cleans_fields hp fields
    have hclean := (cleans_char (show tick ≠ '\x7b' by decide)).append
      (hfields.append (cleans_char (show tick ≠ '\x7d' by decide)))
    exact ⟨.obj fields', by simpa [Doc.print, Doc.weight] using hclean⟩

theorem cleans_items (hp : Unescaped p) : ∀ items : Items, ∃ items' : Items,
    Cleans (tick :: p) items.print items'.print items.weight items'.weight
  | .last before item after => by
    obtain ⟨item', hitem⟩ := cleans_doc hp item
    have hclean := (cleans_space before).append (hitem.append (cleans_space after))
    exact ⟨.last before item' after, by simpa [Items.print, Items.weight] using hclean⟩
  | .cons before item after rest => by
    obtain ⟨item', hitem⟩ := cleans_doc hp item
    obtain ⟨rest', hrest⟩ := cleans_items hp rest
    have hclean := (cleans_space before).append (hitem.append ((cleans_space after).append
      ((cleans_char (show tick ≠ ',' by decide)).append hrest)))
    exact ⟨.cons before item' after rest', by simpa [Items.print, Items.weight] using hclean⟩

theorem cleans_fields (hp : Unescaped p) : ∀ fields : Fields, ∃ fields' : Fields,
    Cleans (tick :: p) fields.print fields'.print fields.weight fields'.weight
  | .last before name colon space item after => by
    obtain ⟨name', hname⟩ := cleans_literal hp name
    obtain ⟨item', hitem⟩ := cleans_doc hp item
    have hclean := (cleans_space before).append ((cleans_char (show tick ≠ '"' by decide)).append (hname.append
      ((cleans_space colon).append ((cleans_char (show tick ≠ ':' by decide)).append ((cleans_space space).append
        (hitem.append (cleans_space after)))))))
    exact ⟨.last before name' colon space item' after, by simpa [Fields.print, Fields.weight] using hclean⟩
  | .cons before name colon space item after rest => by
    obtain ⟨name', hname⟩ := cleans_literal hp name
    obtain ⟨item', hitem⟩ := cleans_doc hp item
    obtain ⟨rest', hrest⟩ := cleans_fields hp rest
    have hclean := (cleans_space before).append ((cleans_char (show tick ≠ '"' by decide)).append (hname.append
      ((cleans_space colon).append ((cleans_char (show tick ≠ ':' by decide)).append ((cleans_space space).append
        (hitem.append ((cleans_space after).append ((cleans_char (show tick ≠ ',' by decide)).append hrest))))))))
    exact ⟨.cons before name' colon space item' after rest', by simpa [Fields.print,
      Fields.weight, Nat.add_assoc] using hclean⟩
end

end Cleans

/-! ### Trimming -/

section Trim
variable {xs ys : List Char}

theorem isSpace_of_isJsonSpace {c : Char} (h : isJsonSpace c = true) : isSpace c = true := by
  simp only [isJsonSpace, Bool.or_eq_true, decide_eq_true_eq] at h
  rcases h with ((rfl | rfl) | rfl) | rfl <;> decide

/-- The text ends with a character that is not white space. -/
def EndsDark (xs : List Char) : Prop := ∃ init c, xs = init ++ [c] ∧ isSpace c = false

theorem EndsDark.append (h : EndsDark ys) (xs : List Char) : EndsDark (xs ++ ys) := by
  obtain ⟨init, c, rfl, hc⟩ := h
  exact ⟨xs ++ init, c, (List.append_assoc _ _ _).symm, hc⟩

theorem endsDark_digits (hne : xs ≠ []) (h : ∀ c ∈ xs, isDigit c = true) : EndsDark xs := by
  have hall : ∀ c ∈ ['0', '1', '2', '3', '4', '5', '6', '7', '8', '9'], isSpace c = false := by
    simp [isSpace]
  exact ⟨xs.dropLast, xs.getLast hne, (List.dropLast_append_getLast hne).symm,
    hall _ (mem_of_isDigit (h _ (List.getLast_mem hne)))⟩

theorem endsDark_numeral (n : Numeral) : EndsDark n.print := by
  refine EndsDark.append ?_ _
  cases hexp : n.exponent with
  | some e =>
    have hexponent : n.printExponent = e.mark :: e.sign ++ e.digits := by
      simp [Numeral.printExponent, hexp, Exponent.print]
    rw [hexponent]
    exact (((endsDark_digits e.digits_ne e.all_digits).append _).append _).append _
  | none =>
    have hexponent : n.printExponent = [] := by simp [Numeral.printExponent, hexp]
    rw [hexponent, List.append_nil]
    by_cases hfrac : n.frac = []
    · have hfraction : n.printFraction = [] := by simp [Numeral.printFraction, hfrac]
      rw [hfraction, List.append_nil]
      exact endsDark_digits n.whole_ne n.whole_digits
    · have hfraction : n.printFraction = ['.'] ++ n.frac := by simp [Numeral.printFraction, hfrac]
      rw [hfraction]
      exact ((endsDark_digits hfrac n.frac_digits).append _).append _

theorem endsDark_doc (d : Doc) : EndsDark d.print := by
  cases d with
  | num n => exact endsDark_numeral n
  | bool b =>
    cases b with
    | true => exact ⟨['t', 'r', 'u'], 'e', rfl, by decide⟩
    | false => exact ⟨['f', 'a', 'l', 's'], 'e', rfl, by decide⟩
  | null => exact ⟨['n', 'u', 'l'], 'l', rfl, by decide⟩
  | str pieces => exact ⟨'"' :: printPieces pieces, '"', rfl, by decide⟩
  | emptyArr inside => exact ⟨'[' :: inside.chars, ']', rfl, by decide⟩
  | arr items => exact ⟨'[' :: items.print, ']', rfl, by decide⟩
  | emptyObj inside => exact ⟨'\x7b' :: inside.chars, '\x7d', rfl, by decide⟩
  | obj fields => exact ⟨'\x7b' :: fields.print, '\x7d', rfl, by decide⟩

theorem startsDark_doc (d : Doc) : ∃ c cs, d.print = c :: cs ∧ isSpace c = false := by
  cases d with
  | num n =>
    obtain ⟨c, cs, hprint, hc⟩ := head_numeral n
    have hall : ∀ c ∈ numeralHeads, isSpace c = false := by simp [numeralHeads, isSpace]
    exact ⟨c, cs, by rw [Doc.print, hprint], hall c hc⟩
  | bool b => cases b <;> exact ⟨_, _, rfl, by decide⟩
  | null | str | emptyArr | arr | emptyObj | obj => exact ⟨_, _, rfl, by decide⟩

/-- White space only. -/
def Blank (pad : List Char) : Prop := ∀ c ∈ pad, isSpace c = true

theorem Blank.append (h : Blank xs) (h' : Blank ys) : Blank (xs ++ ys) :=
  fun c hc => (List.mem_append.mp hc).elim (h c) (h' c)

theorem blank_newline : Blank ['\n'] := by simp [Blank, isSpace]

theorem blank_space (s : Space) : Blank s.chars := fun c hc => isSpace_of_isJsonSpace (s.blank c hc)

theorem trim_doc {pad pad' : List Char} (hpad : Blank pad) (hpad' : Blank pad') (d : Doc) :
    trim (pad ++ (d.print ++ pad')) = d.print := by
  obtain ⟨init, last, hlast, hdark⟩ := endsDark_doc d
  obtain ⟨c, cs, hfirst, hc⟩ := startsDark_doc d
  have hleft : (pad ++ (d.print ++ pad')).dropWhile isSpace = d.print ++ pad' := by
    rw [List.dropWhile_append_of_pos hpad, hfirst]
    simp [hc]
  have hright : (d.print ++ pad').reverse.dropWhile isSpace = d.print.reverse := by
    rw [List.reverse_append, List.dropWhile_append_of_pos fun c hc => hpad' c (List.mem_reverse.mp hc), hlast]
    simp [hdark]
  rw [trim, hleft, hright, List.reverse_reverse]

end Trim

/-! ### Fences -/

/-- A text in a fence of three ticks, with the tag `json` or none. -/
def fenced (tag : Bool) (text : List Char) : List Char :=
  "```".toList ++ ((if tag then "json".toList else []) ++ ('\n' :: (text ++ '\n' :: "```".toList)))

/-- The text is a serialisation of the value: JSON that denotes it, in which no object has two fields of one
    name. -/
def Serialises (text : List Char) (v : Json) : Prop :=
  ∃ (lead : Space) (d : Doc) (trail : Space), d.Distinct ∧ text = lead.chars ++
    (d.print ++ trail.chars) ∧ d.value = v

section Fences
variable {text pad pad' : List Char} {v : Json}

/-- The two passes of the cleanup. -/
def unfenced (cs : List Char) : List Char := remove "```".toList (remove "```json".toList cs)

theorem cleanText_eq (cs : List Char) : cleanText (String.ofList cs) = trim (unfenced cs) := by
  unfold cleanText unfenced remove
  simp only [String.toList_ofList]

theorem ticks_eq : "```".toList = tick :: [tick, tick] := rfl

/-- The patterns of the two passes. -/
def fencePatterns : List (List Char) := [[tick, tick, 'j', 's', 'o', 'n'], [tick, tick]]

theorem unfenced_eq (cs : List Char) : unfenced cs = remove (tick :: [tick, tick])
    (remove (tick :: [tick, tick, 'j', 's', 'o', 'n']) cs) :=
  rfl

theorem tick_notMem_blank (h : Blank pad) : tick ∉ pad := by
  intro hmem
  have hspace := h tick hmem
  revert hspace
  decide

/-- A pass leaves white space, and a text without three ticks in front of white space. -/
theorem remove_blank {p rest : List Char} (h : Blank pad) :
    remove (tick :: p) (pad ++ rest) = pad ++ remove (tick :: p) rest :=
  remove_append (tick_notMem_blank h)

theorem remove_text {p rest : List Char} (hp : p ∈ fencePatterns) (htext : ¬ "```".toList <:+: text)
    (hrest : ∀ c cs, rest = c :: cs → isSpace c = true) :
    remove (tick :: p) (text ++ rest) = text ++ remove (tick :: p) rest := by
  have hticks : ∀ p ∈ fencePatterns, "```".toList <:+: tick :: p := by decide
  have hdark : ∀ p ∈ fencePatterns, ∀ c ∈ tick :: p, isSpace c = false := by simp [fencePatterns, tick, isSpace]
  refine remove_append_of_absent (fun c cs hcons hmem => ?_) fun hinfix => htext ((hticks p hp).trans hinfix)
  have hspace := hrest c cs hcons
  rw [hdark p hp c hmem] at hspace
  cases hspace

theorem space_of_blank (h : Blank pad) : ∀ c cs, pad = c :: cs → isSpace c = true := by
  rintro c cs rfl
  exact h c List.mem_cons_self

theorem remove_pad {p : List Char} (h : Blank pad) : remove (tick :: p) pad = pad := by
  have hpad : remove (tick :: p) (pad ++ []) = pad ++ [] := remove_blank h
  rwa [List.append_nil] at hpad

theorem newline_space (cs : List Char) : ∀ c cs', ['\n'] ++ cs = c :: cs' → isSpace c = true := by
  intro c cs' h
  rw [← (List.cons.inj h).1]
  exact blank_newline _ List.mem_cons_self

/-- Without three ticks in the text, nothing goes but the fence. -/
theorem unfenced_plain (htext : ¬ "```".toList <:+: text) (hpad : Blank pad) (hpad' : Blank pad') :
    unfenced (pad ++ (text ++ pad')) = pad ++ (text ++ pad') := by
  rw [unfenced_eq, remove_blank hpad, remove_text (by decide) htext (space_of_blank hpad'),
    remove_pad hpad', remove_blank hpad, remove_text (by decide) htext (space_of_blank hpad'), remove_pad hpad']

/-- What follows the opening ticks and the tag of a fence. -/
def fenceBody (text pad' : List Char) : List Char := ['\n'] ++ (text ++ (['\n'] ++ ("```".toList ++ pad')))

theorem remove_fenceBody {p : List Char} (hp : p ∈ fencePatterns) (htext : ¬ "```".toList <:+: text) :
    remove (tick :: p) (fenceBody text pad') = ['\n'] ++
      (text ++ (['\n'] ++ remove (tick :: p) ("```".toList ++ pad'))) := by
  rw [fenceBody, remove_blank blank_newline, remove_text hp htext (newline_space _), remove_blank blank_newline]

/-- The closing ticks of a fence stay in the first pass. -/
theorem remove_closing (hpad' : Blank pad') :
    remove (tick :: [tick, tick, 'j', 's', 'o', 'n']) ("```".toList ++ pad') = "```".toList ++ pad' := by
  refine remove_of_absent fun hinfix => ?_
  have hmem : 'j' ∈ "```".toList ++ pad' := hinfix.mem (by decide)
  rcases List.mem_append.mp hmem with hticks | hspace
  · revert hticks
    decide
  · have hblank := hpad' 'j' hspace
    revert hblank
    decide

theorem unfenced_fenced (htext : ¬ "```".toList <:+: text) (hpad : Blank pad) (hpad' : Blank pad') (tag : Bool) :
    unfenced (pad ++ (fenced tag text ++ pad')) = (pad ++ ['\n']) ++ (text ++ (['\n'] ++ pad')) := by
  have hfirst : remove (tick :: [tick, tick, 'j', 's', 'o', 'n']) (fenceBody text pad') = fenceBody text pad' := by
    rw [remove_fenceBody (by decide) htext, remove_closing hpad', fenceBody]
  have hsecond : remove (tick :: [tick, tick]) (fenceBody text pad') = ['\n'] ++ (text ++ (['\n'] ++ pad')) := by
    rw [remove_fenceBody (by decide) htext, ticks_eq, remove_append_self (List.cons_ne_nil _ _), remove_pad hpad']
  rw [unfenced_eq, remove_blank hpad, List.append_assoc pad]
  cases tag with
  | true =>
    have hfence : fenced true text ++ pad' = (tick :: [tick, tick, 'j', 's', 'o', 'n']) ++ fenceBody text pad' := by
      simp [fenced, fenceBody, ticks_eq, show "json".toList = ['j', 's', 'o', 'n'] from rfl]
    rw [hfence, remove_append_self (List.cons_ne_nil _ _), hfirst, remove_blank hpad, hsecond]
  | false =>
    have hfence : fenced false text ++ pad' = (tick :: [tick, tick]) ++ fenceBody text pad' := by
      simp [fenced, fenceBody, ticks_eq]
    have hkeep : remove (tick :: [tick, tick, 'j', 's', 'o', 'n']) ((tick :: [tick, tick]) ++ fenceBody text pad') =
        (tick :: [tick, tick]) ++ fenceBody text pad' := by
      rw [remove_append_of_absent (fun c cs h => ?_) (by decide), hfirst]
      rw [← (List.cons.inj h).1]
      decide
    rw [hfence, hkeep, remove_blank hpad, remove_append_self (List.cons_ne_nil _ _), hsecond]

/-- A text of the grammar with white space around it is parsed as its value. -/
theorem parse_trim (hpad : Blank pad) (hpad' : Blank pad') (d : Doc) :
    parseChars (trim (pad ++ (d.print ++ pad'))) = some d.value := by
  have hprint := parseChars_print ⟨[], by simp⟩ d ⟨[], by simp⟩
  rw [trim_doc hpad hpad']
  simpa using hprint

theorem parse_serialised (h : Serialises text v) (hpad : Blank pad) (hpad' : Blank pad') :
    parseChars (trim (pad ++ (text ++ pad'))) = some v := by
  obtain ⟨lead, d, trail, -, rfl, rfl⟩ := h
  have hassoc : pad ++ (lead.chars ++ (d.print ++ trail.chars) ++ pad') = (pad ++ lead.chars) ++
    (d.print ++ (trail.chars ++ pad')) := by
    simp
  rw [hassoc]
  exact parse_trim (hpad.append (blank_space lead)) ((blank_space trail).append hpad') d

/-- A pass over a text of the grammar with white space around it. -/
theorem remove_doc {p : List Char} (hp : Unescaped p) (lead : Space) (d : Doc) (trail : Space) :
    ∃ d' : Doc, remove (tick :: p) (lead.chars ++ (d.print ++ trail.chars)) = lead.chars ++
      (d'.print ++ trail.chars) ∧
      d'.weight + d.print.length = d.weight + d'.print.length := by
  obtain ⟨d', hclean⟩ := cleans_doc hp d
  refine ⟨d', ?_, hclean.weight⟩
  rw [remove_blank (blank_space lead), hclean.remove, remove_pad (blank_space trail)]

/-- Where there are three ticks, the passes take something. -/
theorem length_unfenced (hticks : "```".toList <:+: text) : (unfenced text).length < text.length := by
  rw [unfenced_eq]
  have hle : ∀ cs : List Char, (remove (tick :: [tick, tick]) cs).length ≤ cs.length :=
    fun cs => length_remove_le (List.cons_ne_nil _ _)
  by_cases hjson : tick :: [tick, tick, 'j', 's', 'o', 'n'] <:+: text
  · exact (hle _).trans_lt (length_remove_lt (List.cons_ne_nil _ _) hjson)
  · rw [remove_of_absent hjson]
    exact length_remove_lt (List.cons_ne_nil _ _) hticks

/-- Three ticks in a text are in its literals, and the cleanup takes them out of the value. -/
theorem parse_of_ticks (h : Serialises text v) (hticks : "```".toList <:+: text) :
    parseChars (trim (unfenced text)) ≠ some v := by
  obtain ⟨lead, d, trail, hdistinct, rfl, rfl⟩ := h
  have hpasses : ∀ p ∈ fencePatterns, Unescaped p := by simp [fencePatterns, Unescaped, tick]
  obtain ⟨d₁, hremove₁, hweight₁⟩ := remove_doc (hpasses _ List.mem_cons_self) lead d trail
  obtain ⟨d₂, hremove₂, hweight₂⟩ := remove_doc (hpasses [tick, tick] (by decide)) lead d₁ trail
  have hunfenced : unfenced (lead.chars ++ (d.print ++ trail.chars)) = lead.chars ++ (d₂.print ++ trail.chars) := by
    rw [unfenced_eq, hremove₁, hremove₂]
  have hlen := length_unfenced hticks
  rw [hunfenced] at hlen ⊢
  rw [parse_trim (blank_space lead) (blank_space trail)]
  intro hsame
  have hvalue := weight_value_le d₂
  rw [Option.some.inj hsame, weight_value d hdistinct] at hvalue
  simp only [List.length_append] at hlen
  omega

/-- Cleaning and parsing gives back a value from each text around its serialisation exactly if the serialisation has
    no three ticks in a row. -/
theorem fences_safe_iff (h : Serialises text v) :
    (∀ pad pad', Blank pad → Blank pad' →
      parseChars (cleanText (String.ofList (pad ++ (text ++ pad')))) = some v ∧
        ∀ tag, parseChars (cleanText (String.ofList (pad ++ (fenced tag text ++ pad')))) = some v) ↔
      ¬ "```".toList <:+: text := by
  constructor
  · intro hall hticks
    have hnil : Blank [] := fun c hc => by cases hc
    have hplain := (hall [] [] hnil hnil).1
    rw [cleanText_eq, List.nil_append, List.append_nil] at hplain
    exact parse_of_ticks h hticks hplain
  · intro htext pad pad' hpad hpad'
    constructor
    · rw [cleanText_eq, unfenced_plain htext hpad hpad']
      exact parse_serialised h hpad hpad'
    · intro tag
      rw [cleanText_eq, unfenced_fenced htext hpad hpad']
      exact parse_serialised h (hpad.append blank_newline) (blank_newline.append hpad')

end Fences

theorem serialises_title : Serialises "\"Q1\"".toList (.str "Q1") := by
  refine ⟨⟨[], by simp⟩, .str [.raw 'Q' (by decide) (by decide) (by decide),
    .raw '1' (by decide) (by decide) (by decide)], ⟨[], by simp⟩, trivial, by decide +kernel, by decide +kernel⟩

theorem fenced_title_kept :
    parseChars (cleanText (String.ofList (fenced true "\"Q1\"".toList))) = some (.str "Q1") := by
  have hnil : Blank [] := fun c hc => by cases hc
  have hkept := ((fences_safe_iff serialises_title).mpr (by decide +kernel) [] [] hnil hnil).2 true
  rwa [List.nil_append, List.append_nil] at hkept

/-- A string of three ticks is serialised as it is, and comes back empty. -/
theorem ticks_lost : Serialises "\"```\"".toList (.str "```") ∧
    parseChars (cleanText "\"```\"") = some (.str "") ∧ Json.str "" ≠ Json.str "```" := by
  refine ⟨⟨⟨[], by simp⟩, .str (List.replicate 3 (.raw tick (by decide) (by decide) (by decide))),
    ⟨[], by simp⟩, trivial, by decide +kernel, by decide +kernel⟩, by decide +kernel, by decide⟩

end Slideo
