import Slideo.Import
import Mathlib.Data.List.TakeWhile

/-! The texts that an import finds in a slide file. Its matches are the runs of the file and whatever looks like
    one between them, and it takes the text of a run as it is written, with the references that XML asks for. -/

namespace Slideo
open Js

/-! ### Matches -/

/-- A text between the tags of a run. -/
def textRun (inner : List Char) : List Char := "<a:t>".toList ++ inner ++ "</a:t>".toList

theorem openTag_eq : "<a:t>".toList = ['<', 'a', ':', 't', '>'] := rfl

theorem textRun_eq (inner : List Char) :
    textRun inner = '<' :: (['a', ':', 't', '>'] ++ inner) ++ '<' :: ['/', 'a', ':', 't', '>'] := rfl

theorem textRun_append (inner rest : List Char) :
    textRun inner ++ rest = "<a:t>".toList ++ (inner ++ ("</a:t>".toList ++ rest)) := by
  rw [← List.append_assoc inner, ← List.append_assoc, ← List.append_assoc]
  rfl

section Matches
variable {cs m inner pre rest : List Char} {n : Nat} {c : Char}

theorem takeWhile_run (hlt : '<' ∉ inner) (rest : List Char) :
    (inner ++ ("</a:t>".toList ++ rest)).takeWhile (· != '<') = inner := by
  have hinner : ∀ c ∈ inner, (c != '<') = true := by
    intro c hc
    simp only [bne_iff_ne]
    rintro rfl
    exact hlt hc
  rw [List.takeWhile_append_of_pos hinner]
  simp

/-- A match is a run with some text and no tag in it. -/
theorem textMatchHere_eq_some_iff :
    textMatchHere cs = some m ↔ ∃ inner, inner ≠ [] ∧ '<' ∉ inner ∧ m = textRun inner ∧ m <+: cs := by
  constructor
  · intro h
    unfold textMatchHere at h
    split at h
    · rename_i hopen
      obtain ⟨tail, rfl⟩ := List.isPrefixOf_iff_prefix.mp hopen
      rw [show ("<a:t>".toList ++ tail).drop 5 = tail from rfl] at h
      simp only at h
      split at h
      · rename_i hinner
        obtain ⟨hne, hclose⟩ := hinner
        obtain ⟨rest, hrest⟩ := List.isPrefixOf_iff_prefix.mp hclose
        refine ⟨_, hne, fun hmem => ?_, (Option.some.inj h).symm, rest, ?_⟩
        · have hlt := List.mem_takeWhile_imp hmem
          simp at hlt
        · have htail : tail.takeWhile (· != '<') ++ ("</a:t>".toList ++ rest) = tail := by
            rw [hrest]
            exact (List.prefix_iff_eq_append.mp (List.takeWhile_prefix _))
          rw [← Option.some.inj h, List.append_assoc, List.append_assoc, htail]
      · cases h
    · cases h
  · rintro ⟨inner, hne, hlt, rfl, rest, rfl⟩
    have hopen : "<a:t>".toList.isPrefixOf (textRun inner ++ rest) = true := by
      rw [textRun_append]
      exact List.isPrefixOf_iff_prefix.mpr ⟨_, rfl⟩
    have hdrop : (textRun inner ++ rest).drop 5 = inner ++ ("</a:t>".toList ++ rest) := by
      rw [textRun_append]
      rfl
    have hclose : "</a:t>".toList.isPrefixOf ("</a:t>".toList ++ rest) = true :=
      List.isPrefixOf_iff_prefix.mpr ⟨_, rfl⟩
    unfold textMatchHere
    rw [if_pos hopen, hdrop, takeWhile_run hlt]
    simp only [List.drop_left]
    rw [if_pos ⟨hne, hclose⟩]
    rfl

theorem ne_nil_of_match (h : textMatchHere cs = some m) : m ≠ [] ∧ m <+: cs := by
  obtain ⟨inner, -, -, rfl, hprefix⟩ := textMatchHere_eq_some_iff.mp h
  exact ⟨by simp [textRun_eq], hprefix⟩

/-- More fuel than characters makes no difference. -/
theorem textMatches_fuel : ∀ {cs : List Char} {n : Nat}, cs.length ≤ n →
    textMatches n cs = textMatches cs.length cs := by
  intro cs
  induction hlen : cs.length using Nat.strong_induction_on generalizing cs with
  | _ k ih =>
    intro n hn
    subst hlen
    cases cs with
    | nil => cases n <;> rfl
    | cons c cs =>
      obtain ⟨n, rfl⟩ : ∃ k, n = k + 1 := ⟨n - 1, by simp at hn; omega⟩
      have hle : cs.length ≤ n := by simpa using hn
      rw [List.length_cons, textMatches, textMatches]
      cases hmatch : textMatchHere (c :: cs) with
      | none => exact ih cs.length (by simp) rfl hle
      | some m =>
        have hpos := List.length_pos_iff.mpr (ne_nil_of_match hmatch).1
        have hdrop : ((c :: cs).drop m.length).length ≤ cs.length := by simp; omega
        simp only
        rw [ih _ (by simp; omega) rfl (hdrop.trans hle), ih _ (by simp; omega) rfl hdrop]

/-- All matches of a text. -/
def runsOf (cs : List Char) : List (List Char) := textMatches cs.length cs

theorem runsOf_match (h : textMatchHere cs = some m) : runsOf cs = m :: runsOf (cs.drop m.length) := by
  obtain ⟨hne, hprefix⟩ := ne_nil_of_match h
  cases cs with
  | nil => exact absurd (List.prefix_nil.mp hprefix) hne
  | cons c cs =>
    have hpos := List.length_pos_iff.mpr hne
    unfold runsOf
    rw [List.length_cons, textMatches, h]
    simp only
    rw [textMatches_fuel (by simp; omega)]

theorem runsOf_cons (h : textMatchHere (c :: cs) = none) : runsOf (c :: cs) = runsOf cs := by
  unfold runsOf
  rw [List.length_cons, textMatches, h]

/-- No match reaches from a text into a tag behind it. -/
theorem textMatchHere_append (hrest : rest = [] ∨ "<a:t>".toList <+: rest) (hpre : pre ≠ []) :
    textMatchHere (pre ++ rest) = textMatchHere pre := by
  have hsame : ∀ m, textMatchHere (pre ++ rest) = some m ↔ textMatchHere pre = some m := by
    intro m
    rw [textMatchHere_eq_some_iff, textMatchHere_eq_some_iff]
    constructor
    · rintro ⟨inner, hne, hlt, rfl, hprefix⟩
      refine ⟨inner, hne, hlt, rfl, ?_⟩
      rcases List.prefix_or_prefix_of_prefix hprefix (List.prefix_append pre rest) with hshort | ⟨tail, htail⟩
      · exact hshort
      -- The run would have to close with the tag that opens the rest.
      · rw [← htail, List.prefix_append_right_inj] at hprefix
        cases tail with
        | nil =>
          rw [List.append_nil] at htail
          exact htail ▸ List.prefix_rfl
        | cons c tail =>
          exfalso
          rcases hrest with rfl | ⟨more, rfl⟩
          · exact absurd (List.prefix_nil.mp hprefix) (List.cons_ne_nil _ _)
          · rw [openTag_eq, List.cons_append, List.cons_prefix_cons] at hprefix
            obtain ⟨rfl, htag⟩ := hprefix
            cases pre with
            | nil => exact hpre rfl
            | cons p pre =>
              rw [textRun_eq, List.cons_append, List.cons_append, List.cons.injEq] at htail
              have hinner : '<' ∉ ['a', ':', 't', '>'] ++ inner := by simp [hlt]
              obtain ⟨-, -, rfl⟩ := (List.append_cons_inj_of_notMem hinner (by decide)).mp htail.2.symm
              simp at htag
    · rintro ⟨inner, hne, hlt, rfl, hprefix⟩
      exact ⟨inner, hne, hlt, rfl, hprefix.trans (List.prefix_append _ _)⟩
  cases h : textMatchHere pre with
  | some m => exact (hsame m).mpr h
  | none =>
    cases h' : textMatchHere (pre ++ rest) with
    | none => rfl
    | some m =>
      rw [(hsame m).mp h'] at h
      cases h

theorem runsOf_append (hrest : rest = [] ∨ "<a:t>".toList <+: rest) :
    runsOf (pre ++ rest) = runsOf pre ++ runsOf rest := by
  induction hlen : pre.length using Nat.strong_induction_on generalizing pre with
  | _ k ih =>
    subst hlen
    cases pre with
    | nil => rfl
    | cons c pre =>
      have happend := textMatchHere_append hrest (List.cons_ne_nil c pre)
      cases hmatch : textMatchHere (c :: pre) with
      | none =>
        rw [hmatch] at happend
        rw [runsOf_cons hmatch, ← ih pre.length (by simp) rfl]
        exact runsOf_cons happend
      | some m =>
        rw [hmatch] at happend
        obtain ⟨hne, hprefix⟩ := ne_nil_of_match hmatch
        have hpos := List.length_pos_iff.mpr hne
        rw [runsOf_match hmatch, runsOf_match happend, List.drop_append_of_le_length hprefix.length_le,
          List.cons_append, ih _ (by simp; omega) rfl]

theorem runsOf_run (hne : inner ≠ []) (hlt : '<' ∉ inner) (rest : List Char) :
    runsOf (textRun inner ++ rest) = textRun inner :: runsOf rest := by
  rw [runsOf_match (textMatchHere_eq_some_iff.mpr ⟨inner, hne, hlt, rfl, List.prefix_append _ _⟩), List.drop_left]

/-- Somewhere in the text stands what looks like a run. -/
def HasRun (cs : List Char) : Prop := ∃ inner, inner ≠ [] ∧ '<' ∉ inner ∧ textRun inner <:+: cs

theorem runsOf_eq_nil_iff : runsOf cs = [] ↔ ¬ HasRun cs := by
  induction cs with
  | nil =>
    refine iff_of_true rfl ?_
    rintro ⟨inner, -, -, hinfix⟩
    have hnil := List.infix_nil.mp hinfix
    simp [textRun_eq] at hnil
  | cons c cs ih =>
    cases hmatch : textMatchHere (c :: cs) with
    | some m =>
      rw [runsOf_match hmatch]
      obtain ⟨inner, hne, hlt, rfl, hprefix⟩ := textMatchHere_eq_some_iff.mp hmatch
      exact iff_of_false (List.cons_ne_nil _ _) fun h => h ⟨inner, hne, hlt, hprefix.isInfix⟩
    | none =>
      rw [runsOf_cons hmatch, ih, not_iff_not]
      constructor
      · rintro ⟨inner, hne, hlt, hinfix⟩
        exact ⟨inner, hne, hlt, hinfix.trans (List.suffix_cons c cs).isInfix⟩
      · rintro ⟨inner, hne, hlt, hinfix⟩
        rcases List.infix_cons_iff.mp hinfix with hprefix | hinfix
        · rw [textMatchHere_eq_some_iff.mpr ⟨inner, hne, hlt, rfl, hprefix⟩] at hmatch
          cases hmatch
        · exact ⟨inner, hne, hlt, hinfix⟩

/-! ### Texts -/

theorem stripTags_cons (hc : c ≠ '<') : stripTags (n + 1) (c :: cs) = c :: stripTags n cs := by
  have hopen : "<a:t>".toList.isPrefixOf (c :: cs) = false := by
    show ('<' == c && _) = false
    rw [beq_eq_false_iff_ne.mpr hc.symm, Bool.false_and]
  have hclose : "</a:t>".toList.isPrefixOf (c :: cs) = false := by
    show ('<' == c && _) = false
    rw [beq_eq_false_iff_ne.mpr hc.symm, Bool.false_and]
  rw [stripTags, hopen, hclose]
  rfl

theorem stripTags_inner (hlt : '<' ∉ inner) :
    stripTags (inner.length + (n + 1)) (inner ++ "</a:t>".toList) = inner := by
  induction inner with
  | nil => cases n <;> rfl
  | cons c inner ih =>
    simp only [List.mem_cons, not_or] at hlt
    rw [List.length_cons, Nat.add_right_comm, List.cons_append, stripTags_cons (Ne.symm hlt.1), ih hlt.2]

/-- The text between the tags survives. -/
theorem stripTags_textRun (hlt : '<' ∉ inner) : stripTags (textRun inner).length (textRun inner) = inner := by
  have hlen : (textRun inner).length = inner.length + (9 + 1) + 1 := by simp [textRun_eq]
  have hopen : stripTags (inner.length + (9 + 1) + 1) (textRun inner) = stripTags (inner.length + (9 + 1))
    (inner ++ "</a:t>".toList) := rfl
  rw [hlen, hopen, stripTags_inner hlt]

theorem textMatches_match {n : Nat} : ∀ {cs m : List Char}, m ∈ textMatches n cs →
    ∃ cs', textMatchHere cs' = some m := by
  induction n with
  | zero => exact fun h => (by cases h)
  | succ n ih =>
    intro cs m h
    cases cs with
    | nil => cases h
    | cons c cs =>
      rw [textMatches] at h
      split at h
      · rename_i m' hm'
        rcases List.mem_cons.mp h with rfl | h
        · exact ⟨_, hm'⟩
        · exact ih h
      · exact ih h

/-- No text is empty. -/
theorem ne_empty_of_mem_cleanTexts {content t : String} (h : t ∈ cleanTexts content) : t ≠ "" := by
  obtain ⟨m, hm, rfl⟩ := List.mem_map.mp h
  obtain ⟨cs', hcs'⟩ := textMatches_match hm
  obtain ⟨inner, hinner, hlt, rfl, -⟩ := textMatchHere_eq_some_iff.mp hcs'
  rw [stripTags_textRun hlt]
  intro hempty
  have hnil := congrArg String.toList hempty
  rw [String.toList_ofList] at hnil
  exact hinner hnil

end Matches

/-! ### Files -/

/-- A way to write text into XML: a character stands for itself or is written as a reference, and `&` and `<` never
    stand for themselves. -/
structure Writer where
  escapes : Char → Bool
  reference : Char → List Char
  amp : escapes '&' = true
  lt : escapes '<' = true
  named : ∀ c, ∃ name, '<' ∉ name ∧ reference c = '&' :: name ++ [';']

def Writer.escape (w : Writer) (text : List Char) : List Char :=
  text.flatMap fun c => if w.escapes c then w.reference c else [c]

/-- A file with these texts as runs; each of them is followed by other markup. -/
def writtenXml (w : Writer) : String → List (String × String) → List Char
  | markup, [] => markup.toList
  | markup, (text, next) :: runs => markup.toList ++ (textRun (w.escape text.toList) ++ writtenXml w next runs)

/-- What stands before, between and after the runs. -/
def markups (first : String) (runs : List (String × String)) : List String := first :: runs.map (·.2)

section Files
variable {w : Writer} {text : List Char} {first : String} {runs : List (String × String)}

theorem lt_notMem_escape : '<' ∉ w.escape text := by
  intro h
  obtain ⟨c, -, hc⟩ := List.mem_flatMap.mp h
  split at hc
  · obtain ⟨name, hname, href⟩ := w.named c
    rw [href] at hc
    simp [hname] at hc
  · rename_i hself
    rw [List.mem_singleton] at hc
    rw [← hc] at hself
    exact hself w.lt

theorem escape_cons (c : Char) : w.escape (c :: text) = (if w.escapes c then w.reference c else [c]) ++ w.escape text :=
  List.flatMap_cons

theorem length_le_escape : text.length ≤ (w.escape text).length := by
  induction text with
  | nil => exact Nat.zero_le _
  | cons c text ih =>
    rw [escape_cons, List.length_append, List.length_cons]
    obtain ⟨name, -, href⟩ := w.named c
    split <;> simp [href] <;> omega

theorem escape_ne_nil (h : text ≠ []) : w.escape text ≠ [] := by
  have hpos := List.length_pos_iff.mpr h
  exact List.length_pos_iff.mp (hpos.trans_le length_le_escape)

/-- A reference is longer than its character. -/
theorem escape_eq_iff : w.escape text = text ↔ ∀ c ∈ text, w.escapes c = false := by
  induction text with
  | nil => simp [Writer.escape]
  | cons c text ih =>
    rw [escape_cons, List.forall_mem_cons]
    cases hc : w.escapes c with
    | false => simp [ih]
    | true =>
      refine iff_of_false (fun h => ?_) (by simp)
      obtain ⟨name, -, href⟩ := w.named c
      have hlen := congrArg List.length h
      have hle : text.length ≤ (w.escape text).length := length_le_escape
      simp [href] at hlen
      omega

theorem runsOf_writtenXml_cons {text next : String} (htext : text ≠ "") :
    runsOf (writtenXml w first ((text, next) :: runs)) =
    runsOf first.toList ++ textRun (w.escape text.toList) :: runsOf (writtenXml w next runs) := by
  have hne : text.toList ≠ [] := fun hnil => htext (String.toList_eq_nil_iff.mp hnil)
  have hopen : "<a:t>".toList <+: textRun (w.escape text.toList) ++ writtenXml w next runs := by
    rw [textRun_append]
    exact List.prefix_append _ _
  rw [writtenXml, runsOf_append (Or.inr hopen), runsOf_run (escape_ne_nil hne) lt_notMem_escape]

/-- The matches of a file are its runs and those between them. -/
theorem length_runsOf (hne : ∀ r ∈ runs, r.1 ≠ "") : ∀ first, (runsOf (writtenXml w first runs)).length =
    runs.length + ((markups first runs).map fun markup => (runsOf markup.toList).length).sum := by
  induction runs with
  | nil => exact fun first => by simp [writtenXml, markups]
  | cons r runs ih =>
    intro first
    obtain ⟨text, next⟩ := r
    rw [runsOf_writtenXml_cons (hne _ List.mem_cons_self), List.length_append, List.length_cons,
      ih (fun r hr => hne r (List.mem_cons_of_mem _ hr)) next]
    simp [markups]
    omega

theorem runsOf_writtenXml (hne : ∀ r ∈ runs, r.1 ≠ "") :
    ∀ first, (∀ markup ∈ markups first runs, ¬ HasRun markup.toList) →
    runsOf (writtenXml w first runs) = runs.map fun r => textRun (w.escape r.1.toList) := by
  induction runs with
  | nil => exact fun first h => runsOf_eq_nil_iff.mpr (h first List.mem_cons_self)
  | cons r runs ih =>
    intro first h
    obtain ⟨text, next⟩ := r
    rw [runsOf_writtenXml_cons (hne _ List.mem_cons_self), runsOf_eq_nil_iff.mpr (h first List.mem_cons_self),
      ih (fun r hr => hne r (List.mem_cons_of_mem _ hr)) next fun markup hm => h markup (List.mem_cons_of_mem _ hm)]
    rfl

theorem cleanTexts_ofList (cs : List Char) :
    cleanTexts (String.ofList cs) = (runsOf cs).map fun m => String.ofList (stripTags m.length m) := by
  rw [cleanTexts, String.toList_ofList]
  rfl

/-- The import finds the texts of a file as they were written exactly if no character of them needed a
    reference, and nothing between the runs looks like one. -/
theorem texts_kept_iff (hne : ∀ r ∈ runs, r.1 ≠ "") :
    cleanTexts (String.ofList (writtenXml w first runs)) = runs.map (·.1) ↔
      (∀ r ∈ runs, ∀ c ∈ r.1.toList, w.escapes c = false) ∧
      ∀ markup ∈ markups first runs, ¬ HasRun markup.toList := by
  rw [cleanTexts_ofList]
  have htexts : (∀ markup ∈ markups first runs, ¬ HasRun markup.toList) →
      ((runsOf (writtenXml w first runs)).map (fun m => String.ofList (stripTags m.length m)) = runs.map (·.1) ↔
        ∀ r ∈ runs, ∀ c ∈ r.1.toList, w.escapes c = false) := by
    intro hmarkups
    rw [runsOf_writtenXml hne first hmarkups, List.map_map, List.map_inj_left]
    refine forall₂_congr fun r _ => ?_
    simp only [Function.comp, stripTags_textRun lt_notMem_escape]
    rw [← escape_eq_iff, ← String.toList_inj, String.toList_ofList]
  constructor
  · intro h
    have hlen := congrArg List.length h
    rw [List.length_map, List.length_map, length_runsOf hne] at hlen
    have hzero : ((markups first runs).map fun markup => (runsOf markup.toList).length).sum = 0 := by omega
    have hmarkups : ∀ markup ∈ markups first runs, ¬ HasRun markup.toList := by
      intro markup hm
      have hnil := List.sum_eq_zero_iff_forall_eq_nat.mp hzero _ (List.mem_map_of_mem hm)
      exact runsOf_eq_nil_iff.mp (List.length_eq_zero_iff.mp hnil)
    exact ⟨(htexts hmarkups).mp h, hmarkups⟩
  · rintro ⟨hescapes, hmarkups⟩
    exact (htexts hmarkups).mpr hescapes

end Files

/-- Only `&` and `<` are written as references. -/
def plainWriter : Writer where
  escapes c := c = '&' || c = '<'
  reference c := if c = '&' then "&amp;".toList else "&lt;".toList
  amp := by decide
  lt := by decide
  named c := by
    by_cases hc : c = '&'
    · exact ⟨['a', 'm', 'p'], by decide, if_pos hc⟩
    · exact ⟨['l', 't'], by decide, if_neg hc⟩

theorem plain_texts_kept : cleanTexts (String.ofList
    (writtenXml plainWriter "<p>" [("Roadmap", "</p><p>"), ("Q1 > Q2", "</p>")])) =
    ["Roadmap", "Q1 > Q2"] := by
  have hmarkups : ∀ markup ∈ markups "<p>" [("Roadmap", "</p><p>"), ("Q1 > Q2", "</p>")],
    ¬ HasRun markup.toList := by
    intro markup hm
    rw [← runsOf_eq_nil_iff]
    revert markup
    decide +kernel
  have hplain : ∀ r ∈ [("Roadmap", "</p><p>"), ("Q1 > Q2", "</p>")],
    (r.1.toList.all fun c => !plainWriter.escapes c) = true := by
    decide +kernel
  refine (texts_kept_iff (by decide)).mpr ⟨fun r hr c hc => ?_, hmarkups⟩
  simpa using List.all_eq_true.mp (hplain r hr) c hc

/-- The ampersand of a text arrives as its reference. -/
theorem ampersand_not_kept : cleanTexts (String.ofList (writtenXml plainWriter "" [("Q&A", "")])) = ["Q&amp;A"] ∧
    ["Q&amp;A"] ≠ ["Q&A"] := by
  decide +kernel

end Slideo
