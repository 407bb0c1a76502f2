import Slideo.Theorems.Content
import Slideo.Theorems.Creation
import Slideo.Theorems.ReadIsolation
import Slideo.Theorems.SavedDecks
import Slideo.Theorems.TextRuns

/-! Import, then export. The importer names a layout for each slide file, and the exporter draws bullets only
    under the layouts it knows: `content_list`, which the importer gives to a slide with up to five bullets,
    is not one of them. -/

namespace Slideo
open Js

/-! ### What an export shows -/

/-- The texts of a box. -/
def TextBox.texts (b : TextBox) : List Json :=
  match b.text with
  | .plain text => [text]
  | .bullets runs => runs

/-- The texts that a slide holds: its title and its subtitle unless they are empty, and its bullets. -/
def Slide.texts (s : Slide) : List Json :=
  ([getOpt (some s.contentJSON) "title", getOpt (some s.contentJSON) "subtitle"].filter truthy).map (·.getD .null) ++
    (asArray (getOpt (some s.contentJSON) "bullets")).getD []

/-- The boxes hold every text of the slide, in order. -/
def TextKept (s : Slide) (boxes : List TextBox) : Prop := s.texts.Sublist (boxes.flatMap TextBox.texts)

/-- The texts of a slide file behind the first that are not blank. -/
def bulletTexts (texts : List String) : List String := texts.tail.filter fun t => trim t.toList ≠ []

/-- A slide file behind the first one has more than five bullets, or none at all: a text of more than 100
    characters that stands alone becomes a bullet. -/
def Drawable (index : Nat) (texts : List String) : Prop :=
  5 < (bulletTexts texts).length ∨
    (bulletTexts texts = [] ∧ utf16Length (texts.headD ("Slide " ++ toString (index + 1))) ≤ 100)

instance (index : Nat) (texts : List String) : Decidable (Drawable index texts) :=
  inferInstanceAs (Decidable (_ ∨ _))

/-- A list of bullets is drawn as it is. -/
theorem bulletBoxes_texts {content : Val} {items : List Json}
    (h : firstOf content "bullets" "list" (.arr []) = .arr items) :
    ∃ boxes, bulletBoxes content = some boxes ∧ boxes.flatMap TextBox.texts = items := by
  unfold bulletBoxes
  rw [h]
  cases items with
  | nil => exact ⟨[], rfl, rfl⟩
  | cons item items =>
    have hlength : Js.get (some (.arr (item :: items))) "length" = some
      (some (.num (items.length + 1 : Nat))) := rfl
    have hpositive : (0 : Rat) < (items.length + 1 : Nat) := by exact_mod_cast Nat.succ_pos _
    simp only [hlength, toNumber, Number.positive, asArray, Option.bind_eq_bind,
      Option.bind_some, hpositive, decide_true, if_true]
    exact ⟨_, rfl, List.append_nil _⟩

section Slides
variable {s : Slide} {title subtitle : String} {bullets : List String}

/-- The content of an imported slide. -/
structure Imported (s : Slide) (title subtitle : String) (bullets : List String) : Prop where
  title : getOpt (some s.contentJSON) "title" = some (.str title)
  subtitle : getOpt (some s.contentJSON) "subtitle" = some (.str subtitle)
  drawn : firstOf (some s.contentJSON) "bullets" "list" (.arr []) = .arr (bullets.map .str)
  stored : (asArray (getOpt (some s.contentJSON) "bullets")).getD [] = bullets.map .str
  description : getOpt (some s.contentJSON) "description" = none

namespace Imported

theorem of_content {alignment : String} (h : s.contentJSON =
    .obj [("title", .str title), ("subtitle", .str subtitle),
    ("bullets", .arr (bullets.map .str)), ("alignment", .str alignment)]) : Imported s title subtitle bullets := by
  constructor <;> rw [h] <;> rfl

theorem texts (h : Imported s title subtitle bullets) :
    s.texts = ([title, subtitle].filter (· ≠ "")).map .str ++ bullets.map .str := by
  have truthy_str : ∀ t, truthy (some (.str t)) = (t != "") := fun _ => rfl
  rw [Slide.texts, h.title, h.subtitle, h.stored]
  by_cases ht : title = "" <;> by_cases hs : subtitle = "" <;> simp [truthy_str, ht, hs]

/-- Whatever the layout is, the title has its box. -/
theorem renderSlide (h : Imported s title subtitle bullets) :
    renderSlide s = (layoutBoxes s.layout (some s.contentJSON)).map (titleBox (some s.contentJSON) :: ·) := by
  have hget : ∃ v, get (some s.contentJSON) "title" = some v := by
    cases hv : get (some s.contentJSON) "title" with
    | some v => exact ⟨v, rfl⟩
    | none =>
      have htitle := h.title
      rw [getOpt, hv] at htitle
      cases htitle
  obtain ⟨v, hv⟩ := hget
  simp only [Slideo.renderSlide, hv]
  cases layoutBoxes s.layout (some s.contentJSON) <;> rfl

theorem titleBox_texts (h : Imported s title subtitle bullets) :
    (titleBox (some s.contentJSON)).texts = [.str (if title = "" then "Untitled Slide" else title)] := by
  simp only [TextBox.texts, titleBox, h.title, Js.or]
  by_cases ht : title = "" <;> simp [truthy, ht]

/-- A hero slide shows its title and its subtitle. -/
theorem kept_hero (h : Imported s title subtitle []) (hlayout : s.layout = "hero") :
    ∃ boxes, Slideo.renderSlide s = some boxes ∧ TextKept s boxes := by
  have hboxes : ((heroBoxes (some s.contentJSON)).flatMap TextBox.texts) =
    ([subtitle].filter (· ≠ "")).map .str := by
    rw [heroBoxes, h.subtitle]
    by_cases hs : subtitle = "" <;> simp [truthy, hs, TextBox.texts]
  refine ⟨_, by rw [h.renderSlide, hlayout]; rfl, ?_⟩
  rw [TextKept, h.texts, List.flatMap_cons, h.titleBox_texts, hboxes]
  by_cases ht : title = ""
  · simp [List.filter_cons, ht]
  · simp [List.filter_cons, ht]

theorem kept_list (h : Imported s title "" bullets) (ht : title ≠ "") (hlayout : s.layout = "list") :
    ∃ boxes, Slideo.renderSlide s = some boxes ∧ TextKept s boxes := by
  obtain ⟨boxes, hboxes, htexts⟩ := bulletBoxes_texts h.drawn
  have hrender : Slideo.renderSlide s = some (titleBox (some s.contentJSON) :: boxes) := by
    rw [h.renderSlide, hlayout, layoutBoxes, if_neg (by decide), if_pos (by decide), hboxes]
    rfl
  refine ⟨_, hrender, ?_⟩
  rw [TextKept, h.texts, List.flatMap_cons, h.titleBox_texts, htexts]
  simp [ht]

/-- Under `content_list` nothing but the title is drawn. -/
theorem kept_content_list_iff (h : Imported s title "" bullets) (ht : title ≠ "")
    (hlayout : s.layout = "content_list") :
    (∃ boxes, Slideo.renderSlide s = some boxes ∧ TextKept s boxes) ↔ bullets = [] := by
  have hboxes : layoutBoxes s.layout (some s.contentJSON) = some [] := by
    rw [hlayout]
    show some (defaultBoxes (some s.contentJSON)) = some []
    rw [defaultBoxes, h.description]
    rfl
  have htexts : TextKept s [titleBox (some s.contentJSON)] ↔ bullets = [] := by
    rw [TextKept, h.texts, List.flatMap_cons, h.titleBox_texts]
    constructor
    · intro hsub
      have hlen := hsub.length_le
      simpa [List.filter_cons, ht] using hlen
    · rintro rfl
      simp [ht]
  rw [h.renderSlide, hboxes]
  constructor
  · rintro ⟨_, hrender, hkept⟩
    cases hrender
    exact htexts.mp hkept
  · exact fun hb => ⟨_, rfl, htexts.mpr hb⟩

end Imported

end Slides

/-! ### The slides of an import -/

theorem check_ok {d : SlideData} {b : SlideBody} (h : d.check = .ok b) :
    intArg d.index = .ok b.index ∧ d.layout = some (.str b.layout) ∧ b.contentJSON = d.contentJSON := by
  obtain ⟨hindex, hlayout, -, hcontent, -⟩ := check_eq_ok.mp h
  exact ⟨hindex, (textArg_ok hlayout).1, hcontent⟩

/-- The only text of the file is too long for a title. -/
def TooLong (i : Nat) (texts : List String) : Prop :=
  100 < utf16Length (texts.headD ("Slide " ++ toString (i + 1))) ∧ bulletTexts texts = []

instance (i : Nat) (texts : List String) : Decidable (TooLong i texts) := inferInstanceAs (Decidable (_ ∧ _))

def storedTitle (i : Nat) (texts : List String) : String :=
  if TooLong i texts then "Slide " ++ toString (i + 1) else texts.headD ("Slide " ++ toString (i + 1))

def storedBullets (i : Nat) (texts : List String) : List String :=
  if TooLong i texts then [texts.headD ("Slide " ++ toString (i + 1))] else bulletTexts texts

section Parsed
variable {s : Slide} {i : Nat} {texts : List String}

theorem storedTitle_ne (hne : "" ∉ texts) : storedTitle i texts ≠ "" := by
  have hslideN : "Slide " ++ toString (i + 1) ≠ "" := by simp
  unfold storedTitle
  split
  · exact hslideN
  · cases texts with
    | nil => exact hslideN
    | cons t texts => exact fun h => hne (h ▸ List.mem_cons_self)

/-- The first slide has its first bullet as the subtitle, and no bullets. -/
theorem imported_parsed (hs : (parsedSlide i texts).check = .ok s.body) :
    Imported s (storedTitle i texts) (if i = 0 then (storedBullets i texts).headD "" else "")
      (if i = 0 then [] else storedBullets i texts) := by
  obtain ⟨-, -, hcontent⟩ := check_ok hs
  replace hcontent : s.contentJSON = (parsedSlide i texts).contentJSON := hcontent
  by_cases hi : i = 0
  · simp only [parsedSlide, if_pos hi] at hcontent ⊢
    exact .of_content hcontent
  · simp only [parsedSlide, if_neg hi] at hcontent ⊢
    exact .of_content hcontent

theorem layout_parsed (hs : (parsedSlide i texts).check = .ok s.body) :
    s.layout = if i = 0 then "hero" else if 5 < (storedBullets i texts).length then "list" else "content_list" := by
  obtain ⟨-, hlayout, -⟩ := check_ok hs
  exact (Json.str.inj (Option.some.inj hlayout)).symm

theorem drawable_iff : Drawable i texts ↔ 5 < (storedBullets i texts).length ∨ storedBullets i texts = [] := by
  unfold Drawable storedBullets
  by_cases hlong : TooLong i texts
  · rw [if_pos hlong, hlong.2]
    refine iff_of_false ?_ (by simp)
    rintro (hmany | ⟨-, hshort⟩)
    · exact absurd hmany (by decide)
    · exact absurd hlong.1 (not_lt.mpr hshort)
  · rw [if_neg hlong]
    refine or_congr_right ⟨And.left, fun hnone => ⟨hnone, ?_⟩⟩
    exact not_lt.mp fun htitle => hlong ⟨htitle, hnone⟩

/-- An imported slide keeps its text exactly if it comes first, or its bullets can be drawn. -/
theorem kept_parsed_iff (hs : (parsedSlide i texts).check = .ok s.body) (hne : "" ∉ texts) :
    (∃ boxes, renderSlide s = some boxes ∧ TextKept s boxes) ↔ (0 < i → Drawable i texts) := by
  have himported := imported_parsed hs
  have hlayout := layout_parsed hs
  rcases Nat.eq_zero_or_pos i with rfl | hi
  · exact iff_of_true (himported.kept_hero hlayout) fun h => absurd h (lt_irrefl 0)
  rw [if_neg hi.ne', if_neg hi.ne'] at himported
  rw [if_neg hi.ne'] at hlayout
  rw [drawable_iff]
  by_cases hmany : 5 < (storedBullets i texts).length
  · rw [if_pos hmany] at hlayout
    exact iff_of_true (himported.kept_list (storedTitle_ne hne) hlayout) fun _ => Or.inl hmany
  · rw [if_neg hmany] at hlayout
    rw [himported.kept_content_list_iff (storedTitle_ne hne) hlayout, imp_iff_right hi, or_iff_right hmany]

end Parsed

theorem exists_mapM_iff {α β : Type} {f : α → Option β} {R : α → β → Prop} {xs : List α} :
    (∃ ys, xs.mapM f = some ys ∧ List.Forall₂ R xs ys) ↔ ∀ x ∈ xs, ∃ y, f x = some y ∧ R x y := by
  induction xs with
  | nil => simp
  | cons x xs ih =>
    rw [List.forall_mem_cons, ← ih]
    constructor
    · rintro ⟨ys, hmap, hR⟩
      rw [List.mapM_cons] at hmap
      obtain ⟨y, hy, hmap⟩ := Option.bind_eq_some_iff.mp hmap
      obtain ⟨rest, hrest, hmap⟩ := Option.bind_eq_some_iff.mp hmap
      cases hmap
      obtain ⟨hRy, hRrest⟩ := List.forall₂_cons.mp hR
      exact ⟨⟨y, hy, hRy⟩, rest, hrest, hRrest⟩
    · rintro ⟨⟨y, hy, hRy⟩, rest, hrest, hRrest⟩
      refine ⟨y :: rest, ?_, .cons hRy hRrest⟩
      rw [List.mapM_cons, hy, hrest]
      rfl

section Slides
variable {fileName : String} {entries : List ZipEntry} {slides : List Slide}

theorem slideEntries_eq_nil (h : parsedSlides entries = []) : slideEntries entries = [] := by
  simpa [parsedSlides] using h

/-- Slide `i` comes from file `i`. -/
theorem parsed_get {i : Nat} (hi : i < (parsedSlides entries).length) : ∃ e, (slideEntries entries)[i]? = some e ∧
    (parsedSlides entries).get ⟨i, hi⟩ = parsedSlide i (cleanTexts e.data) := by
  have hlen : i < (slideEntries entries).length := by
    rw [parsedSlides, List.length_mapIdx] at hi
    exact hi
  refine ⟨(slideEntries entries).get ⟨i, hlen⟩, List.getElem?_eq_getElem hlen, ?_⟩
  simp [parsedSlides]

/-- The slides of an import come in the order of their indexes. -/
theorem byIndex_import (h : List.Forall₂ (fun d s => d.check = .ok s.body)
    (importedSlides fileName entries) slides) :
    byIndex slides = slides := by
  refine List.Pairwise.insertionSort_eq ?_
  unfold importedSlides at h
  split at h
  · obtain ⟨s, _, -, -, rfl⟩ := List.forall₂_cons_left_iff.mp h
    simp_all
  obtain ⟨hlen, hget⟩ := List.forall₂_iff_get.mp h
  have hindex : ∀ i (hi : i < slides.length), slides[i].index = i := by
    intro i hi
    obtain ⟨e, -, hparsed⟩ := parsed_get (hlen ▸ hi)
    have hcheck := hget i (hlen ▸ hi) hi
    rw [hparsed] at hcheck
    obtain ⟨hint, -, -⟩ := check_ok hcheck
    simp only [parsedSlide, intArg] at hint
    split at hint
    · exact (Except.ok.inj hint).symm
    · cases hint
  rw [List.pairwise_iff_getElem]
  intro i j hi hj hij
  rw [hindex i hi, hindex j hj]
  exact_mod_cast hij.le

/-- An import keeps its texts exactly if every slide file behind the first can be drawn. -/
theorem kept_import_iff (h : List.Forall₂ (fun d s => d.check = .ok s.body)
    (importedSlides fileName entries) slides) :
    (∀ s ∈ slides, ∃ boxes, renderSlide s = some boxes ∧ TextKept s boxes) ↔
      ∀ i e, (slideEntries entries)[i]? = some e → 0 < i → Drawable i (cleanTexts e.data) := by
  unfold importedSlides at h
  split at h
  · rename_i hnone
    rw [slideEntries_eq_nil hnone]
    refine iff_of_true (fun s hs => ?_) fun i e he => (by cases he)
    obtain ⟨s', _, hcheck, hnil, rfl⟩ := List.forall₂_cons_left_iff.mp h
    cases hnil
    cases List.mem_singleton.mp hs
    obtain ⟨-, hlayout, hcontent⟩ := check_ok hcheck
    replace hlayout : some (Json.str "hero") = some (.str s.layout) := hlayout
    replace hcontent : s.contentJSON = _ := hcontent
    have himported : Imported s (importTitle fileName) "Imported Presentation (No text found)" [] := by
      constructor <;> rw [hcontent] <;> rfl
    refine himported.kept_hero ?_
    simpa using hlayout.symm
  obtain ⟨hlen, hget⟩ := List.forall₂_iff_get.mp h
  have hkept : ∀ i (hi : i < slides.length) e, (slideEntries entries)[i]? = some e →
      ((∃ boxes, renderSlide slides[i] = some boxes ∧ TextKept slides[i] boxes) ↔
        (0 < i → Drawable i (cleanTexts e.data))) := by
    intro i hi e he
    obtain ⟨e', he', hparsed⟩ := parsed_get (hlen ▸ hi)
    rw [he] at he'
    cases he'
    have hcheck := hget i (hlen ▸ hi) hi
    rw [hparsed] at hcheck
    exact kept_parsed_iff hcheck fun hempty => ne_empty_of_mem_cleanTexts hempty rfl
  constructor
  · intro hall i e he hi
    have hlt : i < slides.length := by
      rw [← hlen, parsedSlides, List.length_mapIdx]
      exact (List.getElem?_eq_some_iff.mp he).1
    exact (hkept i hlt e he).mp (hall _ (List.getElem_mem hlt)) hi
  · intro hall s hs
    obtain ⟨i, hi, rfl⟩ := List.getElem_of_mem hs
    obtain ⟨e, he, -⟩ := parsed_get (hlen ▸ hi)
    exact (hkept i hi e he).mpr (hall i e he)

end Slides

/-! ### Import, then export -/

section Convert
variable {env : Env} {ws : Nat → World} {req : Request} {db : Db} {user : AuthUser} {id : String} {deck : Deck}

/-- The last call of a conversion. -/
def storeImport (user : AuthUser) (entries : List ZipEntry) (ppt : ImportedPpt) : Handler Response :=
  ask (.presentationCreate user.id (some (.str (importTitle ppt.fileName)))
    (importedSlides ppt.fileName entries)) >>=
    fun deck => pure ⟨201, .deck deck⟩

theorem run_storeImport (ws : Nat → World) (n : Nat) (db : Db) (user : AuthUser)
    (entries : List ZipEntry) (ppt : ImportedPpt) :
    ∃ r db' log, (storeImport user entries ppt).run answer ws n (db, {}) = ⟨r, (db', {}), log⟩ ∧
      ((∃ e, r = .error e ∧ db' = db) ∨
        ∃ deck writes, createDeck (ws n) db user.id (some (.str (importTitle ppt.fileName)))
            (importedSlides ppt.fileName entries) = .ok (deck, writes) ∧ r = .ok ⟨201, .deck deck⟩ ∧
          db' = db.applyAll writes) := by
  rw [storeImport]
  generalize some (Json.str (importTitle ppt.fileName)) = title
  generalize importedSlides ppt.fileName entries = data
  cases hexec : exec (ws n) db db (.presentationCreate user.id title data) with
  | error e =>
    have hcreate := answer_error (q := .presentationCreate user.id title data) trivial hexec
    exact ⟨_, _, _, Prog.run_ask_bind_error hcreate, Or.inl ⟨e, rfl, rfl⟩⟩
  | ok out =>
    have hcreate := answer_ok (q := .presentationCreate user.id title data) trivial hexec
    exact ⟨_, _, _, Prog.run_ask_bind hcreate rfl, Or.inr ⟨out.1, out.2, hexec, rfl, rfl⟩⟩

/-- A conversion ends with `storeImport`, unless there is nothing to import. -/
theorem run_convert (db : Db) (user : AuthUser) (id : String) {entries : List ZipEntry}
    (harchive : (ws 1).archive = .ok entries) :
    ∃ log, (convertPptToPresentation user id).run answer ws 0 (db, {}) =
      if user.id = "" then ⟨.ok (.error 401 "Unauthorized"), (db, {}), log⟩
      else match (db.importedPpts.find? id).filter (·.userId == user.id) with
        | none => ⟨.ok (.error 404 "Imported PPT not found"), (db, {}), log⟩
        | some ppt => ⟨.ok (caught (fun e => ⟨500, .errorDetails "Failed to convert PPT" e⟩)
            ((storeImport user entries ppt).run answer ws 2 (db, {})).result),
          ((storeImport user entries ppt).run answer ws 2 (db, {})).state, log⟩ := by
  have hfind : answer (ws 0) (.importedPptFindFirst id user.id) (db, {}) =
      (.ok ((db.importedPpts.find? id).filter (·.userId == user.id)), (db, {})) :=
    answer_read (q := .importedPptFindFirst id user.id) trivial rfl
  have hfetch : ∀ url, answer (ws 1) (.fetchArchive url) (db, {}) = (.ok entries, (db, {})) := fun url =>
    answer_read (q := .fetchArchive url) trivial (by simp only [exec, harchive]; rfl)
  by_cases hid : user.id = ""
  · simp only [convertPptToPresentation, if_pos hid]
    exact ⟨_, rfl⟩
  simp only [convertPptToPresentation, if_neg hid]
  cases hown : (db.importedPpts.find? id).filter (·.userId == user.id) with
  | none =>
    rw [hown] at hfind
    exact ⟨_, run_guarded (Prog.run_ask_bind hfind rfl)⟩
  | some ppt =>
    rw [hown] at hfind
    cases hstored : (storeImport user entries ppt).run answer ws 2 (db, {}) with
    | mk r c log =>
      simp only [hstored]
      exact ⟨_, run_guarded (Prog.run_ask_bind hfind (Prog.run_ask_bind (hfetch ppt.fileUrl) hstored))⟩

/-- What a conversion that answers 201 has stored. -/
theorem exists_convert_stores {entries : List ZipEntry} (huser : req.user? env = some user)
    (hreq : req.endpoint = .convertPptToPresentation id) (harchive : (ws 1).archive = .ok entries)
    (h : (serve env ws req db).result = .ok ⟨201, .deck deck⟩) :
    ∃ ppt writes, db.importedPpts.find? id = some ppt ∧
    createDeck (ws 2) db user.id (some (.str (importTitle ppt.fileName)))
        (importedSlides ppt.fileName entries) = .ok (deck, writes) ∧
        (serve env ws req db).state.1 = db.applyAll writes := by
  have hserve : serve env ws req db = (convertPptToPresentation user id).run answer ws 0 (db, {}) :=
    serve_of_user huser (by rw [handle, hreq])
  obtain ⟨log, hrun⟩ := run_convert db user id harchive
  rw [hserve, hrun] at h ⊢
  split at h
  · cases h
  rename_i hid
  cases hown : (db.importedPpts.find? id).filter (·.userId == user.id) with
  | none =>
    rw [hown] at h
    cases h
  | some ppt =>
    obtain ⟨hppt, -⟩ := Option.filter_eq_some_iff.mp hown
    obtain ⟨r, db', log', hstored, hcase⟩ := run_storeImport ws 2 db user entries ppt
    simp only [hown, hstored] at h
    simp only [if_neg hid, hstored]
    rcases hcase with ⟨e, rfl, -⟩ | ⟨stored, writes, hcreate, rfl, rfl⟩
    · cases h
    · cases h
      exact ⟨ppt, writes, hppt, hcreate, rfl⟩

theorem convert_stores {ppt : ImportedPpt} {entries : List ZipEntry} (huser : req.user? env = some user)
    (hreq : req.endpoint = .convertPptToPresentation id) (hppt : db.importedPpts.find? id = some ppt)
    (harchive : (ws 1).archive = .ok entries) (h : (serve env ws req db).result = .ok ⟨201, .deck deck⟩) :
    ∃ writes, createDeck (ws 2) db user.id (some (.str (importTitle ppt.fileName)))
        (importedSlides ppt.fileName entries) = .ok (deck, writes) ∧
        (serve env ws req db).state.1 = db.applyAll writes := by
  obtain ⟨ppt', writes, hppt', hstored⟩ := exists_convert_stores huser hreq harchive h
  cases hppt.symm.trans hppt'
  exact ⟨writes, hstored⟩

/-- A presentation that was imported is exported with all its texts, exactly if each of its slide files
    behind the first has more than five bullets, or none. -/
theorem import_export_iff {ws' : Nat → World} {req' : Request} {user' : AuthUser} {ppt : ImportedPpt}
    {entries : List ZipEntry} {db' : Db} (hlinked : db.Linked) (huser : req.user? env = some user)
    (hreq : req.endpoint = .convertPptToPresentation id) (hppt : db.importedPpts.find? id = some ppt)
    (harchive : (ws 1).archive = .ok entries) (hstored : (serve env ws req db).result = .ok ⟨201, .deck deck⟩)
    (hsame : db'.deck? deck.row.id = (serve env ws req db).state.1.deck? deck.row.id)
    (huser' : req'.user? env = some user') (hreq' : req'.endpoint = .exportToPptx deck.row.id) :
    (∃ name doc, (serve env ws' req' db').result = .ok ⟨200, .pptx name doc⟩ ∧
        List.Forall₂ TextKept (byIndex (db'.slidesOf deck.row.id)) doc.slides) ↔
      ∀ i e, (slideEntries entries)[i]? = some e → 0 < i → Drawable i (cleanTexts e.data) := by
  obtain ⟨writes, hcreate, hstate⟩ := convert_stores huser hreq hppt harchive hstored
  have hchecked := checked_of_createDeck hcreate
  rw [hstate, deck?_createDeck hlinked.slides hcreate] at hsame
  obtain ⟨p, hp, hdeck⟩ := Option.map_eq_some_iff.mp hsame
  have hslides : db'.slidesOf deck.row.id = deck.slides := congrArg Deck.slides hdeck
  have hserve : serve env ws' req' db' = (exportToPptx deck.row.id).run answer ws' 0 (db', {}) :=
    serve_of_user huser' (by rw [handle, hreq'])
  rw [← kept_import_iff hchecked, ← exists_mapM_iff, hserve, exportToPptx_result hp, hdeck,
    hslides, byIndex_import hchecked, renderDeck, byIndex_import hchecked]
  constructor
  · rintro ⟨name, doc, hresult, hkept⟩
    cases hrender : deck.slides.mapM renderSlide with
    | none =>
      rw [hrender] at hresult
      cases hresult
    | some boxes =>
      rw [hrender] at hresult
      cases hresult
      exact ⟨boxes, rfl, hkept⟩
  · rintro ⟨boxes, hrender, hkept⟩
    rw [hrender]
    exact ⟨_, _, rfl, hkept⟩

end Convert

/-! ### Two archives -/

/-- `alice` has uploaded a file. -/
def importDb : Db := { officeDb with importedPpts := ⟨[⟨"i", "alice", "Q1.pptx", "q1", 0⟩], by decide⟩ }

def slideXml (texts : List String) : String := String.join (texts.map fun t => "<a:t>" ++ t ++ "</a:t>")

/-- Two slide files; the second has the given bullets. -/
def agendaArchive (bullets : List String) : List ZipEntry :=
  [⟨"ppt/slides/slide1.xml", slideXml ["Q1", "Results"]⟩, ⟨"ppt/slides/slide2.xml", slideXml ("Agenda" :: bullets)⟩]

def convertRequest : Request := aliceRequest (.convertPptToPresentation "i")

def converted (bullets : List String) : Prog.Ran Query Query.Answer Err (Db × Conn) Response :=
  serve office (fun n => { world 0 n with archive := .ok (agendaArchive bullets) }) convertRequest importDb

def exported (bullets : List String) : Prog.Ran Query Query.Answer Err (Db × Conn) Response :=
  serve office (world 0) (aliceRequest (.exportToPptx (issue 2 0))) (converted bullets).state.1

def Response.deck? (r : Response) : Option Deck :=
  match r.status, r.body with
  | 201, .deck d => some d
  | _, _ => none

def Response.doc? (r : Response) : Option Pptx :=
  match r.body with
  | .pptx _ doc => some doc
  | _ => none

theorem result_of_deck? {r : Except Err Response} {deck : Deck} (h : r.toOption.bind Response.deck? = some deck) :
    r = .ok ⟨201, .deck deck⟩ := by
  obtain ⟨⟨status, body⟩, hr, hdeck⟩ := Option.bind_eq_some_iff.mp h
  have hr := toOption_eq_some.mp hr
  simp only [Response.deck?] at hdeck
  split at hdeck
  · cases hdeck
    simp_all
  · cases hdeck

theorem importDb_linked : importDb.Linked := ⟨fun _ hs => (by cases hs), fun _ ht => (by cases ht)⟩

/-- Six bullets survive. -/
theorem agenda_of_six_kept :
    ∃ deck, (converted ["1", "2", "3", "4", "5", "6"]).result = .ok ⟨201, .deck deck⟩ ∧ deck.row.id = issue 2 0 ∧
      ∃ name doc, (exported ["1", "2", "3", "4", "5", "6"]).result = .ok ⟨200, .pptx name doc⟩ ∧
        List.Forall₂ TextKept (byIndex ((converted ["1", "2", "3", "4", "5", "6"]).state.1.slidesOf
          (issue 2 0))) doc.slides := by
  have hdeck : (((converted ["1", "2", "3", "4", "5", "6"]).result.toOption.bind Response.deck?).map (·.row.id)) =
      some (issue 2 0) := by decide +kernel
  obtain ⟨deck, hdeck, hid⟩ := Option.map_eq_some_iff.mp hdeck
  have hstored := result_of_deck? hdeck
  refine ⟨deck, hstored, hid, ?_⟩
  have hall : ((slideEntries (agendaArchive ["1", "2", "3", "4", "5", "6"])).mapIdx fun i e =>
      decide (0 < i → Drawable i (cleanTexts e.data))).all id = true := by decide +kernel
  have hconvert : convertRequest.user? office = some alice := by decide +kernel
  have hexport : (aliceRequest (.exportToPptx (issue 2 0))).user? office = some alice := by decide +kernel
  rw [← hid]
  refine (import_export_iff importDb_linked hconvert rfl rfl rfl hstored rfl hexport (by rw [hid]; rfl)).mpr
    fun i e he => ?_
  refine of_decide_eq_true (List.all_eq_true.mp hall _ (List.mem_iff_getElem?.mpr ⟨i, ?_⟩))
  rw [List.getElem?_mapIdx, he]
  rfl

/-- Two bullets are lost. -/
theorem agenda_of_two_lost :
    ∃ deck, (converted ["1", "2"]).result = .ok ⟨201, .deck deck⟩ ∧ deck.row.id = issue 2 0 ∧
      ¬ ∃ name doc, (exported ["1", "2"]).result = .ok ⟨200, .pptx name doc⟩ ∧
        List.Forall₂ TextKept (byIndex ((converted ["1", "2"]).state.1.slidesOf (issue 2 0))) doc.slides := by
  have hdeck : (((converted ["1", "2"]).result.toOption.bind Response.deck?).map (·.row.id)) = some (issue 2 0) := by
    decide +kernel
  obtain ⟨deck, hdeck, hid⟩ := Option.map_eq_some_iff.mp hdeck
  refine ⟨deck, result_of_deck? hdeck, hid, ?_⟩
  rintro ⟨name, doc, hresult, hkept⟩
  have hlost : ((exported ["1", "2"]).result.toOption.bind Response.doc?).all (fun doc =>
      !((byIndex ((converted ["1", "2"]).state.1.slidesOf (issue 2 0))).zip doc.slides).all fun x =>
        x.1.texts.isSublist (x.2.flatMap TextBox.texts)) = true := by decide +kernel
  generalize byIndex ((converted ["1", "2"]).state.1.slidesOf (issue 2 0)) = slides at hlost hkept
  have hshown : ((slides.zip doc.slides).all fun x => x.1.texts.isSublist (x.2.flatMap TextBox.texts)) = true :=
    List.all_eq_true.mpr fun x hx => List.isSublist_iff_sublist.mpr (List.forall₂_zip hkept hx)
  have hdoc : (exported ["1", "2"]).result.toOption.bind Response.doc? = some doc := by
    rw [hresult]
    rfl
  rw [hdoc, Option.all_some, hshown] at hlost
  cases hlost

end Slideo
