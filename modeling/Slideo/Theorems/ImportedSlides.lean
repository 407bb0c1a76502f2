import Slideo.Theorems.ImportedText

/-! From the files of an archive to the slides of an import. The order of the archive never matters, since the
    numbers in the names of the slide files decide. What a slide file holds is stored, except on the first
    slide, which has room for a title and a subtitle only. -/

namespace Slideo
open Js

/-! ### The names of slide files -/

/-- The entry is `ppt/slides/slide<n>.xml`. -/
def SlideFile (e : ZipEntry) (n : Nat) : Prop :=
  ∃ ds : List Char, ds ≠ [] ∧ (∀ d ∈ ds, isDigit d = true) ∧
    e.entryName.toList = "ppt/slides/slide".toList ++ (ds ++ ".xml".toList) ∧ digitsVal 10 ds = n ∧ n < 2 ^ 53

/-- The slide files of the archive are numbered, each by a number of its own. -/
structure Numbered (entries : List ZipEntry) : Prop where
  named : ∀ e ∈ entries.filter isSlideEntry, ∃ n, SlideFile e n
  distinct : (entries.filter isSlideEntry).Pairwise fun a b => ∀ n, SlideFile a n → ¬ SlideFile b n

/-- The number of the one is below the number of the other. -/
def Before (a b : ZipEntry) : Prop := ∃ n m, SlideFile a n ∧ SlideFile b m ∧ n < m

section Names
variable {e a b : ZipEntry} {n : Nat} {entries entries' : List ZipEntry}

theorem SlideFile.entryNumber (h : SlideFile e n) : entryNumber e = n := by
  obtain ⟨ds, hne, hds, hname, hn, -⟩ := h
  have hpath : ∀ c ∈ "ppt/slides/slide".toList, (!isDigit c) = true :=
    List.all_eq_true.mp (by decide)
  have hdigits : (ds ++ ".xml".toList).takeWhile isDigit = ds := by
    rw [List.takeWhile_append_of_pos hds]
    exact List.append_nil ds
  have hdrop : (ds ++ ".xml".toList).dropWhile (fun c => !isDigit c) = ds ++ ".xml".toList := by
    cases ds with
    | nil => exact absurd rfl hne
    | cons d ds => simp [hds d List.mem_cons_self]
  rw [Slideo.entryNumber, hname, List.dropWhile_append_of_pos hpath, hdrop, hdigits, hn]

namespace Numbered

theorem entryNumber_ne (h : Numbered entries) :
    (entries.filter isSlideEntry).Pairwise fun a b => entryNumber a ≠ entryNumber b := by
  refine h.distinct.imp_of_mem fun {a b} ha hb hdistinct heq => ?_
  obtain ⟨n, hn⟩ := h.named a ha
  obtain ⟨m, hm⟩ := h.named b hb
  rw [hn.entryNumber, hm.entryNumber] at heq
  exact hdistinct n hn (heq ▸ hm)

theorem of_perm (h : Numbered entries) (hperm : (entries'.filter isSlideEntry).Perm (entries.filter isSlideEntry)) :
    Numbered entries' where
  named e he := h.named e (hperm.subset he)
  distinct := (hperm.pairwise_iff fun hab n ha hb => hab n hb ha).mpr h.distinct

/-- The slide files are sorted by their numbers. -/
theorem sorted (h : Numbered entries) : (slideEntries entries).Pairwise fun a b =>
    entryNumber a < entryNumber b := by
  have hperm : (slideEntries entries).Perm (entries.filter isSlideEntry) := List.perm_insertionSort _ _
  have hle : (slideEntries entries).Pairwise fun a b => entryNumber a ≤ entryNumber b :=
    List.pairwise_insertionSort _ _
  have hne : (slideEntries entries).Pairwise fun a b => entryNumber a ≠ entryNumber b :=
    (hperm.pairwise_iff fun hab => hab.symm).mpr h.entryNumber_ne
  exact hle.imp₂ (fun _ _ hle hne => Nat.lt_of_le_of_ne hle hne) hne

theorem before (h : Numbered entries) : (slideEntries entries).Pairwise Before := by
  refine h.sorted.imp_of_mem fun {a b} ha hb hlt => ?_
  have hperm : (slideEntries entries).Perm (entries.filter isSlideEntry) := List.perm_insertionSort _ _
  obtain ⟨n, hn⟩ := h.named a (hperm.subset ha)
  obtain ⟨m, hm⟩ := h.named b (hperm.subset hb)
  rw [hn.entryNumber, hm.entryNumber] at hlt
  exact ⟨n, m, hn, hm, hlt⟩

/-- The order of the archive does not matter. -/
theorem slideEntries_eq (h : Numbered entries)
    (hperm : (entries'.filter isSlideEntry).Perm (entries.filter isSlideEntry)) :
    slideEntries entries' = slideEntries entries := by
  have hsorted : (slideEntries entries').Perm (slideEntries entries) :=
    (List.perm_insertionSort _ _).trans (hperm.trans (List.perm_insertionSort _ _).symm)
  exact List.Perm.eq_of_pairwise (fun _ _ _ _ hab hba => absurd hab hba.not_gt)
    (h.of_perm hperm).sorted h.sorted hsorted

end Numbered

end Names

/-! ### The order of an import -/

/-- The worlds of a request that fetches the given archive. -/
def fetching (ws : Nat → World) (entries : List ZipEntry) (n : Nat) : World := { ws n with archive := .ok entries }

/-- Slide `i` comes from file `e`. -/
structure FromFile (i : Nat) (e : ZipEntry) (s : Slide) : Prop where
  index : s.index = i
  content : s.contentJSON = (parsedSlide i (cleanTexts e.data)).contentJSON
  hero_iff : s.layout = "hero" ↔ i = 0

/-- The slide that stands for an archive without slide files. -/
structure Placeholder (s : Slide) : Prop where
  index : s.index = 0
  layout : s.layout = "hero"
  subtitle : getOpt (some s.contentJSON) "subtitle" = some (.str "Imported Presentation (No text found)")

section Order
variable {env : Env} {ws : Nat → World} {req : Request} {db : Db} {user : AuthUser}
  {id fileName : String} {deck : Deck}
  {entries entries' : List ZipEntry} {slides : List Slide} {s : Slide} {i : Nat} {texts : List String}

/-- Nothing is fetched to store the slides. -/
theorem run_storeImport_fetching (ppt : ImportedPpt) (n : Nat) (c : Db × Conn) :
    (storeImport user entries ppt).run answer (fetching ws entries') n c =
      (storeImport user entries ppt).run answer ws n c := by
  have hexec : ∀ userId title data snap db, exec (fetching ws entries' n) snap db
    (.presentationCreate userId title data) =
      exec (ws n) snap db (.presentationCreate userId title data) := fun _ _ _ _ _ => rfl
  have hanswer : ∀ userId title data, answer (fetching ws entries' n) (.presentationCreate userId title data) c =
      answer (ws n) (.presentationCreate userId title data) c := fun userId title data => by
    simp only [answer, perform_eq (q := .presentationCreate userId title data) trivial, hexec]
  rw [storeImport]
  generalize some (Json.str (importTitle ppt.fileName)) = title
  generalize importedSlides ppt.fileName entries = data
  cases hcreate : answer (ws n) (.presentationCreate user.id title data) c with
  | mk r c' =>
    have hcreate' := (hanswer user.id title data).trans hcreate
    cases r with
    | ok deck => rw [ask, Prog.run_ask_bind hcreate rfl, Prog.run_ask_bind hcreate' rfl]; rfl
    | error e => rw [ask, Prog.run_ask_bind_error hcreate, Prog.run_ask_bind_error hcreate']

/-- A conversion depends on the slide files of the archive only. -/
theorem run_convert_eq (ws : Nat → World) (db : Db) (user : AuthUser) (id : String)
    (h : slideEntries entries' = slideEntries entries) :
    ((convertPptToPresentation user id).run answer (fetching ws entries') 0 (db, {})).result =
        ((convertPptToPresentation user id).run answer (fetching ws entries) 0 (db, {})).result ∧
      ((convertPptToPresentation user id).run answer (fetching ws entries') 0 (db, {})).state =
        ((convertPptToPresentation user id).run answer (fetching ws entries) 0 (db, {})).state := by
  have hstore : storeImport user entries' = storeImport user entries := funext fun ppt => by
    rw [storeImport, storeImport, importedSlides, importedSlides, parsedSlides, parsedSlides, h]
  have harchive : ∀ entries, (fetching ws entries 1).archive = .ok entries := fun _ => rfl
  obtain ⟨log, hrun⟩ := run_convert db user id (harchive entries)
  obtain ⟨log', hrun'⟩ := run_convert db user id (harchive entries')
  simp only [run_storeImport_fetching, hstore] at hrun hrun'
  rw [hrun, hrun']
  split
  · exact ⟨rfl, rfl⟩
  · split <;> exact ⟨rfl, rfl⟩

theorem fromFile_of_check {e : ZipEntry} (h : (parsedSlide i (cleanTexts e.data)).check = .ok s.body) :
    FromFile i e s := by
  obtain ⟨hindex, -, hcontent⟩ := check_ok h
  refine ⟨?_, hcontent, ?_⟩
  · simp only [parsedSlide, intArg] at hindex
    split at hindex
    · exact (Except.ok.inj hindex).symm
    · cases hindex
  · rw [layout_parsed h]
    by_cases hi : i = 0
    · rw [if_pos hi]
      exact iff_of_true rfl hi
    · rw [if_neg hi]
      refine iff_of_false ?_ hi
      split <;> decide

/-- Every slide file has its slide. -/
theorem imported_get {e : ZipEntry} (h : List.Forall₂ (fun d s => d.check = .ok s.body)
    (importedSlides fileName entries) slides)
    (he : (slideEntries entries)[i]? = some e) :
    ∃ s, slides[i]? = some s ∧ (parsedSlide i (cleanTexts e.data)).check = .ok s.body := by
  have hi : i < (parsedSlides entries).length := by
    rw [parsedSlides, List.length_mapIdx]
    exact (List.getElem?_eq_some_iff.mp he).1
  have himported : importedSlides fileName entries = parsedSlides entries :=
    if_neg (List.ne_nil_of_length_pos (by omega))
  rw [himported] at h
  obtain ⟨hlength, hget⟩ := List.forall₂_iff_get.mp h
  obtain ⟨e', he', hparsed⟩ := parsed_get hi
  cases he.symm.trans he'
  exact ⟨slides[i], List.getElem?_eq_getElem (hlength ▸ hi), hparsed ▸ hget i hi (hlength ▸ hi)⟩

/-- The slides of the import of the files, in their order. -/
structure ImportOf (files : List ZipEntry) (slides : List Slide) : Prop where
  placeholder : files = [] → ∃ s, slides = [s] ∧ Placeholder s
  length_eq : files ≠ [] → slides.length = files.length
  slide : ∀ i e, files[i]? = some e → ∃ s, slides[i]? = some s ∧ FromFile i e s

theorem importOf (h : List.Forall₂ (fun d s => d.check = .ok s.body) (importedSlides fileName entries) slides) :
    ImportOf (slideEntries entries) slides where
  placeholder hnil := by
    rw [importedSlides, if_pos (by rw [parsedSlides, hnil]; rfl)] at h
    obtain ⟨s, _, hcheck, hrest, rfl⟩ := List.forall₂_cons_left_iff.mp h
    cases hrest
    obtain ⟨hindex, hlayout, hcontent⟩ := check_ok hcheck
    refine ⟨s, rfl, (Except.ok.inj hindex).symm, (Json.str.inj (Option.some.inj hlayout)).symm, ?_⟩
    replace hcontent : s.contentJSON = _ := hcontent
    rw [hcontent]
    rfl
  length_eq hne := by
    rw [importedSlides, if_neg fun hnil => hne (slideEntries_eq_nil hnil)] at h
    rw [← h.length_eq, parsedSlides, List.length_mapIdx]
  slide i e he := by
    obtain ⟨s, hs, hcheck⟩ := imported_get h he
    exact ⟨s, hs, fromFile_of_check hcheck⟩

/-- What a conversion that answers 201 has stored is read back. -/
theorem imported_slidesOf (hlinked : db.Linked) (huser : req.user? env = some user)
    (hreq : req.endpoint = .convertPptToPresentation id) (harchive : (ws 1).archive = .ok entries)
    (hstored : (serve env ws req db).result = .ok ⟨201, .deck deck⟩) :
    (serve env ws req db).state.1.slidesOf deck.row.id = deck.slides ∧
      ∃ fileName, List.Forall₂ (fun d s => d.check = .ok s.body) (importedSlides fileName entries) deck.slides := by
  obtain ⟨ppt, writes, -, hcreate, hstate⟩ := exists_convert_stores huser hreq harchive hstored
  obtain ⟨p, -, hdeck⟩ := Option.map_eq_some_iff.mp (deck?_createDeck hlinked.slides hcreate)
  rw [hstate]
  exact ⟨congrArg Deck.slides hdeck, ppt.fileName, checked_of_createDeck hcreate⟩

/-- The slides of an import come in the order of the numbers of their files, wherever these stand in the archive. -/
theorem import_in_order (hlinked : db.Linked) (huser : req.user? env = some user)
    (hreq : req.endpoint = .convertPptToPresentation id) (hnumbered : Numbered entries)
    (hperm : (entries'.filter isSlideEntry).Perm (entries.filter isSlideEntry)) :
    (serve env (fetching ws entries') req db).result = (serve env (fetching ws entries) req db).result ∧
      (serve env (fetching ws entries') req db).state = (serve env (fetching ws entries) req db).state ∧
      ∀ deck, (serve env (fetching ws entries) req db).result = .ok ⟨201, .deck deck⟩ →
        ∃ files, files.Perm (entries.filter isSlideEntry) ∧ files.Pairwise Before ∧ ImportOf files deck.slides ∧
          (serve env (fetching ws entries) req db).state.1.slidesOf deck.row.id = deck.slides := by
  have hserve : ∀ ws, serve env ws req db = (convertPptToPresentation user id).run answer ws 0 (db, {}) := fun ws =>
    serve_of_user huser (by rw [handle, hreq])
  obtain ⟨hresult, hstate⟩ := run_convert_eq ws db user id (hnumbered.slideEntries_eq hperm)
  rw [← hserve, ← hserve] at hresult hstate
  refine ⟨hresult, hstate, fun deck hdeck => ?_⟩
  obtain ⟨hslides, fileName, hchecked⟩ := imported_slidesOf hlinked huser hreq rfl hdeck
  exact ⟨slideEntries entries, List.perm_insertionSort _ _, hnumbered.before, importOf hchecked, hslides⟩

end Order

/-! ### An archive in two orders -/

def slideTwo : ZipEntry := ⟨"ppt/slides/slide2.xml", slideXml ["Q1", "Results"]⟩

def slideTen : ZipEntry := ⟨"ppt/slides/slide10.xml", slideXml ["Outlook"]⟩

/-- The files of `alice`, the last slide first. -/
def backward : List ZipEntry := [slideTen, slideTwo]

/-- The same slide files in order, and files that are none. -/
def forward : List ZipEntry := [⟨"docProps/app.xml", ""⟩, slideTwo,
    ⟨"ppt/slides/_rels/slide2.xml.rels", ""⟩, slideTen]

theorem slideTwo_file : SlideFile slideTwo 2 :=
  ⟨['2'], by decide, List.all_eq_true.mp (by decide), by decide, by decide, by decide⟩

theorem slideTen_file : SlideFile slideTen 10 :=
  ⟨['1', '0'], by decide, List.all_eq_true.mp (by decide), by decide, by decide, by decide⟩

theorem slideTwo_isSlideEntry : isSlideEntry slideTwo = true := by decide +kernel

theorem slideTen_isSlideEntry : isSlideEntry slideTen = true := by decide +kernel

theorem backward_filter : backward.filter isSlideEntry = [slideTen, slideTwo] := by
  simp [backward, slideTwo_isSlideEntry, slideTen_isSlideEntry]

theorem forward_filter : forward.filter isSlideEntry = [slideTwo, slideTen] := by
  have happ : isSlideEntry ⟨"docProps/app.xml", ""⟩ = false := by decide +kernel
  have hrels : isSlideEntry ⟨"ppt/slides/_rels/slide2.xml.rels", ""⟩ = false := by decide +kernel
  simp [forward, happ, hrels, slideTwo_isSlideEntry, slideTen_isSlideEntry]

theorem backward_numbered : Numbered backward where
  named e he := by
    rw [backward_filter] at he
    rcases List.mem_pair.mp he with rfl | rfl
    · exact ⟨10, slideTen_file⟩
    · exact ⟨2, slideTwo_file⟩
  distinct := by
    rw [backward_filter]
    refine List.pairwise_pair.mpr fun n hten htwo => ?_
    exact absurd (hten.entryNumber.trans htwo.entryNumber.symm) (by decide +kernel)

/-- The two orders give the same slides. -/
theorem backward_in_order :
    (serve office (fetching (world 0) forward) convertRequest importDb).result =
        (serve office (fetching (world 0) backward) convertRequest importDb).result ∧
      (serve office (fetching (world 0) forward) convertRequest importDb).state =
        (serve office (fetching (world 0) backward) convertRequest importDb).state ∧
      ∃ deck, (serve office (fetching (world 0) backward) convertRequest importDb).result = .ok ⟨201, .deck deck⟩ ∧
        ∃ files, files.Perm (backward.filter isSlideEntry) ∧ files.Pairwise Before ∧ ImportOf files deck.slides ∧
          (serve office (fetching (world 0) backward) convertRequest importDb).state.1.slidesOf deck.row.id =
            deck.slides := by
  have huser : convertRequest.user? office = some alice := by decide +kernel
  have hperm : (forward.filter isSlideEntry).Perm (backward.filter isSlideEntry) := by
    rw [forward_filter, backward_filter]
    exact .swap _ _ _
  have hdeck : ((serve office (fetching (world 0) backward) convertRequest importDb).result.toOption.bind
    Response.deck?).isSome =
      true := by decide +kernel
  obtain ⟨deck, hdeck⟩ := Option.isSome_iff_exists.mp hdeck
  have hstored := result_of_deck? hdeck
  obtain ⟨hresult, hstate, hslides⟩ : _ = (serve office
    (fetching (world 0) backward) convertRequest importDb).result ∧ _ ∧ _ :=
    import_in_order importDb_linked huser rfl backward_numbered hperm
  exact ⟨hresult, hstate, deck, hstored, hslides deck hstored⟩

/-! ### The texts of an import -/

/-- Some character of the text is not white space. -/
def HasInk (t : String) : Prop := ∃ c ∈ t.toList, isSpace c = false

instance (t : String) : Decidable (HasInk t) := inferInstanceAs (Decidable (∃ c ∈ t.toList, isSpace c = false))

/-- The slide has all the given texts that are not blank, in order. -/
def TextsKept (texts : List String) (s : Slide) : Prop := ((texts.filter (HasInk ·)).map Json.str).Sublist s.texts

section Texts
variable {s : Slide} {i : Nat} {t title subtitle : String} {texts bullets : List String}

theorem trim_ne_nil_iff : trim t.toList ≠ [] ↔ HasInk t := by
  have htrim : trim t.toList = [] ↔ ∀ c ∈ t.toList.dropWhile isSpace, isSpace c = true := by
    simp only [trim, List.reverse_eq_nil_iff, List.dropWhile_eq_nil_iff, List.mem_reverse]
  rw [Ne, htrim]
  constructor
  · intro hdark
    by_contra hblank
    refine hdark fun c hc => ?_
    by_contra hc'
    exact hblank ⟨c, (List.dropWhile_sublist isSpace).subset hc, by simpa using hc'⟩
  · rintro ⟨c, hc, hdark⟩ hspaces
    have hspace : isSpace c = true := by
      rw [← List.takeWhile_append_dropWhile (p := isSpace) (l := t.toList)] at hc
      rcases List.mem_append.mp hc with hc | hc
      · exact List.mem_takeWhile_imp hc
      · exact hspaces c hc
    rw [hspace] at hdark
    cases hdark

theorem bulletTexts_eq : bulletTexts texts = texts.tail.filter (HasInk ·) := by
  simp only [bulletTexts, trim_ne_nil_iff]

theorem HasInk.ne_empty (h : HasInk t) : t ≠ "" := by
  rintro rfl
  obtain ⟨c, hc, -⟩ := h
  cases hc

theorem Imported.textsKept_iff (h : Imported s title subtitle bullets) :
    TextsKept texts s ↔ (texts.filter (HasInk ·)).Sublist ([title, subtitle].filter (· ≠ "") ++ bullets) := by
  have hinj : Function.Injective (List.map Json.str) := List.map_injective_iff.mpr fun _ _ => Json.str.inj
  rw [TextsKept, h.texts, ← List.map_append, List.sublist_map_iff]
  constructor
  · rintro ⟨kept, hsub, heq⟩
    cases hinj heq
    exact hsub
  · exact fun hsub => ⟨_, hsub, rfl⟩

/-- A title and a subtitle hold one text behind the first, and no more. -/
theorem hero_sublist_iff (ht : t ≠ "") : (((t :: texts).filter (HasInk ·)).Sublist
    ([t, ((texts.filter (HasInk ·)).headD "")].filter (· ≠ ""))) ↔ (texts.filter (HasInk ·)).length ≤ 1 := by
  have hinked : ∀ b ∈ texts.filter (HasInk ·), HasInk b := fun b hb => of_decide_eq_true (List.mem_filter.mp hb).2
  rw [List.filter_cons]
  generalize texts.filter (HasInk ·) = bullets at *
  match bullets with
  | [] =>
    by_cases hink : HasInk t <;> simp [ht, hink]
  | [b] =>
    have hb := (hinked b (List.mem_singleton_self b)).ne_empty
    by_cases hink : HasInk t <;> simp [ht, hb, hink]
  | b :: b' :: rest =>
    have hb := (hinked b List.mem_cons_self)
    have hb' := hb.ne_empty
    rw [show [t, (b :: b' :: rest).headD ""].filter (· ≠ "") = [t, b] by simp [ht, hb']]
    refine iff_of_false (fun hsub => ?_) (by simp)
    by_cases hink : HasInk t
    · rw [decide_eq_true hink, if_pos rfl] at hsub
      exact absurd hsub.length_le (by simp)
    -- a blank title leaves one place for two texts
    · rw [decide_eq_false hink, if_neg Bool.false_ne_true] at hsub
      obtain ⟨hbt, -⟩ := List.cons.inj (hsub.eq_of_length_le (by simp))
      exact hink (hbt ▸ hb)

/-- A text that is too long for a title is kept all the same. -/
theorem textsKept_of_tooLong (hs : (parsedSlide i texts).check = .ok s.body)
    (hne : "" ∉ texts) (hlong : TooLong i texts) :
    TextsKept texts s := by
  have himported := imported_parsed hs
  have hnone := bulletTexts_eq.symm.trans hlong.2
  have htitle : "Slide " ++ toString (i + 1) ≠ "" := by simp
  rw [storedTitle, storedBullets, if_pos hlong, if_pos hlong] at himported
  generalize "Slide " ++ toString (i + 1) = slideN at *
  cases texts with
  | nil => exact List.nil_sublist _
  | cons t texts =>
    have ht : t ≠ "" := fun h => hne (h ▸ List.mem_cons_self)
    have hkept : ((t :: texts).filter (HasInk ·)).Sublist [slideN, t] := by
      rw [List.tail_cons] at hnone
      rw [List.filter_cons, hnone]
      by_cases hink : HasInk t <;> simp [hink]
    rw [himported.textsKept_iff]
    by_cases hi : i = 0 <;> simpa [hi, htitle, ht] using hkept

/-- A slide keeps its texts exactly if it is not the first one, or has at most one behind the first. -/
theorem textsKept_parsed_iff (hs : (parsedSlide i texts).check = .ok s.body) (hne : "" ∉ texts) :
    TextsKept texts s ↔ (i = 0 → (bulletTexts texts).length ≤ 1) := by
  by_cases hlong : TooLong i texts
  · refine iff_of_true (textsKept_of_tooLong hs hne hlong) fun _ => ?_
    rw [hlong.2]
    exact Nat.zero_le 1
  have himported := imported_parsed hs
  rw [storedTitle, storedBullets, if_neg hlong, if_neg hlong] at himported
  cases texts with
  | nil => exact iff_of_true (List.nil_sublist _) fun _ => Nat.zero_le 1
  | cons t texts =>
    have ht : t ≠ "" := fun h => hne (h ▸ List.mem_cons_self)
    rw [List.headD_cons, bulletTexts_eq, List.tail_cons] at himported
    rw [himported.textsKept_iff, bulletTexts_eq, List.tail_cons]
    by_cases hi : i = 0
    · rw [if_pos hi, if_pos hi, List.append_nil, hero_sublist_iff ht, imp_iff_right hi]
    · rw [if_neg hi, if_neg hi]
      refine iff_of_true ?_ fun h => absurd h hi
      rw [List.filter_cons]
      by_cases hink : HasInk t <;> simp [hink, ht]

end Texts

section Keep
variable {env : Env} {ws : Nat → World} {req : Request} {db : Db} {user : AuthUser} {id : String} {deck : Deck}
  {entries : List ZipEntry} {e : ZipEntry} {i : Nat}

/-- An import stores all texts of a slide file that are not blank, unless it is the first file and has more
    than one of them behind its first text. -/
theorem import_keeps_texts_iff (hlinked : db.Linked) (huser : req.user? env = some user)
    (hreq : req.endpoint = .convertPptToPresentation id) (harchive : (ws 1).archive = .ok entries)
    (hstored : (serve env ws req db).result = .ok ⟨201, .deck deck⟩) (he : (slideEntries entries)[i]? = some e) :
    ∃ s, ((serve env ws req db).state.1.slidesOf deck.row.id)[i]? = some s ∧
      (TextsKept (cleanTexts e.data) s ↔ (i = 0 → (bulletTexts (cleanTexts e.data)).length ≤ 1)) := by
  obtain ⟨hslides, fileName, hchecked⟩ := imported_slidesOf hlinked huser hreq harchive hstored
  obtain ⟨s, hs, hcheck⟩ := imported_get hchecked he
  rw [hslides]
  exact ⟨s, hs, textsKept_parsed_iff hcheck fun hempty => ne_empty_of_mem_cleanTexts hempty rfl⟩

end Keep

/-- The only slide file of an archive. -/
def onlyFile (texts : List String) : ZipEntry := ⟨"ppt/slides/slide1.xml", slideXml texts⟩

def onlyImported (texts : List String) : Prog.Ran Query Query.Answer Err (Db × Conn) Response :=
  serve office (fetching (world 0) [onlyFile texts]) convertRequest importDb

theorem onlyFile_get (texts : List String) : (slideEntries [onlyFile texts])[0]? = some (onlyFile texts) := by
  have hfile : isSlideEntry (onlyFile texts) = true := by
    show (startsWith "ppt/slides/slide1.xml" "ppt/slides/slide" && endsWith "ppt/slides/slide1.xml" ".xml") = true
    decide +kernel
  simp [slideEntries, hfile]

/-- Two texts are a title and a subtitle. -/
theorem two_texts_kept : ∃ deck s, (onlyImported ["Q1", "Results"]).result = .ok ⟨201, .deck deck⟩ ∧
    ((onlyImported ["Q1", "Results"]).state.1.slidesOf deck.row.id)[0]? = some s ∧
    TextsKept (cleanTexts (onlyFile ["Q1", "Results"]).data) s := by
  have huser : convertRequest.user? office = some alice := by decide +kernel
  have hdeck : ((onlyImported ["Q1", "Results"]).result.toOption.bind Response.deck?).isSome = true := by
    decide +kernel
  have hfew : (bulletTexts (cleanTexts (onlyFile ["Q1", "Results"]).data)).length ≤ 1 := by decide +kernel
  obtain ⟨deck, hdeck⟩ := Option.isSome_iff_exists.mp hdeck
  have harchive : (fetching (world 0) [onlyFile ["Q1", "Results"]] 1).archive =
    .ok [onlyFile ["Q1", "Results"]] := rfl
  obtain ⟨s, hs, hkept⟩ := import_keeps_texts_iff importDb_linked huser rfl harchive
    (result_of_deck? hdeck) (onlyFile_get _)
  exact ⟨deck, s, result_of_deck? hdeck, hs, hkept.mpr fun _ => hfew⟩

/-- The third text of a first slide is lost. -/
theorem third_text_lost : ∃ deck s, (onlyImported ["Q1", "Results", "Outlook"]).result = .ok ⟨201, .deck deck⟩ ∧
    ((onlyImported ["Q1", "Results", "Outlook"]).state.1.slidesOf deck.row.id)[0]? = some s ∧
    ¬ TextsKept (cleanTexts (onlyFile ["Q1", "Results", "Outlook"]).data) s := by
  have huser : convertRequest.user? office = some alice := by decide +kernel
  have hdeck : ((onlyImported ["Q1", "Results", "Outlook"]).result.toOption.bind Response.deck?).isSome = true := by
    decide +kernel
  have hmany : ¬ (bulletTexts (cleanTexts (onlyFile ["Q1", "Results", "Outlook"]).data)).length ≤ 1 := by
    decide +kernel
  obtain ⟨deck, hdeck⟩ := Option.isSome_iff_exists.mp hdeck
  have hstored := result_of_deck? hdeck
  have harchive : (fetching (world 0) [onlyFile ["Q1", "Results", "Outlook"]] 1).archive =
      .ok [onlyFile ["Q1", "Results", "Outlook"]] := rfl
  obtain ⟨hslides, fileName, hchecked⟩ := imported_slidesOf importDb_linked huser rfl harchive hstored
  obtain ⟨s, hs, hcheck⟩ := imported_get hchecked (onlyFile_get _)
  refine ⟨deck, s, hstored, (congrArg (·[0]?) hslides).trans hs, fun hkept => hmany ?_⟩
  exact (textsKept_parsed_iff hcheck fun hempty => ne_empty_of_mem_cleanTexts hempty rfl).mp hkept rfl

end Slideo
