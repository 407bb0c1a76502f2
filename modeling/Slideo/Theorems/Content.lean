import Slideo.Schedule
import Slideo.Theorems.Alone
import Mathlib.Data.Multiset.AddSub

/-! What a `PUT /api/presentations/:id` leaves behind: the title of the presentation and the multiset of its
    slides. A save that goes through replaces both; one that fails changes nothing. -/

namespace Slideo
open Js

/-- The title of a presentation and its slides, without their ids, times and order. -/
structure Content where
  title : String
  slides : Multiset SlideBody

def Db.content? (db : Db) (id : String) : Option Content :=
  (db.presentations.find? id).map fun p => ⟨p.title, ↑((db.slidesOf id).map Slide.body)⟩

/-- The new content that a save asks for: a title, if any, and the mapped slides. -/
structure Save where
  title : Option String
  slides : List SlideBody

def Save.apply (s : Save) (x : Content) : Content := ⟨s.title.getD x.title, s.slides⟩

/-- The save of a body, or `none` if it cannot go through. -/
def save? (user : AuthUser) (body : Val) : Option Save := do
  let title ← get body "title"
  let slides ← get body "slides"
  if user.id = "" then none
  else
    let title ← (textUpdate title).toOption
    let data ← slidesToInsert slides
    let bodies ← ((data.getD []).mapM SlideData.check).toOption
    return ⟨title, bodies⟩

/-- Only an array with entries is inserted. -/
theorem slidesToInsert_cons (entry : Json) (entries : List Json) : slidesToInsert (some (.arr (entry :: entries))) =
    ((entry :: entries).mapM updateSlideData).map some := by
  have hlength : get (some (.arr (entry :: entries))) "length" = some
    (some (.num ((entries.length + 1 : Nat) : Rat))) := rfl
  have hpositive : (Number.finite ((entries.length + 1 : Nat) : Rat)).positive = true :=
    decide_eq_true (Nat.cast_pos.mpr (Nat.succ_pos _))
  simp only [slidesToInsert, truthy, hlength, toNumber, asArray, Bool.not_true, Bool.false_eq_true, if_false,
    Option.bind_eq_bind, Option.bind_some, hpositive]
  cases (entry :: entries).mapM updateSlideData <;> rfl

theorem slidesToInsert_eq_some {slides : Val} {data : List SlideData}
    (h : slidesToInsert slides = some (some data)) :
    ∃ entries, slides = some (.arr entries) ∧ entries.mapM updateSlideData = some data := by
  unfold slidesToInsert at h
  split at h
  · cases h
  obtain ⟨v, -, h⟩ := Option.bind_eq_some_iff.mp h
  obtain ⟨length, -, h⟩ := Option.bind_eq_some_iff.mp h
  split at h
  · cases h
  obtain ⟨entries, hentries, h⟩ := Option.bind_eq_some_iff.mp h
  obtain ⟨data', hdata, h⟩ := Option.bind_eq_some_iff.mp h
  cases h
  refine ⟨entries, ?_, hdata⟩
  unfold asArray at hentries
  split at hentries
  · cases hentries
    rfl
  · cases hentries

/-! ### Statements on the content -/

section Content
variable {db : Db} {id : String}

theorem content?_patch (db : Db) (id : String) (at_ : Time) (t : Option String) :
    (db.apply (.patchPresentation id at_ t)).content? id = (db.content? id).map fun x =>
      ⟨t.getD x.title, x.slides⟩ := by
  have hfind := Table.find?_modify (t := db.presentations) (k := id) (x := id) (Presentation.patch_id at_ t)
  simp only [Db.content?, Db.apply, hfind, Option.map_map]
  cases hp : db.presentations.find? id with
  | none => rfl
  | some p =>
    simp only [Option.map_some, Function.comp_apply, if_pos (Table.key_of_find? hp)]
    rfl

theorem content?_slideDeleteMany {w : World} {ws : List Write}
    (h : exec w db db (.slideDeleteMany id) = .ok ((), ws)) :
    (db.applyAll ws).content? id = ((db.content? id).map fun x => ⟨x.title, 0⟩) ∧
      (db.applyAll ws).presentations = db.presentations := by
  rw [exec_slideDeleteMany] at h
  cases h
  rw [applyAll_slideDeleteMany]
  refine ⟨?_, rfl⟩
  simp only [Db.content?, slidesOf_cleared, if_true, Option.map_map]
  rfl

theorem body_slideRows {now : Time} {ids : Nat → String} {bodies : List SlideBody} :
    (slideRows id now ids bodies).map Slide.body = bodies := by
  refine List.ext_getElem (by simp [slideRows]) fun i h h' => ?_
  simp [slideRows, Slide.body]

/-- New slides come after the others. -/
theorem slidesOf_insertSlides {rows : List Slide} : ∀ {db : Db}, (∀ s ∈ rows, s.presentationId = id) →
    (rows.map (·.id)).Nodup → (∀ s ∈ rows, s.id ∉ db.slides.keys) →
    (db.applyAll (rows.map .insertSlide)).slidesOf id = db.slidesOf id ++ rows ∧
      (db.applyAll (rows.map .insertSlide)).presentations = db.presentations := by
  induction rows with
  | nil => exact fun _ _ _ => ⟨(List.append_nil _).symm, rfl⟩
  | cons s rows ih =>
    intro db hid hnodup hnew
    obtain ⟨hs, hnodup⟩ := List.nodup_cons.mp hnodup
    have hrows : (db.apply (.insertSlide s)).slides.rows = db.slides.rows ++ [s] :=
      Table.insert_rows (hnew s List.mem_cons_self)
    have hnew' : ∀ x ∈ rows, x.id ∉ (db.apply (.insertSlide s)).slides.keys := by
      intro x hx hkey
      rw [Table.keys, hrows, List.map_append] at hkey
      rcases List.mem_append.mp hkey with hkey | hkey
      · exact hnew x (List.mem_cons_of_mem s hx) hkey
      · rw [List.map_singleton, List.mem_singleton] at hkey
        exact hs (List.mem_map.mpr ⟨x, hx, hkey⟩)
    obtain ⟨hslides, hpres⟩ := ih (fun x hx => hid x (List.mem_cons_of_mem s hx)) hnodup hnew'
    rw [List.map_cons, Db.applyAll_cons, hslides, hpres]
    refine ⟨?_, rfl⟩
    have hone : [s].filter (·.presentationId == id) = [s] := by simp [hid s List.mem_cons_self]
    rw [Db.slidesOf, hrows, List.filter_append, hone, List.append_assoc]
    rfl

/-- A new presentation is read back as it was stored. -/
theorem deck?_createDeck {w : World} {db : Db} {userId : String} {title : Val}
    {slides : List SlideData} {deck : Deck} {ws : List Write}
    (hlinked : ∀ s ∈ db.slides.rows, s.presentationId ∈ db.presentations.keys)
    (h : createDeck w db userId title slides = .ok (deck, ws)) :
    (db.applyAll ws).deck? deck.row.id = some deck := by
  obtain ⟨hkey, -, hrows⟩ := presentations_createDeck h
  obtain ⟨t, bodies, -, -, -, -, hrow, hslides, ⟨hnodup, hnew⟩, rfl⟩ := createDeck_ok h
  have hfind : (db.applyAll (.insertPresentation deck.row :: deck.slides.map .insertSlide)).presentations.find?
      deck.row.id =
      some deck.row := by
    refine Table.find?_of_mem ?_
    rw [hrows]
    exact List.mem_append_right _ (List.mem_singleton_self _)
  have hnone : (db.apply (.insertPresentation deck.row)).slidesOf deck.row.id = [] := by
    refine List.filter_eq_nil_iff.mpr fun s hs hid => hkey ?_
    rw [← beq_iff_eq.mp hid]
    exact hlinked s hs
  have hown : ∀ s ∈ deck.slides, s.presentationId = deck.row.id := by
    intro s hs
    rw [hslides] at hs
    rw [(mem_slideRows hs).1, hrow]
  have hnew' : ∀ s ∈ deck.slides, s.id ∉ (db.apply (.insertPresentation deck.row)).slides.keys := hnew
  have hstored : ((db.apply (.insertPresentation deck.row)).applyAll (deck.slides.map .insertSlide)).slidesOf
    deck.row.id =
      (db.apply (.insertPresentation deck.row)).slidesOf deck.row.id ++ deck.slides :=
    (slidesOf_insertSlides hown hnodup hnew').1
  rw [Db.deck?, hfind, Db.applyAll_cons, hstored, hnone]
  rfl

theorem content?_slideCreateMany {w : World} {snap : Db} {data : List SlideData} {ws : List Write} {u : Unit}
    (h : exec w snap db (.slideCreateMany id data) = .ok (u, ws)) :
    ∃ bodies, data.mapM SlideData.check = .ok bodies ∧
      (db.applyAll ws).content? id =
        ((db.content? id).map fun x => ⟨x.title, x.slides + (bodies : Multiset SlideBody)⟩) ∧
      (db.applyAll ws).presentations = db.presentations := by
  obtain ⟨bodies, hbodies, -, ⟨hnodup, hnew⟩, rfl⟩ := createSlides_ok h
  obtain ⟨hslides, hpres⟩ := slidesOf_insertSlides (fun s hs => (mem_slideRows hs).1) hnodup hnew
  refine ⟨bodies, hbodies, ?_, hpres⟩
  simp only [Db.content?, hslides, hpres, List.map_append, body_slideRows, Option.map_map]
  rfl

end Content

/-! ### A save alone -/

/-- The ids that a call can draw are no slide's. -/
def FreshIds (db : Db) (w : World) : Prop := Function.Injective w.uuid ∧ ∀ k, w.uuid k ∉ db.slides.keys

/-- Ids longer than those in use are fresh. -/
theorem exists_freshIds (db : Db) : ∃ w, FreshIds db w := by
  have hbound : ∃ n, ∀ x ∈ db.slides.keys, x.length ≤ n := by
    induction db.slides.keys with
    | nil => exact ⟨0, fun _ h => by cases h⟩
    | cons x xs ih =>
      obtain ⟨n, hn⟩ := ih
      refine ⟨max x.length n, fun y hy => ?_⟩
      rcases List.mem_cons.mp hy with rfl | hy
      · exact le_max_left _ _
      · exact le_max_of_le_right (hn y hy)
  obtain ⟨n, hn⟩ := hbound
  refine ⟨world 0 n, fun k k' h => (issue_inj h).2, fun k hk => ?_⟩
  have hle := hn _ hk
  have hlength : (issue n k).length = n + (k + 1) := by
    simp only [issue, String.length_ofList, List.length_append, List.length_cons, List.length_replicate]
  rw [show (world 0 n).uuid k = issue n k from rfl, hlength] at hle
  omega

section Alone
variable {env : Env} {ws : Nat → World} {n : Nat} {db : Db} {id : String}
  {user : AuthUser} {body title slides : Val}
  {save : Save} {p : Presentation} {t : Option String}

theorem toOption_eq_some {ε α : Type} {x : Except ε α} {a : α} : x.toOption = some a ↔ x = .ok a := by
  cases x <;> simp [Except.toOption]

theorem save?_eq_some : save? user body = some save ↔
    ∃ title slides data, get body "title" = some title ∧ get body "slides" = some slides ∧ user.id ≠ "" ∧
      textUpdate title = .ok save.title ∧ slidesToInsert slides = some data ∧
      (data.getD []).mapM SlideData.check = .ok save.slides := by
  obtain ⟨t, bodies⟩ := save
  by_cases hid : user.id = ""
  · simp [save?, hid]
  · simp only [save?, if_neg hid, Option.bind_eq_bind, Option.bind_eq_some_iff, toOption_eq_some]
    constructor
    · rintro ⟨title, htitle, slides, hslides, t', ht, data, hdata, bodies', hbodies, h⟩
      cases h
      exact ⟨title, slides, data, htitle, hslides, hid, ht, hdata, hbodies⟩
    · rintro ⟨title, slides, data, htitle, hslides, -, ht, hdata, hbodies⟩
      exact ⟨title, htitle, slides, hslides, t, ht, data, hdata, bodies, hbodies, rfl⟩

theorem exec_slideCreateMany {w : World} {s : Db} {data : List SlideData} {bodies : List SlideBody}
    (hbodies : data.mapM SlideData.check = .ok bodies) (hid : id ∈ db.presentations.keys) (hfresh : FreshIds db w) :
    exec w s db (.slideCreateMany id data) = .ok ((), (slideRows id w.now w.uuid bodies).map .insertSlide) := by
  have hnodup : ((slideRows id w.now w.uuid bodies).map (·.id)).Nodup := by
    have hids : (slideRows id w.now w.uuid bodies).map (·.id) = (List.range bodies.length).map w.uuid := by
      refine List.ext_getElem (by simp [slideRows]) fun i h h' => ?_
      simp [slideRows]
    rw [hids]
    exact List.nodup_range.map hfresh.1
  have hnew : ∀ s ∈ slideRows id w.now w.uuid bodies, s.id ∉ db.slides.keys := by
    intro s hs
    obtain ⟨-, i, hi⟩ := mem_slideRows hs
    rw [hi]
    exact hfresh.2 i
  refine except_bind_eq_ok.mpr ⟨bodies, hbodies, except_bind_eq_ok.mpr ⟨(), require_eq_ok.mpr hid, ?_⟩⟩
  exact except_bind_eq_ok.mpr ⟨(), require_eq_ok.mpr ⟨hnodup, hnew⟩, rfl⟩

/-- The last statement of a save that goes through, if it makes one. -/
theorem run_insertSlides (n : Nat) {data : Option (List SlideData)} {bodies : List SlideBody} {writes : List Write}
    (hkey : id ∈ (db.applyAll writes).presentations.keys) (hdata : slidesToInsert slides = some data)
    (hbodies : (data.getD []).mapM SlideData.check = .ok bodies) (hfresh : FreshIds (db.applyAll writes) (ws n)) :
    ∃ inserts log, (insertSlides id slides).run answer ws n (db, { tx := some writes }) =
        ⟨.ok (), (db, { tx := some (writes ++ inserts) }), log⟩ ∧
      (db.applyAll (writes ++ inserts)).content? id =
        ((db.applyAll writes).content? id).map (fun x => ⟨x.title, x.slides + (bodies : Multiset SlideBody)⟩) ∧
      (db.applyAll (writes ++ inserts)).presentations = (db.applyAll writes).presentations := by
  unfold insertSlides
  rw [hdata]
  cases data with
  | none =>
    cases hbodies
    refine ⟨[], [], ?_, ?_, ?_⟩
    · rw [List.append_nil]
      rfl
    · rw [List.append_nil]
      simp
    · rw [List.append_nil]
  | some data =>
    rw [Option.getD_some] at hbodies
    have hexec := exec_slideCreateMany (s := db.applyAll writes) hbodies hkey hfresh
    obtain ⟨bodies', hbodies', hcontent, hpres⟩ := content?_slideCreateMany hexec
    rw [hbodies] at hbodies'
    cases hbodies'
    refine ⟨_, _, Prog.run_ask_ok (answer_tx_ok (q := .slideCreateMany id data) trivial hexec), ?_, ?_⟩
    · rw [Db.applyAll_append, hcontent]
    · rw [Db.applyAll_append, hpres]

/-- The statements of a save that goes through. -/
theorem run_saveSlides (n : Nat) {data : Option (List SlideData)} (hp : db.presentations.find? id = some p)
    (htitle : textUpdate title = .ok save.title) (hdata : slidesToInsert slides = some data)
    (hbodies : (data.getD []).mapM SlideData.check = .ok save.slides) (hfresh : ∀ n, FreshIds db (ws n)) :
    ∃ pres writes log, (saveSlides id title slides).run answer ws n (db, { tx := some [] }) =
        ⟨.ok pres, (db, { tx := some writes }), log⟩ ∧
      (db.applyAll writes).content? id = (db.content? id).map save.apply ∧
      ∃ at_, (db.applyAll writes).presentations.find? id = some (p.patch at_ save.title) := by
  have hkey : id ∈ db.presentations.keys :=
    Table.mem_keys.mpr ⟨p, Table.mem_of_find? hp, Table.key_of_find? hp⟩
  have hupdate : answer (ws n) (.presentationUpdate id title) (db, { tx := some [] }) =
      (.ok (p.patch (ws n).now save.title), (db,
        { tx := some [.patchPresentation id (ws n).now save.title] })) := by
    refine answer_tx_ok (q := .presentationUpdate id title) trivial ?_
    refine except_bind_eq_ok.mpr ⟨_, htitle, except_bind_eq_ok.mpr ⟨(), require_eq_ok.mpr hkey, ?_⟩⟩
    simp only [Db.applyAll_nil, hp]
    rfl
  have hcontent := content?_patch db id (ws n).now save.title
  have hfind : (db.apply (.patchPresentation id (ws n).now save.title)).presentations.find? id =
      some (p.patch (ws n).now save.title) := by
    have h := Table.find?_modify (t := db.presentations) (k := id) (x := id)
      (Presentation.patch_id (ws n).now save.title)
    rw [hp, Option.map_some, if_pos (Table.key_of_find? hp)] at h
    exact h
  have hslides : (db.apply (.patchPresentation id (ws n).now save.title)).slides = db.slides := rfl
  generalize Write.patchPresentation id (ws n).now save.title = patch at hupdate hcontent hfind hslides
  have hexec := exec_slideDeleteMany (ws (n + 1)) (db.apply patch) id
  have hclear : answer (ws (n + 1)) (.slideDeleteMany id) (db, { tx := some [patch] }) =
      (.ok (), (db, { tx := some ([patch] ++ ((db.apply patch).slidesOf id).map (.deleteSlide id ·.id)) })) :=
    answer_tx_ok (q := .slideDeleteMany id) trivial hexec
  obtain ⟨hcleared, hpres⟩ := content?_slideDeleteMany hexec
  have hfresh' : FreshIds (db.applyAll ([patch] ++ ((db.apply patch).slidesOf id).map (.deleteSlide id ·.id)))
    (ws (n + 2)) := by
    refine ⟨(hfresh (n + 2)).1, fun k hk => (hfresh (n + 2)).2 k ?_⟩
    obtain ⟨s, hs, hsk⟩ := Table.mem_keys.mp hk
    rw [Db.applyAll_append, Db.applyAll_cons, Db.applyAll_nil, applyAll_slideDeleteMany] at hs
    rw [← hslides]
    exact Table.mem_keys.mpr ⟨s, (Table.mem_delete.mp hs).1, hsk⟩
  have hkey' : id ∈ (db.applyAll ([patch] ++ ((db.apply patch).slidesOf id).map
    (.deleteSlide id ·.id))).presentations.keys := by
    rw [Db.applyAll_append, Db.applyAll_cons, Db.applyAll_nil, hpres]
    exact Table.mem_keys.mpr ⟨_, Table.mem_of_find? hfind, Table.key_of_find? hfind⟩
  obtain ⟨inserts, log, hrun, hinserted, hpres'⟩ := run_insertSlides (n + 2) hkey' hdata hbodies hfresh'
  refine ⟨_, _, _, Prog.run_ask_bind hupdate (Prog.run_ask_bind hclear (Prog.run_bind_ok hrun rfl)), ?_,
    (ws n).now, ?_⟩
  · rw [hinserted, Db.applyAll_append, Db.applyAll_cons, Db.applyAll_nil, hcleared,
      hcontent, Option.map_map, Option.map_map]
    cases db.content? id with
    | none => rfl
    | some x => simp [Save.apply]
  · rw [hpres', Db.applyAll_append, Db.applyAll_cons, Db.applyAll_nil, hpres]
    exact hfind

theorem run_updatePresentation (hsave : save? user body = some save) (hp : db.presentations.find? id = some p)
    (howner : p.userId = user.id) (hfresh : ∀ n, FreshIds db (ws n)) :
    ∃ pres db' log at_, (updatePresentation user id body).run answer ws 0 (db, {}) =
        ⟨.ok ⟨200, .presentation pres⟩, (db', {}), log⟩ ∧
      db'.content? id = (db.content? id).map save.apply ∧
      db'.presentations.find? id = some (p.patch at_ save.title) := by
  obtain ⟨title, slides, data, htitle, hslides, hid, ht, hdata, hbodies⟩ := save?_eq_some.mp hsave
  obtain ⟨pres, writes, log, hrun, hcontent, at_, hfind⟩ := run_saveSlides 2 hp ht hdata hbodies hfresh
  have hlook : answer (ws 0) (.presentationFindUnique id) (db, {}) =
    (.ok (some ⟨p, db.slidesOf id⟩), (db, {})) := by
    refine answer_read (q := .presentationFindUnique id) trivial ?_
    simp only [exec, Db.deck?, hp, Option.map_some]
  have hrest := Prog.run_bind_ok (f := fun updated => (pure ⟨200, .presentation updated⟩ : Handler Response))
    (run_transaction_ok (n := 1) hrun) rfl
  have hbody : (updatePresentation user id body).run answer ws 0 (db, {}) =
      ⟨.ok ⟨200, .presentation pres⟩, (db.applyAll writes, {}),
        ⟨.presentationFindUnique id, .ok (some ⟨p, db.slidesOf id⟩)⟩ ::
        (⟨.begin, .ok ()⟩ :: log ++ [⟨.commit, .ok ()⟩] ++ [])⟩ := by
    refine run_guarded (r := .ok ⟨200, .presentation pres⟩) ?_
    simp only [prop, htitle, hslides, ofOption, Prog.mk_pure_bind]
    rw [if_neg hid]
    refine Prog.run_ask_bind hlook ?_
    show Prog.run answer ws (if p.userId ≠ user.id then _ else _) 1 _ = _
    rw [if_neg (not_not.mpr howner)]
    exact hrest
  exact ⟨_, _, _, at_, hbody, hcontent, hfind⟩

theorem serve_save {req : Request} (huser : req.user? env = some user)
    (hreq : req.endpoint = .updatePresentation id body) (hsave : save? user body = some save)
    (hp : db.presentations.find? id = some p) (howner : p.userId = user.id) (hfresh : ∀ n, FreshIds db (ws n)) :
    (∃ pres, (serve env ws req db).result = .ok ⟨200, .presentation pres⟩) ∧
      (serve env ws req db).state.1.content? id = (db.content? id).map save.apply ∧
      ∃ p', (serve env ws req db).state.1.presentations.find? id = some p' ∧ p'.userId = user.id := by
  obtain ⟨pres, db', log, at_, hrun, hcontent, hfind⟩ := run_updatePresentation hsave hp howner hfresh
  rw [serve_updatePresentation huser hreq, hrun]
  exact ⟨⟨pres, rfl⟩, hcontent, _, hfind, howner⟩

end Alone

end Slideo
