import Slideo.Theorems.Content
import Slideo.Theorems.Usage
import Slideo.Theorems.WriteIsolation

/-! What the requests that save slides leave behind when they succeed: a presentation with the slides of
    their data, in order, and every other presentation as it was. -/

namespace Slideo
open Js
open Prog (Wp)

/-! ### Changes of one presentation -/

/-- A change to presentation `id`, or to no presentation. -/
def Write.within (id : String) : Write → Prop
  | .insertPresentation p => p.id = id
  | .patchPresentation x _ _ | .deletePresentation x | .deleteSlide x _ => x = id
  | .insertSlide s => s.presentationId = id
  | _ => True

section Within
variable {id x : String}

theorem deck?_congr {db db' : Db} (hp : db'.presentations.find? x = db.presentations.find? x)
    (hs : db'.slidesOf x = db.slidesOf x) : db'.deck? x = db.deck? x := by
  rw [Db.deck?, Db.deck?, hp, hs]

theorem deck?_apply {db : Db} {y : Write} (hy : y.within id) (hx : x ≠ id) : (db.apply y).deck? x = db.deck? x := by
  cases y with
  | insertPresentation p =>
    refine deck?_congr ?_ rfl
    simp only [Db.apply, Table.insert]
    split
    · rfl
    · have hne : (p.id == x) = false := beq_eq_false_iff_ne.mpr fun h => hx (h.symm.trans hy)
      simp [Table.find?, List.find?_append, hne]
  | patchPresentation y at_ title =>
    refine deck?_congr ?_ rfl
    obtain rfl := hy
    simp only [Db.apply, Table.find?_modify]
    cases hp : db.presentations.find? x with
    | none => rfl
    | some p => rw [Option.map_some, if_neg (Table.key_of_find? hp ▸ hx)]
  | deletePresentation y =>
    refine deck?_congr ?_ rfl
    obtain rfl := hy
    simp only [Db.apply, Table.find?, Table.delete, List.find?_filter]
    refine congrArg (List.find? · _) (funext fun p => ?_)
    by_cases hp : p.id = x
    · simp [hp, hx]
    · simp [hp]
  | insertSlide s => exact deck?_congr rfl (slidesOf_insertSlide fun h => hx (h.trans hy))
  | deleteSlide y sid => exact deck?_congr rfl (slidesOf_deleteSlide fun h => hx (h.trans hy))
  | _ => rfl

theorem deck?_applyAll {ws : List Write} (hx : x ≠ id) :
    ∀ {db : Db}, (∀ y ∈ ws, y.within id) → (db.applyAll ws).deck? x = db.deck? x := by
  induction ws with
  | nil => exact fun _ => rfl
  | cons y ws ih =>
    intro db h
    rw [Db.applyAll_cons, ih fun y' hy' => h y' (List.mem_cons_of_mem y hy'),
      deck?_apply (h y List.mem_cons_self) hx]

end Within

/-- `db'` is `db` but for one presentation, which is now `p` with the slides `bodies`. -/
structure Saved (db : Db) (p : Presentation) (bodies : List SlideBody) (db' : Db) : Prop where
  row : db'.presentations.find? p.id = some p
  slides : (db'.slidesOf p.id).map Slide.body = bodies
  others : ∀ x, x ≠ p.id → db'.deck? x = db.deck? x

theorem run_getPresentationById {ws : Nat → World} {db : Db} {user : AuthUser} {id : String} {p : Presentation}
    (hid : user.id ≠ "") (hp : db.presentations.find? id = some p) (howner : p.userId = user.id) :
    (getPresentationById user id).run answer ws 0 (db, {}) =
      ⟨.ok ⟨200, .deck ⟨p, byIndex (db.slidesOf id)⟩⟩, (db, {}),
      [⟨.presentationFindUnique id, .ok (some ⟨p, db.slidesOf id⟩)⟩]⟩ := by
  have hfind : answer (ws 0) (.presentationFindUnique id) (db, {}) =
    (.ok (some ⟨p, db.slidesOf id⟩), (db, {})) := by
    refine answer_read (q := .presentationFindUnique id) trivial ?_
    simp only [exec, Db.deck?, hp, Option.map_some]
  refine run_guarded (r := .ok ⟨200, .deck ⟨p, byIndex (db.slidesOf id)⟩⟩) ?_
  rw [if_neg hid]
  refine Prog.run_ask_bind hfind ?_
  show Prog.run answer ws (if p.userId ≠ user.id then _ else _) 1 _ = _
  rw [if_neg (not_not.mpr howner)]
  rfl

theorem serve_getPresentationById {env : Env} {ws : Nat → World} {req : Request}
    {db : Db} {user : AuthUser} {id : String} {p : Presentation} (huser : req.user? env = some user)
    (hreq : req.endpoint = .getPresentationById id) (hid : user.id ≠ "")
    (hp : db.presentations.find? id = some p) (howner : p.userId = user.id) :
    serve env ws req db = ⟨.ok ⟨200, .deck ⟨p, byIndex (db.slidesOf id)⟩⟩, (db, {}),
      [⟨.presentationFindUnique id, .ok (some ⟨p, db.slidesOf id⟩)⟩]⟩ :=
  (serve_of_user huser (by rw [handle, hreq])).trans (run_getPresentationById hid hp howner)

/-! ### A transaction alone -/

section Transactions
variable {q : Query} {db : Db} {ws : List Write} {s' : Db × Conn} {r : Except Err q.Answer}

/-- A statement of an open transaction fails, or adds its changes. -/
theorem Answers.inside (h : Answers q (db, { tx := some ws }) r s') (hq : q.IsStatement) :
    (∃ e, r = .error e ∧ s' = (db, { tx := some ws })) ∨
      ∃ w a ws', exec w (db.applyAll ws) (db.applyAll ws) q = .ok (a, ws') ∧ r = .ok a ∧
        s' = (db, { tx := some (ws ++ ws') }) := by
  obtain ⟨w, hw⟩ := h
  cases hexec : exec w (db.applyAll ws) (db.applyAll ws) q with
  | error e =>
    rw [answer_tx_error hq hexec] at hw
    cases hw
    exact Or.inl ⟨e, rfl, rfl⟩
  | ok out =>
    rw [answer_tx_ok hq hexec] at hw
    cases hw
    exact Or.inr ⟨w, out.1, out.2, hexec, rfl, rfl⟩

/-- A call outside a transaction, and the rest. -/
theorem wp_outside_bind {α : Type} {f : q.Answer → Handler α}
    {P : Except Err α → Db × Conn → Prop} (hq : q.IsStatement) (herror : ∀ e, P (.error e) (db, {}))
    (hok : ∀ w a ws, exec w db db q = .ok (a, ws) → Wp Answers (f a) (fun r s _ => P r s) (db.applyAll ws, {})) :
    Wp Answers (ask q >>= f) (fun r s _ => P r s) (db, {}) := by
  refine Wp.ask_bind (fun e s' h => ?_) fun a s' h => ?_
  · rcases h.outside hq with ⟨_, _, -, rfl, -⟩ | ⟨_, _, _, -, hr, -⟩
    · exact herror e
    · cases hr
  · rcases h.outside hq with ⟨_, _, hr, -⟩ | ⟨w, a', ws', hexec, hr, rfl⟩
    · cases hr
    · cases hr
      exact hok w a ws' hexec

/-- A call of an open transaction, and the rest. -/
theorem wp_inside_bind {α : Type} {f : q.Answer → Handler α}
    {P : Except Err α → Db × Conn → Prop} (hq : q.IsStatement) (herror : ∀ e, P (.error e) (db, { tx := some ws }))
    (hok : ∀ w a ws', exec w (db.applyAll ws) (db.applyAll ws) q = .ok (a, ws') →
      Wp Answers (f a) (fun r s _ => P r s) (db, { tx := some (ws ++ ws') })) :
    Wp Answers (ask q >>= f) (fun r s _ => P r s) (db, { tx := some ws }) := by
  refine Wp.ask_bind (fun e s' h => ?_) fun a s' h => ?_
  · rcases h.inside hq with ⟨_, -, rfl⟩ | ⟨_, _, _, -, hr, -⟩
    · exact herror e
    · cases hr
  · rcases h.inside hq with ⟨_, hr, -⟩ | ⟨w, a', ws', hexec, hr, rfl⟩
    · cases hr
    · cases hr
      exact hok w a ws' hexec

/-- A transaction commits what its body has changed, or nothing. -/
theorem wp_transaction_bind {α β : Type} {body : Handler α} {f : α → Handler β} {P : Except Err β → Db → Prop}
    (herror : ∀ e, P (.error e) db)
    (hbody : Wp Answers body (fun r s _ => ∃ ws, s = (db, { tx := some ws }) ∧
      ∀ a, r = .ok a → Wp Answers (f a) (fun r s _ => P r s.1) (db.applyAll ws, {})) (db, { tx := some [] })) :
    Wp Answers (transaction body >>= f) (fun r s _ => P r s.1) (db, {}) := by
  unfold transaction
  rw [Prog.bind_assoc']
  refine Wp.ask_bind (fun e s' h => ?_) fun _ s' h => ?_
  · obtain ⟨w, hw⟩ := h
    cases hw
  obtain ⟨w, hw⟩ := h
  cases hw
  rw [Prog.bind_assoc']
  refine Wp.bind (Wp.tryCatch (hbody.mono fun r s log hr => ?_))
  obtain ⟨ws, rfl, hr⟩ := hr
  cases r with
  | error e =>
    rintro r' s' ⟨w', hw'⟩
    cases hw'
    exact herror e
  | ok a =>
    rintro r' s' ⟨w', hw'⟩
    cases hw'
    exact (hr a rfl).mono fun _ _ _ h => h

end Transactions

/-! ### Updates -/

section Update
variable {w : World} {db db' : Db} {user : AuthUser} {id : String}
  {title slides body : Val} {p : Presentation} {u : Unit}
  {ws ws' : List Write}

/-- Behind the new title and without its slides, the presentation is saved as an empty one. -/
theorem saved_cleared {w' : World} (hupdate : exec w db db (.presentationUpdate id title) = .ok (p, ws))
    (hclear : exec w' (db.applyAll ws) (db.applyAll ws) (.slideDeleteMany id) = .ok (u, ws')) :
    Saved db p [] (db.applyAll (ws ++ ws')) ∧
      ∃ p₀ at_ t, db.presentations.find? id = some p₀ ∧ textUpdate title = .ok t ∧ p = p₀.patch at_ t := by
  obtain ⟨t, p₀, ht, -, hp₀, rfl, hws⟩ := updatePresentationRow_ok hupdate
  have hid : p₀.id = id := Table.key_of_find? hp₀
  have hfind := Table.find?_modify (t := db.presentations) (k := id) (x := id) (Presentation.patch_id w.now t)
  rw [hp₀, Option.map_some, if_pos hid] at hfind
  have hwithin : ∀ y ∈ ws ++ ws', y.within id := by
    intro y hy
    rcases List.mem_append.mp hy with hy | hy
    · obtain ⟨_, rfl⟩ := exec_issues hupdate y hy
      rfl
    · obtain ⟨_, rfl⟩ := exec_issues hclear y hy
      rfl
  have hothers : ∀ x, x ≠ id → (db.applyAll (ws ++ ws')).deck? x = db.deck? x :=
    fun x hx => deck?_applyAll hx hwithin
  rw [exec_slideDeleteMany] at hclear
  cases hclear
  rw [Db.applyAll_append, applyAll_slideDeleteMany] at hothers ⊢
  refine ⟨⟨?_, ?_, fun x hx => hothers x (hid ▸ hx)⟩, p₀, w.now, t, hp₀, ht, rfl⟩
  · rw [Presentation.patch_id, hid, hws]
    exact hfind
  · rw [Presentation.patch_id, hid, slidesOf_cleared, if_pos rfl]
    rfl

theorem Saved.insertSlides {data : List SlideData} (h : Saved db p [] db')
    (hinsert : createSlides w db' p.id data = .ok (u, ws)) :
    ∃ bodies, data.mapM SlideData.check = .ok bodies ∧ Saved db p bodies (db'.applyAll ws) := by
  obtain ⟨bodies, hbodies, -, ⟨hnodup, hnew⟩, rfl⟩ := createSlides_ok hinsert
  have hown : ∀ s ∈ slideRows p.id w.now w.uuid bodies, s.presentationId = p.id := fun s hs => (mem_slideRows hs).1
  obtain ⟨hslides, hpres⟩ := slidesOf_insertSlides hown hnodup hnew
  refine ⟨bodies, hbodies, ?_, ?_, fun x hx => ?_⟩
  · rw [hpres]
    exact h.row
  · rw [hslides, List.map_append, h.slides, body_slideRows]
    rfl
  · rw [deck?_applyAll hx, h.others x hx]
    intro y hy
    obtain ⟨s, hs, rfl⟩ := List.mem_map.mp hy
    exact hown s hs

/-- If a save answers 200, the presentation was its user's and has the title and the slides of the body. -/
def Updates (user : AuthUser) (id : String) (body : Val) (db : Db) (r : Except Err Response) (db' : Db) : Prop :=
  ∀ pres, r = .ok ⟨200, .presentation pres⟩ → ∃ p₀ at_ t slides data bodies, db.presentations.find? id = some p₀ ∧
    p₀.userId = user.id ∧ user.id ≠ "" ∧ pres = p₀.patch at_ t ∧ get body "slides" = some slides ∧
    slidesToInsert slides = some data ∧ (data.getD []).mapM SlideData.check = .ok bodies ∧ Saved db pres bodies db'

/-- The statements of a save leave it in the open transaction. -/
theorem wp_saveSlides : Wp Answers (saveSlides id title slides) (fun r s _ => ∃ ws, s = (db, { tx := some ws }) ∧
    ∀ pres, r = .ok pres → ∃ p₀ at_ t data bodies, db.presentations.find? id = some p₀ ∧
    pres = Presentation.patch at_ t p₀ ∧
      slidesToInsert slides = some data ∧ (data.getD []).mapM SlideData.check = .ok bodies ∧
      Saved db pres bodies (db.applyAll ws))
    (db, { tx := some [] }) := by
  refine wp_inside_bind (q := .presentationUpdate id title) trivial (fun e => ?_) fun w pres ws hupdate => ?_
  · exact ⟨_, rfl, fun _ h => by cases h⟩
  refine wp_inside_bind (q := .slideDeleteMany id) trivial (fun e => ?_) fun w' u ws' hclear => ?_
  · exact ⟨_, rfl, fun _ h => by cases h⟩
  obtain ⟨hcleared, p₀, at_, t, hp₀, -, hpres⟩ := saved_cleared hupdate hclear
  have hid : pres.id = id := by
    rw [hpres, Presentation.patch_id]
    exact Table.key_of_find? (t := db.presentations) hp₀
  unfold insertSlides
  cases hdata : slidesToInsert slides with
  | none => exact ⟨_, rfl, fun _ h => by cases h⟩
  | some data =>
    cases data with
    | none =>
      refine ⟨_, rfl, fun _ h => ?_⟩
      cases h
      exact ⟨p₀, at_, t, none, [], hp₀, hpres, rfl, rfl, hcleared⟩
    | some data =>
      refine wp_inside_bind (q := .slideCreateMany id data) trivial (fun e => ?_) fun w'' u' ws'' hinsert => ?_
      · exact ⟨_, rfl, fun _ h => by cases h⟩
      refine ⟨_, rfl, fun _ h => ?_⟩
      cases h
      rw [← hid] at hinsert
      obtain ⟨bodies, hbodies, hsaved⟩ := hcleared.insertSlides hinsert
      rw [← Db.applyAll_append] at hsaved
      exact ⟨p₀, at_, t, some data, bodies, hp₀, hpres, rfl, hbodies, hsaved⟩

theorem wp_updatePresentation :
    Wp Answers (updatePresentation user id body) (fun r s _ => Updates user id body db r s.1) (db, {}) := by
  have refused : ∀ {response : Response}, response.status ≠ 200 → Updates user id body db (.ok response) db := by
    intro response hstatus pres h
    cases h
    exact absurd rfl hstatus
  refine Wp.tryCatch (Wp.mono (P := fun r s _ => Updates user id body db r s.1) ?_ fun r s _ hr => ?_)
  · unfold prop
    cases htitle : get body "title" with
    | none => exact fun _ h => by cases h
    | some title =>
      cases hslides : get body "slides" with
      | none => exact fun _ h => by cases h
      | some slides =>
        show Wp _ (if _ then _ else _) _ _
        split
        · exact refused (show 401 ≠ 200 by decide)
        rename_i hid
        refine wp_outside_bind (q := .presentationFindUnique id) trivial (fun e => fun _ h => (by cases h)) ?_
        rintro w found ws hfind
        cases hfind
        cases hfound : db.deck? id with
        | none => exact refused (show 404 ≠ 200 by decide)
        | some deck =>
          show Wp _ (if _ then _ else _) _ _
          split
          · exact refused (show 403 ≠ 200 by decide)
          rename_i howner
          refine wp_transaction_bind (fun e => fun _ h => (by cases h)) (wp_saveSlides.mono fun r s log hr => ?_)
          obtain ⟨ws, hs, hr⟩ := hr
          refine ⟨ws, hs, fun pres hpres _ h => ?_⟩
          cases h
          obtain ⟨p₀, at_, t, data, bodies, hp₀, hpatch, hdata, hbodies, hsaved⟩ := hr pres hpres
          obtain ⟨p, hp, rfl⟩ := Option.map_eq_some_iff.mp hfound
          have hsame : p = p₀ := Option.some.inj (hp.symm.trans hp₀)
          exact ⟨p₀, at_, t, slides, data, bodies, hp₀, hsame ▸ not_not.mp howner, hid, hpatch,
            hslides, hdata, hbodies, hsaved⟩
  · cases r with
    | ok response => exact hr
    | error e => exact fun _ h => by cases h

end Update

/-! ### Creations -/

/-- The slides of a new presentation are the checked data, in order. -/
theorem checked_of_createDeck {w : World} {db : Db} {userId : String} {title : Val}
    {slides : List SlideData} {deck : Deck} {ws : List Write}
    (h : createDeck w db userId title slides = .ok (deck, ws)) :
    List.Forall₂ (fun d s => d.check = .ok s.body) slides deck.slides := by
  obtain ⟨t, bodies, -, hbodies, -, -, -, hslides, -, -⟩ := createDeck_ok h
  have hforall := forall₂_of_mapM_check hbodies
  have hbody : (slideRows (w.uuid 0) w.now (fun i => w.uuid (i + 1)) bodies).map Slide.body = bodies := body_slideRows
  rw [← hbody, List.forall₂_map_right_iff] at hforall
  rw [hslides]
  exact hforall

/-- Presentations and slides are as they were. -/
def SameDecks (db db' : Db) : Prop := db'.presentations = db.presentations ∧ db'.slides = db.slides

section Create
variable {env : Env} {w : World} {db db' db'' : Db} {user : AuthUser} {id : String}
  {title : Val} {body : Val} {p : Presentation}
  {bodies : List SlideBody} {slides : List Json} {ws : List Write}

theorem SameDecks.deck? (h : SameDecks db db') (x : String) : db'.deck? x = db.deck? x := by
  refine deck?_congr (by rw [h.1]) ?_
  rw [Db.slidesOf, Db.slidesOf, h.2]

theorem Saved.after (h : Saved db p bodies db') (hsame : SameDecks db' db'') : Saved db p bodies db'' := by
  refine ⟨?_, ?_, fun x hx => (hsame.deck? x).trans (h.others x hx)⟩
  · rw [hsame.1]
    exact h.row
  · rw [Db.slidesOf, hsame.2]
    exact h.slides

theorem Saved.before (h : Saved db' p bodies db'') (hsame : SameDecks db db') : Saved db p bodies db'' :=
  ⟨h.row, h.slides, fun x hx => (h.others x hx).trans (hsame.deck? x)⟩

theorem saved_createDeck {userId : String} {data : List SlideData} {deck : Deck}
    (hlinked : ∀ s ∈ db.slides.rows, s.presentationId ∈ db.presentations.keys)
    (h : createDeck w db userId title data = .ok (deck, ws)) :
    deck.row.userId = userId ∧ ∃ bodies, data.mapM SlideData.check = .ok bodies ∧
    Saved db deck.row bodies (db.applyAll ws) := by
  obtain ⟨p, hp, hdeck⟩ := Option.map_eq_some_iff.mp (deck?_createDeck hlinked h)
  obtain ⟨t, bodies, -, hbodies, -, -, hrow, hslides, -, rfl⟩ := createDeck_ok h
  obtain rfl : p = deck.row := congrArg Deck.row hdeck
  have hstored : Db.slidesOf _ _ = deck.slides := congrArg Deck.slides hdeck
  refine ⟨by rw [hrow], bodies, hbodies, hp, ?_, fun x hx => deck?_applyAll hx fun y hy => ?_⟩
  · rw [hstored, hslides]
    exact body_slideRows
  · rcases List.mem_cons.mp hy with rfl | hy
    · rfl
    · obtain ⟨s, hs, rfl⟩ := List.mem_map.mp hy
      rw [hslides] at hs
      exact (mem_slideRows hs).1.trans (by rw [hrow])

/-- If a creation from `slides` answers 201, its presentation is the user's and has them as its slides. -/
def Inserts (user : AuthUser) (slides : List Json) (db : Db) (r : Except Err Response) (db' : Db) : Prop :=
  ∀ deck, r = .ok ⟨201, .deck deck⟩ → deck.row.userId = user.id ∧ user.id ≠ "" ∧ ∃ data bodies,
    mapIdxOption createSlideData slides = some data ∧
      data.mapM SlideData.check = .ok bodies ∧ Saved db deck.row bodies db'

theorem wp_saveDeck {topic : Val} (hlinked : ∀ s ∈ db.slides.rows, s.presentationId ∈ db.presentations.keys)
    (hid : user.id ≠ "") :
    Wp Answers (saveDeck user topic slides) (fun r s _ => Inserts user slides db r s.1) (db, {}) := by
  unfold saveDeck
  cases hdata : mapIdxOption createSlideData slides with
  | none => exact fun _ h => by cases h
  | some data =>
    refine wp_outside_bind (q := .presentationCreate user.id _ data) trivial (fun e => fun _ h => (by cases h)) ?_
    intro w deck ws hcreate
    refine wp_outside_bind (q := .userUpdate user.id .incrementUsage) trivial (fun e => fun _ h => (by cases h)) ?_
    intro w' u ws' hcount _ h
    cases h
    obtain ⟨-, -, rfl⟩ := updateUserRow_ok hcount
    obtain ⟨howner, bodies, hbodies, hsaved⟩ := saved_createDeck hlinked hcreate
    exact ⟨howner, hid, data, bodies, hdata, hbodies, hsaved.after ⟨rfl, rfl⟩⟩

/-- The layouts of a template are only read. -/
theorem wp_findRequiredLayouts_bind {templateId : Val} {f : Option (List String) → Handler Response}
    {P : Except Err Response → Db × Conn → Prop} (herror : ∀ e, P (.error e) (db, {}))
    (hf : ∀ layouts, Wp Answers (f layouts) (fun r s _ => P r s) (db, {})) :
    Wp Answers (findRequiredLayouts templateId >>= f) (fun r s _ => P r s) (db, {}) := by
  unfold findRequiredLayouts
  split
  · rw [Prog.bind_assoc']
    refine wp_outside_bind (q := .templateFindUnique templateId) trivial herror fun w found ws hfind => ?_
    obtain ⟨tid, -, hws⟩ := except_bind_eq_ok.mp hfind
    cases hws
    exact hf _
  · exact hf none

/-- The manual path of a creation. -/
theorem wp_createPresentation (hlinked : ∀ s ∈ db.slides.rows, s.presentationId ∈ db.presentations.keys)
    (hslides : asArray (getOpt body "slides") = some slides) :
    Wp Answers (createPresentation user body) (fun r s _ => Inserts user slides db r s.1) (db, {}) := by
  have refused : ∀ {response : Response}, response.status ≠ 201 → Inserts user slides db (.ok response) db := by
    intro response hstatus pres h
    cases h
    exact absurd rfl hstatus
  refine Wp.tryCatch (Wp.mono (P := fun r s _ => Inserts user slides db r s.1) ?_ fun r s _ hr => ?_)
  · split
    · exact refused (show 401 ≠ 201 by decide)
    rename_i hid
    unfold prop
    cases get body "topic" with
    | none => exact fun _ h => by cases h
    | some topic =>
      show Wp _ (if _ then _ else _) _ _
      split
      · exact refused (show 400 ≠ 201 by decide)
      refine wp_findRequiredLayouts_bind (fun e => fun _ h => (by cases h)) fun layouts => ?_
      unfold finalSlides
      rw [hslides]
      exact wp_saveDeck hlinked hid
  · cases r with
    | ok response => exact hr
    | error e => exact fun _ h => by cases h

/-- The limiter has changed no presentation, and passes a row with the plan of the user. -/
structure Limited (user : AuthUser) (db : Db) (r : Except Err (Response ⊕ User)) (s : Db × Conn) : Prop where
  closed : s.2 = {}
  same : SameDecks db s.1
  refused : ∀ response, r = .ok (.inl response) → response.status ≠ 201
  passed : ∀ seen, r = .ok (.inr seen) → (db.users.find? user.id).map (·.plan) = some seen.plan

theorem limited_error (hsame : SameDecks db db') (e : Err) : Limited user db (.error e) (db', {}) :=
  ⟨rfl, hsame, fun _ h => (by cases h), fun _ h => by cases h⟩

theorem limited_refused {response : Response} (hsame : SameDecks db db') (h : response.status ≠ 201) :
    Limited user db (.ok (.inl response)) (db', {}) :=
  ⟨rfl, hsame, fun _ h' => (by cases h'; exact h), fun _ h => by cases h⟩

theorem wp_limit {seen : User} (hsame : SameDecks db db')
    (hplan : (db.users.find? user.id).map (·.plan) = some seen.plan) :
    Wp Answers (if seen.plan = .FREE ∧ monthlyLimit ≤ seen.presentationsCreatedThisMonth then
        pure (.inl ⟨403, .limitReached monthlyLimit seen.presentationsCreatedThisMonth⟩)
      else pure (.inr seen) : Handler (Response ⊕ User)) (fun r s _ => Limited user db r s) (db', {}) := by
  split
  · exact limited_refused hsame (show 403 ≠ 201 by decide)
  · exact ⟨rfl, hsame, fun _ h => (by cases h), fun _ h => by cases h; exact hplan⟩

theorem wp_checkLimits : Wp Answers (checkLimits env user) (fun r s _ => Limited user db r s) (db, {}) := by
  have same : SameDecks db db := ⟨rfl, rfl⟩
  refine Wp.tryCatch (Wp.mono (P := fun r s _ => Limited user db r s) ?_ fun r s _ hr => ?_)
  · refine wp_outside_bind (q := .userFindUnique user.id) trivial (limited_error same) fun w found ws hfind => ?_
    cases hfind
    cases hrow : db.users.find? user.id with
    | none => exact limited_refused same (show 401 ≠ 201 by decide)
    | some row =>
      have hplan : (db.users.find? user.id).map (·.plan) = some row.plan := by rw [hrow]; rfl
      refine wp_outside_bind (q := .clock) trivial (limited_error same) fun w now ws hclock => ?_
      cases hclock
      show Wp Answers (resetUsage env w.now row >>= _) _ _
      unfold resetUsage
      split
      · rw [Prog.bind_assoc']
        refine wp_outside_bind (q := .userUpdate row.id (.resetUsage w.now)) trivial (limited_error same) ?_
        intro w' u ws' hreset
        obtain ⟨-, -, rfl⟩ := updateUserRow_ok hreset
        exact wp_limit ⟨rfl, rfl⟩ hplan
      · exact wp_limit same hplan
  · cases r with
    | ok a => exact hr
    | error e => exact ⟨hr.closed, hr.same, fun _ h =>
      (by cases h; exact show 500 ≠ 201 by decide), fun _ h => by cases h⟩

theorem get_of_asArray {name : String} (h : asArray (getOpt body name) = some slides) :
    get body name = some (some (.arr slides)) := by
  unfold getOpt at h
  cases hget : get body name with
  | none =>
    rw [hget] at h
    cases h
  | some v =>
    rw [hget, Option.getD_some] at h
    unfold asArray at h
    split at h
    · cases h
      rfl
    · cases h

/-- An array within the limit is left as it is. -/
theorem checkSlideCountLimit_of_le {seen : User} (hslides : asArray (getOpt body "slides") = some slides)
    (hle : slides.length ≤ slideLimit seen.plan) : checkSlideCountLimit seen body = some body := by
  have hcap : checkSlideCountLimit seen body =
      if slideLimit seen.plan < slides.length then some
        (setProp body "slides" (.arr (slides.take (slideLimit seen.plan))))
      else some body := by
    rw [checkSlideCountLimit, get_of_asArray hslides]
    rfl
  rw [hcap, if_neg (not_lt.mpr hle)]

/-- Behind the limiter, an array within the limit of the plan is created as it is. -/
theorem wp_postPresentations (hlinked : db.Linked) (hslides : asArray (getOpt body "slides") = some slides)
    (hlimit : ∀ row, db.users.find? user.id = some row → slides.length ≤ slideLimit row.plan) :
    Wp Answers (postPresentations env body user) (fun r s _ => Inserts user slides db r s.1) (db, {}) := by
  refine Wp.bind (wp_checkLimits.mono fun r s log hr => ?_)
  obtain ⟨db', conn⟩ := s
  obtain rfl : conn = {} := hr.closed
  rcases r with e | response | seen
  · exact fun _ h => by cases h
  · intro deck h
    cases h
    exact absurd rfl (hr.refused _ rfl)
  · obtain ⟨row, hrow, hplan⟩ := Option.map_eq_some_iff.mp (hr.passed seen rfl)
    have hcap : checkSlideCountLimit seen body = some body :=
      checkSlideCountLimit_of_le hslides (hplan ▸ hlimit row hrow)
    dsimp only
    rw [hcap]
    have hlinked' : ∀ s ∈ db'.slides.rows, s.presentationId ∈ db'.presentations.keys := by
      rw [hr.same.1, hr.same.2]
      exact hlinked.slides
    refine (wp_createPresentation hlinked' hslides).mono fun r s log h deck hdeck => ?_
    obtain ⟨howner, hid, data, bodies, hdata, hbodies, hsaved⟩ := h deck hdeck
    exact ⟨howner, hid, data, bodies, hdata, hbodies, hsaved.before hr.same⟩

end Create

end Slideo
