import Slideo.Theorems.Filled
import Slideo.Theorems.SavedDecks
import Mathlib.Data.Multiset.MapFold

/-! A presentation that is read and put back. The update fills defaults in, but nothing that was stored needs
    one, so only an empty theme becomes an absent one, and that only once. -/

namespace Slideo
open Js

/-! ### Putting back what was read -/

/-- A slide in the JSON of a response; `iso` is the text of an instant. -/
def Slide.toJson (iso : Time → String) (s : Slide) : Json :=
  .obj [("id", .str s.id), ("presentationId", .str s.presentationId), ("layout", .str s.layout),
    ("contentJSON", s.contentJSON), ("index", .num s.index), ("createdAt", .str (iso s.createdAt)),
    ("updatedAt", .str (iso s.updatedAt)), ("themeChoice", (s.themeChoice.map Json.str).getD .null)]

/-- The body of an update with the title and the slides of a deck. -/
def Deck.putBack (iso : Time → String) (d : Deck) : Val :=
  some (.obj [("title", .str d.row.title), ("slides", .arr (d.slides.map (Slide.toJson iso)))])

/-- The body of an update with what a response has returned. -/
def putBack (iso : Time → String) : Except Err Response → Val
  | .ok ⟨200, .deck d⟩ => d.putBack iso
  | _ => none

/-- The slide with an empty theme as an absent one. -/
def SlideBody.normal (b : SlideBody) : SlideBody := { b with themeChoice := b.themeChoice.filter (· ≠ "") }

def Content.normal (x : Content) : Content := ⟨x.title, x.slides.map SlideBody.normal⟩

theorem SlideBody.normal_normal (b : SlideBody) : b.normal.normal = b.normal := by
  simp [SlideBody.normal, Option.filter_filter]

theorem Content.normal_normal (x : Content) : x.normal.normal = x.normal := by
  simp [Content.normal, Multiset.map_map, SlideBody.normal_normal]

section PutBack
variable {iso : Time → String} {s : Slide} {d : Deck}

theorem textArg?_theme {t : Option String} (h : ∀ x, t = some x → storableText x = true) :
    textArg? (Js.or (some ((t.map Json.str).getD .null)) (some .null)) = .ok (t.filter (· ≠ "")) := by
  cases t with
  | none => rfl
  | some x =>
    by_cases hx : x = ""
    · subst hx
      rfl
    · have htruthy : truthy (some (.str x)) = true := by simpa [truthy] using hx
      have hfilter : (some x).filter (· ≠ "") = some x := by simp [hx]
      rw [Option.map_some, Option.getD_some, Js.or, if_pos htruthy, hfilter]
      show (textArg (some (.str x))).map some = _
      rw [textArg_eq_ok.mpr ⟨rfl, h x rfl⟩]
      rfl

/-- A filled slide is put back as it is. -/
theorem updateSlideData_toJson (iso : Time → String) (h : s.body.Filled) :
    ∃ d, updateSlideData (s.toJson iso) = some d ∧ d.check = .ok s.body.normal := by
  obtain ⟨hindex, ⟨hlayout, hstorableLayout⟩, ⟨hcontent, hstorable⟩, htheme⟩ := h
  have hlayout' : truthy (some (.str s.body.layout)) = true := by simpa [truthy] using hlayout
  refine ⟨_, rfl, check_eq_ok.mpr ⟨?_, ?_, ?_, ?_, textArg?_theme htheme⟩⟩
  · exact if_pos ⟨rfl, hindex⟩
  · show textArg (Js.or (some (.str s.body.layout)) _) = _
    rw [Js.or, if_pos hlayout']
    exact textArg_eq_ok.mpr ⟨rfl, hstorableLayout⟩
  · show storable ((Js.or (some s.body.contentJSON) _).getD _) = true
    rw [Js.or, if_pos hcontent]
    exact hstorable
  · show _ = (Js.or (some s.body.contentJSON) _).getD _
    rw [Js.or, if_pos hcontent]
    rfl

/-- Filled slides are put back as they are, whatever their number. -/
theorem slidesToInsert_toJson (iso : Time → String) {slides : List Slide} (h : ∀ s ∈ slides, s.body.Filled) :
    ∃ data, slidesToInsert (some (.arr (slides.map (Slide.toJson iso)))) = some data ∧
      (data.getD []).mapM SlideData.check = .ok (slides.map fun s => s.body.normal) := by
  have hall : ∃ data, (slides.map (Slide.toJson iso)).mapM updateSlideData = some data ∧
      data.mapM SlideData.check = .ok (slides.map fun s => s.body.normal) := by
    induction slides with
    | nil => exact ⟨[], rfl, rfl⟩
    | cons s slides ih =>
      obtain ⟨hs, hslides⟩ := List.forall_mem_cons.mp h
      obtain ⟨d, hd, hcheck⟩ := updateSlideData_toJson iso hs
      obtain ⟨data, hdata, hchecks⟩ := ih hslides
      refine ⟨d :: data, ?_, ?_⟩
      · simp [List.mapM_cons, hd, hdata]
      · simp [List.mapM_cons, hcheck, hchecks]
        rfl
  obtain ⟨data, hdata, hchecks⟩ := hall
  cases slides with
  | nil => exact ⟨none, rfl, rfl⟩
  | cons s slides =>
    refine ⟨some data, ?_, hchecks⟩
    rw [List.map_cons, slidesToInsert_cons, ← List.map_cons, hdata]
    rfl

/-- The save of a filled deck that is put back. -/
theorem save?_putBack {user : AuthUser} (hid : user.id ≠ "") (htitle : storableText d.row.title = true)
    (hslides : ∀ s ∈ d.slides, s.body.Filled) :
    save? user (d.putBack iso) = some ⟨some d.row.title, d.slides.map fun s => s.body.normal⟩ := by
  obtain ⟨data, hdata, hbodies⟩ := slidesToInsert_toJson iso hslides
  have hupdate : textUpdate (some (.str d.row.title)) = .ok (some d.row.title) := by
    show (textArg (some (.str d.row.title))).map some = _
    rw [textArg_eq_ok.mpr ⟨rfl, htitle⟩]
    rfl
  exact save?_eq_some.mpr ⟨_, _, data, rfl, rfl, hid, hupdate, hdata, hbodies⟩

end PutBack

/-! ### Rounds -/

/-- A read of the presentation and the save of what it returned, with what their calls are answered. -/
structure Round where
  read : Nat → World
  save : Nat → World

section Rounds
variable {env : Env} {iso : Time → String} {authorization : Option String} {id : String} {db db' db₀ : Db}

/-- `GET /api/presentations/:id`. -/
def Round.get (x : Round) (env : Env) (authorization : Option String) (id : String) (db : Db) :
    Prog.Ran Query Query.Answer Err (Db × Conn) Response :=
  serve env x.read ⟨authorization, .getPresentationById id⟩ db

/-- `PUT /api/presentations/:id` with what the `GET` returned. -/
def Round.put (x : Round) (env : Env) (iso : Time → String)
    (authorization : Option String) (id : String) (db : Db) :
    Prog.Ran Query Query.Answer Err (Db × Conn) Response :=
  serve env x.save ⟨authorization, .updatePresentation id (putBack iso (x.get env authorization id db).result)⟩
    (x.get env authorization id db).state.1

/-- Rounds one after another, and the answers to the two requests of each. The ids that a save draws are new. -/
inductive Autosaves (env : Env) (iso : Time → String) (authorization : Option String) (id : String) :
    Db → List (Except Err Response × Except Err Response) → Db → Prop
  | nil (db : Db) : Autosaves env iso authorization id db [] db
  | cons {db db' : Db} {answers : List (Except Err Response × Except Err Response)} (x : Round)
      (hfresh : ∀ n, FreshIds (x.get env authorization id db).state.1 (x.save n))
      (rest : Autosaves env iso authorization id (x.put env iso authorization id db).state.1 answers db') :
      Autosaves env iso authorization id db
        (((x.get env authorization id db).result, (x.put env iso authorization id db).result) :: answers) db'

/-- The answer reports the save. -/
def Accepted (r : Except Err Response) : Prop := ∃ p, r = .ok ⟨200, .presentation p⟩

variable {user : AuthUser} {p : Presentation}
  {answers : List (Except Err Response × Except Err Response)} {x : Round}

theorem user?_of_authenticate {e : Endpoint} (h : authenticate env authorization = .ok user) :
    (⟨authorization, e⟩ : Request).user? env = some user := by
  rw [Request.user?, h]

theorem Round.get_owner (x : Round) (huser : authenticate env authorization = .ok user) (hid : user.id ≠ "")
    (hp : db.presentations.find? id = some p) (howner : p.userId = user.id) :
    (x.get env authorization id db).result = .ok ⟨200, .deck ⟨p, byIndex (db.slidesOf id)⟩⟩ ∧
      (x.get env authorization id db).state.1 = db := by
  rw [Round.get, serve_getPresentationById (user?_of_authenticate huser) rfl hid hp howner]
  exact ⟨rfl, rfl⟩

/-- A save that is accepted leaves the other presentations as they were. -/
theorem deck?_updatePresentation {ws : Nat → World} {req : Request} {body : Val} (huser : req.user? env = some user)
    (hreq : req.endpoint = .updatePresentation id body) (h : Accepted (serve env ws req db).result) :
    ∀ y, y ≠ id → (serve env ws req db).state.1.deck? y = db.deck? y := by
  rw [serve_updatePresentation huser hreq] at h ⊢
  obtain ⟨pres, hpres⟩ := h
  obtain ⟨p₀, at_, t, slides, data, bodies, hp₀, -, -, rfl, -, -, -, hsaved⟩ :=
    wp_run ws 0 wp_updatePresentation pres hpres
  intro y hy
  refine hsaved.others y ?_
  rw [Presentation.patch_id, Table.key_of_find? (t := db.presentations) hp₀]
  exact hy

/-- What is put back is the content, with its empty themes as absent ones. -/
theorem applied_putBack (hp : db.presentations.find? id = some p) :
    (db.content? id).map (Save.apply ⟨some p.title, (byIndex (db.slidesOf id)).map fun s => s.body.normal⟩) =
      (db.content? id).map Content.normal := by
  rw [Db.content?, hp]
  refine congrArg some ?_
  have hslides : ((byIndex (db.slidesOf id)).map fun s => s.body.normal : Multiset SlideBody) =
      (((db.slidesOf id).map Slide.body : List SlideBody) : Multiset SlideBody).map SlideBody.normal := by
    rw [Multiset.map_coe, List.map_map]
    exact Multiset.coe_eq_coe.mpr ((byIndex_perm _).map _)
  simp only [Save.apply, Content.normal, Option.getD_some, hslides]

/-- One round: the save is accepted, normalises the content, and leaves the other presentations. -/
theorem Round.put_owner (hfilled : db.Filled) (huser : authenticate env authorization = .ok user)
    (hp : db.presentations.find? id = some p) (howner : p.userId = user.id)
    (hfresh : ∀ n, FreshIds (x.get env authorization id db).state.1 (x.save n)) :
    Accepted (x.put env iso authorization id db).result ∧
      (x.put env iso authorization id db).state.1.content? id = (db.content? id).map Content.normal ∧
      (∀ y, y ≠ id → (x.put env iso authorization id db).state.1.deck? y = db.deck? y) ∧
      ∃ p', (x.put env iso authorization id db).state.1.presentations.find? id = some p' ∧ p'.userId = user.id := by
  obtain ⟨htitle, howned⟩ := hfilled.presentations p (Table.mem_of_find? hp)
  have hid : user.id ≠ "" := howner ▸ howned
  obtain ⟨hget, hsame⟩ := x.get_owner huser hid hp howner
  rw [hsame] at hfresh
  unfold Round.put
  rw [hget, hsame]
  have hslides : ∀ s ∈ byIndex (db.slidesOf id), s.body.Filled := fun s hs =>
    hfilled.slides s (List.mem_filter.mp ((List.mem_insertionSort _).mp hs)).1
  have hsave : save? user (putBack iso (.ok ⟨200, .deck ⟨p, byIndex (db.slidesOf id)⟩⟩)) =
      some ⟨some p.title, (byIndex (db.slidesOf id)).map fun s => s.body.normal⟩ := save?_putBack hid htitle hslides
  obtain ⟨haccepted, hcontent, hrow⟩ := serve_save (user?_of_authenticate huser) rfl hsave hp howner hfresh
  exact ⟨haccepted, hcontent.trans (applied_putBack hp),
    deck?_updatePresentation (user?_of_authenticate huser) rfl haccepted, hrow⟩

theorem Round.put_filled (hfilled : db.Filled) : (x.put env iso authorization id db).state.1.Filled :=
  serve_filled x.save (serve_filled x.read hfilled)

/-- Any number of rounds can be made. -/
theorem exists_autosaves (n : Nat) :
    ∀ db, ∃ answers db', answers.length = n ∧ Autosaves env iso authorization id db answers db' := by
  induction n with
  | zero => exact fun db => ⟨[], db, rfl, .nil db⟩
  | succ n ih =>
    intro db
    obtain ⟨w, hw⟩ := exists_freshIds (serve env (world 0) ⟨authorization, .getPresentationById id⟩ db).state.1
    obtain ⟨answers, db', hlen, rest⟩ := ih (Round.put ⟨world 0, fun _ => w⟩ env iso authorization id db).state.1
    exact ⟨_ :: answers, db', congrArg (· + 1) hlen, .cons ⟨world 0, fun _ => w⟩ (fun _ => hw) rest⟩

/-- Whatever its owner has read and put back, once or again and again: the presentation has the content it had
    before the first round, except for empty themes, and the other presentations are as they were. -/
theorem autosave_idempotent (hseed : db₀.Seeded) (hreach : Reaches env db₀ db)
    (hp : db.presentations.find? id = some p) (huser : authenticate env authorization = .ok user)
    (howner : p.userId = user.id) (run : Autosaves env iso authorization id db answers db') :
    (∀ a ∈ answers, (∃ deck, a.1 = .ok ⟨200, .deck deck⟩) ∧ Accepted a.2) ∧
      (db'.content? id).map Content.normal = (db.content? id).map Content.normal ∧
      (answers ≠ [] → db'.content? id = (db.content? id).map Content.normal) ∧
      ∀ y, y ≠ id → db'.deck? y = db.deck? y := by
  have hfilled := hreach.filled hseed
  clear hreach
  induction run generalizing p with
  | nil db => exact ⟨fun _ ha => (by cases ha), rfl, fun h => absurd rfl h, fun _ _ => rfl⟩
  | @cons db db' answers x hfresh rest ih =>
    have hid : user.id ≠ "" := howner ▸ (hfilled.presentations p (Table.mem_of_find? hp)).2
    obtain ⟨hget, -⟩ := x.get_owner huser hid hp howner
    obtain ⟨haccepted, hcontent, hothers, p', hp', howner'⟩ := x.put_owner hfilled huser hp howner hfresh
    obtain ⟨hanswers, hnormal, hlast, hrest⟩ := ih hp' howner' (Round.put_filled hfilled)
    have hagain : ((db.content? id).map Content.normal).map Content.normal =
      (db.content? id).map Content.normal := by
      rw [Option.map_map]
      exact congrArg (Option.map · _) (funext Content.normal_normal)
    rw [hcontent, hagain] at hnormal
    refine ⟨?_, hnormal, fun _ => ?_, fun y hy => (hrest y hy).trans (hothers y hy)⟩
    · rw [List.forall_mem_cons]
      exact ⟨⟨⟨_, hget⟩, haccepted⟩, hanswers⟩
    · rw [hcontent, hagain] at hlast
      cases rest with
      | nil => exact hcontent
      | cons => exact hlast (List.cons_ne_nil _ _)

end Rounds

section Example

/-- A deck of `alice` with a themed slide and one that brings nothing along. -/
def alicesDeck : Db :=
  (serve office (world 0) (aliceRequest (.createPresentation (some (.obj [("topic", .str "Roadmap"), ("slides",
    .arr [.obj [("themeChoice", .str "dark"), ("contentJSON", .obj [("title", .str "Goals")])], .obj []])]))))
      officeDb).state.1

theorem officeDb_seeded : officeDb.Seeded := ⟨rfl, rfl, fun _ hs => by cases hs⟩

theorem alices_deck_autosaved : ∃ answers db', answers.length = 2 ∧
    Autosaves office (fun _ => "1970-01-01T00:00:00.000Z") (some "Bearer alice")
      (issue 2 0) alicesDeck answers db' ∧
    (alicesDeck.content? (issue 2 0)).map (·.slides) =
      some {⟨0, "hero", .obj [("title", .str "Goals")], some "dark"⟩, ⟨1, "hero", .obj [], none⟩} ∧
    (∀ a ∈ answers, (∃ deck, a.1 = .ok ⟨200, .deck deck⟩) ∧ Accepted a.2) ∧
      (db'.content? (issue 2 0)).map Content.normal = (alicesDeck.content? (issue 2 0)).map Content.normal ∧
      (answers ≠ [] → db'.content? (issue 2 0) = (alicesDeck.content? (issue 2 0)).map Content.normal) ∧
      ∀ y, y ≠ issue 2 0 → db'.deck? y = alicesDeck.deck? y := by
  obtain ⟨answers, db', hlen, run⟩ := exists_autosaves 2 alicesDeck
  have hp : alicesDeck.presentations.find? (issue 2 0) = some ⟨issue 2 0, "alice", "Roadmap", 0, 0⟩ := by
    decide +kernel
  have hslides : (alicesDeck.slidesOf (issue 2 0)).map Slide.body =
      [⟨0, "hero", .obj [("title", .str "Goals")], some "dark"⟩, ⟨1, "hero", .obj [], none⟩] := by decide +kernel
  have huser : authenticate office (some "Bearer alice") = .ok alice := by rfl
  refine ⟨answers, db', hlen, run, ?_, autosave_idempotent officeDb_seeded
    (.request .start (world 0) _) hp huser rfl run⟩
  rw [Db.content?, hp, hslides]
  rfl

end Example

end Slideo
