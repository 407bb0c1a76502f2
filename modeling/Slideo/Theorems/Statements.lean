import Slideo.Server

/-! What the statements of `Slideo.Prisma` check and change: one inversion lemma for each of them, and the
    kinds of changes that a call can make (`Issues`). -/

namespace Slideo
open Js

theorem except_bind_eq_ok {ε α β : Type} {x : Except ε α} {f : α → Except ε β} {b : β} :
    (x >>= f) = .ok b ↔ ∃ a, x = .ok a ∧ f a = .ok b := by
  cases x with
  | error e => simp [bind, Except.bind]
  | ok a => simp [bind, Except.bind]

theorem except_pure_eq_ok {ε α : Type} {a b : α} : (pure a : Except ε α) = .ok b ↔ a = b := by
  simp [pure, Except.pure]

theorem require_eq_ok {p : Prop} [Decidable p] {e : Err} {u : Unit} : require p e = .ok u ↔ p := by
  unfold require
  split <;> simp_all

theorem except_map_eq_ok {ε α β : Type} {x : Except ε α} {f : α → β} {b : β} :
    x.map f = .ok b ↔ ∃ a, x = .ok a ∧ f a = b := by
  cases x with
  | error e => simp [Except.map]
  | ok a => simp [Except.map]

theorem textArg_ok {v : Val} {s : String} (h : textArg v = .ok s) : v = some (.str s) ∧ storableText s = true := by
  unfold textArg at h
  split at h
  · split at h
    · rename_i hs
      cases h
      exact ⟨rfl, hs⟩
    · cases h
  · cases h

theorem textArg_eq_ok {v : Val} {s : String} : textArg v = .ok s ↔ v = some (.str s) ∧ storableText s = true := by
  refine ⟨textArg_ok, ?_⟩
  rintro ⟨rfl, hs⟩
  exact if_pos hs

theorem check_eq_ok {d : SlideData} {b : SlideBody} : d.check = .ok b ↔
    intArg d.index = .ok b.index ∧ textArg d.layout = .ok b.layout ∧ storable d.contentJSON = true ∧
      b.contentJSON = d.contentJSON ∧ textArg? d.themeChoice = .ok b.themeChoice := by
  obtain ⟨index, layout, contentJSON, themeChoice⟩ := b
  simp only [SlideData.check, except_bind_eq_ok, except_pure_eq_ok, require_eq_ok, SlideBody.mk.injEq]
  constructor
  · rintro ⟨_, hindex, _, hlayout, _, hstorable, _, htheme, rfl, rfl, rfl, rfl⟩
    exact ⟨hindex, hlayout, hstorable, rfl, htheme⟩
  · rintro ⟨hindex, hlayout, hstorable, rfl, htheme⟩
    exact ⟨_, hindex, _, hlayout, (), hstorable, _, htheme, rfl, rfl, rfl, rfl⟩

section Inversion
variable {w : World} {snap db : Db} {ws : List Write}

theorem createDeck_ok {userId : String} {title : Val} {slides : List SlideData} {deck : Deck}
    (h : createDeck w db userId title slides = .ok (deck, ws)) :
    ∃ t bodies, textArg title = .ok t ∧ slides.mapM SlideData.check = .ok bodies ∧ userId ∈ db.users.keys ∧
      w.uuid 0 ∉ db.presentations.keys ∧ deck.row = ⟨w.uuid 0, userId, t, w.now, w.now⟩ ∧
      deck.slides = slideRows (w.uuid 0) w.now (fun i => w.uuid (i + 1)) bodies ∧
      ((deck.slides.map (·.id)).Nodup ∧ ∀ s ∈ deck.slides, s.id ∉ db.slides.keys) ∧
      ws = .insertPresentation deck.row :: deck.slides.map .insertSlide := by
  simp only [createDeck, freshSlides, except_bind_eq_ok, require_eq_ok, except_pure_eq_ok, Prod.mk.injEq] at h
  obtain ⟨t, ht, bodies, hb, _, huser, _, hkey, _, hslides, rfl, rfl⟩ := h
  exact ⟨t, bodies, ht, hb, huser, hkey, rfl, rfl, hslides, rfl⟩

theorem createSlides_ok {id : String} {data : List SlideData} {u : Unit}
    (h : createSlides w db id data = .ok (u, ws)) :
    ∃ bodies, data.mapM SlideData.check = .ok bodies ∧ id ∈ db.presentations.keys ∧
      (((slideRows id w.now w.uuid bodies).map (·.id)).Nodup ∧
        ∀ s ∈ slideRows id w.now w.uuid bodies, s.id ∉ db.slides.keys) ∧
      ws = (slideRows id w.now w.uuid bodies).map .insertSlide := by
  simp only [createSlides, freshSlides, except_bind_eq_ok, require_eq_ok, except_pure_eq_ok, Prod.mk.injEq] at h
  obtain ⟨bodies, hb, _, hid, _, hslides, -, rfl⟩ := h
  exact ⟨bodies, hb, hid, hslides, rfl⟩

theorem createShareToken_ok {id token permission : String} {email : Val} {expiresAt : Option Time} {u : Unit}
    (h : createShareToken w db id token email permission expiresAt = .ok (u, ws)) :
    ∃ e t, textArg email = .ok e ∧ expiresAt = some t ∧ id ∈ db.presentations.keys ∧
    w.uuid 0 ∉ db.shareTokens.keys ∧
      db.shareToken? token = none ∧ ws = [.insertShareToken
        ⟨w.uuid 0, id, token, e, permission, t, false, w.now⟩] := by
  cases expiresAt with
  | none => simp [createShareToken, except_bind_eq_ok, throw, throwThe, MonadExceptOf.throw] at h
  | some t =>
    simp only [createShareToken, except_bind_eq_ok, require_eq_ok, except_pure_eq_ok, Prod.mk.injEq] at h
    obtain ⟨e, he, p, hp, _, hid, _, hkey, _, htoken, -, rfl⟩ := h
    obtain ⟨hp, -⟩ := textArg_ok hp
    cases hp
    exact ⟨e, t, he, rfl, hid, hkey, htoken, rfl⟩

theorem deletePresentationRow_ok {id : String} {u : Unit} (h : deletePresentationRow snap db id = .ok (u, ws)) :
    id ∈ snap.presentations.keys ∧ id ∈ db.presentations.keys ∧ db.slidesOf id = [] ∧ db.tokensOf id = [] ∧
      ws = [.deletePresentation id] := by
  simp only [deletePresentationRow, except_bind_eq_ok, require_eq_ok, except_pure_eq_ok, Prod.mk.injEq] at h
  obtain ⟨_, ⟨hsnap, hdb⟩, _, hslides, _, htokens, -, rfl⟩ := h
  exact ⟨hsnap, hdb, hslides, htokens, rfl⟩

theorem updatePresentationRow_ok {id : String} {title : Val} {p : Presentation}
    (h : updatePresentationRow w snap db id title = .ok (p, ws)) :
    ∃ t p₀, textUpdate title = .ok t ∧ id ∈ snap.presentations.keys ∧ db.presentations.find? id = some p₀ ∧
      p = p₀.patch w.now t ∧ ws = [.patchPresentation id w.now t] := by
  simp only [updatePresentationRow, except_bind_eq_ok, require_eq_ok] at h
  obtain ⟨t, ht, _, hsnap, h⟩ := h
  cases hp : db.presentations.find? id with
  | none => rw [hp] at h; cases h
  | some p₀ =>
    rw [hp] at h
    simp only [except_pure_eq_ok, Prod.mk.injEq] at h
    exact ⟨t, p₀, ht, hsnap, rfl, h.1.symm, h.2.symm⟩

theorem updateTemplateRow_ok {id : String} {name category description themeId : Val} {t : Template}
    (h : updateTemplateRow w snap db id name category description themeId = .ok (t, ws)) :
    ∃ patch t₀, textUpdate name = .ok patch.name ∧ textUpdate category = .ok patch.category ∧
      textUpdate description = .ok patch.description ∧ textUpdate themeId = .ok patch.themeId ∧
      db.templates.find? id = some t₀ ∧ ws = [.patchTemplate id w.now patch] := by
  simp only [updateTemplateRow, except_bind_eq_ok, require_eq_ok] at h
  obtain ⟨n, hn, c, hc, d, hd, th, hth, _, -, h⟩ := h
  cases hp : db.templates.find? id with
  | none => rw [hp] at h; cases h
  | some t₀ =>
    rw [hp] at h
    simp only [except_pure_eq_ok, Prod.mk.injEq] at h
    exact ⟨⟨n, c, d, th⟩, t₀, hn, hc, hd, hth, rfl, h.2.symm⟩

theorem updateUserRow_ok {id : String} {patch : UserPatch} {u : Unit}
    (h : updateUserRow w snap db id patch = .ok (u, ws)) :
    id ∈ snap.users.keys ∧ id ∈ db.users.keys ∧ ws = [.patchUser id w.now patch] := by
  simp only [updateUserRow, except_bind_eq_ok, require_eq_ok, except_pure_eq_ok, Prod.mk.injEq] at h
  obtain ⟨_, ⟨hsnap, hdb⟩, -, rfl⟩ := h
  exact ⟨hsnap, hdb, rfl⟩

theorem createImportedPpt_ok {userId fileName fileUrl : String} {i : ImportedPpt}
    (h : createImportedPpt w db userId fileName fileUrl = .ok (i, ws)) :
    i = ⟨w.uuid 0, userId, fileName, fileUrl, w.now⟩ ∧ i.id ∉ db.importedPpts.keys ∧
    ws = [.insertImportedPpt i] := by
  simp only [createImportedPpt, except_bind_eq_ok, require_eq_ok, except_pure_eq_ok, Prod.mk.injEq] at h
  obtain ⟨_, -, _, hkey, rfl, rfl⟩ := h
  exact ⟨rfl, hkey, rfl⟩

end Inversion

/-- The foreign keys of the migrations: slides and share tokens refer to presentations that exist. -/
structure Db.Linked (db : Db) : Prop where
  slides : ∀ s ∈ db.slides.rows, s.presentationId ∈ db.presentations.keys
  shareTokens : ∀ t ∈ db.shareTokens.rows, t.presentationId ∈ db.presentations.keys

theorem shareToken?_eq_some {db : Db} {token : String} {t : ShareToken} (h : db.shareToken? token = some t) :
    t ∈ db.shareTokens.rows ∧ t.token = token := by
  refine ⟨List.mem_of_find?_eq_some h, ?_⟩
  have hfound := List.find?_some h
  exact beq_iff_eq.mp hfound

/-! ### The changes of a call -/

theorem mem_patchPresentation {db : Db} {id : String} {at_ : Time} {title : Option String} {p : Presentation} :
    p ∈ (db.apply (.patchPresentation id at_ title)).presentations.rows ↔
      ∃ r ∈ db.presentations.rows, p = if r.id = id then r.patch at_ title else r :=
  Table.mem_modify (Presentation.patch_id at_ title)

theorem find?_patchUser (db : Db) (id x : String) (at_ : Time) (patch : UserPatch) :
    (db.apply (.patchUser id at_ patch)).users.find? x =
      (db.users.find? x).map fun r => if r.id = id then patch.apply at_ r else r :=
  Table.find?_modify (patch.apply_id at_ ·)

theorem find?_patchUser_self {db : Db} {id : String} {at_ : Time} {patch : UserPatch} {row : User}
    (hrow : db.users.find? id = some row) :
    (db.apply (.patchUser id at_ patch)).users.find? id = some (patch.apply at_ row) := by
  rw [find?_patchUser, hrow, Option.map_some, if_pos (Table.key_of_find? hrow)]

/-- The changes that a call can make. Calls that are not listed make none. -/
def Issues (w : World) : Query → Write → Prop
  | .userUpdate id patch, y => y = .patchUser id w.now patch
  | .presentationCreate userId _ _, y =>
    (∃ p, y = .insertPresentation p ∧ p.userId = userId ∧ p.id = w.uuid 0) ∨
      ∃ s, y = .insertSlide s ∧ s.presentationId = w.uuid 0
  | .presentationUpdate id _, y => ∃ title, y = .patchPresentation id w.now title
  | .presentationDelete id, y => y = .deletePresentation id
  | .slideDeleteMany id, y => ∃ sid, y = .deleteSlide id sid
  | .slideCreateMany id _, y => ∃ s, y = .insertSlide s ∧ s.presentationId = id
  | .shareTokenCreate id _ _ _ _, y => ∃ t, y = .insertShareToken t ∧ t.presentationId = id
  | .templateUpdate id _ _ _ _, y => ∃ patch, y = .patchTemplate id w.now patch
  | .importedPptCreate _ _ _, y => ∃ i, y = .insertImportedPpt i
  | _, _ => False

/-- Each change of the users, each new token and each deletion has one call behind it. -/
theorem Issues.source {w : World} {q : Query} {y : Write} (h : Issues w q y) :
    match y with
    | .insertUser _ => False
    | .patchUser id _ patch => q = .userUpdate id patch
    | .deletePresentation id => q = .presentationDelete id
    | .insertShareToken _ => ∃ id token email permission expiresAt,
      q = .shareTokenCreate id token email permission expiresAt
    | _ => True := by
  cases q with
  | userUpdate _ _ | presentationDelete _ =>
    obtain rfl := h
    rfl
  | presentationCreate _ _ _ => rcases h with ⟨_, rfl, -⟩ | ⟨_, rfl, -⟩ <;> trivial
  | presentationUpdate _ _ | slideDeleteMany _ | templateUpdate _ _ _ _ _ | importedPptCreate _ _ _ =>
    obtain ⟨_, rfl⟩ := h
    trivial
  | slideCreateMany _ _ =>
    obtain ⟨_, rfl, -⟩ := h
    trivial
  | shareTokenCreate id token email permission expiresAt =>
    obtain ⟨_, rfl, -⟩ := h
    exact ⟨id, token, email, permission, expiresAt, rfl⟩
  | _ => exact h.elim

theorem mem_slideRows {id : String} {now : Time} {ids : Nat → String} {bodies : List SlideBody} {s : Slide}
    (h : s ∈ slideRows id now ids bodies) : s.presentationId = id ∧ ∃ i, s.id = ids i := by
  obtain ⟨i, hi, rfl⟩ := List.mem_mapIdx.mp h
  exact ⟨rfl, i, rfl⟩

/-- New slides change no other table. -/
theorem applyAll_insertSlides {rows : List Slide} : ∀ {db : Db}, db.applyAll (rows.map .insertSlide) =
    { db with slides := (db.applyAll (rows.map .insertSlide)).slides } := by
  induction rows with
  | nil => exact rfl
  | cons s rows ih =>
    intro db
    rw [List.map_cons, Db.applyAll_cons, ih]
    rfl

/-- A new presentation comes last. -/
theorem presentations_createDeck {w : World} {db : Db} {userId : String} {title : Val}
    {slides : List SlideData} {deck : Deck} {ws : List Write}
    (h : createDeck w db userId title slides = .ok (deck, ws)) :
    deck.row.id ∉ db.presentations.keys ∧ deck.row.userId = userId ∧
      (db.applyAll ws).presentations.rows = db.presentations.rows ++ [deck.row] := by
  obtain ⟨t, bodies, -, -, -, hkey, hrow, -, -, rfl⟩ := createDeck_ok h
  have hid : deck.row.id ∉ db.presentations.keys := by
    rw [hrow]
    exact hkey
  refine ⟨hid, by rw [hrow], ?_⟩
  rw [Db.applyAll_cons, applyAll_insertSlides]
  exact Table.insert_rows hid

theorem exec_issues {w : World} {snap db : Db} {q : Query} {a : q.Answer} {ws : List Write}
    (h : exec w snap db q = .ok (a, ws)) : ∀ y ∈ ws, Issues w q y := by
  intro y hy
  cases q with
  | clock | randomUUID | begin | commit | rollback | templateFindMany => cases h; cases hy
  | userFindUnique _ | presentationFindUnique _ | presentationFindFirst _ _ | shareTokenFindUnique _
  | importedPptFindFirst _ _ | importedPptFindMany _ => cases h; cases hy
  | generateContent _ | fetchArchive _ | uploadRaw _ | presentationFindMany _ _ _ =>
    obtain ⟨_, -, hws⟩ := except_map_eq_ok.mp h
    cases hws
    cases hy
  | templateFindUnique _ =>
    obtain ⟨_, -, hws⟩ := except_bind_eq_ok.mp h
    cases hws
    cases hy
  | userUpdate id patch =>
    obtain ⟨-, -, rfl⟩ := updateUserRow_ok h
    exact List.mem_singleton.mp hy
  | presentationCreate userId title slides =>
    obtain ⟨t, bodies, -, -, -, -, hrow, hslides, -, rfl⟩ := createDeck_ok h
    rcases List.mem_cons.mp hy with rfl | hy
    · exact Or.inl ⟨_, rfl, by rw [hrow], by rw [hrow]⟩
    · obtain ⟨s, hs, rfl⟩ := List.mem_map.mp hy
      rw [hslides] at hs
      exact Or.inr ⟨s, rfl, (mem_slideRows hs).1⟩
  | presentationUpdate id title =>
    obtain ⟨t, p₀, -, -, -, -, rfl⟩ := updatePresentationRow_ok h
    exact ⟨t, List.mem_singleton.mp hy⟩
  | presentationDelete id =>
    obtain ⟨-, -, -, -, rfl⟩ := deletePresentationRow_ok h
    exact List.mem_singleton.mp hy
  | slideDeleteMany id =>
    cases h
    obtain ⟨s, -, rfl⟩ := List.mem_map.mp hy
    exact ⟨s.id, rfl⟩
  | slideCreateMany id data =>
    obtain ⟨bodies, -, -, -, rfl⟩ := createSlides_ok h
    obtain ⟨s, hs, rfl⟩ := List.mem_map.mp hy
    exact ⟨s, rfl, (mem_slideRows hs).1⟩
  | shareTokenCreate id token email permission expiresAt =>
    obtain ⟨e, t, -, -, -, -, -, rfl⟩ := createShareToken_ok h
    exact ⟨_, List.mem_singleton.mp hy, rfl⟩
  | templateUpdate id name category description themeId =>
    obtain ⟨patch, -, -, -, -, -, -, rfl⟩ := updateTemplateRow_ok h
    exact ⟨patch, List.mem_singleton.mp hy⟩
  | importedPptCreate userId fileName fileUrl =>
    obtain ⟨-, -, rfl⟩ := createImportedPpt_ok h
    exact ⟨a, List.mem_singleton.mp hy⟩

/-! ### Calls on a connection -/

section Calls
variable {w : World} {db : Db} {c : Conn} {q : Query}

theorem newWrites_issues : ∀ y ∈ newWrites w db c q, Issues w q y := by
  intro y hy
  unfold newWrites at hy
  split at hy
  · rename_i h
    exact exec_issues h y hy
  · cases hy

/-- A statement, as against the calls that open and end a transaction. -/
def Query.IsStatement : Query → Prop
  | .begin | .commit | .rollback => False
  | _ => True

theorem perform_eq (hq : q.IsStatement) (c : Conn) :
    perform w db c q = match exec w (c.start db q) (c.view db) q with
      | .error e => (.error e, db, { tx := c.tx })
      | .ok (a, ws) => match c.tx with
        | none => (.ok a, db.applyAll ws, {})
        | some ws' => (.ok a, db, { tx := some (ws' ++ ws) }) := by
  cases q <;> first | rfl | exact hq.elim

/-- A statement keeps its changes in the open transaction, or commits them at once. -/
theorem perform_statement (hb : q ≠ .begin) (hc : q ≠ .commit) (hr : q ≠ .rollback) :
    (perform w db c q).2 = match c.tx with
      | none => (db.applyAll (newWrites w db c q), {})
      | some ws => (db, { tx := some (ws ++ newWrites w db c q) }) := by
  obtain ⟨tx, snapshot⟩ := c
  have h : (perform w db ⟨tx, snapshot⟩ q) =
      match exec w (Conn.start ⟨tx, snapshot⟩ db q) (Conn.view ⟨tx, snapshot⟩ db) q with
      | .error e => (.error e, db, { tx := tx })
      | .ok (a, ws) => match tx with
        | none => (.ok a, db.applyAll ws, {})
        | some ws' => (.ok a, db, { tx := some (ws' ++ ws) }) := by
    cases q <;> first | rfl | contradiction
  rw [h]
  unfold newWrites
  cases exec w (Conn.start ⟨tx, snapshot⟩ db q) (Conn.view ⟨tx, snapshot⟩ db) q with
  | error e => cases tx <;> simp
  | ok r => cases tx <;> rfl

end Calls

/-! ### Steps of the server -/

section Steps
variable {q : Query} {r : Except Err q.Answer} {s s' : Store} {others : List Conn} {c c' : Conn}

/-- A statement outside a transaction fails and changes nothing, or commits its changes at once. -/
theorem Act.outside (h : Act s others c q r s' c') (hq : q.IsStatement) (htx : c.tx = none) :
    c'.tx = none ∧ ((∃ e, r = .error e ∧ s'.db = s.db) ∨
      ∃ w snap a ws, exec w snap s.db q = .ok (a, ws) ∧ (q.locksRows = false → snap = s.db) ∧ r = .ok a ∧
        s'.db = s.db.applyAll ws) := by
  have hview : ∀ db, c.view db = db := by
    intro db
    rw [Conn.view, htx]
    rfl
  rcases h.inv with ⟨w, -, -, rfl, rfl, rfl⟩ | ⟨rfl, rfl, rfl⟩
  · rw [perform_eq hq]
    cases hexec : exec w (c.start s.db q) (c.view s.db) q with
    | error e => exact ⟨htx, Or.inl ⟨e, rfl, rfl⟩⟩
    | ok out =>
      obtain ⟨a, ws⟩ := out
      rw [hview] at hexec
      rw [htx]
      refine ⟨rfl, Or.inr ⟨w, _, a, ws, hexec, fun hlock => ?_, rfl, rfl⟩⟩
      rw [Conn.start, hlock, hview]
      rfl
  · refine ⟨?_, Or.inl ⟨_, rfl, rfl⟩⟩
    cases q <;> first | exact htx | exact hq.elim

/-- A statement of an open transaction fails, or adds its changes to those that are pending. -/
theorem Act.inside {ws : List Write} (h : Act s others c q r s' c') (hq : q.IsStatement) (htx : c.tx = some ws) :
    s'.db = s.db ∧ ((∃ e, r = .error e ∧ c' = { tx := some ws }) ∨
      ∃ w a ws', exec w (c.start s.db q) (c.view s.db) q = .ok (a, ws') ∧ r = .ok a ∧
      c' = { tx := some (ws ++ ws') } ∧
        ∀ d ∈ others, ∀ x ∈ d.tx.getD [], ∀ y ∈ ws', x.conflicts y = false) := by
  rcases h.inv with ⟨w, -, hun, rfl, rfl, rfl⟩ | ⟨rfl, rfl, rfl⟩
  · rw [perform_eq hq]
    unfold Unblocked newWrites at hun
    cases hexec : exec w (c.start s.db q) (c.view s.db) q with
    | error e =>
      rw [htx]
      exact ⟨rfl, Or.inl ⟨e, rfl, rfl⟩⟩
    | ok out =>
      obtain ⟨a, ws'⟩ := out
      rw [hexec] at hun
      rw [htx]
      exact ⟨rfl, Or.inr ⟨w, a, ws', hexec, rfl, rfl, hun⟩⟩
  · refine ⟨rfl, Or.inl ⟨_, rfl, ?_⟩⟩
    cases q <;> first | exact hq.elim | exact congrArg (Conn.mk · none) htx

end Steps

end Slideo
