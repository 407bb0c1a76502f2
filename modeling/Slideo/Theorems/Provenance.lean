import Slideo.Theorems.Removals

/-! Where what a response shows comes from. In every interleaving a response shows a deck only to the user who
    created it or to somebody with a link that this user gave for it; imports and the usage are shown to
    their own user. -/

namespace Slideo
open Js Interleave

/-! ### Origins on the shelf -/

/-- `u` brought the deck `id`: it was there at the start, or an operation created it. -/
def Origin (decks : String → Option Entry) (ops : List DeckOp) (id u : String) : Prop :=
  (∃ e, decks id = some e ∧ e.owner = u) ∨ ∃ content, .create id u content ∈ ops

/-- `u` gave the link `g` for the deck `id`. -/
def Gave (decks : String → Option Entry) (ops : List DeckOp) (id u : String) (g : Grant) : Prop :=
  (∃ e, decks id = some e ∧ e.owner = u ∧ g ∈ e.links) ∨ .share id u g ∈ ops

section Origins
variable {s s' : Shelf} {id u u' : String} {e : Entry} {g : Grant} {o : DeckOp} {ops : List DeckOp}

/-- A deck after an operation has its owner and its links from before or from the operation. -/
theorem shelf_origin (h : shelf.apply s o = some s') (he : s'.decks id = some e) :
    Origin s.decks [o] id e.owner ∧ ∀ g ∈ e.links, Gave s.decks [o] id e.owner g := by
  have old : s.decks id = some e → Origin s.decks [o] id e.owner ∧ ∀ g ∈ e.links,
    Gave s.decks [o] id e.owner g := fun h =>
    ⟨Or.inl ⟨e, h, rfl⟩, fun g hg => Or.inl ⟨e, h, rfl, hg⟩⟩
  cases o with
  | create x owner content =>
    simp only [shelf] at h
    split at h
    · cases h
    cases h
    by_cases hid : id = x
    · subst hid
      dsimp only at he
      rw [Function.update_self] at he
      cases he
      exact ⟨Or.inr ⟨content, List.mem_singleton_self _⟩, fun g hg => absurd hg (Multiset.notMem_zero g)⟩
    · dsimp only at he
      rw [Function.update_of_ne hid] at he
      exact old he
  | save x owner save =>
    obtain ⟨e₀, e', he₀, howner, hf, rfl⟩ := Shelf.onDeck_eq_some.mp h
    by_cases hid : id = x
    · subst hid
      cases hf
      dsimp only at he
      rw [Function.update_self] at he
      cases he
      exact ⟨Or.inl ⟨e₀, he₀, rfl⟩, fun g hg => Or.inl ⟨e₀, he₀, rfl, hg⟩⟩
    · dsimp only at he
      rw [Function.update_of_ne hid] at he
      exact old he
  | remove x owner =>
    obtain ⟨e₀, e', he₀, howner, hf, rfl⟩ := Shelf.onDeck_eq_some.mp h
    by_cases hid : id = x
    · subst hid
      dsimp only at he
      rw [Function.update_self] at he
      split at hf
      · cases hf
        cases he
      · cases hf
    · dsimp only at he
      rw [Function.update_of_ne hid] at he
      exact old he
  | share x owner grant =>
    obtain ⟨e₀, e', he₀, rfl, hf, rfl⟩ := Shelf.onDeck_eq_some.mp h
    by_cases hid : id = x
    · subst hid
      cases hf
      dsimp only at he
      rw [Function.update_self] at he
      cases he
      refine ⟨Or.inl ⟨e₀, he₀, rfl⟩, fun g hg => ?_⟩
      rcases Multiset.mem_cons.mp hg with rfl | hg
      · exact Or.inr (List.mem_singleton_self _)
      · exact Or.inl ⟨e₀, he₀, rfl, hg⟩
    · dsimp only at he
      rw [Function.update_of_ne hid] at he
      exact old he

/-- Every deck of a shelf was brought by its owner, who gave all its links. -/
theorem shelf_run_origin {ops : List DeckOp} : ∀ {s : Shelf}, shelf.run s ops = some s' → s'.decks id = some e →
    Origin s.decks ops id e.owner ∧ ∀ g ∈ e.links, Gave s.decks ops id e.owner g := by
  induction ops with
  | nil =>
    intro s h he
    cases h
    exact ⟨Or.inl ⟨e, he, rfl⟩, fun g hg => Or.inl ⟨e, he, rfl, hg⟩⟩
  | cons o ops ih =>
    intro s h he
    obtain ⟨t, ht, hrest⟩ := Object.run_cons h
    obtain ⟨horigin, hgave⟩ := ih hrest he
    refine ⟨?_, fun g hg => ?_⟩
    · rcases horigin with ⟨e', he', howner⟩ | ⟨content, hcreate⟩
      · rw [← howner]
        rcases (shelf_origin ht he').1 with hold | ⟨content, hcreate⟩
        · exact Or.inl hold
        · exact Or.inr ⟨content, List.mem_cons.mpr (Or.inl (List.mem_singleton.mp hcreate))⟩
      · exact Or.inr ⟨content, List.mem_cons_of_mem _ hcreate⟩
    · rcases hgave g hg with ⟨e', he', howner, hlink⟩ | hshare
      · rw [← howner]
        rcases (shelf_origin ht he').2 g hlink with hold | hshare
        · exact Or.inl hold
        · exact Or.inr (List.mem_cons.mpr (Or.inl (List.mem_singleton.mp hshare)))
      · exact Or.inr (List.mem_cons_of_mem _ hshare)

/-- An id that was given is not created again. -/
theorem shelf_not_created {ops : List DeckOp} (hid : id ∈ s.used) (h : shelf.run s ops = some s') :
    ∀ o ∈ ops, ¬ ∃ u content, o = .create id u content := by
  refine Object.run_avoids (P := fun s => id ∈ s.used) (fun s o s' hid ho => ?_) hid h
  rcases shelf_inv ho with ⟨owner, content, hcreate, hnew, hused, -⟩ | ⟨hsome, hused, -⟩
  · refine ⟨hused ▸ Set.mem_insert_of_mem _ hid, ?_⟩
    rintro ⟨u, content', rfl⟩
    exact hnew hid
  · refine ⟨hused ▸ hid, ?_⟩
    rintro ⟨u, content', rfl⟩
    simp only [shelf] at ho
    split at ho
    · cases ho
    · contradiction

/-- A deck is brought once. -/
theorem origin_unique (hgiven : ∀ id, (s.decks id).isSome = true → id ∈ s.used) (h : shelf.run s ops = some s')
    (hu : Origin s.decks ops id u) (hu' : Origin s.decks ops id u') : u = u' := by
  have hthere : ∀ {e : Entry}, s.decks id = some e → ∀ u content, .create id u content ∉ ops := by
    intro e he u content hmem
    exact shelf_not_created (hgiven id (by rw [he]; rfl)) h _ hmem ⟨u, content, rfl⟩
  rcases hu with ⟨e, he, rfl⟩ | ⟨content, hcreate⟩ <;> rcases hu' with ⟨e', he', rfl⟩ | ⟨content', hcreate'⟩
  · rw [Option.some.inj (he.symm.trans he')]
  · exact absurd hcreate' (hthere he u' content')
  · exact absurd hcreate (hthere he' u content)
  · have hsame := Object.run_once (fun o => ∃ u content, o = .create id u content)
      (fun s o t ops s' ho honly hrest => ?_) hcreate hcreate' ⟨u, content, rfl⟩ ⟨u', content', rfl⟩ h
    · cases hsame
      rfl
    · obtain ⟨u, content, rfl⟩ := honly
      simp only [shelf] at ho
      split at ho
      · cases ho
      · cases ho
        exact shelf_not_created (Set.mem_insert _ _) hrest

end Origins

/-! ### Owners and links in a run -/

/-- `u` owns the deck `id`: from the start, or because a request of the run has created it. -/
def Owner (env : Env) (c₀ : Server) (es : List ServerEvent) (id u : String) : Prop :=
  (∃ e, c₀.shared.db.entry? id = some e ∧ e.owner = u) ∨ ∃ i content, (i, .create id u content) ∈ deckEffects env es

/-- `u` has given the link `g` for the deck `id`: before the run, or by a request of the run. -/
def GaveLink (env : Env) (c₀ : Server) (es : List ServerEvent) (id u : String) (g : Grant) : Prop :=
  (∃ e, c₀.shared.db.entry? id = some e ∧ e.owner = u ∧ g ∈ e.links) ∨ ∃ i, (i, .share id u g) ∈ deckEffects env es

section Runs
variable {env : Env} {c₀ c c' : Server} {es es' : List ServerEvent} {e : ServerEvent} {id u u' : String} {g : Grant}

theorem mem_deckOps {o : DeckOp} : o ∈ (deckEffects env es).map (·.2) ↔ ∃ i, (i, o) ∈ deckEffects env es := by
  rw [List.mem_map]
  constructor
  · rintro ⟨⟨i, o⟩, h, rfl⟩
    exact ⟨i, h⟩
  · rintro ⟨i, h⟩
    exact ⟨(i, o), h, rfl⟩

theorem owner_iff_origin : Owner env c₀ es id u ↔
    Origin c₀.shared.shelf.decks ((deckEffects env es).map (·.2)) id u := by
  refine or_congr Iff.rfl ?_
  constructor
  · rintro ⟨i, content, h⟩
    exact ⟨content, mem_deckOps.mpr ⟨i, h⟩⟩
  · rintro ⟨content, h⟩
    obtain ⟨i, h⟩ := mem_deckOps.mp h
    exact ⟨i, content, h⟩

theorem gaveLink_iff : GaveLink env c₀ es id u g ↔
    Gave c₀.shared.shelf.decks ((deckEffects env es).map (·.2)) id u g :=
  or_congr Iff.rfl mem_deckOps.symm

theorem Owner.unique (h₀ : c₀.Idle) (run : ServerRun env c₀ es c)
    (h : Owner env c₀ es id u) (h' : Owner env c₀ es id u') :
    u = u' := by
  obtain ⟨s, hs, -⟩ := ServerRun.shows h₀ run
  exact origin_unique c₀.shared.shelf_known hs (owner_iff_origin.mp h) (owner_iff_origin.mp h')

/-- What a run has settled, its continuations keep. -/
theorem Owner.mono (h₀ : c₀.Idle) (run : ServerRun env c₀ es c)
    (h : Owner env c₀ es id u) (es' : List ServerEvent) :
    Owner env c₀ (es ++ es') id u := by
  rcases h with h | ⟨i, content, h⟩
  · exact Or.inl h
  · refine Or.inr ⟨i, content, ?_⟩
    rw [deckEffects, effects_append h₀.sessions run]
    exact List.mem_append_left _ h

theorem GaveLink.mono (h₀ : c₀.Idle) (run : ServerRun env c₀ es c)
    (h : GaveLink env c₀ es id u g) (es' : List ServerEvent) :
    GaveLink env c₀ (es ++ es') id u g := by
  rcases h with h | ⟨i, h⟩
  · exact Or.inl h
  · refine Or.inr ⟨i, ?_⟩
    rw [deckEffects, effects_append h₀.sessions run]
    exact List.mem_append_left _ h

end Runs

/-! ### Moments of a run -/

/-- `P` held of the database at some moment of the run after request `i` had arrived. -/
def During (env : Env) (c₀ : Server) (es : List ServerEvent) (c : Server) (i : Nat) (P : Db → Prop) : Prop :=
  ∃ es₁ c₁ es₂, es = es₁ ++ es₂ ∧ ServerRun env c₀ es₁ c₁ ∧ ServerRun env c₁ es₂ c ∧
    i < c₁.sessions.length ∧ P c₁.shared.db

section Moments
variable {env : Env} {c₀ c c' : Server} {es : List ServerEvent} {e : ServerEvent} {i : Nat} {P P' : Db → Prop}

theorem During.now (run : ServerRun env c₀ es c) (hi : i < c.sessions.length)
    (h : P c.shared.db) : During env c₀ es c i P :=
  ⟨es, c, [], (List.append_nil es).symm, run, .nil, hi, h⟩

theorem During.mono (h : During env c₀ es c i P) (hP : ∀ db, P db → P' db) : During env c₀ es c i P' := by
  obtain ⟨es₁, c₁, es₂, heq, run₁, run₂, hi, hdb⟩ := h
  exact ⟨es₁, c₁, es₂, heq, run₁, run₂, hi, hP _ hdb⟩

theorem During.step (h : During env c₀ es c i P) (step : ServerStep env c e c') :
    During env c₀ (es ++ [e]) c' i P := by
  obtain ⟨es₁, c₁, es₂, rfl, run₁, run₂, hi, hdb⟩ := h
  exact ⟨es₁, c₁, es₂ ++ [e], List.append_assoc _ _ _, run₁, run₂.snoc step, hi, hdb⟩

end Moments

/-- The rows of a database belong to their owners, and the share tokens to links that these gave. -/
structure Db.Settled (owner : String → String → Prop) (gave : String → String → Grant → Prop) (db : Db) : Prop where
  rows : ∀ p ∈ db.presentations.rows, owner p.id p.userId
  tokens : ∀ t ∈ db.shareTokens.rows, ∃ u, owner t.presentationId u ∧ gave t.presentationId u t.grant

theorem Db.Settled.mono {owner owner' : String → String → Prop}
    {gave gave' : String → String → Grant → Prop} {db : Db} (h : db.Settled owner gave)
    (ho : ∀ id u, owner id u → owner' id u) (hg : ∀ id u g, gave id u g → gave' id u g) :
    db.Settled owner' gave' := by
  refine ⟨fun p hp => ho _ _ (h.rows p hp), fun t ht => ?_⟩
  obtain ⟨u, hu, hgave⟩ := h.tokens t ht
  exact ⟨u, ho _ _ hu, hg _ _ _ hgave⟩

section Runs
variable {env : Env} {c₀ c c' : Server} {es es' : List ServerEvent} {e : ServerEvent} {i : Nat} {P : Db → Prop}

/-- In every state the rows belong to their owners, and the tokens to the links that these gave. -/
theorem ServerRun.settled (h₀ : c₀.Idle) (run : ServerRun env c₀ es c) :
    c.shared.db.Settled (Owner env c₀ es) (GaveLink env c₀ es) := by
  obtain ⟨s, hs, hshows⟩ := ServerRun.shows h₀ run
  have hentry : ∀ p ∈ c.shared.db.presentations.rows, ∃ e, s.decks p.id = some e ∧ e.owner = p.userId ∧
      e.links = ↑((c.shared.db.tokensOf p.id).map ShareToken.grant) := by
    intro p hp
    rw [hshows.decks, Db.entry?, Table.find?_of_mem hp]
    exact ⟨_, rfl, rfl, rfl⟩
  constructor
  · intro p hp
    obtain ⟨e, he, howner, -⟩ := hentry p hp
    exact owner_iff_origin.mpr (howner ▸ (shelf_run_origin hs he).1)
  · intro t ht
    obtain ⟨p, hp, hid⟩ := Table.mem_keys.mp ((ServerRun.coherent h₀ run).sound.linked.shareTokens t ht)
    obtain ⟨e, he, howner, hlinks⟩ := hentry p hp
    obtain ⟨horigin, hgave⟩ := shelf_run_origin hs he
    rw [hid] at horigin hgave hlinks
    have hlink : t.grant ∈ e.links := by
      rw [hlinks]
      exact Multiset.mem_coe.mpr (List.mem_map_of_mem (List.mem_filter.mpr ⟨ht, by simp⟩))
    exact ⟨e.owner, owner_iff_origin.mpr horigin, gaveLink_iff.mpr (hgave _ hlink)⟩

/-- What held at a moment held of a database whose references are sound and whose decks had their owners. -/
theorem During.settled (h₀ : c₀.Idle) (h : During env c₀ es c i P) :
    During env c₀ es c i fun db => P db ∧ db.Linked ∧ db.Settled (Owner env c₀ es) (GaveLink env c₀ es) := by
  obtain ⟨es₁, c₁, es₂, rfl, run₁, run₂, hi, hdb⟩ := h
  refine ⟨es₁, c₁, es₂, rfl, run₁, run₂, hi, hdb, (ServerRun.coherent h₀ run₁).sound.linked, ?_⟩
  exact (ServerRun.settled h₀ run₁).mono (fun _ _ h => h.mono h₀ run₁ _) fun _ _ _ h => h.mono h₀ run₁ _

/-- What does not speak of the database holds if it held at a moment. -/
theorem During.const {p : Prop} (h : During env c₀ es c i fun _ => p) : p := by
  obtain ⟨_, _, _, -, -, -, -, hp⟩ := h
  exact hp

end Runs

/-! ### True answers -/

/-- A page of a user's decks, in an order that `ORDER BY` allows. -/
def Db.Lists (db : Db) (u : String) (take skip : Int) (rows : List (Presentation × Nat)) : Prop :=
  ∃ order : Newest Presentation.createdAt, page take skip
    ((order.sort (db.presentations.rows.filter (·.userId == u))).map
    fun p => (p, (db.slidesOf p.id).length)) = .ok rows

/-- What an answer tells is true of a database. -/
def Told (db : Db) : Call → Prop
  | ⟨.presentationFindUnique id, .ok (some d)⟩ => db.deck? id = some d
  | ⟨.presentationFindFirst id u, .ok (some p)⟩ => db.presentations.find? id = some p ∧ p.userId = u
  | ⟨.presentationFindMany u take skip, .ok rows⟩ => db.Lists u take skip rows
  | ⟨.presentationCreate u _ _, .ok d⟩ => db.deck? d.row.id = some d ∧ d.row.userId = u
  | ⟨.presentationUpdate id title, .ok p⟩ => ∃ p₀ now t, db.presentations.find? id = some p₀ ∧
    textUpdate title = .ok t ∧
      p = p₀.patch now t
  | ⟨.shareTokenCreate _ _ email _ expiresAt, .ok _⟩ => ∃ e t, textArg email = .ok e ∧ expiresAt = some t
  | ⟨.shareTokenFindUnique token, .ok (some (t, p))⟩ => db.shareToken? token = some t ∧
      p = db.presentations.find? t.presentationId
  | ⟨.importedPptFindMany u, .ok is⟩ => ∃ order : Newest ImportedPpt.createdAt,
      is = order.sort (db.importedPpts.rows.filter (·.userId == u))
  | ⟨.importedPptCreate u _ _, .ok i⟩ => db.importedPpts.find? i.id = some i ∧ i.userId = u
  | ⟨.userFindUnique id, .ok (some u)⟩ => db.users.find? id = some u
  | _ => True

theorem told_error {db : Db} {q : Query} {e : Err} : Told db ⟨q, .error e⟩ := by
  cases q <;> trivial

section Answers
variable {db : Db} {q : Query}

/-- The answer of a call that sees only what is committed is true, before the call or after it. -/
theorem told_of_exec {w : World} {snap : Db} {a : q.Answer} {ws : List Write} (h : exec w snap db q = .ok (a, ws))
    (hsnap : q.locksRows = false → snap = db) (hlinked : db.Linked) :
    Told db ⟨q, .ok a⟩ ∨ Told (db.applyAll ws) ⟨q, .ok a⟩ := by
  cases q with
  | presentationFindUnique id =>
    obtain rfl := hsnap rfl
    cases h
    refine Or.inl ?_
    cases hd : snap.deck? id with
    | none => trivial
    | some d => exact hd
  | presentationFindFirst id u =>
    obtain rfl := hsnap rfl
    cases h
    refine Or.inl ?_
    cases hp : (snap.presentations.find? id).filter (·.userId == u) with
    | none => trivial
    | some p =>
      obtain ⟨hfind, hu⟩ := Option.filter_eq_some_iff.mp hp
      exact ⟨hfind, by simpa using hu⟩
  | presentationFindMany u take skip =>
    obtain rfl := hsnap rfl
    obtain ⟨rows, hpage, heq⟩ := except_map_eq_ok.mp h
    cases heq
    exact Or.inl ⟨w.presentationOrder, hpage⟩
  | presentationCreate u title slides =>
    exact Or.inr ⟨deck?_createDeck hlinked.slides h, (presentations_createDeck h).2.1⟩
  | presentationUpdate id title =>
    obtain ⟨t, p₀, ht, -, hp₀, rfl, -⟩ := updatePresentationRow_ok h
    exact Or.inl ⟨p₀, w.now, t, hp₀, ht, rfl⟩
  | shareTokenCreate id token email permission expiresAt =>
    obtain ⟨e, t, he, ht, -⟩ := createShareToken_ok h
    exact Or.inl ⟨e, t, he, ht⟩
  | shareTokenFindUnique token =>
    obtain rfl := hsnap rfl
    cases h
    refine Or.inl ?_
    cases ht : snap.shareToken? token with
    | none => trivial
    | some t => exact ⟨ht, rfl⟩
  | importedPptFindMany u =>
    obtain rfl := hsnap rfl
    cases h
    exact Or.inl ⟨w.importedPptOrder, rfl⟩
  | importedPptCreate u fileName fileUrl =>
    obtain ⟨hrow, hkey, rfl⟩ := createImportedPpt_ok h
    refine Or.inr ⟨Table.find?_of_mem ?_, by rw [hrow]⟩
    rw [Db.applyAll_cons, Db.applyAll_nil]
    exact (Table.insert_rows hkey).symm ▸ List.mem_append_right _ (List.mem_singleton_self _)
  | userFindUnique id =>
    obtain rfl := hsnap rfl
    cases h
    refine Or.inl ?_
    cases hu : snap.users.find? id with
    | none => trivial
    | some u => exact hu
  | _ => exact Or.inl trivial

/-- So is every answer outside a transaction, and that of a save which is the first statement inside. -/
theorem Act.told {st st' : Store} {others : List Conn} {p p' : Conn} {r : Except Err q.Answer}
    (h : Act st others p q r st' p') (htx : p.tx = none ∨ p.tx = some [] ∧
      ∃ id title, q = .presentationUpdate id title)
    (hlinked : st.db.Linked) : Told st.db ⟨q, r⟩ ∨ Told st'.db ⟨q, r⟩ := by
  by_cases hq : q.IsStatement
  · rcases htx with htx | ⟨htx, id, title, rfl⟩
    · obtain ⟨-, ⟨e, rfl, -⟩ | ⟨w, snap, a, ws, hexec, hsnap, rfl, hdb⟩⟩ := h.outside hq htx
      · exact Or.inl told_error
      · rw [hdb]
        exact told_of_exec hexec hsnap hlinked
    · have hview : p.view st.db = st.db := by rw [Conn.view, htx]; rfl
      obtain ⟨-, ⟨e, rfl, -⟩ | ⟨w, a, ws, hexec, rfl, -, -⟩⟩ := h.inside hq htx
      · exact Or.inl told_error
      · rw [hview] at hexec
        obtain ⟨t, p₀, ht, -, hp₀, rfl, -⟩ := updatePresentationRow_ok hexec
        exact Or.inl ⟨p₀, w.now, t, hp₀, ht, rfl⟩
  · cases q with
    | begin | commit | rollback => exact Or.inl trivial
    | _ => exact absurd trivial hq

end Answers

section Runs
variable {env : Env} {c₀ c c' : Server} {es es' : List ServerEvent} {e : ServerEvent} {i : Nat} {x : ServerSession}

theorem Held.closed {st : Store} {req : Request} {p : Conn} {m : Course}
    (h : Held env st req p m) (hm : m.inTx = false) :
    p.tx = none := by
  cases m with
  | idle | done | lost => exact h
  | _ => cases hm

/-- A call that touches no deck is made outside transactions. -/
theorem closed_of_quiet {q : Query} {k : Except Err q.Answer → Handler Response}
    (h₀ : c₀.Idle) (run : ServerRun env c₀ es c) (hx : c.sessions[i]? = some x) (hp : x.prog = .call q k)
    (hq : q.quiet = true) : x.priv.tx = none := by
  have hends := ServerRun.ends h₀ run x (List.mem_of_getElem? hx)
  rw [hp] at hends
  have hheld := ((ServerRun.coherent h₀ run).sessions i x hx).held
  generalize courseOf env x = m at hends hheld
  cases hends.1 with
  | quiet _ hm => exact hheld.closed hm
  | _ => cases hq

/-- The answer of a call is true, before it or after it. -/
theorem ServerRun.call_told {q : Query} {k : Except Err q.Answer → Handler Response}
    {r : Except Err q.Answer} {st' : Store} {p' : Conn} (h₀ : c₀.Idle) (run : ServerRun env c₀ es c)
    (hx : c.sessions[i]? = some x) (hp : x.prog = .call q k)
    (hact : Act c.shared (c.others i) x.priv q r st' p') : Told c.shared.db ⟨q, r⟩ ∨ Told st'.db ⟨q, r⟩ := by
  have hends := ServerRun.ends h₀ run x (List.mem_of_getElem? hx)
  rw [hp] at hends
  have hcoherent := ServerRun.coherent h₀ run
  have hheld := (hcoherent.sessions i x hx).held
  have hlinked := hcoherent.sound.linked
  have outside : x.priv.tx = none → Told c.shared.db ⟨q, r⟩ ∨ Told st'.db ⟨q, r⟩ :=
    fun htx => Act.told hact (Or.inl htx) hlinked
  generalize courseOf env x = m at hends hheld
  cases hends.1 with
  | quiet hquiet hm => exact outside (hheld.closed hm)
  | create _ _ | share _ _ => exact outside hheld
  | title _ _ _ _ => exact Act.told hact (Or.inr ⟨hheld, _, _, rfl⟩) hlinked
  | begin _ | clear _ | fill _ _ _ | commitCleared _ _ _ | commitFilled | sweep _ | drop _ | commitDropped _
  | rollback _ =>
    exact Or.inl (by cases r <;> trivial)

/-- What a request has been told was true while it was served. -/
theorem ServerRun.told (h₀ : c₀.Idle) (run : ServerRun env c₀ es c) :
    ∀ i x, c.sessions[i]? = some x → ∀ a ∈ x.log, During env c₀ es c i (Told · a) := by
  induction run with
  | nil =>
    intro i x hx
    rw [h₀.sessions] at hx
    cases hx
  | @snoc es c c' e run step ih =>
    intro i x hx a ha
    have run' : ServerRun env c₀ (es ++ [e]) c' := .snoc run step
    have hi : i < c'.sessions.length := (List.getElem?_eq_some_iff.mp hx).1
    rcases step.session hx with hx | ⟨-, req, rfl⟩ | ⟨y, q, k, r, p', hy, hp, hact, rfl⟩ | ⟨y, p', hy, rfl⟩
    · exact (ih i x hx a ha).step step
    · cases ha
    · rcases List.mem_append.mp ha with ha | ha
      · exact (ih i y hy a ha).step step
      obtain rfl := List.mem_singleton.mp ha
      rcases ServerRun.call_told h₀ run hy hp hact with htold | htold
      · exact (During.now run (List.getElem?_eq_some_iff.mp hy).1 htold).step step
      · exact During.now run' hi htold
    · exact (ih i y hy a ha).step step

end Runs

/-! ### Sources -/

/-- A body that shows nothing of anybody's decks, links, imports and usage. -/
def Body.plain : Body → Bool
  | .error _ | .errorDetails _ _ | .message _ | .slide _ | .templates _ | .template _ => true
  | _ => false

/-- The monitor that only listens. -/
def listening : Monitor Query Query.Answer Err (List Call) := transcript fun _ _ => True

section Rules
variable {env : Env} {req : Request} {log : List Call} {α β : Type}

theorem mem_last {a : Call} : a ∈ log ++ [a] := List.mem_append_right _ (List.mem_singleton_self a)

end Rules

section Handlers
variable {env : Env} {req : Request} {user : AuthUser} {log : List Call} {id : String} {body : Val}

end Handlers

/-! ### What a response may show -/

/-- The database holds the deck, with its slides in some order. -/
def Db.Has (db : Db) (d : Deck) : Prop := ∃ slides, db.deck? d.row.id = some ⟨d.row, slides⟩ ∧ d.slides.Perm slides

section Runs
variable {env : Env} {c₀ c : Server} {es : List ServerEvent} {i : Nat} {x : ServerSession}
  {body : Body} {response : Response}

theorem mem_of_page {α : Type} {take skip : Int} {l l' : List α}
    (h : page take skip l = .ok l') : ∀ x ∈ l', x ∈ l := by
  intro x hx
  unfold page at h
  split at h
  · cases h
  split at h
  · cases h
    exact List.mem_of_mem_drop (List.mem_of_mem_take hx)
  · cases h
    exact List.mem_reverse.mp (List.mem_of_mem_drop (List.mem_of_mem_take (List.mem_reverse.mp hx)))

theorem Db.Lists.mem {db : Db} {u : String} {take skip : Int} {rows : List (Presentation × Nat)}
    (h : db.Lists u take skip rows) :
    ∀ r ∈ rows, r.1 ∈ db.presentations.rows ∧ r.1.userId = u := by
  intro r hr
  obtain ⟨order, hpage⟩ := h
  obtain ⟨p, hp, rfl⟩ := List.mem_map.mp (mem_of_page hpage r hr)
  obtain ⟨hmem, hu⟩ := List.mem_filter.mp (order.mem_sort.mp hp)
  exact ⟨hmem, by simpa using hu⟩

end Runs

end Slideo
