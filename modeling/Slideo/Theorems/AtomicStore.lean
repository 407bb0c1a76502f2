import Slideo.Theorems.Courses
import Slideo.Theorems.WriteIsolation

/-! In every interleaving the decks of the database behave as one object: each request that changes a deck
    does so in one step, at its single statement or at its `COMMIT`. The row of a presentation is locked by
    at most one transaction, which alone can change its slides; what a transaction holds back stays right
    until it ends. -/

namespace Slideo
open Js Interleave

/-! ### Operations of requests -/

/-- The operation that an answered call of a request performs. -/
def Request.effect? (env : Env) (req : Request) : Answered Query Query.Answer Err → Option DeckOp
  | ⟨.presentationCreate _ _ _, .ok deck⟩ =>
    some (.create deck.row.id deck.row.userId ⟨deck.row.title, ↑(deck.slides.map Slide.body)⟩)
  | ⟨.shareTokenCreate id token email permission expiresAt, .ok ()⟩ => do
    let userId ← req.userId? env
    let email ← (textArg email).toOption
    let expiresAt ← expiresAt
    return .share id userId ⟨token, email, permission, expiresAt⟩
  | ⟨.commit, .ok ()⟩ => match req.endpoint with
    | .updatePresentation id body => do
      let user ← req.user? env
      let save ← Slideo.save? user body
      return .save id user.id save
    | .deletePresentation id => (req.userId? env).map (.remove id ·)
    | _ => none
  | _ => none

/-- The decks are the same rows. -/
structure DecksKept (db db' : Db) : Prop where
  presentations : db'.presentations = db.presentations
  slides : db'.slides = db.slides
  shareTokens : db'.shareTokens = db.shareTokens

theorem DecksKept.refl (db : Db) : DecksKept db db := ⟨rfl, rfl, rfl⟩

theorem effect?_quiet {env : Env} {req : Request} {q : Query} (hq : q.quiet = true) (r : Except Err q.Answer) :
    req.effect? env ⟨q, r⟩ = none := by
  cases q with
  | begin | commit | rollback | presentationCreate _ _ _ | presentationUpdate _ _ | presentationDelete _
  | slideDeleteMany _ | slideCreateMany _ _ | shareTokenCreate _ _ _ _ _ => cases hq
  | _ => rfl

theorem effect?_error {env : Env} {req : Request} {q : Query} (e : Err) : req.effect? env ⟨q, .error e⟩ = none := by
  cases q <;> rfl

/-- A quiet call leaves the decks as they are. -/
theorem decksKept_quiet {w : World} {snap db : Db} {q : Query} {a : q.Answer}
    {ws : List Write} (hq : q.quiet = true) (h : exec w snap db q = .ok (a, ws)) :
    DecksKept db (db.applyAll ws) := by
  have hkind : ∀ y ∈ ws, (∃ id at_ patch, y = .patchUser id at_ patch) ∨ (∃ i, y = .insertImportedPpt i) ∨
      ∃ id at_ patch, y = .patchTemplate id at_ patch := by
    intro y hy
    have hissues := exec_issues h y hy
    cases q with
    | begin | commit | rollback | presentationCreate _ _ _ | presentationUpdate _ _ | presentationDelete _
    | slideDeleteMany _ | slideCreateMany _ _ | shareTokenCreate _ _ _ _ _ => cases hq
    | userUpdate id patch => exact Or.inl ⟨_, _, _, hissues⟩
    | importedPptCreate userId fileName fileUrl => exact Or.inr (Or.inl hissues)
    | templateUpdate id name category description themeId =>
      obtain ⟨patch, rfl⟩ := hissues
      exact Or.inr (Or.inr ⟨_, _, _, rfl⟩)
    | _ => exact hissues.elim
  clear h
  induction ws generalizing db with
  | nil => exact .refl db
  | cons y ws ih =>
    obtain ⟨hp, hs, ht⟩ := @ih (db.apply y) fun y' hy' => hkind y' (List.mem_cons_of_mem y hy')
    have hy : DecksKept db (db.apply y) := by
      rcases hkind y List.mem_cons_self with ⟨_, _, _, rfl⟩ | ⟨_, rfl⟩ | ⟨_, _, _, rfl⟩ <;> exact ⟨rfl, rfl, rfl⟩
    exact ⟨hp.trans hy.presentations, hs.trans hy.slides, ht.trans hy.shareTokens⟩

/-! ### Answers -/

section Answers
variable {st st' : Store} {others : List Conn} {c c' : Conn} {q : Query}

/-- A failed statement changes nothing, and the transaction stays open. -/
theorem Act.error_inv {e : Err} (h : Act st others c q (.error e) st' c') (hq : q.IsStatement) :
    st'.db = st.db ∧ st.issued ⊆ st'.issued ∧ c' = { tx := c.tx } := by
  rcases h.inv with ⟨w, -, -, hr, rfl, rfl⟩ | ⟨-, rfl, rfl⟩
  · rw [perform_eq hq] at hr ⊢
    cases hexec : exec w (c.start st.db q) (c.view st.db) q with
    | error e' => exact ⟨rfl, Set.subset_union_left, rfl⟩
    | ok out =>
      rw [hexec] at hr
      cases htx : c.tx <;> rw [htx] at hr <;> cases hr
  · refine ⟨rfl, subset_rfl, ?_⟩
    cases q <;> first | rfl | exact hq.elim

/-- An answered statement waits for no other transaction, and its changes are pending or committed. -/
theorem Act.ok_inv {a : q.Answer} (h : Act st others c q (.ok a) st' c') (hq : q.IsStatement) :
    ∃ w ws, Fresh st w ∧ exec w (c.start st.db q) (c.view st.db) q = .ok (a, ws) ∧
      (∀ d ∈ others, ∀ x ∈ d.tx.getD [], ∀ y ∈ ws, x.conflicts y = false) ∧
      st'.issued = st.issued ∪ Set.range w.uuid ∧
      ((c.tx = none ∧ st'.db = st.db.applyAll ws ∧ c' = {}) ∨
        ∃ ws', c.tx = some ws' ∧ st'.db = st.db ∧ c' = { tx := some (ws' ++ ws) }) := by
  rcases h.inv with ⟨w, hfresh, hun, hr, rfl, rfl⟩ | ⟨hr, -, -⟩
  · rw [perform_eq hq] at hr ⊢
    unfold Unblocked newWrites at hun
    cases hexec : exec w (c.start st.db q) (c.view st.db) q with
    | error e' =>
      rw [hexec] at hr
      cases hr
    | ok out =>
      obtain ⟨a', ws⟩ := out
      rw [hexec] at hr hun
      cases htx : c.tx with
      | none =>
        rw [htx] at hr
        cases hr
        exact ⟨w, ws, hfresh, hexec, hun, rfl, Or.inl ⟨rfl, rfl, rfl⟩⟩
      | some ws' =>
        rw [htx] at hr
        cases hr
        exact ⟨w, ws, hfresh, hexec, hun, rfl, Or.inr ⟨ws', rfl, rfl, rfl⟩⟩
  · cases hr

end Answers

/-! ### What a transaction holds back -/

/-- The change locks the row of a presentation. -/
def Write.locks (id : String) : Write → Prop
  | .patchPresentation x _ _ | .deletePresentation x => x = id
  | _ => False

/-- The transaction has locked the row of a presentation. -/
def Conn.claims (id : String) (c : Conn) : Prop := ∃ y ∈ c.tx.getD [], y.locks id

/-- Two transactions lock different presentations and bring different slides. -/
structure Conn.Apart (c d : Conn) : Prop where
  rows : ∀ id, c.claims id → ¬ d.claims id
  slides : ∀ s s', .insertSlide s ∈ c.tx.getD [] → .insertSlide s' ∈ d.tx.getD [] → s.id ≠ s'.id

/-- A save that has locked its presentation, cleared the slides `ss` and filled in `rows`. -/
structure Saving (env : Env) (st : Store) (req : Request) (c : Conn) (id : String) (t : Option String)
    (ss rows : List Slide) : Prop where
  asks : ∃ user body, req.endpoint = .updatePresentation id body ∧ req.user? env = some user ∧ AsksTitle user body t
  pending : ∃ at_, c.tx =
    some (.patchPresentation id at_ t :: (ss.map (.deleteSlide id ·.id) ++ rows.map .insertSlide))
  there : id ∈ st.db.presentations.keys
  started : ∀ db, c.snapshot = some db → ∀ s ∈ st.db.slidesOf id, s ∈ db.slidesOf id
  own : ∀ s ∈ rows, s.presentationId = id
  nodup : (rows.map (·.id)).Nodup
  new : ∀ s ∈ rows, s.id ∉ st.db.slides.keys

/-- A save that has filled in nothing yet, in a transaction that reads what is there. -/
theorem Saving.of_empty {env : Env} {st : Store} {req : Request} {c : Conn} {id : String} {t : Option String}
    {ss : List Slide}
    (hasks : ∃ user body, req.endpoint = .updatePresentation id body ∧ req.user? env = some user ∧
      AsksTitle user body t)
    (hpending : ∃ at_, c.tx = some (.patchPresentation id at_ t :: ss.map (.deleteSlide id ·.id)))
    (hthere : id ∈ st.db.presentations.keys) (hsnapshot : c.snapshot = none) : Saving env st req c id t ss [] where
  asks := hasks
  pending := hpending.imp fun _ h => by rw [h, List.map_nil, List.append_nil]
  there := hthere
  started db h := by
    rw [hsnapshot] at h
    cases h
  own _ h := by cases h
  nodup := List.nodup_nil
  new _ h := by cases h

/-- Every slide of the presentation is among `ss`. -/
def Covers (st : Store) (id : String) (ss : List Slide) : Prop := ∀ s ∈ st.db.slidesOf id, ∃ x ∈ ss, x.id = s.id

/-- A removal that has locked its presentation, which nothing refers to any more. -/
structure Removing (st : Store) (req : Request) (c : Conn) (id : String) (ss : List Slide) : Prop where
  asks : req.endpoint = .deletePresentation id
  pending : c.tx = some (ss.map (.deleteSlide id ·.id) ++ [.deletePresentation id])
  there : id ∈ st.db.presentations.keys
  covers : Covers st id ss
  unshared : st.db.tokensOf id = []

/-- What the transaction of a request holds back at some point of its course. -/
def Held (env : Env) (st : Store) (req : Request) (c : Conn) : Course → Prop
  | .idle | .done | .lost => c.tx = none
  | .opened => c.tx = some []
  | .titled => ∃ id t, Saving env st req c id t [] []
  | .cleared => ∃ id t ss, Saving env st req c id t ss [] ∧ Covers st id ss
  | .filled => ∃ id t ss rows, Saving env st req c id t ss rows ∧ Covers st id ss ∧
      ∃ user body, req.endpoint = .updatePresentation id body ∧ req.user? env = some user ∧
        Slideo.save? user body = some ⟨t, rows.map Slide.body⟩
  | .swept => ∃ id, ∃ ss : List Slide, req.endpoint = .deletePresentation id ∧
    c.tx = some (ss.map (.deleteSlide id ·.id))
  | .dropped => ∃ id ss, Removing st req c id ss
  | .broken => c.tx.isSome = true

/-- The slides that a transaction brings have ids that were issued. -/
def Conn.Drawn (st : Store) (c : Conn) : Prop := ∀ s, .insertSlide s ∈ c.tx.getD [] → s.id ∈ st.issued

/-! ### Changes of others -/

/-- The slides that a change brings. -/
def Change.rows : Change → List Slide
  | .create _ rows | .save _ _ _ rows => rows
  | .remove _ | .share _ => []

theorem Change.Does.slide_keys {db db' : Db} {ch : Change} {x : String}
    (h : ch.Does db db') (hx : x ∈ db'.slides.keys) :
    x ∈ db.slides.keys ∨ ∃ s ∈ ch.rows, s.id = x := by
  obtain ⟨s, hs, rfl⟩ := Table.mem_keys.mp hx
  have old : ∀ {s : Slide}, s ∈ db.slides.rows → s.id ∈ db.slides.keys := fun h => Table.mem_keys.mpr ⟨_, h, rfl⟩
  cases ch with
  | create p rows =>
    obtain ⟨-, -, -, -, -, hrows, -⟩ := h
    rcases List.mem_append.mp (hrows ▸ hs) with hs | hs
    · exact Or.inl (old hs)
    · exact Or.inr ⟨s, hs, rfl⟩
  | save id at_ title rows =>
    obtain ⟨-, -, -, hrows, -⟩ := h
    rcases List.mem_append.mp (hrows ▸ hs) with hs | hs
    · exact Or.inl (old (List.mem_filter.mp hs).1)
    · exact Or.inr ⟨s, hs, rfl⟩
  | remove id =>
    obtain ⟨-, -, -, hrows, -⟩ := h
    rw [hrows] at hs
    exact Or.inl (old (Table.mem_delete.mp hs).1)
  | share t =>
    obtain ⟨-, -, hrows, -⟩ := h
    exact Or.inl (old (hrows ▸ hs))

/-- What another request's step may do to the decks while a transaction is open. -/
inductive Foreign (c : Conn) (st st' : Store) : Prop
  | same (h : DecksKept st.db st'.db)
  | change {ch : Change} (h : ch.Does st.db st'.db)
      (hclaim : ch.id ∈ st.db.presentations.keys → ¬ c.claims ch.id ∨ ∃ t, ch = .share t)
      (hshare : ∀ t, ch = .share t → .deletePresentation t.presentationId ∉ c.tx.getD [])
      (hrows : ∀ s, .insertSlide s ∈ c.tx.getD [] → ∀ s' ∈ ch.rows, s.id ≠ s'.id)

section Frame
variable {env : Env} {st st' : Store} {req : Request} {c : Conn} {m : Course} {id : String}

/-- A presentation whose row is locked stays, with no other slides. -/
theorem Foreign.locked (h : Foreign c st st') (hclaim : c.claims id) (hthere : id ∈ st.db.presentations.keys) :
    id ∈ st'.db.presentations.keys ∧
      st'.db.slidesOf id = st.db.slidesOf id ∧
      (.deletePresentation id ∈ c.tx.getD [] → st'.db.tokensOf id = st.db.tokensOf id) := by
  cases h with
  | same h => exact ⟨by rw [h.presentations]; exact hthere, by simp only [Db.slidesOf, h.slides],
      fun _ => by simp only [Db.tokensOf, h.shareTokens]⟩
  | @change ch h hfree hshare hrows =>
    by_cases hid : id = ch.id
    · -- only a new link can be to the locked presentation
      rcases hfree (hid ▸ hthere) with hfree | ⟨t, rfl⟩
      · exact absurd (hid ▸ hclaim) hfree
      · obtain ⟨-, hp, hs, -⟩ := h
        refine ⟨by rw [hp]; exact hthere, by simp only [Db.slidesOf, hs], fun hdrop => ?_⟩
        exact absurd ((show id = t.presentationId from hid) ▸ hdrop) (hshare t rfl)
    · obtain ⟨hp, hs, ht⟩ := h.others hid
      refine ⟨?_, hs, fun _ => ht⟩
      by_contra hnone
      rw [Table.find?_eq_none.mpr hnone] at hp
      exact Table.find?_eq_none.mp hp.symm hthere

theorem Foreign.slide_keys (h : Foreign c st st') {s : Slide} (hs : .insertSlide s ∈ c.tx.getD [])
    (hnew : s.id ∉ st.db.slides.keys) : s.id ∉ st'.db.slides.keys := by
  cases h with
  | same h =>
    rw [h.slides]
    exact hnew
  | change h hfree hshare hrows =>
    intro hkey
    rcases h.slide_keys hkey with hkey | ⟨s', hs', heq⟩
    · exact hnew hkey
    · exact hrows s hs s' hs' heq.symm

theorem Saving.claims {t : Option String} {ss rows : List Slide}
    (h : Saving env st req c id t ss rows) : c.claims id := by
  obtain ⟨at_, htx⟩ := h.pending
  exact ⟨.patchPresentation id at_ t, by rw [htx]; exact List.mem_cons_self, rfl⟩

theorem Saving.inserts {t : Option String} {ss rows : List Slide}
    (h : Saving env st req c id t ss rows) {s : Slide} :
    .insertSlide s ∈ c.tx.getD [] ↔ s ∈ rows := by
  obtain ⟨at_, htx⟩ := h.pending
  simp [htx]

theorem Saving.foreign {t : Option String} {ss rows : List Slide} (h : Saving env st req c id t ss rows)
    (hforeign : Foreign c st st') : Saving env st' req c id t ss rows := by
  obtain ⟨hkey, hslides, -⟩ := hforeign.locked h.claims h.there
  refine ⟨h.asks, h.pending, hkey, ?_, h.own, h.nodup, fun s hs => ?_⟩
  · rw [hslides]
    exact h.started
  · exact hforeign.slide_keys (h.inserts.mpr hs) (h.new s hs)

theorem Removing.claims {ss : List Slide} (h : Removing st req c id ss) : c.claims id :=
  ⟨.deletePresentation id, by rw [h.pending]; exact List.mem_append_right _ (List.mem_singleton_self _), rfl⟩

theorem Removing.foreign {ss : List Slide} (h : Removing st req c id ss) (hforeign : Foreign c st st') :
    Removing st' req c id ss := by
  obtain ⟨hkey, hslides, htokens⟩ := hforeign.locked h.claims h.there
  refine ⟨h.asks, h.pending, hkey, ?_, ?_⟩
  · unfold Covers
    rw [hslides]
    exact h.covers
  · rw [htokens (by rw [h.pending]; exact List.mem_append_right _ (List.mem_singleton_self _))]
    exact h.unshared

/-- What a transaction holds back stays right whatever the others do. -/
theorem Held.foreign (h : Held env st req c m) (hforeign : Foreign c st st') : Held env st' req c m := by
  have hcovers : ∀ {id ss}, c.claims id → id ∈ st.db.presentations.keys → Covers st id ss → Covers st' id ss := by
    intro id ss hclaim hthere hall
    unfold Covers
    rw [(hforeign.locked hclaim hthere).2.1]
    exact hall
  cases m with
  | idle | done | lost | opened | broken | swept => exact h
  | titled =>
    obtain ⟨id, t, hs⟩ := h
    exact ⟨id, t, hs.foreign hforeign⟩
  | cleared =>
    obtain ⟨id, t, ss, hs, hall⟩ := h
    exact ⟨id, t, ss, hs.foreign hforeign, hcovers hs.claims hs.there hall⟩
  | filled =>
    obtain ⟨id, t, ss, rows, hs, hall, hsave⟩ := h
    exact ⟨id, t, ss, rows, hs.foreign hforeign, hcovers hs.claims hs.there hall, hsave⟩
  | dropped =>
    obtain ⟨id, ss, hr⟩ := h
    exact ⟨id, ss, hr.foreign hforeign⟩

end Frame

/-! ### One call -/

/-- What an answered call does to the decks. -/
inductive Did (env : Env) (req : Request) (st st' : Store) (others : List Conn) (c : Conn) (m m' : Course)
    (a : Answered Query Query.Answer Err) : Prop
  | nothing (heffect : req.effect? env a = none) (hsame : DecksKept st.db st'.db) (hdone : m' = .done ↔ m = .done)
  | change (ch : Change) (user : String) (huser : req.userId? env = some user)
      (heffect : req.effect? env a = some (ch.op user)) (hdoes : ch.Does st.db st'.db)
      (hnew : ∀ p rows, ch = .create p rows → p.id ∉ st.issued ∧ p.id ∈ st'.issued)
      (hlock : (∃ p rows, ch = .create p rows) ∨
        (∃ t token email permission expiresAt, ch = .share t ∧
          a.1 = .shareTokenCreate t.presentationId token email permission expiresAt) ∨
        c.claims ch.id)
      (hshare : ∀ t, ch = .share t → ∀ d ∈ others, .deletePresentation t.presentationId ∉ d.tx.getD [])
      (hrows : ∀ s ∈ ch.rows, s.id ∈ st'.issued ∧ (s.id ∉ st.issued ∨ .insertSlide s ∈ c.tx.getD []))
      (hbefore : m ≠ .done) (hafter : m' = .done)

/-- A call of a request keeps what its transaction holds back. -/
structure CourseStep (env : Env) (req : Request) (st st' : Store) (others : List Conn) (c c' : Conn) (m m' : Course)
    (a : Answered Query Query.Answer Err) : Prop where
  did : Did env req st st' others c m m' a
  held : Held env st' req c' m'
  drawn : c'.Drawn st'
  apart : ∀ d ∈ others, c'.Apart d
  issued : st.issued ⊆ st'.issued

/-- Every stored id was issued, and nothing refers to a presentation that is not there. -/
structure Store.Sound (st : Store) : Prop where
  linked : st.db.Linked
  presentations : ∀ x ∈ st.db.presentations.keys, x ∈ st.issued
  slides : ∀ x ∈ st.db.slides.keys, x ∈ st.issued

section Step
variable {env : Env} {req : Request} {st st' : Store} {others : List Conn} {c c' : Conn} {m m' : Course} {q : Query}
  {r : Except Err q.Answer} {a : Answered Query Query.Answer Err} {id : String}

/-- Two transactions that lock the same row conflict. -/
theorem locks_conflict {x y : Write} (hx : x.locks id) (hy : y.locks id) : x.conflicts y = true := by
  cases x <;> first | exact hx.elim | skip
  all_goals
    cases y <;> first
      | exact hy.elim
      | (obtain rfl := hx
         obtain rfl := hy
         simp [Write.conflicts])

/-- A transaction that has locked a row which nobody else holds. -/
theorem apart_locked {ws : List Write} {y : Write} (hlock : y.locks id) (hc' : c' = { tx := some (ws ++ [y]) })
    (hc : c.tx = some ws) (hapart : ∀ d ∈ others, c.Apart d)
    (hun : ∀ d ∈ others, ∀ x ∈ d.tx.getD [], x.conflicts y = false) :
    ∀ d ∈ others, c'.Apart d := by
  intro d hd
  have hinserts : ∀ s, .insertSlide s ∈ c'.tx.getD [] → .insertSlide s ∈ c.tx.getD [] := by
    intro s hs
    rw [hc'] at hs
    rw [hc]
    rcases List.mem_append.mp hs with hs | hs
    · exact hs
    · obtain rfl := List.mem_singleton.mp hs
      exact hlock.elim
  refine ⟨fun id' hclaim hclaim' => ?_, fun s s' hs => (hapart d hd).slides s s' (hinserts s hs)⟩
  obtain ⟨z, hz, hzlock⟩ := hclaim
  rw [hc'] at hz
  rcases List.mem_append.mp hz with hz | hz
  · exact (hapart d hd).rows id' ⟨z, by rw [hc]; exact hz, hzlock⟩ hclaim'
  · obtain rfl := List.mem_singleton.mp hz
    obtain ⟨x, hx, hxlock⟩ := hclaim'
    have hfree := hun d hd x hx
    rw [locks_conflict hxlock hzlock] at hfree
    cases hfree

/-- A statement outside a transaction fails, or commits its changes at once. -/
theorem Act.outside_ok {a : q.Answer} (h : Act st others c q (.ok a) st' c')
    (hq : q.IsStatement) (hlock : q.locksRows = false) (htx : c.tx = none) : ∃ w ws, Fresh st w ∧
    exec w st.db st.db q = .ok (a, ws) ∧
      (∀ d ∈ others, ∀ x ∈ d.tx.getD [], ∀ y ∈ ws, x.conflicts y = false) ∧
      st'.issued = st.issued ∪ Set.range w.uuid ∧
      st'.db = st.db.applyAll ws ∧ c' = {} := by
  obtain ⟨w, ws, hfresh, hexec, hun, hissued, ⟨-, hdb, rfl⟩ | ⟨ws', htx', -, -⟩⟩ := h.ok_inv hq
  · have hview : c.view st.db = st.db := by rw [Conn.view, htx]; rfl
    rw [Conn.start, hlock, if_neg Bool.false_ne_true, hview] at hexec
    exact ⟨w, ws, hfresh, hexec, hun, hissued, hdb, rfl⟩
  · rw [htx] at htx'
    cases htx'

/-- A call that leaves the decks and performs nothing. -/
theorem Did.idle (heffect : req.effect? env a = none) (hdb : st'.db = st.db) (hm' : m' ≠ .done) (hm : m ≠ .done) :
    Did env req st st' others c m m' a :=
  .nothing heffect (hdb ▸ .refl _) (iff_of_false hm' hm)

-- what its connection holds back, and what the others do
variable (hdrawn : c.Drawn st) (hapart : ∀ d ∈ others, c.Apart d)
include hdrawn hapart

/-- A transaction that holds back no more than before, but for deletions of slides. -/
theorem CourseStep.of_subset (hsub : ∀ y ∈ c'.tx.getD [], y ∈ c.tx.getD [] ∨ ∃ id sid, y = .deleteSlide id sid)
    (hissued : st.issued ⊆ st'.issued)
    (hdid : Did env req st st' others c m m' a) (hheld : Held env st' req c' m') :
    CourseStep env req st st' others c c' m m' a where
  did := hdid
  held := hheld
  drawn s hs := by
    rcases hsub _ hs with hs | ⟨_, _, hs⟩
    · exact hissued (hdrawn s hs)
    · cases hs
  apart d hd := by
    refine ⟨fun id hclaim => ?_, fun s s' hs hs' => ?_⟩
    · obtain ⟨y, hy, hlock⟩ := hclaim
      rcases hsub y hy with hy | ⟨_, _, rfl⟩
      · exact (hapart d hd).rows id ⟨y, hy, hlock⟩
      · exact hlock.elim
    · rcases hsub _ hs with hs | ⟨_, _, hs⟩
      · exact (hapart d hd).slides s s' hs hs'
      · cases hs
  issued := hissued

/-- An error in a transaction. -/
theorem courseStep_error {e : Err} (h : Act st others c q (.error e) st' c') (hq : q.IsStatement) (hm : m ≠ .done)
    (htx : c.tx.isSome = true) :
    CourseStep env req st st' others c c' m .broken ⟨q, .error e⟩ := by
  obtain ⟨hdb, hissued, rfl⟩ := h.error_inv hq
  refine .of_subset hdrawn hapart (fun _ h => Or.inl h) hissued (.idle (effect?_error e) hdb (by decide) hm) htx

theorem courseStep_quiet (h : Act st others c q r st' c') (hq : q.quiet = true)
    (htx : c.tx = none) (hm : m.inTx = false) (hheld : Held env st req c m) :
    CourseStep env req st st' others c c' m (m.next q r) ⟨q, r⟩ := by
  have hstatement : q.IsStatement := by cases q <;> first | cases hq; done | trivial
  have hkeep : ∀ {c' : Conn}, c'.tx = none → Held env st' req c' m := fun htx' => by
    cases m with
    | idle | done | lost => exact htx'
    | _ => cases hm
  rw [Course.next_quiet hq hm]
  cases r with
  | error e =>
    obtain ⟨hdb, hissued, rfl⟩ := h.error_inv hstatement
    refine .of_subset hdrawn hapart (fun _ h => Or.inl h) hissued
      (.nothing (effect?_quiet hq _) ?_ Iff.rfl) (hkeep htx)
    rw [hdb]
    exact .refl _
  | ok a =>
    obtain ⟨w, ws, -, hexec, -, hissued, ⟨-, hdb, rfl⟩ | ⟨ws', htx', -, -⟩⟩ := h.ok_inv hstatement
    · refine .of_subset hdrawn hapart (fun _ h => (by cases h)) (hissued ▸ Set.subset_union_left)
        (.nothing (effect?_quiet hq _) ?_ Iff.rfl) (hkeep rfl)
      rw [hdb]
      have hview : c.view st.db = st.db := by rw [Conn.view, htx]; rfl
      rw [hview] at hexec
      exact decksKept_quiet hq hexec
    · rw [htx] at htx'
      cases htx'

theorem courseStep_create {userId : String} {title : Val} {data : List SlideData} {r : Except Err Deck}
    (h : Act st others c (.presentationCreate userId title data) r st' c') (huser : req.userId? env = some userId)
    (htx : c.tx = none) (hsound : st.Sound) :
    CourseStep env req st st' others c c' .idle (Course.next .idle (.presentationCreate userId title data) r)
      ⟨.presentationCreate userId title data, r⟩ := by
  cases r with
  | error e =>
    obtain ⟨hdb, hissued, rfl⟩ := h.error_inv trivial
    refine .of_subset hdrawn hapart (fun _ h => Or.inl h) hissued (.idle rfl hdb (fun h => by cases h) (by decide)) htx
  | ok deck =>
    obtain ⟨w, ws, hfresh, hexec, -, hissued, hdb, rfl⟩ := h.outside_ok trivial rfl htx
    have hdoes := does_create hsound.linked hexec
    obtain ⟨t, bodies, -, -, -, -, hrow, hslides, -, -⟩ := createDeck_ok hexec
    have hids : ∀ k, w.uuid k ∈ st'.issued := fun k => hissued ▸ Or.inr ⟨k, rfl⟩
    refine .of_subset hdrawn hapart (fun _ h => (by cases h)) (hissued ▸ Set.subset_union_left)
      (.change (.create deck.row deck.slides) _ huser rfl (hdb ▸ hdoes) ?_ (Or.inl ⟨_, _, rfl⟩)
        (fun t ht => by cases ht) ?_ (fun h => by cases h) rfl) rfl
    · rintro p rows hch
      cases hch
      rw [hrow]
      exact ⟨hfresh.2 0, hids 0⟩
    · intro s hs
      have hs' : s ∈ slideRows (w.uuid 0) w.now (fun i => w.uuid (i + 1)) bodies := hslides ▸ hs
      obtain ⟨-, k, hk⟩ := mem_slideRows hs'
      rw [hk]
      exact ⟨hids _, Or.inl (hfresh.2 _)⟩

theorem courseStep_share {token permission : String} {email : Val} {expiresAt : Option Time}
    {user : String} {r : Except Err Unit} (h : Act st others c
      (.shareTokenCreate id token email permission expiresAt) r st' c')
    (huser : req.userId? env = some user) (htx : c.tx = none) :
    CourseStep env req st st' others c c' .idle
      (Course.next .idle (.shareTokenCreate id token email permission expiresAt) r)
      ⟨.shareTokenCreate id token email permission expiresAt, r⟩ := by
  cases r with
  | error e =>
    obtain ⟨hdb, hissued, rfl⟩ := h.error_inv trivial
    refine .of_subset hdrawn hapart (fun _ h => Or.inl h) hissued (.idle rfl hdb (fun h => by cases h) (by decide)) htx
  | ok u =>
    obtain ⟨w, ws, hfresh, hexec, hun, hissued, hdb, rfl⟩ := h.outside_ok trivial rfl htx
    obtain ⟨e, t, he, rfl, hid, hkey, -, rfl⟩ := createShareToken_ok hexec
    have hdoes : (Change.share ⟨w.uuid 0, id, token, e, permission, t, false, w.now⟩).Does st.db st'.db :=
      hdb ▸ does_share hid hkey
    refine .of_subset hdrawn hapart (fun _ h => (by cases h)) (hissued ▸ Set.subset_union_left)
      (.change _ _ huser ?_ hdoes (fun p rows h => by cases h)
        (Or.inr (Or.inl ⟨_, token, email, permission, some t, rfl, rfl⟩))
        ?_ (fun s hs => by cases hs) (fun h => by cases h) rfl) rfl
    · simp only [Request.effect?, huser, he, Except.toOption, Option.bind_eq_bind, Option.bind_some]
      rfl
    · rintro t' ht' d hd hdrop
      cases ht'
      have hfree := hun d hd _ hdrop _ (List.mem_singleton_self _)
      simp [Write.conflicts] at hfree

theorem courseStep_begin {r : Except Err Unit} (h : Act st others c .begin r st' c') (htx : c.tx = none)
    :
    CourseStep env req st st' others c c' .idle (Course.next .idle .begin r) ⟨.begin, r⟩ := by
  rcases h.inv with ⟨w, -, -, rfl, rfl, rfl⟩ | ⟨rfl, rfl, rfl⟩
  · exact .of_subset hdrawn hapart (fun _ h => (by cases h)) Set.subset_union_left
      (.idle rfl rfl (fun h => by cases h) (by decide)) rfl
  · exact .of_subset hdrawn hapart (fun _ h => Or.inl h) subset_rfl
      (.idle rfl rfl (fun h => by cases h) (by decide)) htx

theorem courseStep_rollback {r : Except Err Unit} (h : Act st others c .rollback r st' c') (hm : m ≠ .done)
    :
    CourseStep env req st st' others c c' m .lost ⟨.rollback, r⟩ := by
  rcases h.inv with ⟨w, -, -, rfl, rfl, rfl⟩ | ⟨rfl, rfl, rfl⟩
  · exact .of_subset hdrawn hapart (fun _ h => (by cases h)) Set.subset_union_left
      (.idle rfl rfl (by decide) hm) rfl
  · exact .of_subset hdrawn hapart (fun _ h => (by cases h)) subset_rfl (.idle rfl rfl (by decide) hm) rfl

theorem courseStep_title {title : Val} {body : Val} {user : AuthUser} {r : Except Err Presentation}
    (h : Act st others c (.presentationUpdate id title) r st' c')
    (hreq : req.endpoint = .updatePresentation id body) (huser : req.user? env = some user) (hid : user.id ≠ "")
    (htitle : get body "title" = some title) (htx : c.tx = some [])
    :
    CourseStep env req st st' others c c' .opened (Course.next .opened (.presentationUpdate id title) r)
      ⟨.presentationUpdate id title, r⟩ := by
  cases r with
  | error e => exact courseStep_error hdrawn hapart h trivial (by decide) (by rw [htx]; rfl)
  | ok pres =>
    obtain ⟨w, ws, -, hexec, hun, hissued, ⟨htx', -, -⟩ | ⟨ws', htx', hdb, rfl⟩⟩ := h.ok_inv trivial
    · rw [htx] at htx'
      cases htx'
    obtain rfl : [] = ws' := Option.some.inj (htx.symm.trans htx')
    have hview : c.view st.db = st.db := by rw [Conn.view, htx]; rfl
    rw [hview] at hexec
    obtain ⟨t, p₀, ht, -, hp₀, -, rfl⟩ := updatePresentationRow_ok hexec
    have hthere : id ∈ st'.db.presentations.keys := by
      rw [hdb]
      exact Table.mem_keys.mpr ⟨p₀, Table.mem_of_find? hp₀, Table.key_of_find? hp₀⟩
    have hsaving : Saving env st' req { tx := some [.patchPresentation id w.now t] } id t [] [] :=
      .of_empty ⟨user, body, hreq, huser, hid, title, htitle, ht⟩ ⟨w.now, rfl⟩ hthere rfl
    refine ⟨.idle rfl hdb (fun h => by cases h) (by decide), ⟨id, t, hsaving⟩, fun s hs => ?_, ?_,
      hissued ▸ Set.subset_union_left⟩
    · rcases List.mem_cons.mp hs with hs | hs <;> cases hs
    · exact apart_locked (y := .patchPresentation id w.now t)
        (show id = id from rfl) rfl htx hapart fun d hd x hx =>
        hun d hd x hx _ (List.mem_singleton_self _)

theorem courseStep_clear {t : Option String} {r : Except Err Unit}
    (h : Act st others c (.slideDeleteMany id) r st' c') (hs : Saving env st req c id t [] []) :
    CourseStep env req st st' others c c' .titled
      (Course.next .titled (.slideDeleteMany id) r) ⟨.slideDeleteMany id, r⟩ := by
  obtain ⟨at_, htx⟩ := hs.pending
  cases r with
  | error e => exact courseStep_error hdrawn hapart h trivial (by decide) (by rw [htx]; rfl)
  | ok u =>
    obtain ⟨w, ws, -, hexec, -, hissued, ⟨htx', -, -⟩ | ⟨ws', htx', hdb, rfl⟩⟩ := h.ok_inv trivial
    · rw [htx] at htx'
      cases htx'
    obtain rfl : [.patchPresentation id at_ t] = ws' := Option.some.inj (htx.symm.trans htx')
    cases hexec
    have hcover : ∀ s ∈ st.db.slidesOf id, s ∈ (c.start st.db (.slideDeleteMany id)).slidesOf id := by
      intro s hmem
      have hview : ∀ db, (c.view db).slidesOf id = db.slidesOf id := fun db => by rw [Conn.view, htx]; rfl
      show s ∈ (c.view (c.snapshot.getD st.db)).slidesOf id
      rw [hview]
      cases hsnap : c.snapshot with
      | none => exact hmem
      | some db => exact hs.started db hsnap s hmem
    generalize hss : ((c.start st.db (.slideDeleteMany id)).slidesOf id).filter
      (·.id ∈ (c.view st.db).slides.keys) = ss
    refine .of_subset hdrawn hapart (fun y hy => ?_) (hissued ▸ Set.subset_union_left)
      (.idle rfl hdb (fun h => by cases h) (by decide))
      ⟨id, t, ss, .of_empty hs.asks ⟨at_, ?_⟩ (hdb ▸ hs.there) rfl, ?_⟩
    · rw [htx]
      rcases List.mem_append.mp hy with hy | hy
      · exact Or.inl hy
      · obtain ⟨x, -, rfl⟩ := List.mem_map.mp hy
        exact Or.inr ⟨_, _, rfl⟩
    · rw [← hss]
      rfl
    · intro s hmem
      rw [hdb] at hmem
      refine ⟨s, hss ▸ List.mem_filter.mpr ⟨hcover s hmem, decide_eq_true ?_⟩, rfl⟩
      rw [Conn.view, htx]
      exact Table.mem_keys.mpr ⟨s, (List.mem_filter.mp hmem).1, rfl⟩

theorem courseStep_fill {t : Option String} {ss : List Slide} {data : List SlideData}
    {body slides : Val} {r : Except Err Unit} (h : Act st others c (.slideCreateMany id data) r st' c')
    (hs : Saving env st req c id t ss []) (hcovers : Covers st id ss)
    (hreq : req.endpoint = .updatePresentation id body) (hslides : get body "slides" = some slides)
    (hdata : slidesToInsert slides = some (some data)) (hsound : st.Sound) (hothers : ∀ d ∈ others, d.Drawn st) :
    CourseStep env req st st' others c c' .cleared (Course.next .cleared (.slideCreateMany id data) r)
      ⟨.slideCreateMany id data, r⟩ := by
  obtain ⟨at_, htx⟩ := hs.pending
  cases r with
  | error e => exact courseStep_error hdrawn hapart h trivial (by decide) (by rw [htx]; rfl)
  | ok u =>
    obtain ⟨w, ws, hfresh, hexec, -, hissued, ⟨htx', -, -⟩ | ⟨ws', htx', hdb, rfl⟩⟩ := h.ok_inv trivial
    · rw [htx] at htx'
      cases htx'
    obtain rfl := Option.some.inj (htx.symm.trans htx')
    obtain ⟨bodies, hbodies, -, ⟨hnodup, -⟩, rfl⟩ := createSlides_ok hexec
    obtain ⟨user, body', hreq', huser, hid, title, htitle, ht⟩ := hs.asks
    obtain rfl : body = body' := by
      rw [hreq] at hreq'
      cases hreq'
      rfl
    have hdrawnIds : ∀ s ∈ slideRows id w.now w.uuid bodies, s.id ∈ st'.issued ∧ s.id ∉ st.issued := by
      intro s hmem
      obtain ⟨-, k, hk⟩ := mem_slideRows hmem
      rw [hk, hissued]
      exact ⟨Or.inr ⟨k, rfl⟩, hfresh.2 k⟩
    generalize hc' : ({ tx := some (.patchPresentation id at_ t ::
      (ss.map (.deleteSlide id ·.id) ++ [].map .insertSlide) ++
      (slideRows id w.now w.uuid bodies).map .insertSlide) } : Conn) = c'
    have hinserts : ∀ s, .insertSlide s ∈ c'.tx.getD [] → s ∈ slideRows id w.now w.uuid bodies := by
      intro s hmem
      rw [← hc'] at hmem
      simpa using hmem
    have hsaving : Saving env st' req c' id t ss (slideRows id w.now w.uuid bodies) := by
      subst hc'
      refine ⟨hs.asks, ⟨at_, ?_⟩, hdb ▸ hs.there, fun _ h => (by cases h), fun s hmem => (mem_slideRows hmem).1, hnodup,
        fun s hmem hkey => ?_⟩
      · rw [List.map_nil, List.append_nil]
        rfl
      · rw [hdb] at hkey
        exact (hdrawnIds s hmem).2 (hsound.slides _ hkey)
    have hcovers' : Covers st' id ss := by
      unfold Covers
      rw [hdb]
      exact hcovers
    have hsave : Slideo.save? user body = some ⟨t, (slideRows id w.now w.uuid bodies).map Slide.body⟩ := by
      rw [body_slideRows]
      exact save?_eq_some.mpr ⟨title, slides, some data, htitle, hslides, hid, ht, hdata, hbodies⟩
    refine ⟨.idle rfl hdb (fun h => by cases h) (by decide),
      ⟨id, t, ss, slideRows id w.now w.uuid bodies, hsaving, hcovers', user, body, hreq, huser, hsave⟩,
      fun s hmem => (hdrawnIds s (hinserts s hmem)).1,
      fun d hd => ⟨fun id' hclaim => ?_, fun s s' hmem hmem' heq => ?_⟩, hissued ▸ Set.subset_union_left⟩
    · obtain ⟨y, hy, hlock⟩ := hclaim
      rw [← hc'] at hy
      rcases List.mem_append.mp hy with hy | hy
      · exact (hapart d hd).rows id' ⟨y, by rw [htx]; exact hy, hlock⟩
      · obtain ⟨x, -, rfl⟩ := List.mem_map.mp hy
        exact hlock.elim
    · exact (hdrawnIds s (hinserts s hmem)).2 (heq ▸ hothers d hd s' hmem')

theorem courseStep_sweep {r : Except Err Unit} (h : Act st others c (.slideDeleteMany id) r st' c')
    (hreq : req.endpoint = .deletePresentation id) (htx : c.tx = some []) :
    CourseStep env req st st' others c c' .opened
      (Course.next .opened (.slideDeleteMany id) r) ⟨.slideDeleteMany id, r⟩ := by
  cases r with
  | error e => exact courseStep_error hdrawn hapart h trivial (by decide) (by rw [htx]; rfl)
  | ok u =>
    obtain ⟨w, ws, -, hexec, -, hissued, ⟨htx', -, -⟩ | ⟨ws', htx', hdb, rfl⟩⟩ := h.ok_inv trivial
    · rw [htx] at htx'
      cases htx'
    obtain rfl : [] = ws' := Option.some.inj (htx.symm.trans htx')
    cases hexec
    refine .of_subset hdrawn hapart (fun y hy => ?_) (hissued ▸ Set.subset_union_left)
      (.idle rfl hdb (fun h => by cases h) (by decide))
      ⟨id, _, hreq, rfl⟩
    obtain ⟨x, -, rfl⟩ := List.mem_map.mp hy
    exact Or.inr ⟨_, _, rfl⟩

theorem courseStep_drop {ss : List Slide} {r : Except Err Unit}
    (h : Act st others c (.presentationDelete id) r st' c') (hreq : req.endpoint = .deletePresentation id)
    (htx : c.tx = some (ss.map (.deleteSlide id ·.id))) :
    CourseStep env req st st' others c c' .swept (Course.next .swept (.presentationDelete id) r)
      ⟨.presentationDelete id, r⟩ := by
  cases r with
  | error e => exact courseStep_error hdrawn hapart h trivial (by decide) (by rw [htx]; rfl)
  | ok u =>
    obtain ⟨w, ws, -, hexec, hun, hissued, ⟨htx', -, -⟩ | ⟨ws', htx', hdb, rfl⟩⟩ := h.ok_inv trivial
    · rw [htx] at htx'
      cases htx'
    obtain rfl : ss.map (.deleteSlide id ·.id) = ws' := Option.some.inj (htx.symm.trans htx')
    have hview : c.view st.db = { st.db with
        slides := st.db.slides.delete fun s => s.presentationId == id && ss.any (·.id == s.id) } := by
      rw [Conn.view, htx]
      exact applyAll_deleteSlides
    rw [hview] at hexec
    obtain ⟨-, hkey, hslides, htokens, rfl⟩ := deletePresentationRow_ok hexec
    refine ⟨.idle rfl hdb (fun h => by cases h) (by decide),
      ⟨id, ss, hreq, rfl, hdb ▸ hkey, ?_, hdb ▸ htokens⟩, fun s hmem => ?_,
      apart_locked (y := .deletePresentation id) (show id = id from rfl) rfl htx hapart fun d hd x hx =>
        hun d hd x hx _ (List.mem_singleton_self _), hissued ▸ Set.subset_union_left⟩
    · -- a slide that is not among the swept ones would still be there
      intro s hmem
      rw [hdb] at hmem
      obtain ⟨hrow, hid⟩ := List.mem_filter.mp hmem
      by_contra hnone
      refine List.not_mem_nil (hslides ▸ List.mem_filter.mpr ⟨Table.mem_delete.mpr ⟨hrow, ?_⟩, hid⟩ : s ∈ [])
      have hany : ss.any (·.id == s.id) = false := List.any_eq_false.mpr fun x hx hxs =>
        hnone ⟨x, hx, beq_iff_eq.mp hxs⟩
      rw [hany, Bool.and_false]
    · rcases List.mem_append.mp hmem with hmem | hmem
      · obtain ⟨x, -, hx⟩ := List.mem_map.mp hmem
        cases hx
      · cases List.mem_singleton.mp hmem

/-- A `COMMIT` brings the changes of the transaction, or is lost with them. -/
theorem courseStep_commit {r : Except Err Unit} (ch : Change) {user : AuthUser}
    (h : Act st others c .commit r st' c') (hm : m ≠ .done) (huser : req.user? env = some user)
    (heffect : req.effect? env ⟨.commit, .ok ()⟩ = some (ch.op user.id)) (hclaim : c.claims ch.id)
    (hch : (∀ p rows, ch ≠ .create p rows) ∧ ∀ t, ch ≠ .share t) (hdoes : ch.Does st.db (c.view st.db))
    (hrows : ∀ s ∈ ch.rows, .insertSlide s ∈ c.tx.getD []) :
    CourseStep env req st st' others c c' m (m.next .commit r) ⟨.commit, r⟩ := by
  rcases h.inv with ⟨w, -, -, rfl, rfl, rfl⟩ | ⟨rfl, rfl, rfl⟩
  · have hnext : m.next .commit (.ok ()) = .done := by cases m <;> rfl
    show CourseStep _ _ _ _ _ _ _ m (m.next .commit (.ok ())) _
    rw [hnext]
    refine .of_subset hdrawn hapart (fun _ h => (by cases h)) Set.subset_union_left (.change ch user.id
      (by rw [Request.userId?, huser]; rfl) heffect hdoes
      (fun p rows h => absurd h (hch.1 p rows)) (Or.inr (Or.inr hclaim))
      (fun t ht => absurd ht (hch.2 t))
      (fun s hs => ⟨Or.inl (hdrawn s (hrows s hs)), Or.inr (hrows s hs)⟩) hm rfl) rfl
  · have hnext : m.next .commit (.error .unavailable) = .lost := by cases m <;> rfl
    rw [hnext]
    exact .of_subset hdrawn hapart (fun _ h => (by cases h)) subset_rfl (.idle rfl rfl (by decide) hm) rfl

theorem courseStep_commitSave {t : Option String} {ss rows : List Slide} {user : AuthUser}
    {body : Val} {r : Except Err Unit} (h : Act st others c .commit r st' c') (hm : m ≠ .done)
    (hs : Saving env st req c id t ss rows) (hcovers : Covers st id ss)
    (hreq : req.endpoint = .updatePresentation id body) (huser : req.user? env = some user)
    (hsave : Slideo.save? user body = some ⟨t, rows.map Slide.body⟩) :
    CourseStep env req st st' others c c' m (m.next .commit r) ⟨.commit, r⟩ := by
  obtain ⟨at_, htx⟩ := hs.pending
  refine courseStep_commit hdrawn hapart (.save id at_ t rows) h hm huser ?_ hs.claims
    ⟨fun _ _ h => (by cases h), fun _ h => (by cases h)⟩ ?_ (fun s hmem => hs.inserts.mpr hmem)
  · simp [Request.effect?, hreq, huser, hsave, Change.op]
  · rw [Conn.view, htx]
    exact does_save hs.there hcovers hs.own hs.nodup hs.new

theorem courseStep_commitRemove {ss : List Slide} {user : AuthUser} {r : Except Err Unit}
    (h : Act st others c .commit r st' c') (hm : m ≠ .done) (hr : Removing st req c id ss)
    (huser : req.user? env = some user) :
    CourseStep env req st st' others c c' m (m.next .commit r) ⟨.commit, r⟩ := by
  refine courseStep_commit hdrawn hapart (.remove id) h hm huser ?_ hr.claims
    ⟨fun _ _ h => (by cases h), fun _ h => (by cases h)⟩ ?_ (fun s hmem => (by cases hmem))
  · simp [Request.effect?, hr.asks, Request.userId?, huser, Change.op]
  · rw [Conn.view, hr.pending]
    exact does_remove hr.there hr.covers hr.unshared

/-- Every call of a request on its course. -/
theorem Act.courseStep (h : Act st others c q r st' c') (hq : Allows env req m q) (hsound : st.Sound)
    (hheld : Held env st req c m) (hothers : ∀ d ∈ others, d.Drawn st) :
    CourseStep env req st st' others c c' m (m.next q r) ⟨q, r⟩ := by
  cases hq with
  | quiet hquiet hm =>
    have htx : c.tx = none := by
      cases m with
      | idle | done | lost => exact hheld
      | _ => cases hm
    exact courseStep_quiet hdrawn hapart h hquiet htx hm hheld
  | create hstores huser => exact courseStep_create hdrawn hapart h huser hheld hsound
  | share hreq huser => exact courseStep_share hdrawn hapart h huser hheld
  | begin hreq => exact courseStep_begin hdrawn hapart h hheld
  | title hreq huser hid htitle => exact courseStep_title hdrawn hapart h hreq huser hid htitle hheld
  | clear hreq =>
    obtain ⟨id, t, hs⟩ := hheld
    obtain ⟨user, body, hreq', -⟩ := hs.asks
    rw [hreq] at hreq'
    cases hreq'
    exact courseStep_clear hdrawn hapart h hs
  | fill hreq hslides hdata =>
    obtain ⟨id, t, ss, hs, hcovers⟩ := hheld
    obtain ⟨user, body, hreq', -⟩ := hs.asks
    rw [hreq] at hreq'
    cases hreq'
    exact courseStep_fill hdrawn hapart h hs hcovers hreq hslides hdata hsound hothers
  | commitCleared hreq hslides hdata =>
    obtain ⟨id, t, ss, hs, hcovers⟩ := hheld
    obtain ⟨user, body, hreq', huser, hid, title, htitle, ht⟩ := hs.asks
    rw [hreq] at hreq'
    cases hreq'
    have hsave : Slideo.save? user _ = some (⟨t, []⟩ : Save) :=
      save?_eq_some.mpr ⟨title, _, none, htitle, hslides, hid, ht, hdata, rfl⟩
    exact courseStep_commitSave hdrawn hapart h (by decide) hs hcovers hreq huser hsave
  | commitFilled =>
    obtain ⟨id, t, ss, rows, hs, hcovers, user, body, hreq, huser, hsave⟩ := hheld
    exact courseStep_commitSave hdrawn hapart h (by decide) hs hcovers hreq huser hsave
  | sweep hreq => exact courseStep_sweep hdrawn hapart h hreq hheld
  | drop hreq =>
    obtain ⟨id, ss, hreq', htx⟩ := hheld
    rw [hreq] at hreq'
    cases hreq'
    exact courseStep_drop hdrawn hapart h hreq htx
  | commitDropped huser =>
    obtain ⟨id, ss, hr⟩ := hheld
    exact courseStep_commitRemove hdrawn hapart h (by decide) hr huser
  | rollback hm =>
    have hlost : m.next .rollback r = .lost := by cases m <;> cases r <;> rfl
    rw [hlost]
    exact courseStep_rollback hdrawn hapart h (by rintro rfl; cases hm)

end Step

/-! ### Every run -/

/-- The course that a session has taken. -/
def courseOf (env : Env) (x : ServerSession) : Course := (Slideo.course env x.tag).after .idle x.log

/-- How many operations a session has performed. -/
def performed (env : Env) (x : ServerSession) : Nat := (x.log.filterMap (x.tag.effect? env)).length

/-- What holds of a session over a store. -/
structure OnCourse (env : Env) (st : Store) (x : ServerSession) : Prop where
  held : Held env st x.tag x.priv (courseOf env x)
  drawn : x.priv.Drawn st
  once : performed env x = if courseOf env x = .done then 1 else 0

/-- What holds of a server at any time. -/
structure Server.Coherent (env : Env) (c : Server) : Prop where
  sound : c.shared.Sound
  sessions : ∀ (i : Nat) (x : ServerSession), c.sessions[i]? = some x → OnCourse env c.shared x
  apart : ∀ (i j : Nat) (x y : ServerSession), i ≠ j → c.sessions[i]? = some x →
    c.sessions[j]? = some y → x.priv.Apart y.priv

/-- A server without requests over a sound store. -/
structure Server.Idle (c : Server) : Prop where
  sessions : c.sessions = []
  sound : c.shared.Sound

section Runs
variable {env : Env} {c₀ c c' : Server} {es : List ServerEvent} {e : ServerEvent}

theorem Server.Idle.initial (h : c.Idle) : c.Initial :=
  ⟨h.sessions, fun p hp => h.sound.presentations _ (Table.mem_keys.mpr ⟨p, hp, rfl⟩)⟩

theorem Server.Idle.coherent (h : c.Idle) : c.Coherent env where
  sound := h.sound
  sessions i x hx := by
    rw [h.sessions] at hx
    cases hx
  apart i j x y _ hx := by
    rw [h.sessions] at hx
    cases hx

theorem Conn.Apart.symm {c d : Conn} (h : c.Apart d) : d.Apart c :=
  ⟨fun id hd hc => h.rows id hc hd, fun s s' hs hs' heq => h.slides s' s hs' hs heq.symm⟩

theorem apart_none {c d : Conn} (h : c.tx = none) : c.Apart d := by
  refine ⟨fun id hclaim => ?_, fun s s' hs => ?_⟩
  · obtain ⟨y, hy, -⟩ := hclaim
    rw [h] at hy
    cases hy
  · rw [h] at hs
    cases hs

theorem Store.Sound.same {st st' : Store} (h : st.Sound) (hsame : DecksKept st.db st'.db)
    (hissued : st.issued ⊆ st'.issued) :
    st'.Sound := by
  obtain ⟨hp, hs, ht⟩ := hsame
  refine ⟨⟨?_, ?_⟩, ?_, ?_⟩
  · rw [hp, hs]
    exact h.linked.slides
  · rw [hp, ht]
    exact h.linked.shareTokens
  · rw [hp]
    exact fun x hx => hissued (h.presentations x hx)
  · rw [hs]
    exact fun x hx => hissued (h.slides x hx)

/-- What a request does keeps the store sound. -/
theorem Did.sound {req : Request} {st st' : Store} {others : List Conn} {c : Conn} {m m' : Course}
    {a : Answered Query Query.Answer Err} (h : Did env req st st' others c m m' a)
    (hissued : st.issued ⊆ st'.issued) (hsound : st.Sound) : st'.Sound := by
  cases h with
  | nothing _ hsame _ => exact hsound.same hsame hissued
  | change _ _ _ _ hdoes hnew _ _ hrows _ _ =>
    refine ⟨hdoes.linked hsound.linked, fun x hx => ?_, fun x hx => ?_⟩
    · rcases hdoes.keys hx with hx | ⟨p, rows, hch, rfl⟩
      · exact hissued (hsound.presentations x hx)
      · exact (hnew p rows hch).2
    · rcases hdoes.slide_keys hx with hx | ⟨s, hs, rfl⟩
      · exact hissued (hsound.slides x hx)
      · exact (hrows s hs).1

/-- What a request does is foreign to the others. -/
theorem Did.foreign {req : Request} {st st' : Store} {others : List Conn} {c d : Conn} {m m' : Course}
    {a : Answered Query Query.Answer Err} (h : Did env req st st' others c m m' a)
    (hd : d ∈ others) (hapart : c.Apart d) (hdrawn : d.Drawn st) : Foreign d st st' := by
  cases h with
  | nothing _ hsame _ => exact .same hsame
  | change _ _ _ _ hdoes hnew hlock hshare hrows _ _ =>
    refine .change hdoes (fun hthere => ?_) (fun t ht => hshare t ht d hd) fun s hs s' hs' heq => ?_
    · rcases hlock with ⟨p, rows, rfl⟩ | ⟨t, _, _, _, _, rfl, -⟩ | hclaim
      · exact absurd hthere hdoes.1
      · exact Or.inr ⟨t, rfl⟩
      · exact Or.inl (hapart.rows _ hclaim)
    · rcases (hrows s' hs').2 with hfresh | hpending
      · exact hfresh (heq ▸ hdrawn s hs)
      · exact hapart.slides s' s hpending hs heq.symm

theorem course_append {x : ServerSession} {c' : Conn} {q : Query} {r : Except Err q.Answer} {p : Handler Response} :
    courseOf env ⟨x.tag, c', p, x.log ++ [⟨q, r⟩]⟩ = (courseOf env x).next q r :=
  Monitor.after_append _ _ _

theorem performed_append {x : ServerSession} {c' : Conn} {q : Query}
    {r : Except Err q.Answer} {p : Handler Response} :
    performed env ⟨x.tag, c', p, x.log ++ [⟨q, r⟩]⟩ =
      performed env x + (x.tag.effect? env ⟨q, r⟩).toList.length := by
  simp only [performed, List.filterMap_append, List.length_append, List.filterMap_cons, List.filterMap_nil]
  cases x.tag.effect? env ⟨q, r⟩ <;> rfl

/-- Every session of a run keeps to its course. -/
theorem ServerRun.ends (h₀ : c₀.Idle) (run : ServerRun env c₀ es c) :
    ∀ x ∈ c.sessions, (Slideo.course env x.tag).Ensures (courseOf env x) x.prog (Ends x.tag.endpoint) := fun x hx =>
  Run.ensures (T := fun _ => True) (fun req => Slideo.course env req) (fun _ => .idle) run
    (fun req _ => ends_handle env req)
    (fun x hx => by rw [h₀.sessions] at hx; cases hx) x hx trivial

theorem exists_of_others {i : Nat} {d : Conn} (hd : d ∈ c.others i) :
    ∃ j y, j ≠ i ∧ c.sessions[j]? = some y ∧ y.priv = d := by
  obtain ⟨y, hy, rfl⟩ := List.mem_map.mp hd
  obtain ⟨j, hji, hj⟩ := List.mem_eraseIdx_iff_getElem?.mp hy
  exact ⟨j, y, hji, hj, rfl⟩

/-- The call that a session of a coherent server waits for. -/
theorem Server.Coherent.call (inv : c.Coherent env) {i : Nat} {x : ServerSession} {q : Query}
    {k : Except Err q.Answer → Handler Response} {r : Except Err q.Answer} {st' : Store} {p' : Conn}
    (hends : ∀ x ∈ c.sessions, (Slideo.course env x.tag).Ensures (courseOf env x) x.prog (Ends x.tag.endpoint))
    (hs : c.sessions[i]? = some x) (hp : x.prog = .call q k) (ha : Act c.shared (c.others i) x.priv q r st' p') :
    CourseStep env x.tag c.shared st' (c.others i) x.priv p' (courseOf env x)
      ((courseOf env x).next q r) ⟨q, r⟩ := by
  have hq := hends x (List.mem_of_getElem? hs)
  rw [hp] at hq
  have hx := inv.sessions i x hs
  refine ha.courseStep hx.drawn (fun d hd => ?_) hq.1 inv.sound hx.held fun d hd => ?_
  · obtain ⟨j, y, hji, hy, rfl⟩ := exists_of_others hd
    exact inv.apart i j x y hji.symm hs hy
  · obtain ⟨j, y, -, hy, rfl⟩ := exists_of_others hd
    exact (inv.sessions j y hy).drawn

theorem CourseStep.onCourse {x : ServerSession} {st st' : Store} {others : List Conn} {p' : Conn} {q : Query}
    {r : Except Err q.Answer} {p : Handler Response} (hx : OnCourse env st x)
    (h : CourseStep env x.tag st st' others x.priv p' (courseOf env x) ((courseOf env x).next q r) ⟨q, r⟩) :
    OnCourse env st' ⟨x.tag, p', p, x.log ++ [⟨q, r⟩]⟩ where
  held := by
    rw [course_append]
    exact h.held
  drawn := h.drawn
  once := by
    rw [performed_append, course_append, hx.once]
    cases h.did with
    | nothing heffect _ hdone =>
      simp only [heffect, hdone, Option.toList_none, List.length_nil, Nat.add_zero]
    | change _ _ _ heffect _ _ _ _ _ hbefore hafter =>
      rw [heffect, if_neg hbefore, if_pos hafter]
      rfl

theorem Held.stall {st : Store} {req : Request} {c : Conn} {m : Course} (h : Held env st req c m) :
    Held env st req { c with snapshot := some st.db } m := by
  have hsaving : ∀ {id t ss rows}, Saving env st req c id t ss rows →
      Saving env st req { c with snapshot := some st.db } id t ss rows := fun hs =>
    ⟨hs.asks, hs.pending, hs.there, fun db hdb s hmem => by cases hdb; exact hmem, hs.own, hs.nodup, hs.new⟩
  cases m with
  | idle | done | lost | opened | broken | swept => exact h
  | titled =>
    obtain ⟨id, t, hs⟩ := h
    exact ⟨id, t, hsaving hs⟩
  | cleared =>
    obtain ⟨id, t, ss, hs, hcovers⟩ := h
    exact ⟨id, t, ss, hsaving hs, hcovers⟩
  | filled =>
    obtain ⟨id, t, ss, rows, hs, hcovers, hsave⟩ := h
    exact ⟨id, t, ss, rows, hsaving hs, hcovers, hsave⟩
  | dropped =>
    obtain ⟨id, ss, hr⟩ := h
    exact ⟨id, ss, hr.asks, hr.pending, hr.there, hr.covers, hr.unshared⟩

/-- Sessions keep apart when one of them changes and stays apart from the others. -/
theorem apart_set {i : Nat} {x x' : ServerSession} (hs : c.sessions[i]? = some x)
    (hapart : ∀ (i j : Nat) (x y : ServerSession), i ≠ j → c.sessions[i]? = some x →
      c.sessions[j]? = some y → x.priv.Apart y.priv)
    (hself : ∀ d ∈ c.others i, x'.priv.Apart d) :
    ∀ (j l : Nat) (y z : ServerSession), j ≠ l → (c.sessions.set i x')[j]? = some y →
    (c.sessions.set i x')[l]? = some z →
      y.priv.Apart z.priv := by
  have hothers : ∀ j (y : ServerSession), j ≠ i → c.sessions[j]? = some y →
    x'.priv.Apart y.priv := fun j y hji hy =>
    hself _ (mem_others hji hy)
  intro j l y z hjl hy hz
  by_cases hj : i = j
  · subst hj
    rw [List.getElem?_set_self (List.getElem?_eq_some_iff.mp hs).1] at hy
    cases hy
    rw [List.getElem?_set_ne hjl] at hz
    exact hothers l z hjl.symm hz
  · rw [List.getElem?_set_ne hj] at hy
    by_cases hl : i = l
    · subst hl
      rw [List.getElem?_set_self (List.getElem?_eq_some_iff.mp hs).1] at hz
      cases hz
      exact (hothers j y hjl hy).symm
    · rw [List.getElem?_set_ne hl] at hz
      exact hapart j l y z hjl hy hz

theorem Server.Coherent.step (inv : c.Coherent env)
    (hends : ∀ x ∈ c.sessions, (Slideo.course env x.tag).Ensures (courseOf env x) x.prog (Ends x.tag.endpoint))
    (h : ServerStep env c e c') : c'.Coherent env := by
  cases h with
  | spawn req =>
    have hnew : ∀ {i : Nat} {x : ServerSession}, (c.sessions ++ [fresh (handle env) ({} : Conn) req])[i]? = some x →
        c.sessions[i]? = some x ∨ x = fresh (handle env) ({} : Conn) req := by
      intro i x hx
      rw [List.getElem?_append] at hx
      split at hx
      · exact Or.inl hx
      · exact Or.inr (List.mem_singleton.mp (List.mem_of_getElem? hx))
    refine ⟨inv.sound, fun i x hx => ?_, fun i j x y hij hx hy => ?_⟩
    · rcases hnew hx with hx | rfl
      · exact inv.sessions i x hx
      · exact ⟨rfl, fun _ h => (by cases h), rfl⟩
    · rcases hnew hx with hx | rfl
      · rcases hnew hy with hy | rfl
        · exact inv.apart i j x y hij hx hy
        · exact (apart_none rfl).symm
      · exact apart_none rfl
  | @act i x q k r st' p' hs hp ha =>
    have hstep := inv.call hends hs hp ha
    refine ⟨hstep.did.sound hstep.issued inv.sound,
      sessions_set hs (hstep.onCourse (inv.sessions i x hs)) fun j y hji hy => ?_,
      apart_set hs inv.apart hstep.apart⟩
    have hy' := inv.sessions j y hy
    have hforeign := hstep.did.foreign (mem_others hji hy) (inv.apart i j x y hji.symm hs hy) hy'.drawn
    exact ⟨hy'.held.foreign hforeign, fun s hmem => hstep.issued (hy'.drawn s hmem), hy'.once⟩
  | @stall i x q k p' hs hp ha =>
    obtain ⟨-, -, rfl⟩ := ha
    have hx := inv.sessions i x hs
    refine ⟨inv.sound, sessions_set hs ⟨hx.held.stall, hx.drawn, hx.once⟩ fun j y _ hy => inv.sessions j y hy,
      apart_set hs inv.apart fun d hd => ?_⟩
    obtain ⟨j, y, hji, hy, rfl⟩ := exists_of_others hd
    exact ⟨(inv.apart i j x y hji.symm hs hy).rows, (inv.apart i j x y hji.symm hs hy).slides⟩

theorem ServerRun.coherent (h₀ : c₀.Idle) (run : ServerRun env c₀ es c) : c.Coherent env := by
  induction run with
  | nil => exact h₀.coherent
  | snoc run step ih => exact ih.step (ServerRun.ends h₀ run) step

end Runs

end Slideo
