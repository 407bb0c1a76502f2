import Slideo.Theorems.Provenance

/-! Scrolling through the list of decks. A client reads `GET /presentations` page by page while other requests
    come and go. New decks move the list on, but never back: a client that has come to the end has seen
    every deck that was there when it began, provided that no two decks were created at one instant. Among
    decks of one instant each query may choose its own order. -/

namespace Slideo
open Js Interleave

/-! ### Lists that grow -/

section Lists
variable {α : Type} {r : α → α → Prop} [DecidableRel r] [Std.Total r] [IsTrans α r]

/-- Sorting keeps the order of what was there when one more comes. -/
theorem insertionSort_append (l : List α) (x : α) :
    List.Sublist (l.insertionSort r) ((l ++ [x]).insertionSort r) := by
  induction l with
  | nil => exact List.nil_sublist _
  | cons a l ih =>
    rw [List.cons_append, List.insertionSort_cons, List.insertionSort_cons]
    exact ih.orderedInsert_sublist a (List.pairwise_insertionSort r _)

end Lists

/-! ### The list of a user -/

/-- When the decks of a user were created, with their ids, in the order of the table. -/
def Db.created (db : Db) (u : String) : List (Time × String) :=
  (db.presentations.rows.filter (·.userId == u)).map fun p => (p.createdAt, p.id)

/-- The ids of a user's decks as they are listed, newest first. -/
def Db.listed (db : Db) (u : String) : List String :=
  ((db.created u).insertionSort fun a b => b.1 ≤ a.1).map (·.2)

/-- No two decks of a user were created at one instant. -/
def Db.TimesApart (db : Db) (u : String) : Prop := ((db.created u).map (·.1)).Nodup

section Listed
variable {db db' : Db} {u x : String}

theorem mem_listed : x ∈ db.listed u ↔ ∃ p ∈ db.presentations.rows, p.userId = u ∧ p.id = x := by
  simp [Db.listed, Db.created, and_assoc]

/-- A page of the list, where its order is fixed. -/
theorem Db.Lists.ids {limit skip : Nat} {rows : List (Presentation × Nat)} (h : db.Lists u limit skip rows)
    (hapart : db.TimesApart u) : rows.map (·.1.id) = ((db.listed u).drop skip).take limit := by
  obtain ⟨order, hpage⟩ := h
  have hnodup : ((db.presentations.rows.filter (·.userId == u)).map (·.createdAt)).Nodup := by
    rwa [Db.TimesApart, Db.created, List.map_map] at hapart
  have hids : (order.sort (db.presentations.rows.filter (·.userId == u))).map (·.id) = db.listed u := by
    rw [order.sort_eq (.stable _) hnodup, Db.listed, Db.created,
      ← List.map_insertionSort (r := fun a b : Presentation => b.createdAt ≤ a.createdAt), List.map_map]
    · rfl
    · exact fun _ _ _ _ => Iff.rfl
  rw [page, if_neg (by omega), if_pos (by omega)] at hpage
  cases hpage
  rw [Int.toNat_natCast, Int.toNat_natCast, ← hids, List.map_take, List.map_drop, List.map_map]
  rfl

theorem created_of_rows (h : db'.presentations.rows.filter (·.userId == u) =
    db.presentations.rows.filter (·.userId == u)) :
    db'.created u = db.created u := by
  rw [Db.created, Db.created, h]

/-- A new version of a row stands where the old one stood. -/
theorem created_of_patch {id : String} {now : Time} {title : Option String} (h : db'.presentations =
    db.presentations.modify id (Presentation.patch now title) (Presentation.patch_id now title)) :
    db'.created u = db.created u := by
  have hrow : ∀ p : Presentation, (if p.id = id then p.patch now title else p).userId = p.userId ∧
      ((if p.id = id then p.patch now title else p).createdAt, (if p.id = id then p.patch now title else p).id) =
        (p.createdAt, p.id) := by
    intro p
    split <;> exact ⟨rfl, rfl⟩
  rw [Db.created, Db.created, h]
  simp only [Table.modify, List.filter_map, List.map_map]
  have hfilter : ((fun p : Presentation => p.userId == u) ∘ fun p => if p.id = id then p.patch now title else p) =
      fun p => p.userId == u := by
    funext p
    simp only [Function.comp_apply, (hrow p).1]
  rw [hfilter]
  exact List.map_congr_left fun p _ => (hrow p).2

/-- Whose list a change makes longer. -/
def Change.Adds (u : String) (ch : Change) : Prop := ∃ p rows, ch = .create p rows ∧ p.userId = u

/-- A change that removes no deck of a user leaves the user's decks as they are, or adds one. -/
theorem created_of_change {ch : Change} (h : ch.Does db db')
    (hkeep : ∀ id, ch = .remove id → ∀ p ∈ db.presentations.rows, p.id = id → p.userId ≠ u) :
    db'.created u = db.created u ∨ ch.Adds u ∧ ∃ x, db'.created u = db.created u ++ [x] := by
  cases ch with
  | create p rows =>
    obtain ⟨-, -, -, -, hp, -, -⟩ := h
    by_cases hu : p.userId = u
    · refine Or.inr ⟨⟨p, rows, rfl, hu⟩, (p.createdAt, p.id), ?_⟩
      rw [Db.created, Db.created, hp, List.filter_append,
        List.filter_cons_of_pos (by simpa using hu), List.filter_nil, List.map_append, List.map_singleton]
    · refine Or.inl (created_of_rows ?_)
      rw [hp, List.filter_append, List.filter_cons_of_neg (by simpa using hu), List.filter_nil, List.append_nil]
  | save id now title rows => exact Or.inl (created_of_patch h.2.2.1)
  | remove id =>
    refine Or.inl (created_of_rows ?_)
    rw [h.2.2.1, Table.delete, List.filter_filter]
    refine List.filter_congr fun p hp => ?_
    by_cases hid : p.id = id
    · have hne : (p.userId == u) = false := beq_false_of_ne (hkeep id rfl p hp hid)
      rw [hne, Bool.false_and]
    · have hne : (p.id == id) = false := beq_false_of_ne hid
      rw [hne, Bool.not_false, Bool.and_true]
  | share t => exact Or.inl (created_of_rows (by rw [h.2.1]))

theorem listed_of_created (h : db'.created u = db.created u ∨ ∃ x, db'.created u = db.created u ++ [x]) :
    List.Sublist (db.listed u) (db'.listed u) := by
  rcases h with h | ⟨x, h⟩
  · rw [Db.listed, Db.listed, h]
  · rw [Db.listed, Db.listed, h]
    exact (insertionSort_append _ x).map _

theorem Db.TimesApart.before (hapart : db'.TimesApart u)
    (h : db'.created u = db.created u ∨ ∃ x, db'.created u = db.created u ++ [x]) :
    db.TimesApart u := by
  rcases h with h | ⟨x, h⟩
  · rwa [Db.TimesApart, h] at hapart
  · rw [Db.TimesApart, h, List.map_append] at hapart
    exact hapart.of_append_left

end Listed

/-! ### Steps -/

/-- An operation that removes a deck of `u`. -/
def DeckOp.RemovesOf (u : String) (o : DeckOp) : Prop := ∃ id, o = .remove id u

/-- An operation that brings a deck of `u`. -/
def DeckOp.CreatesOf (u : String) (o : DeckOp) : Prop := ∃ id content, o = .create id u content

section Steps
variable {env : Env} {c₀ c c' : Server} {es : List ServerEvent} {e : ServerEvent} {u : String}

/-- The operation of an event. -/
def Server.effect? (env : Env) (c : Server) (e : ServerEvent) : Option DeckOp :=
  (e.effect? (Request.effect? env) (c.sessions.map (·.tag))).map (·.2)

/-- A step that removes no deck of a user leaves the user's decks as they are, or creates one. -/
theorem ServerStep.created (h₀ : c₀.Idle) (run : ServerRun env c₀ es c) (step : ServerStep env c e c')
    (hkeep : ∀ o, Server.effect? env c e = some o → ¬ o.RemovesOf u) :
    c'.shared.db.created u = c.shared.db.created u ∨
      (∃ o, Server.effect? env c e = some o ∧ o.CreatesOf u) ∧
      ∃ x, c'.shared.db.created u = c.shared.db.created u ++ [x] := by
  cases step with
  | spawn req => exact Or.inl rfl
  | stall hx hp ha => exact Or.inl rfl
  | @act i x q k r st' p' hx hp ha =>
    obtain ⟨s, -, hs⟩ := ServerRun.shows h₀ run
    have hperforms := ServerStep.performs h₀ run (.act hx hp ha) hs
    have heffect : Server.effect? env c (.act i ⟨q, r⟩) = x.tag.effect? env ⟨q, r⟩ := by
      simp only [Server.effect?, Event.effect?, List.getElem?_map, hx, Option.map_some,
        Option.bind_some, Option.map_map]
      exact Option.map_id' ..
    rw [heffect] at hkeep ⊢
    cases ((ServerRun.coherent h₀ run).call (ServerRun.ends h₀ run) hx hp ha).did with
    | nothing _ hsame _ => exact Or.inl (created_of_rows
      (congrArg (fun t => t.rows.filter (·.userId == u)) hsame.1))
    | change ch user huser hop hdoes _ _ _ _ _ _ =>
      refine (created_of_change (u := u) hdoes fun id hremove p hp hid hu => ?_).imp_right ?_
      · -- the deck is removed by its owner
        subst hremove
        simp only [Event.effect?, List.getElem?_map, hx, Option.map_some, Option.bind_some,
          hop, Option.elim_some] at hperforms
        obtain ⟨s', happly, -⟩ := hperforms
        obtain ⟨entry, -, hentry, howner, -, -⟩ := Shelf.onDeck_eq_some.mp happly
        rw [hs.decks, Db.entry?, ← hid, Table.find?_of_mem hp] at hentry
        cases hentry
        exact hkeep _ hop ⟨id, by rw [← hu]; exact congrArg (DeckOp.remove id) howner.symm⟩
      · rintro ⟨⟨p, rows, rfl, hu⟩, hadded⟩
        exact ⟨⟨_, hop, p.id, _, by rw [← hu]; rfl⟩, hadded⟩

end Steps

/-! ### One page -/

section Page
variable {env : Env} {req : Request} {user : AuthUser} {limit offset : Val}

/-- A request for a page makes one call, and shows what it brings. -/
def PageOf (env : Env) (req : Request) (log : List Call) (r : Except Err Response) : Prop :=
  ∀ rows, r = .ok ⟨200, .presentations rows⟩ → ∃ user limit offset take skip, req.user? env = some user ∧
    req.endpoint = .getUserPresentations limit offset ∧ parseIntAutoOr limit 10 = some take ∧
    parseIntAutoOr offset 0 = some skip ∧ log = [⟨.presentationFindMany user.id take skip, .ok rows⟩]

theorem pageOf_handle (huser : req.user? env = some user)
    (hreq : req.endpoint = .getUserPresentations limit offset) :
    listening.Ensures [] (handle env req) (PageOf env req) := by
  have refused : ∀ {log : List Call} {status : Nat} {message : String},
      PageOf env req log (.ok (.error status message)) := fun rows h => by cases h
  rw [handle, hreq]
  dsimp only
  rw [authenticated_of_user huser]
  refine Monitor.Ensures.tryCatch ?_
  show listening.Ensures [] (if _ then _ else _) _
  split
  · exact refused
  cases htake : parseIntAutoOr limit 10 with
  | none => exact refused
  | some take =>
    cases hskip : parseIntAutoOr offset 0 with
    | none => exact refused
    | some skip =>
      refine ⟨trivial, fun r => ?_⟩
      cases r with
      | error e => exact refused
      | ok rows =>
        intro rows' h
        cases h
        exact ⟨user, limit, offset, take, skip, huser, hreq, htake, hskip, rfl⟩

end Page

/-! ### Scrolling -/

/-- From `c₁` on, `u` reads page after page of `limit` decks, while other requests come and go whose
    operations satisfy `quiet`. -/
inductive Scroll (env : Env) (u : String) (limit : Nat) (quiet : DeckOp → Prop) (c₁ : Server) :
    List ServerEvent → Server → List (List String) → Prop
  | start : Scroll env u limit quiet c₁ [] c₁ []
  | wait {es : List ServerEvent} {c c' : Server} {e : ServerEvent} {pages : List (List String)}
      (h : Scroll env u limit quiet c₁ es c pages) (step : ServerStep env c e c')
      (hquiet : ∀ o, Server.effect? env c e = some o → quiet o) : Scroll env u limit quiet c₁ (es ++ [e]) c' pages
  | read {es : List ServerEvent} {c c' : Server} {pages : List (List String)}
      {i : Nat} {a : Call} {x : ServerSession}
      {user : AuthUser} {limitText offsetText : Val} {rows : List (Presentation × Nat)}
      (h : Scroll env u limit quiet c₁ es c pages)
      (step : ServerStep env c (.act i a) c') (hx : c'.sessions[i]? = some x)
      (hreq : x.tag.endpoint = .getUserPresentations limitText offsetText) (huser : x.tag.user? env = some user)
      (hid : user.id = u) (hlimit : parseIntAutoOr limitText 10 = some (limit : Int))
      (hoffset : parseIntAutoOr offsetText 0 = some ((pages.length * limit : Nat) : Int))
      (hp : x.prog = .pure ⟨200, .presentations rows⟩) :
      Scroll env u limit quiet c₁ (es ++ [.act i a]) c' (pages ++ [rows.map (·.1.id)])

section Scrolling
variable {env : Env} {c₀ c₁ c c' : Server} {es₀ es : List ServerEvent} {u : String} {limit : Nat}
  {quiet : DeckOp → Prop} {pages : List (List String)} {i : Nat} {a : Call} {x : ServerSession} {user : AuthUser}
  {limitText offsetText : Val} {rows : List (Presentation × Nat)} {skip : Nat}

theorem Scroll.run (h : Scroll env u limit quiet c₁ es c pages) : ServerRun env c₁ es c := by
  induction h with
  | start => exact .nil
  | wait _ step _ ih => exact ih.snoc step
  | read _ step _ _ _ _ _ _ _ ih => exact ih.snoc step

/-- The call that a page comes from. -/
theorem page_call (h₀ : c₀.Idle) (run : ServerRun env c₀ es c) (step : ServerStep env c (.act i a) c')
    (hx : c'.sessions[i]? = some x) (hreq : x.tag.endpoint = .getUserPresentations limitText offsetText)
    (huser : x.tag.user? env = some user) (hlimit : parseIntAutoOr limitText 10 = some (limit : Int))
    (hoffset : parseIntAutoOr offsetText 0 = some (skip : Int)) (hp : x.prog = .pure ⟨200, .presentations rows⟩) :
    a = ⟨.presentationFindMany user.id limit skip, .ok rows⟩ := by
  have run' : ServerRun env c₀ (es ++ [.act i a]) c' := run.snoc step
  have hends := Run.ensures (T := fun req => req = x.tag) (fun _ => listening) (fun _ => []) run'
    (fun req heq => heq ▸ pageOf_handle huser hreq) (fun s hs => by rw [h₀.sessions] at hs; cases hs) x
    (List.mem_of_getElem? hx) rfl
  rw [listening, after_transcript, hp] at hends
  obtain ⟨user', limit', offset', take, skip', huser', hreq', htake, hskip, hlog⟩ := hends rows rfl
  rw [huser] at huser'
  rw [hreq] at hreq'
  cases huser'
  cases hreq'
  rw [hlimit] at htake
  rw [hoffset] at hskip
  cases htake
  cases hskip
  cases step with
  | @act i s q k r st' p' hs hprog ha =>
    rw [List.getElem?_set_self (List.getElem?_eq_some_iff.mp hs).1] at hx
    cases hx
    have hlast : (⟨q, r⟩ : Call) ∈ s.log ++ [⟨q, r⟩] := mem_last
    rw [show s.log ++ [⟨q, r⟩] = _ from hlog] at hlast
    exact List.mem_singleton.mp hlast

/-- A page is a page of the user's decks as they are when it is read. -/
theorem page_lists (h₀ : c₀.Idle) (run : ServerRun env c₀ es c)
    (step : ServerStep env c (.act i ⟨.presentationFindMany u limit skip, .ok rows⟩) c') :
    c.shared.db.Lists u limit skip rows ∧ c'.shared.db = c.shared.db := by
  cases step with
  | @act i x q k r st' p' hx hp ha =>
    obtain ⟨w, ws, -, hexec, -, -, hdb, -⟩ := ha.outside_ok trivial rfl (closed_of_quiet h₀ run hx hp rfl)
    simp only [exec] at hexec
    obtain ⟨rows', hpage, heq⟩ := except_map_eq_ok.mp hexec
    cases heq
    exact ⟨⟨w.presentationOrder, hpage⟩, hdb⟩

/-- What a client has seen so far, and what is still ahead of it. -/
theorem Scroll.seen (h₀ : c₀.Idle) (run : ServerRun env c₀ es₀ c₁) (h : Scroll env u limit quiet c₁ es c pages)
    (hquiet : ∀ o, quiet o → ¬ o.RemovesOf u) {x : String} (hx : x ∈ c₁.shared.db.listed u)
    (hapart : c.shared.db.TimesApart u) :
    (x ∈ pages.flatten ∨ x ∈ (c.shared.db.listed u).drop (pages.length * limit)) ∧
      ((∃ page ∈ pages, page.length < limit) → x ∈ pages.flatten) := by
  induction h with
  | start =>
    refine ⟨Or.inr ?_, fun ⟨page, hpage, _⟩ => by cases hpage⟩
    rwa [List.length_nil, Nat.zero_mul, List.drop_zero]
  | wait h step hstep ih =>
    have hcreated := (ServerStep.created h₀ (run.trans h.run) step fun o ho => hquiet o (hstep o ho)).imp_right
      And.right
    obtain ⟨hseen, hend⟩ := ih (hapart.before hcreated)
    exact ⟨hseen.imp_right fun hahead => ((listed_of_created hcreated).drop _).subset hahead, hend⟩
  | @read es c c' pages i a x' user limitText offsetText rows h step hx' hreq huser hid hlimit hoffset hp ih =>
    obtain rfl := page_call h₀ (run.trans h.run) step hx' hreq huser hlimit hoffset hp
    rw [hid] at step
    obtain ⟨hlists, hdb⟩ := page_lists h₀ (run.trans h.run) step
    rw [hdb] at hapart ⊢
    have hids := hlists.ids hapart
    obtain ⟨hseen, hend⟩ := ih hapart
    rw [List.flatten_append, List.flatten_singleton, List.length_append,
      List.length_singleton, Nat.add_mul, Nat.one_mul, ← List.drop_drop]
    -- the next page takes its share of what is ahead
    have hnext : x ∈ (c.shared.db.listed u).drop (pages.length * limit) →
        x ∈ rows.map (·.1.id) ∨ x ∈ ((c.shared.db.listed u).drop (pages.length * limit)).drop limit := by
      intro hahead
      rw [hids]
      rw [← List.take_append_drop limit ((c.shared.db.listed u).drop _)] at hahead
      exact List.mem_append.mp hahead
    refine ⟨?_, fun ⟨page, hpage, hshort⟩ => List.mem_append.mpr ?_⟩
    · rcases hseen with hseen | hahead
      · exact Or.inl (List.mem_append_left _ hseen)
      · exact (hnext hahead).imp_left (List.mem_append_right _)
    · rcases List.mem_append.mp hpage with hpage | hpage
      · exact Or.inl (hend ⟨page, hpage, hshort⟩)
      obtain rfl := List.mem_singleton.mp hpage
      refine hseen.imp_right fun hahead => (hnext hahead).resolve_right ?_
      -- a short page is the last one
      rw [hids, List.length_take] at hshort
      rw [List.drop_eq_nil_of_le (by omega)]
      exact List.not_mem_nil

/-- What a page shows belongs to its user. -/
theorem Scroll.owned (h₀ : c₀.Idle) (run : ServerRun env c₀ es₀ c₁) (h : Scroll env u limit quiet c₁ es c pages) :
    ∀ page ∈ pages, ∀ id ∈ page, Owner env c₀ (es₀ ++ es) id u := by
  induction h with
  | start => exact fun page hpage => by cases hpage
  | @wait es c c' e pages h step _ ih =>
    intro page hpage id hid
    rw [← List.append_assoc]
    exact (ih page hpage id hid).mono h₀ (run.trans h.run) _
  | @read es c c' pages i a x user limitText offsetText rows h step hx hreq huser hid hlimit hoffset hp ih =>
    intro page hpage id hmem
    rw [← List.append_assoc]
    refine Owner.mono h₀ (run.trans h.run) ?_ _
    rcases List.mem_append.mp hpage with hpage | hpage
    · exact ih page hpage id hmem
    obtain rfl := List.mem_singleton.mp hpage
    obtain rfl := page_call h₀ (run.trans h.run) step hx hreq huser hlimit hoffset hp
    rw [hid] at step
    obtain ⟨r, hr, rfl⟩ := List.mem_map.mp hmem
    obtain ⟨hrow, hu⟩ := (page_lists h₀ (run.trans h.run) step).1.mem r hr
    exact hu ▸ (ServerRun.settled h₀ (run.trans h.run)).rows r.1 hrow

/-- While the user's decks stay as they are, the pages are the pieces of the list one after another. -/
theorem Scroll.pieces (h₀ : c₀.Idle) (run : ServerRun env c₀ es₀ c₁) (h : Scroll env u limit quiet c₁ es c pages)
    (hkeep : ∀ o, quiet o → ¬ o.RemovesOf u) (hnew : ∀ o, quiet o → ¬ o.CreatesOf u)
    (hapart : c.shared.db.TimesApart u) :
    c.shared.db.created u = c₁.shared.db.created u ∧
    pages.flatten = (c₁.shared.db.listed u).take (pages.length * limit) := by
  induction h with
  | start => simp
  | wait h step hstep ih =>
    have hcreated := ServerStep.created h₀ (run.trans h.run) step fun o ho => hkeep o (hstep o ho)
    obtain ⟨hsame, hpages⟩ := ih (hapart.before (hcreated.imp_right And.right))
    refine ⟨Eq.trans (hcreated.resolve_right ?_) hsame, hpages⟩
    rintro ⟨⟨o, ho, hcreates⟩, -⟩
    exact hnew o (hstep o ho) hcreates
  | @read es c c' pages i a x user limitText offsetText rows h step hx hreq huser hid hlimit hoffset hp ih =>
    obtain rfl := page_call h₀ (run.trans h.run) step hx hreq huser hlimit hoffset hp
    rw [hid] at step
    obtain ⟨hlists, hdb⟩ := page_lists h₀ (run.trans h.run) step
    rw [hdb] at hapart ⊢
    obtain ⟨hsame, hpages⟩ := ih hapart
    have hlisted : c.shared.db.listed u = c₁.shared.db.listed u := by rw [Db.listed, hsame, Db.listed]
    refine ⟨hsame, ?_⟩
    rw [List.flatten_append, List.flatten_singleton, List.length_append,
      List.length_singleton, Nat.add_mul, Nat.one_mul, hlists.ids hapart, hpages, hlisted, List.take_add]

/-- A user reads the list page by page while other requests come and go, none of which removes a deck of the
    user. The pages show decks of this user only. If no two decks of the user were created at one instant: once
    a page is short, the pages have shown every deck that was there at the beginning; and as long as no deck of
    the user comes, they are the list itself, piece by piece. -/
theorem scroll_complete (h₀ : c₀.Idle) (run : ServerRun env c₀ es₀ c₁) (h : Scroll env u limit quiet c₁ es c pages)
    (hquiet : ∀ o, quiet o → ¬ o.RemovesOf u) :
    (∀ page ∈ pages, ∀ id ∈ page, Owner env c₀ (es₀ ++ es) id u) ∧
    (c.shared.db.TimesApart u →
      ((∃ page ∈ pages, page.length < limit) →
        ∀ p ∈ c₁.shared.db.presentations.rows, p.userId = u → ∃ page ∈ pages, p.id ∈ page) ∧
      ((∀ o, quiet o → ¬ o.CreatesOf u) → pages.flatten =
        (c₁.shared.db.listed u).take (pages.length * limit))) := by
  refine ⟨h.owned h₀ run, fun hapart => ⟨fun hshort p hp hu => ?_, fun hnew =>
    (h.pieces h₀ run hquiet hnew hapart).2⟩⟩
  exact List.mem_flatten.mp ((h.seen h₀ run hquiet (mem_listed.mpr ⟨p, hp, hu, rfl⟩) hapart).2 hshort)

end Scrolling

/-! ### Two pages -/

/-- The ids that a request of `u` for a page of `limit` decks after the first `skip` has been answered with. -/
def pageRead? (env : Env) (u : String) (limit skip : Nat) (x : ServerSession) : Option (List String) :=
  match x.tag.endpoint, x.prog with
  | .getUserPresentations limitText offsetText, .pure ⟨200, .presentations rows⟩ =>
    if x.tag.userId? env = some u ∧ parseIntAutoOr limitText 10 = some (limit : Int) ∧
        parseIntAutoOr offsetText 0 = some (skip : Int) then some (rows.map (·.1.id)) else none
  | _, _ => none

section Moves
variable {env : Env} {c₁ c c' : Server} {es es' : List ServerEvent} {u : String} {limit : Nat}
  {quiet : DeckOp → Prop} {pages : List (List String)}

theorem Scroll.waits (h : Scroll env u limit quiet c₁ es c pages)
    (run : RunWhere server (handle env) {} (fun c e => ∀ o, Server.effect? env c e = some o → quiet o) c es' c') :
    Scroll env u limit quiet c₁ (es ++ es') c' pages := by
  induction run with
  | nil => rwa [List.append_nil]
  | snoc _ step hquiet ih =>
    rw [← List.append_assoc]
    exact ih.wait step hquiet

/-- The answer to a request for the next page. -/
theorem Scroll.reads {n : Nat} (w : World) (i : Nat) (ids : List String)
    (h : Scroll env u limit quiet c₁ es c pages) (hw : w.uuid = issue n) (hn : Unissued n c.shared.issued)
    (hfree : c.unblocked i w = true) (hpending : (c.sessions[i]?).any (!·.prog.ended) = true)
    (hread : ((c.tick i w).sessions[i]?).bind (pageRead? env u limit (pages.length * limit)) = some ids) :
    ∃ es, Scroll env u limit quiet c₁ es (c.tick i w) (pages ++ [ids]) ∧
    Unissued (n + 1) (c.tick i w).shared.issued := by
  obtain ⟨s, hs, hcall⟩ := (Option.any_eq_true _ _).mp hpending
  cases hprog : s.prog with
  | pure _ | throw _ =>
    rw [hprog] at hcall
    cases hcall
  | call q k =>
    have step := Server.tick_step env hs hprog (hn.fresh hw) hfree
    obtain ⟨x, hx, hids⟩ := Option.bind_eq_some_iff.mp hread
    unfold pageRead? at hids
    split at hids
    · rename_i limitText offsetText rows hreq hp
      split at hids
      · rename_i hasked
        obtain ⟨huser, hlimit, hoffset⟩ := hasked
        obtain ⟨user, huser, hid⟩ := Option.map_eq_some_iff.mp huser
        cases hids
        exact ⟨_, h.read step hx hreq huser hid hlimit hoffset hp, Server.tick_unissued hw hn⟩
      · cases hids
    · cases hids

end Moves

/-- An event that removes nothing. -/
def removesNone (env : Env) (c : Server) (e : ServerEvent) : Bool :=
  match Server.effect? env c e with
  | some (.remove _ _) => false
  | _ => true

theorem not_removes_of_none {env : Env} {c : Server} {e : ServerEvent} {u : String}
    (h : removesNone env c e = true) :
    ∀ o, Server.effect? env c e = some o → ¬ o.RemovesOf u := by
  rintro o ho ⟨id, rfl⟩
  rw [removesNone, ho] at h
  cases h

/-- `alice` creates a deck. -/
def newDeck (i : Nat) (topic : String) : List Move :=
  [.arrive (aliceRequest (.createPresentation (some (.obj [("topic", .str topic), ("slides", .arr [])])))),
    .answer i, .answer i, .answer i, .answer i]

/-- `alice` asks for `limit` decks after the first `skip`. -/
def decksFrom (limit skip : String) : Move :=
  .arrive (aliceRequest (.getUserPresentations (some (.str limit)) (some (.str skip))))

/-- A deck of instant 0, and one of instant 1. -/
def twoDecks : Server := (newOffice.play office 0 0 (newDeck 0 "One")).play office 1 5 (newDeck 1 "Two")

theorem quiet_run {n : Nat} {c : Server} (now : Time) (ms : List Move) (hn : Unissued n c.shared.issued)
    (hplay : c.playable (removesNone office) office now n ms = true) :
    RunWhere server (handle office) {} (fun c e => ∀ o, Server.effect? office c e = some o →
      ¬ o.RemovesOf "alice") c
      (c.events office now n ms) (c.play office now n ms) ∧
      Unissued (n + ms.length) (c.play office now n ms).shared.issued := by
  obtain ⟨run, hn⟩ := Server.play_run office hn hplay
  exact ⟨run.mono fun _ _ h => not_removes_of_none h, hn⟩

/-- The third deck comes between the pages. -/
theorem three_decks_in_two_pages : ∃ es₀ es c pages, ServerRun office newOffice es₀ twoDecks ∧
    Scroll office "alice" 2 (fun o => ¬ o.RemovesOf "alice") twoDecks es c pages ∧ c.shared.db.TimesApart "alice" ∧
    pages = [[issue 8 0, issue 3 0], [issue 3 0]] ∧
    ∀ p ∈ twoDecks.shared.db.presentations.rows, p.userId = "alice" → ∃ page ∈ pages, p.id ∈ page := by
  obtain ⟨run₁, hn⟩ := quiet_run 0 (newDeck 0 "One") (show Unissued 0 newOffice.shared.issued from fun _ _ _ h => h)
    (by decide +kernel)
  obtain ⟨run₂, hn⟩ := quiet_run 1 (newDeck 1 "Two") hn (by decide +kernel)
  have run : ServerRun office newOffice _ twoDecks := run₁.run.trans run₂.run
  have hstart : Scroll office "alice" 2 (fun o => ¬ o.RemovesOf "alice") twoDecks [] twoDecks [] := .start
  obtain ⟨hask, hn⟩ := quiet_run 1 [decksFrom "2" "0"] hn (by decide +kernel)
  obtain ⟨es, hfirst, hn⟩ := (hstart.waits hask).reads
    (world 1 11) 2 [issue 8 0, issue 3 0] rfl hn (by decide +kernel)
    (by decide +kernel) (by decide +kernel)
  obtain ⟨hcreate, hn⟩ := quiet_run 2 (newDeck 3 "Three" ++ [decksFrom "2" "2"]) hn (by decide +kernel)
  obtain ⟨es', hsecond, -⟩ := (hfirst.waits hcreate).reads (world 2 18) 4 [issue 3 0] rfl hn (by decide +kernel)
    (by decide +kernel) (by decide +kernel)
  obtain ⟨-, hcomplete⟩ := scroll_complete newOffice_idle run hsecond fun _ h => h
  have hapart := hcomplete (by unfold Db.TimesApart; decide +kernel)
  exact ⟨_, es', _, _, run, hsecond, by unfold Db.TimesApart; decide +kernel, rfl,
    hapart.1 ⟨[issue 3 0], by simp, by decide⟩⟩

/-! ### Decks of one instant -/

/-- The order that puts rows of one time the last first. -/
def lastFirst : Newest Presentation.createdAt where
  sort rows := rows.reverse.insertionSort fun a b => b.createdAt ≤ a.createdAt
  perm rows := (List.perm_insertionSort _ _).trans rows.reverse_perm
  sorted _ := List.pairwise_insertionSort _ _

/-- Two decks of instant 0. -/
def tiedDecks : Server := newOffice.play office 0 0 (newDeck 0 "One" ++ newDeck 1 "Two")

/-- Among decks of one instant a client can come to the end and miss one: the second query lists them in another
    order than the first, so one deck is shown twice and the other never. -/
theorem ties_miss_a_deck : ∃ es₀ es c, ServerRun office newOffice es₀ tiedDecks ∧
    Scroll office "alice" 1 (fun o => ¬ o.RemovesOf "alice") tiedDecks es c [[issue 3 0], [issue 3 0], []] ∧
    ∃ p ∈ tiedDecks.shared.db.presentations.rows, p.userId = "alice" ∧ p.id = issue 8 0 := by
  obtain ⟨run, hn⟩ := quiet_run 0 (newDeck 0 "One" ++ newDeck 1 "Two")
    (show Unissued 0 newOffice.shared.issued from fun _ _ _ h => h) (by decide +kernel)
  have hstart : Scroll office "alice" 1 (fun o => ¬ o.RemovesOf "alice") tiedDecks [] tiedDecks [] := .start
  obtain ⟨hask, hn⟩ := quiet_run 0 [decksFrom "1" "0"] hn (by decide +kernel)
  obtain ⟨es, hfirst, hn⟩ := (hstart.waits hask).reads (world 0 11) 2 [issue 3 0] rfl hn (by decide +kernel)
    (by decide +kernel) (by decide +kernel)
  obtain ⟨hask, hn⟩ := quiet_run 0 [decksFrom "1" "1"] hn (by decide +kernel)
  obtain ⟨es', hsecond, hn⟩ := (hfirst.waits hask).reads { world 0 13 with presentationOrder := lastFirst } 3
    [issue 3 0]
    rfl hn (by decide +kernel) (by decide +kernel) (by decide +kernel)
  obtain ⟨hask, hn⟩ := quiet_run 0 [decksFrom "1" "2"] hn (by decide +kernel)
  obtain ⟨es'', hthird, -⟩ := (hsecond.waits hask).reads (world 0 15) 4 [] rfl hn
    (by decide +kernel) (by decide +kernel)
    (by decide +kernel)
  exact ⟨_, es'', _, run.run, hthird, by decide +kernel⟩

end Slideo
