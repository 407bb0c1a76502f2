import Slideo.Server
import Slideo.Theorems.Statements

/-! A slide id belongs to one presentation, from the moment it is issued: so say the stored rows, the
    changes that transactions hold back and the states that waiting statements have seen. -/

namespace Slideo
open Js Interleave

/-- The id was issued for a slide of presentation `id`. -/
def AtHome (home : String → String) (issued : Set String) (x id : String) : Prop := x ∈ issued ∧ home x = id

def Db.Homed (home : String → String) (issued : Set String) (db : Db) : Prop :=
  ∀ s ∈ db.slides.rows, AtHome home issued s.id s.presentationId

def Write.Homed (home : String → String) (issued : Set String) : Write → Prop
  | .insertSlide s => AtHome home issued s.id s.presentationId
  | .deleteSlide id sid => AtHome home issued sid id
  | _ => True

structure Conn.Homed (home : String → String) (issued : Set String) (c : Conn) : Prop where
  snapshot : ∀ db, c.snapshot = some db → db.Homed home issued
  pending : ∀ y ∈ c.tx.getD [], y.Homed home issued

structure Server.Homed (home : String → String) (c : Server) : Prop where
  db : c.shared.db.Homed home c.shared.issued
  sessions : ∀ x ∈ c.sessions, x.priv.Homed home c.shared.issued

/-! ### New ids -/

section Mono
variable {home home' : String → String} {issued issued' : Set String} {x id : String}

/-- New homes for new ids leave the others alone. -/
structure Extends (home : String → String) (issued : Set String) (home' : String → String)
    (issued' : Set String) : Prop where
  sub : issued ⊆ issued'
  same : ∀ x ∈ issued, home' x = home x

theorem Extends.refl (home : String → String) (issued : Set String) :
    Extends home issued home issued := ⟨subset_rfl, fun _ _ => rfl⟩

theorem AtHome.extend (h : AtHome home issued x id)
    (he : Extends home issued home' issued') : AtHome home' issued' x id :=
  ⟨he.sub h.1, (he.same x h.1).trans h.2⟩

theorem Db.Homed.extend {db : Db} (h : db.Homed home issued) (he : Extends home issued home' issued') :
    db.Homed home' issued' := fun s hs => (h s hs).extend he

theorem Write.Homed.extend {y : Write} (h : y.Homed home issued) (he : Extends home issued home' issued') :
    y.Homed home' issued' := by
  cases y with
  | insertSlide s | deleteSlide id sid => exact AtHome.extend h he
  | _ => trivial

theorem Conn.Homed.extend {c : Conn} (h : c.Homed home issued) (he : Extends home issued home' issued') :
    c.Homed home' issued' :=
  ⟨fun db hdb => (h.snapshot db hdb).extend he, fun y hy => (h.pending y hy).extend he⟩

end Mono

/-! ### Writes -/

section Writes
variable {home : String → String} {issued : Set String} {db : Db} {c : Conn} {q : Query} {w : World}

theorem Db.Homed.apply {y : Write} (h : db.Homed home issued) (hy : y.Homed home issued) :
    (db.apply y).Homed home issued := by
  intro s hs
  cases y with
  | insertSlide t =>
    rcases Table.mem_insert hs with hs | ⟨rfl, -⟩
    · exact h s hs
    · exact hy
  | deleteSlide id sid => exact h s (Table.mem_delete.mp hs).1
  | _ => exact h s hs

theorem Db.Homed.applyAll {ws : List Write} : ∀ {db : Db}, db.Homed home issued → (∀ y ∈ ws, y.Homed home issued) →
    (db.applyAll ws).Homed home issued := by
  induction ws with
  | nil => exact fun h _ => h
  | cons y ws ih =>
    exact fun h hws => ih (h.apply (hws y List.mem_cons_self)) fun y' hy' => hws y' (List.mem_cons_of_mem y hy')

theorem Db.Homed.start (h : db.Homed home issued) (hc : c.Homed home issued) (q : Query) :
    (c.start db q).Homed home issued := by
  refine Db.Homed.applyAll ?_ hc.pending
  split
  · cases hsnap : c.snapshot with
    | none => exact h
    | some db' => exact hc.snapshot db' hsnap
  · exact h

open Classical in
/-- The ids that a call draws are for slides of one presentation. -/
noncomputable def drawnHome (home : String → String) (w : World) (q : Query) (x : String) : String :=
  if x ∈ Set.range w.uuid then match q with
    | .slideCreateMany id _ => id
    | _ => w.uuid 0
  else home x

theorem drawnHome_extends {st : Store} (hw : Fresh st w) :
    Extends home st.issued (drawnHome home w q) (st.issued ∪ Set.range w.uuid) := by
  refine ⟨Set.subset_union_left, fun x hx => if_neg ?_⟩
  rintro ⟨k, rfl⟩
  exact hw.2 k hx

theorem drawnHome_uuid (k : Nat) : drawnHome home w q (w.uuid k) = match q with
    | .slideCreateMany id _ => id
    | _ => w.uuid 0 := if_pos ⟨k, rfl⟩

/-- The changes of a call are at home. -/
theorem newWrites_homed {st : Store} (hw : Fresh st w)
    (hdb : st.db.Homed home st.issued) (hc : c.Homed home st.issued) :
    ∀ y ∈ newWrites w st.db c q, y.Homed (drawnHome home w q) (st.issued ∪ Set.range w.uuid) := by
  intro y hy
  have hissues := newWrites_issues y hy
  unfold newWrites at hy
  split at hy
  · rename_i a ws hexec
    cases q with
    | presentationCreate userId title data =>
      obtain ⟨t, bodies, -, -, -, -, hrow, hslides, -, rfl⟩ := createDeck_ok hexec
      rcases List.mem_cons.mp hy with rfl | hy
      · trivial
      · obtain ⟨s, hs, rfl⟩ := List.mem_map.mp hy
        rw [hslides] at hs
        obtain ⟨hpid, k, hk⟩ := mem_slideRows hs
        show AtHome _ _ _ _
        rw [hk, hpid]
        exact ⟨Or.inr ⟨_, rfl⟩, drawnHome_uuid _⟩
    | slideCreateMany id data =>
      obtain ⟨bodies, -, -, -, rfl⟩ := createSlides_ok hexec
      obtain ⟨s, hs, rfl⟩ := List.mem_map.mp hy
      obtain ⟨hpid, k, hk⟩ := mem_slideRows hs
      show AtHome _ _ _ _
      rw [hk, hpid]
      exact ⟨Or.inr ⟨_, rfl⟩, drawnHome_uuid _⟩
    | slideDeleteMany id =>
      cases hexec
      obtain ⟨s, hs, rfl⟩ := List.mem_map.mp hy
      obtain ⟨hmem, hid⟩ := List.mem_filter.mp (List.mem_filter.mp hs).1
      have hs := (hdb.start hc _ s hmem).extend (drawnHome_extends (q := .slideDeleteMany id) hw)
      rw [beq_iff_eq.mp hid] at hs
      exact hs
    | userUpdate _ _ | presentationDelete _ =>
      obtain rfl := hissues
      trivial
    | presentationUpdate _ _ | templateUpdate _ _ _ _ _ | importedPptCreate _ _ _ =>
      obtain ⟨_, rfl⟩ := hissues
      trivial
    | shareTokenCreate _ _ _ _ _ =>
      obtain ⟨_, rfl, -⟩ := hissues
      trivial
    | _ => exact hissues.elim
  · cases hy

end Writes

/-! ### Every run -/

section Runs
variable {env : Env} {home : String → String} {st st' : Store} {others : List Conn} {c c' : Conn} {q : Query}
  {r : Except Err q.Answer}

theorem homed_closed {issued : Set String} : Conn.Homed home issued {} :=
  ⟨fun _ h => (by cases h), fun _ h => by cases h⟩

theorem Act.homed (h : Act st others c q r st' c')
    (hdb : st.db.Homed home st.issued) (hc : c.Homed home st.issued) :
    ∃ home', Extends home st.issued home' st'.issued ∧
    st'.db.Homed home' st'.issued ∧ c'.Homed home' st'.issued := by
  rcases h.inv with ⟨w, hw, -, -, rfl, rfl⟩ | ⟨-, rfl, rfl⟩
  · have he : Extends home st.issued (drawnHome home w q) (st.issued ∪ Set.range w.uuid) := drawnHome_extends hw
    refine ⟨drawnHome home w q, he, ?_⟩
    have hdb' := hdb.extend he
    have hc' := hc.extend he
    by_cases hb : q = .begin
    · subst hb
      exact ⟨hdb', fun _ h => (by cases h), fun _ h => by cases h⟩
    by_cases hcommit : q = .commit
    · subst hcommit
      exact ⟨hdb'.applyAll hc'.pending, homed_closed⟩
    by_cases hr : q = .rollback
    · subst hr
      exact ⟨hdb', homed_closed⟩
    have hws := newWrites_homed (q := q) hw hdb hc
    rw [perform_statement hb hcommit hr]
    cases htx : c.tx with
    | none => exact ⟨hdb'.applyAll hws, homed_closed⟩
    | some ws =>
      refine ⟨hdb', fun _ h => (by cases h), fun y hy => ?_⟩
      rcases List.mem_append.mp hy with hy | hy
      · exact hc'.pending y (by rw [htx]; exact hy)
      · exact hws y hy
  · refine ⟨home, .refl _ _, hdb, fun _ h => ?_, fun y hy => ?_⟩
    · cases q <;> cases h
    · cases q with
      | commit | rollback => cases hy
      | _ => exact hc.pending y hy

theorem ServerStep.homed {c c' : Server} {e : ServerEvent} (step : ServerStep env c e c') (h : c.Homed home) :
    ∃ home', c'.Homed home' := by
  cases step with
  | spawn req =>
    refine ⟨home, h.db, fun x hx => ?_⟩
    rcases List.mem_append.mp hx with hx | hx
    · exact h.sessions x hx
    · rw [List.mem_singleton.mp hx]
      exact homed_closed
  | @act i s q k r st' p' hs hp ha =>
    obtain ⟨home', he, hdb, hself⟩ := Act.homed ha h.db (h.sessions s (List.mem_of_getElem? hs))
    refine ⟨home', hdb, fun x hx => ?_⟩
    rcases List.mem_or_eq_of_mem_set hx with hx | rfl
    · exact (h.sessions x hx).extend he
    · exact hself
  | @stall i s q k p' hs hp ha =>
    obtain ⟨-, -, rfl⟩ := ha
    refine ⟨home, h.db, fun x hx => ?_⟩
    rcases List.mem_or_eq_of_mem_set hx with hx | rfl
    · exact h.sessions x hx
    · refine ⟨fun db hdb => ?_, (h.sessions s (List.mem_of_getElem? hs)).pending⟩
      cases hdb
      exact h.db

theorem ServerRun.homed {c₀ c : Server} {es : List ServerEvent} (hstart : c₀.sessions = [])
    (hissued : ∀ x ∈ c₀.shared.db.slides.keys, x ∈ c₀.shared.issued) (run : ServerRun env c₀ es c) :
    ∃ home, c.Homed home := by
  induction run with
  | nil =>
    refine ⟨fun x => (c₀.shared.db.slides.find? x).elim "" (·.presentationId), fun s hs => ?_, fun x hx => ?_⟩
    · refine ⟨hissued _ (Table.mem_keys.mpr ⟨s, hs, rfl⟩), ?_⟩
      show (c₀.shared.db.slides.find? s.id).elim "" _ = _
      rw [Table.find?_of_mem hs]
      rfl
    · rw [hstart] at hx
      cases hx
  | snoc _ step ih =>
    obtain ⟨home, h⟩ := ih
    exact ServerStep.homed step h

end Runs

end Slideo
