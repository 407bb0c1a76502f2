import Slideo.Schedule
import Slideo.Theorems.Alone

/-! Deleting a presentation. The transaction clears the slides but not the share tokens, which refer to
    the presentation too, so it succeeds exactly when the presentation was never shared. -/

namespace Slideo
open Js

/-- The database without a presentation, its slides and its share tokens. -/
def Db.without (db : Db) (id : String) : Db :=
  { db with
    presentations := db.presentations.delete (·.id == id)
    slides := db.slides.delete (·.presentationId == id)
    shareTokens := db.shareTokens.delete (·.presentationId == id) }

section Delete
variable {ws : Nat → World} {n : Nat} {db : Db} {id : String}

/-- What the first statement of the transaction leaves to the second. -/
theorem exec_presentationDelete {w : World} (hid : id ∈ db.presentations.keys) :
    exec w (db.applyAll ((db.slidesOf id).map (.deleteSlide id ·.id)))
        (db.applyAll ((db.slidesOf id).map (.deleteSlide id ·.id))) (.presentationDelete id) =
      if db.tokensOf id = [] then .ok ((), [.deletePresentation id])
      else .error (.foreignKey "ShareToken_presentationId_fkey") := by
  rw [applyAll_slideDeleteMany]
  simp only [exec, deletePresentationRow, slidesOf_cleared, require, if_pos, hid, and_self]
  show (if db.tokensOf id = [] then Except.ok () else _) >>= _ = _
  split
  · rfl
  · rfl

theorem answer_slideDeleteMany :
    answer (ws n) (.slideDeleteMany id) (db, { tx := some [] }) =
      (.ok (), (db, { tx := some ((db.slidesOf id).map (.deleteSlide id ·.id)) })) :=
  answer_tx_ok (q := .slideDeleteMany id) trivial (exec_slideDeleteMany _ _ _)

theorem run_removeDeck_ok (ws : Nat → World) (n : Nat) (hid : id ∈ db.presentations.keys)
    (htokens : db.tokensOf id = []) :
    ∃ log, (removeDeck id).run answer ws n (db, { tx := some [] }) =
      ⟨.ok (), (db, { tx := some ((db.slidesOf id).map (.deleteSlide id ·.id) ++ [.deletePresentation id]) }),
        log⟩ := by
  have hexec := exec_presentationDelete (w := ws (n + 1)) hid
  rw [if_pos htokens] at hexec
  exact ⟨_, Prog.run_ask_bind answer_slideDeleteMany
    (Prog.run_ask_ok (answer_tx_ok (q := .presentationDelete id) trivial hexec))⟩

theorem run_removeDeck_error (ws : Nat → World) (n : Nat) (hid : id ∈ db.presentations.keys)
    (htokens : db.tokensOf id ≠ []) :
    ∃ log, (removeDeck id).run answer ws n (db, { tx := some [] }) =
      ⟨.error (.foreignKey "ShareToken_presentationId_fkey"),
        (db, { tx := some ((db.slidesOf id).map (.deleteSlide id ·.id)) }), log⟩ := by
  have hexec := exec_presentationDelete (w := ws (n + 1)) hid
  rw [if_neg htokens] at hexec
  exact ⟨_, Prog.run_ask_bind answer_slideDeleteMany
    (Prog.run_ask_error (answer_tx_error (q := .presentationDelete id) trivial hexec))⟩

/-- Without share tokens the transaction leaves the database without the presentation. -/
theorem applyAll_removeDeck (htokens : db.tokensOf id = []) :
    db.applyAll ((db.slidesOf id).map (.deleteSlide id ·.id) ++ [.deletePresentation id]) = db.without id := by
  have hkept : db.shareTokens.delete (·.presentationId == id) = db.shareTokens := by
    refine Table.ext (List.filter_eq_self.mpr fun t ht => ?_)
    have hnone := List.filter_eq_nil_iff.mp htokens t ht
    simpa using hnone
  rw [Db.applyAll_append, applyAll_slideDeleteMany]
  show ({ db with
      presentations := db.presentations.delete (·.id == id)
      slides := db.slides.delete (·.presentationId == id) } : Db) = _
  rw [Db.without, hkept]

variable {user : AuthUser} {p : Presentation}

/-- The owner's request up to its transaction. -/
theorem run_deletePresentation {r : Except Err Unit} {db' : Db} {log : List (Answered Query Query.Answer Err)}
    (hp : p ∈ db.presentations.rows) (howner : p.userId = user.id) (hid : user.id ≠ "")
    (htx : (transaction (removeDeck p.id)).run answer ws 1 (db, {}) = ⟨r, (db', {}), log⟩) :
    (deletePresentation user p.id).run answer ws 0 (db, {}) =
      ⟨.ok (caught (fun _ => .error 500 "Failed to delete presentation")
          (r.map fun _ => ⟨200, .message "Presentation deleted successfully"⟩)), (db', {}),
        ⟨.presentationFindUnique p.id, .ok (some ⟨p, db.slidesOf p.id⟩)⟩ :: log⟩ := by
  have hfind : answer (ws 0) (.presentationFindUnique p.id) (db, {}) =
    (.ok (some ⟨p, db.slidesOf p.id⟩), (db, {})) := by
    refine answer_read (q := .presentationFindUnique p.id) trivial ?_
    simp only [exec, Db.deck?, Table.find?_of_mem hp, Option.map_some]
  have hrest : (transaction (removeDeck p.id) >>= fun _ =>
        pure ⟨200, .message "Presentation deleted successfully"⟩ : Handler Response).run answer ws 1 (db, {}) =
      ⟨r.map fun _ => ⟨200, .message "Presentation deleted successfully"⟩, (db', {}), log⟩ := by
    cases r with
    | ok a =>
      have h : (transaction (removeDeck p.id) >>= fun _ =>
          pure ⟨200, .message "Presentation deleted successfully"⟩ : Handler Response).run answer ws 1 (db, {}) =
          ⟨.ok ⟨200, .message "Presentation deleted successfully"⟩, (db', {}), log ++ []⟩ :=
            Prog.run_bind_ok htx rfl
      rwa [List.append_nil] at h
    | error e => exact Prog.run_bind_error htx _
  refine run_guarded ?_
  rw [if_neg hid]
  refine Prog.run_ask_bind hfind ?_
  show Prog.run answer ws (if p.userId ≠ user.id then _ else _) 1 _ = _
  rw [if_neg (not_not.mpr howner)]
  exact hrest

/-- The deletion worked: it answers 200, and what is left is the database without the presentation. -/
def Deleted (db : Db) (id : String) (out : Prog.Ran Query Query.Answer Err (Db × Conn) Response) : Prop :=
  (∃ body, out.result = .ok ⟨200, body⟩) ∧ out.state.1 = db.without id

/-- The owner can delete a presentation exactly when it has no share token. -/
theorem delete_works_iff {env : Env} {req : Request} (hp : p ∈ db.presentations.rows)
    (hreq : req.endpoint = .deletePresentation p.id)
    (huser : req.user? env = some user) (howner : user.id = p.userId) (hid : p.userId ≠ "") :
    Deleted db p.id (serve env ws req db) ↔ db.tokensOf p.id = [] := by
  have hkey : p.id ∈ db.presentations.keys := Table.mem_keys.mpr ⟨p, hp, rfl⟩
  have hserve : serve env ws req db = (deletePresentation user p.id).run answer ws 0 (db, {}) :=
    serve_of_user huser (by rw [handle, hreq])
  rw [hserve]
  constructor
  · rintro ⟨⟨body, hok⟩, -⟩
    by_contra htokens
    obtain ⟨log, hrun⟩ := run_removeDeck_error ws 2 hkey htokens
    rw [run_deletePresentation hp howner.symm (howner ▸ hid) (run_transaction_error hrun)] at hok
    cases hok
  · intro htokens
    obtain ⟨log, hrun⟩ := run_removeDeck_ok ws 2 hkey htokens
    rw [run_deletePresentation hp howner.symm (howner ▸ hid) (run_transaction_ok hrun)]
    exact ⟨⟨_, rfl⟩, applyAll_removeDeck htokens⟩

end Delete

section Shared

/-- `alice` shares her presentation. -/
def sharedDb : Db :=
  (serve office (fun n => world 0 (10 + n))
    (aliceRequest (.createShareLink (issue 2 0) (some (.obj [("recipientEmail", .str "bob@slideo.ai")]))))
    (createdDb "Q1")).state.1

def deleteRequest : Request := aliceRequest (.deletePresentation (issue 2 0))

/-- Before it is shared, the presentation can be deleted. -/
theorem unshared_deck_deleted :
    Deleted (createdDb "Q1") (issue 2 0) (serve office
      (fun n => world 0 (20 + n)) deleteRequest (createdDb "Q1")) := by
  have hp : (⟨issue 2 0, "alice", "Q1", 0, 0⟩ : Presentation) ∈ (createdDb "Q1").presentations.rows := by
    decide +kernel
  have huser : deleteRequest.user? office = some ⟨"alice", "alice@slideo.ai"⟩ := by decide +kernel
  exact (delete_works_iff hp rfl huser rfl (by decide)).mpr (by decide +kernel)

/-- After it is shared, its owner cannot delete it. -/
theorem shared_deck_stays :
    ∃ db p, Reaches office officeDb db ∧ p ∈ db.presentations.rows ∧
      ∃ user, deleteRequest.user? office = some user ∧ user.id = p.userId ∧
        deleteRequest.endpoint = .deletePresentation p.id ∧
        ¬ Deleted db p.id (serve office (fun n => world 0 (20 + n)) deleteRequest db) := by
  refine ⟨sharedDb, ⟨issue 2 0, "alice", "Q1", 0, 0⟩, .request (.request .start _ _) _ _,
    ?_, ⟨"alice", "alice@slideo.ai"⟩, by decide +kernel, rfl, rfl, ?_⟩
  · show (⟨issue 2 0, "alice", "Q1", 0, 0⟩ : Presentation) ∈ sharedDb.presentations.rows
    decide +kernel
  · rintro ⟨⟨body, hok⟩, -⟩
    have hstatus : (serve office (fun n => world 0 (20 + n)) deleteRequest sharedDb).result.toOption.map (·.status) =
        some 500 := by decide +kernel
    rw [hok] at hstatus
    cases hstatus

end Shared

end Slideo
