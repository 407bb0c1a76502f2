import Slideo.Controllers
import Slideo.Lib.Interleave

/-! The routes of `src/routes`, one request served alone, and the server: any number of requests whose
    calls interleave over one PostgreSQL database at READ COMMITTED. -/

namespace Slideo
open Js Interleave

/-! ### Routes -/

/-- A route behind `authenticate`. -/
def authenticated (env : Env) (req : Request) (handler : AuthUser → Handler Response) : Handler Response :=
  match authenticate env req.authorization with
  | .ok user => handler user
  | .error response => .pure response

/-- `POST /api/presentations`: an exception of `checkSlideCountLimit` reaches the error handler. -/
def postPresentations (env : Env) (body : Val) (user : AuthUser) : Handler Response := do
  match ← checkLimits env user with
  | .inl response => return response
  | .inr row => match checkSlideCountLimit row body with
    | some body => createPresentation user body
    | none => return ⟨500, .errorDetails "Internal Server Error" .typeError⟩

/-- `POST /api/presentations/generate-slide`. -/
def postGenerateSlide (env : Env) (body : Val) (user : AuthUser) : Handler Response := do
  match ← checkLimits env user with
  | .inl response => return response
  | .inr _ => generateSingleSlide user body

def handle (env : Env) (req : Request) : Handler Response :=
  match req.endpoint with
  | .createPresentation body => authenticated env req (postPresentations env body)
  | .generateSingleSlide body => authenticated env req (postGenerateSlide env body)
  | .getUserPresentations limit offset => authenticated env req (getUserPresentations · limit offset)
  | .getPresentationById id => authenticated env req (getPresentationById · id)
  | .updatePresentation id body => authenticated env req (updatePresentation · id body)
  | .deletePresentation id => authenticated env req (deletePresentation · id)
  | .exportToPptx id => authenticated env req fun _ => exportToPptx id
  | .createShareLink presentationId body => authenticated env req (createShareLink env · presentationId body)
  | .resolveShareToken token => resolveShareToken token
  | .getSharedPresentation id token => getSharedPresentation id token
  | .getTemplates => getTemplates
  | .getTemplateById id => getTemplateById id
  | .useTemplate body => authenticated env req (useTemplate · body)
  | .updateTemplate id body => authenticated env req fun _ => updateTemplate id body
  | .getImportedPpts => authenticated env req getImportedPpts
  | .uploadPptx fileName => authenticated env req (uploadPptx · fileName)
  | .convertPptToPresentation id => authenticated env req (convertPptToPresentation · id)
  | .getUserPlan => authenticated env req getUserPlan

/-- The user that a request is authenticated as. -/
def Request.user? (env : Env) (req : Request) : Option AuthUser :=
  match authenticate env req.authorization with
  | .ok user => some user
  | .error _ => none

/-! ### One request alone -/

/-- A request from its first call to its answer, with no other request in between. -/
def serve (env : Env) (ws : Nat → World) (req : Request) (db : Db) :
    Prog.Ran Query Query.Answer Err (Db × Conn) Response :=
  (handle env req).run answer ws 0 (db, {})

/-- The states that requests lead to when each is answered before the next one arrives. -/
inductive Reaches (env : Env) (db₀ : Db) : Db → Prop
  | start : Reaches env db₀ db₀
  | request {db : Db} (h : Reaches env db₀ db) (ws : Nat → World) (req : Request) :
      Reaches env db₀ (serve env ws req db).state.1

/-! ### The server -/

/-- The committed state, and every id issued so far. -/
structure Store where
  db : Db
  issued : Set String

/-- The ids that a call can draw are new. -/
def Fresh (s : Store) (w : World) : Prop := Function.Injective w.uuid ∧ ∀ n, w.uuid n ∉ s.issued

/-- The changes that a statement would make now. -/
def newWrites (w : World) (db : Db) (c : Conn) (q : Query) : List Write :=
  match exec w (c.start db q) (c.view db) q with
  | .ok (_, ws) => ws
  | .error _ => []

/-- No open transaction of another request holds a lock that the statement needs. -/
def Unblocked (w : World) (db : Db) (others : List Conn) (c : Conn) (q : Query) : Prop :=
  ∀ c' ∈ others, ∀ x ∈ c'.tx.getD [], ∀ y ∈ newWrites w db c q, x.conflicts y = false

/-- The connection after a call that failed for reasons outside the program: a lost `COMMIT` or
    `ROLLBACK` leaves no transaction. -/
def Conn.afterFailure (c : Conn) : Query → Conn
  | .commit | .rollback => {}
  | _ => { tx := c.tx }

/-- A call to the database, as against the clock, new ids and other services. -/
def Query.toDatabase : Query → Bool
  | .clock | .randomUUID | .generateContent _ | .fetchArchive _ | .uploadRaw _ => false
  | _ => true

/-- Answers a call without others around it, unless it is a call to the database that is chosen to fail. -/
def answerOrFail (w : World × Bool) (q : Query) (s : Db × Conn) : Except Err q.Answer × (Db × Conn) :=
  if w.2 && q.toDatabase then (.error .unavailable, (s.1, s.2.afterFailure q)) else answer w.1 q s

/-- A request served alone, while the calls to the database that `fails` chooses fail. -/
def serveFailing (env : Env) (ws : Nat → World) (fails : Nat → Bool) (req : Request) (db : Db) :
    Prog.Ran Query Query.Answer Err (Db × Conn) Response :=
  (handle env req).run answerOrFail (fun n => (ws n, fails n)) 0 (db, {})

/-- A call is answered, or fails. -/
inductive Act (s : Store) (others : List Conn) (c : Conn) (q : Query) : Except Err q.Answer → Store → Conn → Prop
  | answered (w : World) (fresh : Fresh s w) (unblocked : Unblocked w s.db others c q) :
      Act s others c q (perform w s.db c q).1 ⟨(perform w s.db c q).2.1, s.issued ∪ Set.range w.uuid⟩
        (perform w s.db c q).2.2
  | failed : Act s others c q (.error .unavailable) s (c.afterFailure q)

theorem Act.inv {s s' : Store} {others : List Conn} {c c' : Conn} {q : Query} {r : Except Err q.Answer}
    (h : Act s others c q r s' c') :
    (∃ w, Fresh s w ∧ Unblocked w s.db others c q ∧ r = (perform w s.db c q).1 ∧
      s' = ⟨(perform w s.db c q).2.1, s.issued ∪ Set.range w.uuid⟩ ∧ c' = (perform w s.db c q).2.2) ∨
      (r = .error .unavailable ∧ s' = s ∧ c' = c.afterFailure q) := by
  cases h with
  | answered w fresh unblocked => exact Or.inl ⟨w, fresh, unblocked, rfl, rfl, rfl⟩
  | failed => exact Or.inr ⟨rfl, rfl, rfl⟩

def server : Semantics Query Query.Answer Err Store Conn where
  act := Act
  stall s c q c' := q.locksRows = true ∧ c.snapshot = none ∧ c' = { c with snapshot := some s.db }

abbrev ServerSession := Session Query Query.Answer Err Conn Request Response

abbrev Server := Config Query Query.Answer Err Store Conn Request Response

abbrev ServerEvent := Event Query Query.Answer Err Request

abbrev ServerStep (env : Env) : Server → ServerEvent → Server → Prop := Step server (handle env) {}

abbrev ServerRun (env : Env) : Server → List ServerEvent → Server → Prop := Run server (handle env) {}

/-- A server without requests over a database, whose ids are issued. -/
structure Server.Initial (c : Server) : Prop where
  sessions : c.sessions = []
  issued : ∀ p ∈ c.shared.db.presentations.rows, p.id ∈ c.shared.issued

end Slideo
