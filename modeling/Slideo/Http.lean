import Slideo.Export

/-! Requests, responses, and the two middlewares in front of the handlers (`middleware/auth.ts`,
    `middleware/limitMiddleware.ts`). -/

namespace Slideo
open Js

/-- The payload of a session token. -/
structure AuthUser where
  id : String
  email : String
  deriving DecidableEq

/-- What the server takes from its deployment: `jwt.verify` under its secret, and its local calendar. -/
structure Env where
  verify : String → Option AuthUser
  getMonth : Time → Int
  getFullYear : Time → Int
  frontendUrl : String

inductive Body where
  | error (message : String)
  | errorDetails (message : String) (details : Err)
  | message (text : String)
  | limitReached (limit current : Nat)
  | deck (d : Deck)
  | presentation (p : Presentation)
  | presentations (rows : List (Presentation × Nat))
  | shared (d : Deck) (permission : String)
  | shareLink (shareUrl token : String) (expiresAt : Time) (permission : Val)
  | resolved (presentationId presentationTitle permission recipientEmail : String) (expiresAt : Time)
  | pptx (fileName : String) (doc : Pptx)
  | slide (s : GeneratedSlide)
  | templates (ts : List (Template × List TemplateSlide))
  | template (t : Template)
  | importedPpts (is : List ImportedPpt)
  | importedPpt (i : ImportedPpt)
  | usage (plan : Plan) (presentationsCreatedThisMonth : Nat) (lastUsageReset : Time)

structure Response where
  status : Nat
  body : Body

/-- The routes of presentations, share links, templates, imports and plans, with what a request gives them;
    a missing body is `undefined`. The routes of accounts are in `Auth`, and those of e-mails and images are
    nowhere: they touch no table. -/
inductive Endpoint where
  | createPresentation (body : Val)
  | generateSingleSlide (body : Val)
  | getUserPresentations (limit offset : Val)
  | getPresentationById (id : String)
  | updatePresentation (id : String) (body : Val)
  | deletePresentation (id : String)
  | exportToPptx (id : String)
  | createShareLink (presentationId : String) (body : Val)
  | resolveShareToken (token : String)
  | getSharedPresentation (id : String) (token : Val)
  | getTemplates
  | getTemplateById (id : String)
  | useTemplate (body : Val)
  | updateTemplate (id : String) (body : Val)
  | getImportedPpts
  | uploadPptx (fileName : Option String)
  | convertPptToPresentation (id : String)
  | getUserPlan

structure Request where
  authorization : Option String
  endpoint : Endpoint

def Response.error (status : Nat) (message : String) : Response := ⟨status, .error message⟩

/-- `v.name` in a handler. -/
def prop (v : Val) (name : String) : Handler Val := ofOption (get v name)

/-- The handler's `try` with a `catch` that answers. -/
def guarded (onError : Err → Response) (body : Handler Response) : Handler Response :=
  Prog.tryCatch body fun e => .pure (onError e)

/-- `prisma.$transaction`: commits when the body returns, rolls back when it throws. -/
def transaction {α : Type} (body : Handler α) : Handler α := do
  ask .begin
  let a ← Prog.tryCatch body fun e => do
    ask .rollback
    .throw e
  ask .commit
  return a

/-! ### authenticate -/

def authenticate (env : Env) (authorization : Option String) : Except Response AuthUser :=
  match authorization with
  | none => .error (.error 401 "Unauthorized: No token provided")
  | some header =>
    if !startsWith header "Bearer " then .error (.error 401 "Unauthorized: No token provided")
    else match ((split header ' ')[1]?).bind env.verify with
      | some user => .ok user
      | none => .error (.error 401 "Unauthorized: Invalid token")

/-! ### checkLimits -/

def monthlyLimit : Nat := 5

/-- A new calendar month since the last reset, in server time. -/
def monthChanged (env : Env) (now lastReset : Time) : Prop :=
  env.getMonth now ≠ env.getMonth lastReset ∨ env.getFullYear now ≠ env.getFullYear lastReset

instance (env : Env) (now lastReset : Time) : Decidable (monthChanged env now lastReset) :=
  inferInstanceAs (Decidable (_ ∨ _))

/-- Resets the usage of an earlier month, in the database and in the row at hand. -/
def resetUsage (env : Env) (now : Time) (row : User) : Handler User :=
  if monthChanged env now row.lastUsageReset then do
    ask (.userUpdate row.id (.resetUsage now))
    return { row with presentationsCreatedThisMonth := 0 }
  else return row

/-- Answers the request, or passes the user row on. -/
def checkLimits (env : Env) (user : AuthUser) : Handler (Response ⊕ User) :=
  Prog.tryCatch
    (do
      let some row ← ask (.userFindUnique user.id)
        | return .inl (.error 401 "Unauthorized: User record missing")
      let now ← ask .clock
      let row ← resetUsage env now row
      if row.plan = .FREE ∧ monthlyLimit ≤ row.presentationsCreatedThisMonth then
        return .inl ⟨403, .limitReached monthlyLimit row.presentationsCreatedThisMonth⟩
      return .inr row)
    (fun _ => return .inl (.error 500 "Internal server error during limit check"))

/-! ### checkSlideCountLimit -/

def slideLimit : Plan → Nat
  | .FREE => 10
  | .PRO => 50
  | .TEAM | .ENTERPRISE => 200

/-- `body.name = v` on an object. -/
def setProp (body : Val) (name : String) (v : Json) : Val :=
  match body with
  | some (.obj fields) => some (.obj (setField fields name v))
  | other => other

/-- The body with its manual slides cut, or its slide count capped, to the limit of the plan. -/
def checkSlideCountLimit (user : User) (body : Val) : Option Val := do
  let limit := slideLimit user.plan
  match asArray (← get body "slides") with
  | some slides =>
    if limit < slides.length then return setProp body "slides" (.arr (slides.take limit))
    return body
  | none =>
    let requestedCount ← parseIntOr (← get body "slideCount") 5
    if (limit : Int) < requestedCount then return setProp body "slideCount" (.str (toString limit))
    return body

end Slideo
