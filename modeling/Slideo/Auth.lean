import Slideo.Http
import Slideo.Lib.Interleave

/-! The accounts of `controllers/authController.ts` and `controllers/googleAuthController.ts`, over the user
    table with its unique columns. What these handlers take from packages is a parameter: the validation
    chains of `routes/authRoutes.ts`, `bcrypt`, `jwt.sign`, and the payload of an ID token that Google signed. -/

namespace Slideo
open Js Interleave

/-! ### Data -/

/-- The verified payload of an ID token. Google's subjects are not empty. -/
structure GooglePayload where
  sub : String
  sub_ne : sub ≠ ""
  email : Option String

structure AuthEnv where
  /-- `validationResult(req).isEmpty()` behind the chain of `/signup` -/
  validSignup : Val → Bool
  /-- the same behind the chain of `/login` -/
  validLogin : Val → Bool
  sign : AuthUser → String

/-- What a call finds: the clock, a new id, and the answers of the packages. -/
structure AuthWorld where
  now : Time
  uuid : String
  verifyIdToken : Val → Except Err (Option GooglePayload)
  hash : String → String
  compare : String → String → Bool

inductive AuthBody where
  | errors
  | error (message : String)
  | session (user : AuthUser) (createdAt : Time) (token : String)
  deriving DecidableEq

structure AuthResponse where
  status : Nat
  body : AuthBody
  deriving DecidableEq

def AuthResponse.error (status : Nat) (message : String) : AuthResponse := ⟨status, .error message⟩

inductive AuthRequest where
  | signup (body : Val)
  | login (body : Val)
  | googleLogin (body : Val)

/-! ### Calls -/

inductive AuthQuery where
  | verifyIdToken (idToken : Val)
  | hash (password : Val)
  | compare (password : Val) (hashed : String)
  | userFindUnique (email : Val)
  | userCreate (email : Val) (password googleId : Option String) (provider : String)
  /-- `data: { googleId, provider: 'google' }` -/
  | userUpdate (id googleId : String)

abbrev AuthQuery.Answer : AuthQuery → Type
  | .verifyIdToken _ => Option GooglePayload
  | .hash _ => String
  | .compare _ _ => Bool
  | .userFindUnique _ => Option User
  | .userCreate _ _ _ _ | .userUpdate _ _ => User

abbrev AuthHandler := Prog AuthQuery AuthQuery.Answer Err

def askAuth (q : AuthQuery) : AuthHandler q.Answer := Prog.ask q

/-- The row of a unique Google subject. -/
def Db.userByGoogleId? (db : Db) (googleId : String) : Option User :=
  db.users.rows.find? (·.googleId == some googleId)

section Statements
variable (w : AuthWorld) (db : Db)

def createUser (email : Val) (password googleId : Option String) (provider : String) :
    Except Err (User × List Write) := do
  let email ← textArg email
  require (googleId.all storableText = true) .validation
  let u : User := ⟨w.uuid, email, password, googleId, provider, .FREE, 0, w.now, none, w.now, w.now⟩
  require (db.userByEmail? email = none) (.unique "User_email_key")
  require (googleId.bind db.userByGoogleId? = none) (.unique "User_googleId_key")
  require (u.id ∉ db.users.keys) (.unique "User_pkey")
  return (u, [.insertUser u])

def linkGoogle (id googleId : String) : Except Err (User × List Write) := do
  require (storableText googleId = true) .validation
  let some u := db.users.find? id | throw .notFound
  require (∀ v ∈ db.users.rows, v.googleId = some googleId → v.id = id) (.unique "User_googleId_key")
  return ((UserPatch.linkGoogle googleId).apply w.now u, [.patchUser id w.now (.linkGoogle googleId)])

/-- `bcrypt` takes strings only. -/
def passwordArg : Val → Except Err String
  | some (.str password) => .ok password
  | _ => .error .typeError

/-- A call: its answer and its changes. -/
def authExec : (q : AuthQuery) → Except Err (q.Answer × List Write)
  | .verifyIdToken idToken => (w.verifyIdToken idToken).map (·, [])
  | .hash password => (passwordArg password).map fun p => (w.hash p, [])
  | .compare password hashed => (passwordArg password).map fun p => (w.compare p hashed, [])
  | .userFindUnique email => (textArg email).map fun e => (db.userByEmail? e, [])
  | .userCreate email password googleId provider => createUser w db email password googleId provider
  | .userUpdate id googleId => linkGoogle w db id googleId

/-- Every statement commits at once. -/
def authAnswer (q : AuthQuery) : Except Err q.Answer × Db :=
  match authExec w db q with
  | .error e => (.error e, db)
  | .ok (a, ws) => (.ok a, db.applyAll ws)

end Statements

/-! ### Handlers -/

/-- `v.name` in a handler. -/
def authProp (v : Val) (name : String) : AuthHandler Val :=
  match get v name with
  | some x => .pure x
  | none => .throw .typeError

def authGuarded (message : String) (body : AuthHandler AuthResponse) : AuthHandler AuthResponse :=
  Prog.tryCatch body fun _ => .pure (.error 500 message)

/-- The answer with a session token for a user. -/
def session (env : AuthEnv) (status : Nat) (u : User) : AuthResponse :=
  ⟨status, .session ⟨u.id, u.email⟩ u.createdAt (env.sign ⟨u.id, u.email⟩)⟩

def signup (env : AuthEnv) (body : Val) : AuthHandler AuthResponse :=
  authGuarded "Failed to create user" do
    if !env.validSignup body then return ⟨400, .errors⟩
    let email ← authProp body "email"
    let existingUser ← askAuth (.userFindUnique email)
    if existingUser.isSome then return .error 400 "Email already exists"
    let hashedPassword ← askAuth (.hash (getOpt body "password"))
    let user ← askAuth (.userCreate email (some hashedPassword) none "local")
    return session env 201 user

/-- Signs a user in who has a password, if it is the given one. -/
def checkPassword (env : AuthEnv) (user : User) (password : Val) : AuthHandler AuthResponse :=
  match user.password.filter (· != "") with
  | none => return .error 401 "Invalid credentials"
  | some hashed => do
    let isMatch ← askAuth (.compare password hashed)
    if !isMatch then return .error 401 "Invalid credentials"
    return session env 200 user

def login (env : AuthEnv) (body : Val) : AuthHandler AuthResponse :=
  authGuarded "Login failed" do
    if !env.validLogin body then return ⟨400, .errors⟩
    let email ← authProp body "email"
    let some user ← askAuth (.userFindUnique email) | return .error 401 "Invalid credentials"
    checkPassword env user (getOpt body "password")

/-- Links an account that has no Google subject yet. -/
def linkAccount (googleId : String) (user : User) : AuthHandler User :=
  if user.googleId.getD "" = "" then askAuth (.userUpdate user.id googleId) else return user

/-- The account of the e-mail address: linked if it is there, created if it is new. -/
def googleAccount (googleId email : String) : AuthHandler User := do
  match ← askAuth (.userFindUnique (some (.str email))) with
  | some user => linkAccount googleId user
  | none => askAuth (.userCreate (some (.str email)) none (some googleId) "google")

/-- Signs the user of a verified payload in. -/
def signInWithGoogle (env : AuthEnv) (payload : GooglePayload) : AuthHandler AuthResponse :=
  match payload.email.filter (· != "") with
  | none => return .error 400 "Email not provided by Google"
  | some email => do
    let user ← googleAccount payload.sub email
    return session env 200 user

def googleLogin (env : AuthEnv) (body : Val) : AuthHandler AuthResponse :=
  authGuarded "Google Login failed" do
    let idToken ← authProp body "idToken"
    if !truthy idToken then return .error 400 "ID Token is required"
    let some payload ← askAuth (.verifyIdToken idToken) | return .error 401 "Invalid ID Token"
    signInWithGoogle env payload

def authHandle (env : AuthEnv) : AuthRequest → AuthHandler AuthResponse
  | .signup body => signup env body
  | .login body => login env body
  | .googleLogin body => googleLogin env body

/-! ### Runs -/

/-- A request with what its calls find. -/
structure AuthStep where
  ws : Nat → AuthWorld
  req : AuthRequest

def AuthStep.serve (env : AuthEnv) (x : AuthStep) (db : Db) :
    Prog.Ran AuthQuery AuthQuery.Answer Err Db AuthResponse :=
  (authHandle env x.req).run (fun w q db => authAnswer w db q) x.ws 0 db

/-- The database after requests that come one after another, from an empty one. -/
def accountsAfter (env : AuthEnv) (steps : List AuthStep) : Db :=
  steps.foldl (fun db x => (x.serve env db).state) .empty

theorem accountsAfter_snoc (env : AuthEnv) (steps : List AuthStep) (x : AuthStep) :
    accountsAfter env (steps ++ [x]) = (x.serve env (accountsAfter env steps)).state := by
  rw [accountsAfter, List.foldl_append]
  rfl

/-! ### The server -/

/-- A call is answered, or fails. -/
inductive AuthAct (db : Db) (q : AuthQuery) : Except Err q.Answer → Db → Prop
  | answered (w : AuthWorld) : AuthAct db q (authAnswer w db q).1 (authAnswer w db q).2
  | failed : AuthAct db q (.error .unavailable) db

/-- Sign-ups and logins whose calls interleave over one table of users. -/
def authServer : Semantics AuthQuery AuthQuery.Answer Err Db Unit where
  act db _ _ q r db' _ := AuthAct db q r db'
  stall _ _ _ _ := False

abbrev AuthSession := Session AuthQuery AuthQuery.Answer Err Unit AuthRequest AuthResponse

abbrev AuthServer := Config AuthQuery AuthQuery.Answer Err Db Unit AuthRequest AuthResponse

abbrev AuthEvent := Event AuthQuery AuthQuery.Answer Err AuthRequest

abbrev AuthRun (env : AuthEnv) : AuthServer → List AuthEvent → AuthServer → Prop :=
  Run authServer (authHandle env) ()

end Slideo
