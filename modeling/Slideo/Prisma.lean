import Slideo.Schema
import Slideo.Lib.Prog
import Mathlib.Data.List.Sort

/-! The calls of the handlers to their environment and how they are answered: Prisma's checks of
    untyped arguments, the constraints of the migrations, and PostgreSQL's READ COMMITTED transactions.
    Arguments that handlers pass on from a request body stay untyped (`Val`), as in the source. -/

namespace Slideo
open Js

/-- What a call or a handler can throw. -/
inductive Err where
  | typeError
  | validation
  | unique (constraint : String)
  | foreignKey (constraint : String)
  | notFound
  | unavailable
  deriving DecidableEq

/-! ### Arguments -/

/-- PostgreSQL stores no NUL character in `text` or `jsonb`. -/
def storableText (s : String) : Bool := !s.toList.contains (Char.ofNat 0)

mutual
def storable : Json → Bool
  | .null | .bool _ | .num _ => true
  | .str s => storableText s
  | .arr items => storableItems items
  | .obj fields => storableFields fields

def storableItems : List Json → Bool
  | [] => true
  | item :: items => storable item && storableItems items

def storableFields : List (String × Json) → Bool
  | [] => true
  | (name, v) :: fields => storableText name && storable v && storableFields fields
end

/-- A required `String` argument. -/
def textArg : Val → Except Err String
  | some (.str s) => if storableText s then .ok s else .error .validation
  | _ => .error .validation

/-- A nullable `String` argument. -/
def textArg? : Val → Except Err (Option String)
  | none | some .null => .ok none
  | v => (textArg v).map some

/-- A `String` column in an update: absent leaves it, and `set` wraps the new value. -/
def textUpdate : Val → Except Err (Option String)
  | none => .ok none
  | some (.obj [("set", v)]) => (textArg (some v)).map some
  | v => (textArg v).map some

/-- An `Int` column with default 0: a whole number of 32 bits. -/
def intArg : Val → Except Err Int
  | none => .ok 0
  | some (.num q) => if q.den = 1 ∧ -2 ^ 31 ≤ q.num ∧ q.num < 2 ^ 31 then .ok q.num else .error .validation
  | _ => .error .validation

/-- The data of a slide as a handler passes it. -/
structure SlideData where
  index : Val
  layout : Val
  contentJSON : Json
  themeChoice : Val

/-- The columns of a slide that a handler sets. -/
structure SlideBody where
  index : Int
  layout : String
  contentJSON : Json
  themeChoice : Option String
  deriving DecidableEq

/-- A constraint, with the error of its violation. -/
def require (p : Prop) [Decidable p] (e : Err) : Except Err Unit := if p then .ok () else .error e

def SlideData.check (d : SlideData) : Except Err SlideBody := do
  let index ← intArg d.index
  let layout ← textArg d.layout
  require (storable d.contentJSON = true) .validation
  let themeChoice ← textArg? d.themeChoice
  return ⟨index, layout, d.contentJSON, themeChoice⟩

def Slide.body (s : Slide) : SlideBody := ⟨s.index, s.layout, s.contentJSON, s.themeChoice⟩

/-- The rows of new slides; slide `i` of the list gets the id `ids i`. -/
def slideRows (presentationId : String) (now : Time) (ids : Nat → String) (bodies : List SlideBody) : List Slide :=
  bodies.mapIdx fun i b => ⟨ids i, presentationId, b.layout, b.contentJSON, b.index, now, now, b.themeChoice⟩

/-! ### Calls -/

/-- A file in an uploaded archive, with its text. -/
structure ZipEntry where
  entryName : String
  data : String

/-- `orderBy: { createdAt: 'desc' }`: how a query sorts its rows. Rows of one time may come in any order. -/
structure Newest {α : Type} (createdAt : α → Time) where
  sort : List α → List α
  perm (rows : List α) : (sort rows).Perm rows
  sorted (rows : List α) : (sort rows).Pairwise fun a b => createdAt b ≤ createdAt a

namespace Newest
variable {α : Type} {createdAt : α → Time}

theorem mem_sort (o : Newest createdAt) {rows : List α} {a : α} : a ∈ o.sort rows ↔
    a ∈ rows := (o.perm rows).mem_iff

/-- The order that keeps rows of one time as they stand in the table. -/
def stable (createdAt : α → Time) : Newest createdAt where
  sort rows := rows.insertionSort fun a b => createdAt b ≤ createdAt a
  perm _ := List.perm_insertionSort _ _
  sorted _ := List.pairwise_insertionSort _ _

/-- Rows of different times have one order. -/
theorem sort_eq (o o' : Newest createdAt) {rows : List α} (h : (rows.map createdAt).Nodup) :
    o.sort rows = o'.sort rows := by
  refine List.Perm.eq_of_pairwise (fun a b ha hb hab hba => ?_) (o.sorted rows) (o'.sorted rows)
    ((o.perm rows).trans (o'.perm rows).symm)
  exact List.inj_on_of_nodup_map h (o.mem_sort.mp ha) (o'.mem_sort.mp hb) (le_antisymm hba hab)

end Newest

/-- What the environment of a call chooses: the clock, fresh ids, the answers of other services, and the order
    among rows that a query leaves open. -/
structure World where
  now : Time
  uuid : Nat → String
  /-- `response.text` of the model call -/
  gemini : Except Err (Option String)
  archive : Except Err (List ZipEntry)
  upload : Except Err String
  presentationOrder : Newest Presentation.createdAt
  importedPptOrder : Newest ImportedPpt.createdAt

inductive Query where
  | clock
  | randomUUID
  | generateContent (prompt : String)
  | fetchArchive (url : String)
  | uploadRaw (fileName : String)
  | begin
  | commit
  | rollback
  | userFindUnique (id : String)
  | userUpdate (id : String) (patch : UserPatch)
  | presentationFindUnique (id : String)
  | presentationFindFirst (id userId : String)
  | presentationFindMany (userId : String) (take skip : Int)
  | presentationCreate (userId : String) (title : Val) (slides : List SlideData)
  | presentationUpdate (id : String) (title : Val)
  | presentationDelete (id : String)
  | slideDeleteMany (presentationId : String)
  | slideCreateMany (presentationId : String) (data : List SlideData)
  | shareTokenCreate (presentationId token : String) (recipientEmail : Val) (permission : String)
      (expiresAt : Option Time)
  | shareTokenFindUnique (token : String)
  | templateFindUnique (id : Val)
  | templateFindMany
  | templateUpdate (id : String) (name category description themeId : Val)
  | importedPptFindFirst (id userId : String)
  | importedPptFindMany (userId : String)
  | importedPptCreate (userId fileName fileUrl : String)

/-- A presentation with its slides. -/
structure Deck where
  row : Presentation
  slides : List Slide
  deriving DecidableEq

abbrev Query.Answer : Query → Type
  | .clock => Time
  | .randomUUID => String
  | .generateContent _ => Option String
  | .fetchArchive _ => List ZipEntry
  | .uploadRaw _ => String
  | .begin | .commit | .rollback => Unit
  | .userFindUnique _ => Option User
  | .userUpdate _ _ => Unit
  | .presentationFindUnique _ => Option Deck
  | .presentationFindFirst _ _ => Option Presentation
  | .presentationFindMany _ _ _ => List (Presentation × Nat)
  | .presentationCreate _ _ _ => Deck
  | .presentationUpdate _ _ => Presentation
  | .presentationDelete _ | .slideDeleteMany _ | .slideCreateMany _ _ => Unit
  | .shareTokenCreate _ _ _ _ _ => Unit
  | .shareTokenFindUnique _ => Option (ShareToken × Option Presentation)
  | .templateFindUnique _ => Option (Template × List TemplateSlide)
  | .templateFindMany => List (Template × List TemplateSlide)
  | .templateUpdate _ _ _ _ _ => Template
  | .importedPptFindFirst _ _ => Option ImportedPpt
  | .importedPptFindMany _ => List ImportedPpt
  | .importedPptCreate _ _ _ => ImportedPpt

abbrev Handler := Prog Query Query.Answer Err

/-- `await` on a call. -/
def ask (q : Query) : Handler q.Answer := Prog.ask q

/-! ### Statements -/

/-- `take` and `skip` of a list; a negative `take` counts from the end. -/
def page {α : Type} (take skip : Int) (rows : List α) : Except Err (List α) :=
  if skip < 0 then .error .validation
  else if 0 ≤ take then .ok ((rows.drop skip.toNat).take take.toNat)
  else .ok (((rows.reverse.drop skip.toNat).take take.natAbs).reverse)

def Db.deck? (db : Db) (id : String) : Option Deck := (db.presentations.find? id).map fun p => ⟨p, db.slidesOf id⟩

section Statements
variable (w : World) (snap db : Db)

/-- New slide rows have new ids. -/
def freshSlides (rows : List Slide) : Except Err Unit :=
  require ((rows.map (·.id)).Nodup ∧ ∀ s ∈ rows, s.id ∉ db.slides.keys) (.unique "Slide_pkey")

def createDeck (userId : String) (title : Val) (slides : List SlideData) : Except Err (Deck × List Write) := do
  let title ← textArg title
  let bodies ← slides.mapM SlideData.check
  let p : Presentation := ⟨w.uuid 0, userId, title, w.now, w.now⟩
  let rows := slideRows p.id w.now (fun i => w.uuid (i + 1)) bodies
  require (userId ∈ db.users.keys) (.foreignKey "Presentation_userId_fkey")
  require (p.id ∉ db.presentations.keys) (.unique "Presentation_pkey")
  freshSlides db rows
  return (⟨p, rows⟩, .insertPresentation p :: rows.map .insertSlide)

def createSlides (presentationId : String) (data : List SlideData) : Except Err (Unit × List Write) := do
  let bodies ← data.mapM SlideData.check
  let rows := slideRows presentationId w.now w.uuid bodies
  require (presentationId ∈ db.presentations.keys) (.foreignKey "Slide_presentationId_fkey")
  freshSlides db rows
  return ((), rows.map .insertSlide)

def createShareToken (presentationId token : String) (recipientEmail : Val) (permission : String)
    (expiresAt : Option Time) : Except Err (Unit × List Write) := do
  let recipientEmail ← textArg recipientEmail
  let permission ← textArg (some (.str permission))
  let some expiresAt := expiresAt | throw .validation
  require (presentationId ∈ db.presentations.keys) (.foreignKey "ShareToken_presentationId_fkey")
  require (w.uuid 0 ∉ db.shareTokens.keys) (.unique "ShareToken_pkey")
  require (db.shareToken? token = none) (.unique "ShareToken_token_key")
  return ((), [.insertShareToken ⟨w.uuid 0, presentationId, token, recipientEmail,
    permission, expiresAt, false, w.now⟩])

/-- Deleting a row that is still referenced fails (`ON DELETE RESTRICT`). -/
def deletePresentationRow (id : String) : Except Err (Unit × List Write) := do
  require (id ∈ snap.presentations.keys ∧ id ∈ db.presentations.keys) .notFound
  require (db.slidesOf id = []) (.foreignKey "Slide_presentationId_fkey")
  require (db.tokensOf id = []) (.foreignKey "ShareToken_presentationId_fkey")
  return ((), [.deletePresentation id])

def updatePresentationRow (id : String) (title : Val) : Except Err (Presentation × List Write) := do
  let title ← textUpdate title
  require (id ∈ snap.presentations.keys) .notFound
  let some p := db.presentations.find? id | throw .notFound
  return (p.patch w.now title, [.patchPresentation id w.now title])

def updateTemplateRow (id : String) (name category description themeId : Val) :
    Except Err (Template × List Write) := do
  let patch : TemplatePatch :=
    ⟨← textUpdate name, ← textUpdate category, ← textUpdate description, ← textUpdate themeId⟩
  require (id ∈ snap.templates.keys) .notFound
  let some t := db.templates.find? id | throw .notFound
  return (patch.apply w.now t, [.patchTemplate id w.now patch])

def updateUserRow (id : String) (patch : UserPatch) : Except Err (Unit × List Write) := do
  require (id ∈ snap.users.keys ∧ id ∈ db.users.keys) .notFound
  return ((), [.patchUser id w.now patch])

def createImportedPpt (userId fileName fileUrl : String) : Except Err (ImportedPpt × List Write) := do
  let i : ImportedPpt := ⟨w.uuid 0, userId, fileName, fileUrl, w.now⟩
  require (userId ∈ db.users.keys) (.foreignKey "ImportedPpt_userId_fkey")
  require (i.id ∉ db.importedPpts.keys) (.unique "ImportedPpt_pkey")
  return (i, [.insertImportedPpt i])

/-- A statement: its answer and its changes. It sees the rows of `snap`, the state at its start; the rows
    it changes or refers to are those of `db`, the state when it gets their locks. -/
def exec : (q : Query) → Except Err (q.Answer × List Write)
  | .clock => .ok (w.now, [])
  | .randomUUID => .ok (w.uuid 0, [])
  | .generateContent _ => w.gemini.map (·, [])
  | .fetchArchive _ => w.archive.map (·, [])
  | .uploadRaw _ => w.upload.map (·, [])
  | .begin | .commit | .rollback => .ok ((), [])
  | .userFindUnique id => .ok (snap.users.find? id, [])
  | .userUpdate id patch => updateUserRow w snap db id patch
  | .presentationFindUnique id => .ok (snap.deck? id, [])
  | .presentationFindFirst id userId => .ok ((snap.presentations.find? id).filter (·.userId == userId), [])
  | .presentationFindMany userId take skip =>
    (page take skip ((w.presentationOrder.sort (snap.presentations.rows.filter (·.userId == userId))).map fun p =>
      (p, (snap.slidesOf p.id).length))).map (·, [])
  | .presentationCreate userId title slides => createDeck w db userId title slides
  | .presentationUpdate id title => updatePresentationRow w snap db id title
  | .presentationDelete id => deletePresentationRow snap db id
  | .slideDeleteMany presentationId =>
    .ok ((), ((snap.slidesOf presentationId).filter (·.id ∈ db.slides.keys)).map (.deleteSlide presentationId ·.id))
  | .slideCreateMany presentationId data => createSlides w db presentationId data
  | .shareTokenCreate presentationId token recipientEmail permission expiresAt =>
    createShareToken w db presentationId token recipientEmail permission expiresAt
  | .shareTokenFindUnique token =>
    .ok ((snap.shareToken? token).map fun t => (t, snap.presentations.find? t.presentationId), [])
  | .templateFindUnique id => do
    let id ← textArg id
    return ((snap.templates.find? id).map fun t => (t, snap.templateSlidesOf t.id), [])
  | .templateFindMany => .ok (snap.templates.rows.map fun t => (t, snap.templateSlidesOf t.id), [])
  | .templateUpdate id name category description themeId =>
    updateTemplateRow w snap db id name category description themeId
  | .importedPptFindFirst id userId => .ok ((snap.importedPpts.find? id).filter (·.userId == userId), [])
  | .importedPptFindMany userId =>
    .ok (w.importedPptOrder.sort (snap.importedPpts.rows.filter (·.userId == userId)), [])
  | .importedPptCreate userId fileName fileUrl => createImportedPpt w db userId fileName fileUrl

end Statements

/-! ### Connections -/

/-- Statements that lock rows which exist already, and so may have to wait after they started. -/
def Query.locksRows : Query → Bool
  | .userUpdate _ _ | .presentationUpdate _ _ | .presentationDelete _ | .slideDeleteMany _
  | .templateUpdate _ _ _ _ _ => true
  | _ => false

/-- The connection of a request: the changes of its open transaction, and the state that its current
    statement saw when it started, if it had to wait. -/
structure Conn where
  tx : Option (List Write) := none
  snapshot : Option Db := none

/-- A state with the connection's own changes. -/
def Conn.view (c : Conn) (db : Db) : Db := db.applyAll (c.tx.getD [])

/-- What a statement sees: the state at its start, with the connection's own changes. -/
def Conn.start (c : Conn) (db : Db) (q : Query) : Db := c.view (if q.locksRows then c.snapshot.getD db else db)

/-- Answers a call over the committed state `db`. Outside a transaction a statement commits at once. -/
def perform (w : World) (db : Db) (c : Conn) : (q : Query) → Except Err q.Answer × Db × Conn
  | .begin => (.ok (), db, { tx := some [] })
  | .commit => (.ok (), c.view db, {})
  | .rollback => (.ok (), db, {})
  | q =>
    match exec w (c.start db q) (c.view db) q with
    | .error e => (.error e, db, { tx := c.tx })
    | .ok (a, ws) => match c.tx with
      | none => (.ok a, db.applyAll ws, {})
      | some ws' => (.ok a, db, { tx := some (ws' ++ ws) })

/-- A call without others around it. -/
def answer (w : World) (q : Query) (s : Db × Conn) : Except Err q.Answer × (Db × Conn) := perform w s.1 s.2 q

end Slideo
