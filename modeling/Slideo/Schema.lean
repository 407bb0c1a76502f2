import Slideo.Lib.Js
import Slideo.Lib.Table

/-! The tables of `prisma/schema.prisma` with the constraints of the migrations, and the row changes
    that statements make. A transaction keeps its changes as a list of `Write`s until it commits. -/

namespace Slideo
open Js

/-- Milliseconds since the epoch. -/
abbrev Time := Int

/-! ### Rows -/

inductive Plan where
  | FREE
  | PRO
  | TEAM
  | ENTERPRISE
  deriving DecidableEq

structure User where
  id : String
  email : String
  password : Option String
  googleId : Option String
  provider : String
  plan : Plan
  presentationsCreatedThisMonth : Nat
  lastUsageReset : Time
  subscriptionId : Option String
  createdAt : Time
  updatedAt : Time
  deriving DecidableEq

structure Presentation where
  id : String
  userId : String
  title : String
  createdAt : Time
  updatedAt : Time
  deriving DecidableEq

structure ShareToken where
  id : String
  presentationId : String
  token : String
  recipientEmail : String
  permission : String
  expiresAt : Time
  used : Bool
  createdAt : Time
  deriving DecidableEq

structure Slide where
  id : String
  presentationId : String
  layout : String
  contentJSON : Json
  index : Int
  createdAt : Time
  updatedAt : Time
  themeChoice : Option String
  deriving DecidableEq

structure ImportedPpt where
  id : String
  userId : String
  fileName : String
  fileUrl : String
  createdAt : Time
  deriving DecidableEq

structure Template where
  id : String
  name : String
  category : String
  description : String
  themeId : String
  createdAt : Time
  updatedAt : Time
  deriving DecidableEq

structure TemplateSlide where
  id : String
  templateId : String
  layout : String
  contentJSON : Json
  index : Int
  deriving DecidableEq

/-- The database: one table for each model, keyed by `id`. -/
structure Db where
  users : Table User (·.id)
  presentations : Table Presentation (·.id)
  shareTokens : Table ShareToken (·.id)
  slides : Table Slide (·.id)
  importedPpts : Table ImportedPpt (·.id)
  templates : Table Template (·.id)
  templateSlides : Table TemplateSlide (·.id)
  deriving DecidableEq

namespace Db

def empty : Db := ⟨.empty, .empty, .empty, .empty, .empty, .empty, .empty⟩

/-- The slides of a presentation, in table order. -/
def slidesOf (db : Db) (id : String) : List Slide := db.slides.rows.filter (·.presentationId == id)

/-- The share tokens of a presentation. -/
def tokensOf (db : Db) (id : String) : List ShareToken := db.shareTokens.rows.filter (·.presentationId == id)

/-- The slides of a template, in table order. -/
def templateSlidesOf (db : Db) (id : String) : List TemplateSlide :=
  db.templateSlides.rows.filter (·.templateId == id)

/-- The row of a unique share token string. -/
def shareToken? (db : Db) (token : String) : Option ShareToken := db.shareTokens.rows.find? (·.token == token)

/-- The row of a unique e-mail address. -/
def userByEmail? (db : Db) (email : String) : Option User := db.users.rows.find? (·.email == email)

end Db

/-! ### Changes -/

/-- A change to a user row. -/
inductive UserPatch where
  /-- `presentationsCreatedThisMonth: 0, lastUsageReset: now` -/
  | resetUsage (now : Time)
  /-- `presentationsCreatedThisMonth: increment 1` -/
  | incrementUsage
  /-- `googleId, provider: 'google'` -/
  | linkGoogle (googleId : String)
  deriving DecidableEq

def UserPatch.apply (at_ : Time) (u : User) : UserPatch → User
  | .resetUsage now => { u with presentationsCreatedThisMonth := 0, lastUsageReset := now, updatedAt := at_ }
  | .incrementUsage =>
    { u with presentationsCreatedThisMonth := u.presentationsCreatedThisMonth + 1, updatedAt := at_ }
  | .linkGoogle googleId => { u with googleId := some googleId, provider := "google", updatedAt := at_ }

theorem UserPatch.apply_id (at_ : Time) (u : User) (patch : UserPatch) : (patch.apply at_ u).id = u.id := by
  cases patch <;> rfl

/-- New values for the columns of a template; `none` leaves a column as it is. -/
structure TemplatePatch where
  name : Option String
  category : Option String
  description : Option String
  themeId : Option String
  deriving DecidableEq

def TemplatePatch.apply (at_ : Time) (patch : TemplatePatch) (t : Template) : Template :=
  { t with
    name := patch.name.getD t.name
    category := patch.category.getD t.category
    description := patch.description.getD t.description
    themeId := patch.themeId.getD t.themeId
    updatedAt := at_ }

theorem TemplatePatch.apply_id (at_ : Time) (patch : TemplatePatch) (t : Template) :
    (patch.apply at_ t).id = t.id := rfl

/-- A change to one row. -/
inductive Write where
  | insertUser (u : User)
  | patchUser (id : String) (at_ : Time) (patch : UserPatch)
  | insertPresentation (p : Presentation)
  | patchPresentation (id : String) (at_ : Time) (title : Option String)
  | deletePresentation (id : String)
  | insertSlide (s : Slide)
  | deleteSlide (presentationId id : String)
  | insertShareToken (t : ShareToken)
  | insertImportedPpt (i : ImportedPpt)
  | patchTemplate (id : String) (at_ : Time) (patch : TemplatePatch)
  deriving DecidableEq

/-- The new version of a presentation row; without a title only `updatedAt` moves. -/
def Presentation.patch (at_ : Time) (title : Option String) (p : Presentation) : Presentation :=
  { p with title := title.getD p.title, updatedAt := at_ }

theorem Presentation.patch_id (at_ : Time) (title : Option String) (p : Presentation) :
    (p.patch at_ title).id = p.id := rfl

namespace Db

def apply (db : Db) : Write → Db
  | .insertUser u => { db with users := db.users.insert u }
  | .patchUser id at_ patch =>
    { db with users := db.users.modify id (patch.apply at_) (patch.apply_id at_ ·) }
  | .insertPresentation p => { db with presentations := db.presentations.insert p }
  | .patchPresentation id at_ title =>
    { db with
      presentations := db.presentations.modify id (Presentation.patch at_ title) (Presentation.patch_id at_ title) }
  | .deletePresentation id => { db with presentations := db.presentations.delete (·.id == id) }
  | .insertSlide s => { db with slides := db.slides.insert s }
  | .deleteSlide presentationId id =>
    { db with slides := db.slides.delete fun s => s.presentationId == presentationId && s.id == id }
  | .insertShareToken t => { db with shareTokens := db.shareTokens.insert t }
  | .insertImportedPpt i => { db with importedPpts := db.importedPpts.insert i }
  | .patchTemplate id at_ patch =>
    { db with templates := db.templates.modify id (patch.apply at_) (patch.apply_id at_) }

/-- Applies the changes of a statement or a transaction in order. -/
def applyAll (db : Db) (ws : List Write) : Db := ws.foldl apply db

@[simp] theorem applyAll_nil (db : Db) : db.applyAll [] = db := rfl

@[simp] theorem applyAll_cons (db : Db) (w : Write) (ws : List Write) :
    db.applyAll (w :: ws) = (db.apply w).applyAll ws := rfl

theorem applyAll_append (db : Db) (ws ws' : List Write) :
    db.applyAll (ws ++ ws') = (db.applyAll ws).applyAll ws' := List.foldl_append

end Db

/-! ### Row locks -/

/-- Two changes of different transactions that cannot both be pending: the later one waits. They change
    the same row, or one deletes the row that the other refers to. -/
def Write.conflicts : Write → Write → Bool
  | .patchUser id _ _, .patchUser id' _ _ => id == id'
  | .patchPresentation id _ _, .patchPresentation id' _ _ => id == id'
  | .patchPresentation id _ _, .deletePresentation id' => id == id'
  | .deletePresentation id, .patchPresentation id' _ _ => id == id'
  | .deletePresentation id, .deletePresentation id' => id == id'
  | .deletePresentation id, .insertSlide s => s.presentationId == id
  | .insertSlide s, .deletePresentation id => s.presentationId == id
  | .deletePresentation id, .insertShareToken t => t.presentationId == id
  | .insertShareToken t, .deletePresentation id => t.presentationId == id
  | .deleteSlide _ id, .deleteSlide _ id' => id == id'
  | .patchTemplate id _ _, .patchTemplate id' _ _ => id == id'
  | _, _ => false

end Slideo
