import Slideo.Theorems.Provenance

/-! The tables beside the decks: the usage of the users, the templates and the uploaded files. A request
    changes them with single statements outside transactions, so in every interleaving they are what these
    operations, one after another, make of them. -/

namespace Slideo
open Js Interleave

/-! ### The records -/

/-- What the limiter knows of a user. -/
structure Meter where
  plan : Plan
  created : Nat
  lastReset : Time
  deriving DecidableEq

/-- What a template says about itself. -/
structure TemplateInfo where
  name : String
  category : String
  description : String
  themeId : String
  deriving DecidableEq

structure Records where
  meters : String → Option Meter
  templates : String → Option TemplateInfo
  uploads : String → Option ImportedPpt

inductive RecordOp where
  | reset (user : String) (now : Time)
  | count (user : String)
  | edit (id : String) (patch : TemplatePatch)
  | upload (file : ImportedPpt)

/-- The new month of a user begins, before a request does what it was sent for. -/
def RecordOp.isReset : RecordOp → Bool
  | .reset _ _ => true
  | .count _ | .edit _ _ | .upload _ => false

/-- Columns that are not given stay. -/
def TemplateInfo.patch (patch : TemplatePatch) (t : TemplateInfo) : TemplateInfo :=
  ⟨patch.name.getD t.name, patch.category.getD t.category,
    patch.description.getD t.description, patch.themeId.getD t.themeId⟩

def records : Object Records RecordOp where
  apply s
    | .reset user now => (s.meters user).map fun m =>
      { s with meters := Function.update s.meters user (some ⟨m.plan, 0, now⟩) }
    | .count user => (s.meters user).map fun m =>
      { s with meters := Function.update s.meters user (some { m with created := m.created + 1 }) }
    | .edit id patch => (s.templates id).map fun t =>
      { s with templates := Function.update s.templates id (some (t.patch patch)) }
    | .upload file =>
      if s.uploads file.id = none then some {
        s with uploads := Function.update s.uploads file.id (some file) } else none

def User.meter (u : User) : Meter := ⟨u.plan, u.presentationsCreatedThisMonth, u.lastUsageReset⟩

def Template.info (t : Template) : TemplateInfo := ⟨t.name, t.category, t.description, t.themeId⟩

/-- The records of a database. -/
def Db.records (db : Db) : Records where
  meters id := (db.users.find? id).map User.meter
  templates id := (db.templates.find? id).map Template.info
  uploads id := db.importedPpts.find? id

/-! ### Changes of rows -/

/-- The text of a column that an update gives. -/
def given (v : Val) : Option String := (textUpdate v).toOption.join

/-- The operation of a call that has succeeded. -/
def recordOp? : Call → Option RecordOp
  | ⟨.userUpdate id (.resetUsage now), .ok _⟩ => some (.reset id now)
  | ⟨.userUpdate id .incrementUsage, .ok _⟩ => some (.count id)
  | ⟨.templateUpdate id name category description themeId, .ok _⟩ =>
    some (.edit id ⟨given name, given category, given description, given themeId⟩)
  | ⟨.importedPptCreate userId fileName fileUrl, .ok file⟩ =>
    some (.upload ⟨file.id, userId, fileName, fileUrl, file.createdAt⟩)
  | _ => none

/-- A change of the decks. -/
def Write.onDecks : Write → Bool
  | .insertPresentation _ | .patchPresentation _ _ _ | .deletePresentation _ | .insertSlide _ | .deleteSlide _ _
  | .insertShareToken _ => true
  | .insertUser _ | .patchUser _ _ _ | .insertImportedPpt _ | .patchTemplate _ _ _ => false

/-- The records of two databases are the same rows, and so are the slides of the templates. -/
structure RecordsKept (db db' : Db) : Prop where
  records : db'.records = db.records
  templateSlides : db'.templateSlides = db.templateSlides

section Writes
variable {db : Db} {ws : List Write} {w : World} {snap : Db} {q : Query} {a : q.Answer}

theorem recordsKept_of_onDecks (h : ∀ y ∈ ws, y.onDecks = true) : RecordsKept db (db.applyAll ws) := by
  induction ws generalizing db with
  | nil => exact ⟨rfl, rfl⟩
  | cons y ws ih =>
    obtain ⟨hrecords, hslides⟩ := @ih (db.apply y) fun y' hy' => h y' (List.mem_cons_of_mem y hy')
    have hy : RecordsKept db (db.apply y) := by
      have honDecks := h y List.mem_cons_self
      cases y with
      | insertUser | patchUser | insertImportedPpt | patchTemplate => cases honDecks
      | _ => exact ⟨rfl, rfl⟩
    exact ⟨hrecords.trans hy.records, hslides.trans hy.templateSlides⟩

/-- A call that is not quiet changes decks only. -/
theorem onDecks_of_exec (hq : q.quiet = false) (h : exec w snap db q = .ok (a, ws)) :
    ∀ y ∈ ws, y.onDecks = true := by
  intro y hy
  have hissues := exec_issues h y hy
  cases q with
  | presentationCreate _ _ _ => rcases hissues with ⟨_, rfl, -⟩ | ⟨_, rfl, -⟩ <;> rfl
  | presentationUpdate _ _ | slideDeleteMany _ =>
    obtain ⟨_, rfl⟩ := hissues
    rfl
  | presentationDelete _ =>
    cases hissues
    rfl
  | slideCreateMany _ _ | shareTokenCreate _ _ _ _ _ =>
    obtain ⟨_, rfl, -⟩ := hissues
    rfl
  | begin | commit | rollback => exact hissues.elim
  | _ => cases hq

theorem recordOp?_error {e : Err} : recordOp? ⟨q, .error e⟩ = none := by
  cases q with
  | userUpdate id patch => cases patch <;> rfl
  | _ => rfl

/-- A call that may change records. -/
def Query.onRecords : Query → Bool
  | .userUpdate _ _ | .templateUpdate _ _ _ _ _ | .importedPptCreate _ _ _ => true
  | _ => false

theorem recordOp?_of_other (hq : q.onRecords = false) (r : Except Err q.Answer) : recordOp? ⟨q, r⟩ = none := by
  cases q with
  | userUpdate _ _ | templateUpdate _ _ _ _ _ | importedPptCreate _ _ _ => cases hq
  | _ => rfl

theorem onRecords_of_not_quiet (hq : q.quiet = false) : q.onRecords = false := by
  cases q with
  | userUpdate _ _ | templateUpdate _ _ _ _ _ | importedPptCreate _ _ _ => cases hq
  | _ => rfl

theorem onRecords_of_silent (hq : q.silent = true) : q.onRecords = false := by
  cases q with
  | userUpdate _ _ | templateUpdate _ _ _ _ _ | importedPptCreate _ _ _ => cases hq
  | _ => rfl

theorem records_patchUser {id : String} {now : Time} {patch : UserPatch} {row : User}
    (h : db.users.find? id = some row) :
    (db.apply (.patchUser id now patch)).records =
      { db.records with meters := Function.update db.records.meters id (some (patch.apply now row).meter) } := by
  simp only [Db.records, Db.apply, Records.mk.injEq, and_true]
  funext x
  rw [Table.find?_modify]
  by_cases hx : x = id
  · subst hx
    rw [Function.update_self, h, Option.map_some, Option.map_some, if_pos (Table.key_of_find? h)]
  · rw [Function.update_of_ne hx]
    cases hfind : db.users.find? x with
    | none => rfl
    | some row' => rw [Option.map_some, if_neg fun h => hx ((Table.key_of_find? hfind).symm.trans h)]

theorem records_patchTemplate {id : String} {now : Time} {patch : TemplatePatch} {t : Template}
    (h : db.templates.find? id = some t) : (db.apply (.patchTemplate id now patch)).records =
      { db.records with templates := Function.update db.records.templates id (some (t.info.patch patch)) } := by
  simp only [Db.records, Db.apply, Records.mk.injEq, and_true, true_and]
  funext x
  rw [Table.find?_modify]
  by_cases hx : x = id
  · subst hx
    rw [Function.update_self, h, Option.map_some, Option.map_some, if_pos (Table.key_of_find? h)]
    rfl
  · rw [Function.update_of_ne hx]
    cases hfind : db.templates.find? x with
    | none => rfl
    | some t' => rw [Option.map_some, if_neg fun h => hx ((Table.key_of_find? hfind).symm.trans h)]

theorem records_insertImportedPpt {file : ImportedPpt} (h : file.id ∉ db.importedPpts.keys) :
    (db.apply (.insertImportedPpt file)).records =
      { db.records with uploads := Function.update db.records.uploads file.id (some file) } := by
  simp only [Db.records, Db.apply, Records.mk.injEq, true_and]
  funext x
  rw [Table.find?, Table.insert_rows h, List.find?_append]
  by_cases hx : x = file.id
  · subst hx
    have hnone : db.importedPpts.rows.find? (fun r => r.id == file.id) = none := Table.find?_eq_none.mpr h
    rw [Function.update_self, hnone, Option.none_or]
    simp
  · have hne : (file.id == x) = false := beq_false_of_ne (Ne.symm hx)
    rw [Function.update_of_ne hx, List.find?_cons_of_neg (by simp [hne]), List.find?_nil, Option.or_none]
    rfl

theorem given_of_ok {v : Val} {text : Option String} (h : textUpdate v = .ok text) : given v = text := by
  rw [given, h]
  rfl

/-- What an answered call does to the records, if it commits at once, is its operation. -/
theorem records_of_exec (hq : q.quiet = true) (h : exec w snap db q = .ok (a, ws)) :
    (db.applyAll ws).templateSlides = db.templateSlides ∧
      (recordOp? ⟨q, .ok a⟩).elim ((db.applyAll ws).records = db.records) fun o =>
        records.apply db.records o = some (db.applyAll ws).records := by
  have hissues := exec_issues h
  cases q with
  | userUpdate id patch =>
    obtain ⟨-, hid, rfl⟩ := updateUserRow_ok h
    obtain ⟨row, hrow⟩ := Option.ne_none_iff_exists'.mp fun hnone => Table.find?_eq_none.mp hnone hid
    have hmeter : db.records.meters id = some row.meter := by
      show (db.users.find? id).map User.meter = _
      rw [hrow, Option.map_some]
    have hrecords : (db.apply (.patchUser id w.now patch)).records =
        { db.records with meters := Function.update db.records.meters id (some (patch.apply w.now row).meter) } :=
      records_patchUser hrow
    refine ⟨rfl, ?_⟩
    cases patch with
    | resetUsage now =>
      show (db.records.meters id).map _ = some (db.apply (.patchUser id w.now (.resetUsage now))).records
      rw [hmeter, Option.map_some, hrecords]
      rfl
    | incrementUsage =>
      show (db.records.meters id).map _ = some (db.apply (.patchUser id w.now .incrementUsage)).records
      rw [hmeter, Option.map_some, hrecords]
      rfl
    | linkGoogle googleId =>
      have hsame : Function.update db.records.meters id (some row.meter) = db.records.meters :=
        Function.update_eq_self_iff.mpr hmeter.symm
      show (db.apply (.patchUser id w.now (.linkGoogle googleId))).records = db.records
      rw [hrecords, show ((UserPatch.linkGoogle googleId).apply w.now row).meter = row.meter from rfl, hsame]
  | templateUpdate id name category description themeId =>
    obtain ⟨patch, t, hname, hcategory, hdescription, htheme, ht, rfl⟩ := updateTemplateRow_ok h
    have hinfo : db.records.templates id = some t.info := by
      show (db.templates.find? id).map Template.info = _
      rw [ht, Option.map_some]
    refine ⟨rfl, ?_⟩
    show (db.records.templates id).map _ = some (db.apply (.patchTemplate id w.now patch)).records
    rw [hinfo, Option.map_some, records_patchTemplate ht, given_of_ok hname,
      given_of_ok hcategory, given_of_ok hdescription, given_of_ok htheme]
  | importedPptCreate userId fileName fileUrl =>
    obtain ⟨rfl, hkey, rfl⟩ := createImportedPpt_ok h
    have hnone : db.records.uploads (w.uuid 0) = none := Table.find?_eq_none.mpr hkey
    refine ⟨rfl, ?_⟩
    show (if db.records.uploads (w.uuid 0) = none then _ else none) = some (db.apply (.insertImportedPpt _)).records
    rw [if_pos hnone, records_insertImportedPpt hkey]
  | begin | commit | rollback | presentationCreate _ _ _ | presentationUpdate _ _ | presentationDelete _
  | slideDeleteMany _ | slideCreateMany _ _ | shareTokenCreate _ _ _ _ _ => cases hq
  | _ =>
    obtain rfl : ws = [] := List.eq_nil_iff_forall_not_mem.mpr fun y hy => hissues y hy
    exact ⟨rfl, rfl⟩

end Writes

/-! ### Steps -/

section Steps
variable {env : Env} {st st' : Store} {others : List Conn} {req : Request} {p p' : Conn} {m : Course} {q : Query}
  {r : Except Err q.Answer} {c₀ c c' : Server} {es : List ServerEvent} {e : ServerEvent}

theorem Saving.onDecks {id : String} {t : Option String} {ss rows : List Slide}
    (h : Saving env st req p id t ss rows) :
    ∀ y ∈ p.tx.getD [], y.onDecks = true := by
  intro y hy
  obtain ⟨at_, htx⟩ := h.pending
  rw [htx, Option.getD_some] at hy
  rcases List.mem_cons.mp hy with rfl | hy
  · rfl
  rcases List.mem_append.mp hy with hy | hy
  · obtain ⟨s, -, rfl⟩ := List.mem_map.mp hy
    rfl
  · obtain ⟨s, -, rfl⟩ := List.mem_map.mp hy
    rfl

/-- A transaction that may commit holds back changes of decks only. -/
theorem Held.onDecks (h : Held env st req p m) (hq : Allows env req m .commit) :
    ∀ y ∈ p.tx.getD [], y.onDecks = true := by
  cases hq with
  | quiet hquiet _ => cases hquiet
  | commitCleared _ _ _ =>
    obtain ⟨id, t, ss, hsaving, -⟩ := h
    exact hsaving.onDecks
  | commitFilled =>
    obtain ⟨id, t, ss, rows, hsaving, -⟩ := h
    exact hsaving.onDecks
  | commitDropped _ =>
    obtain ⟨id, ss, hremoving⟩ := h
    intro y hy
    rw [hremoving.pending, Option.getD_some] at hy
    rcases List.mem_append.mp hy with hy | hy
    · obtain ⟨s, -, rfl⟩ := List.mem_map.mp hy
      rfl
    · obtain rfl := List.mem_singleton.mp hy
      rfl

/-- A call that is not quiet leaves the records as they are. -/
theorem Act.recordsKept (h : Act st others p q r st' p') (hq : q.quiet = false)
    (hcommit : q = .commit → ∀ y ∈ p.tx.getD [], y.onDecks = true) : RecordsKept st.db st'.db := by
  rcases h.inv with ⟨w, -, -, -, rfl, -⟩ | ⟨-, rfl, -⟩
  · by_cases hstatement : q.IsStatement
    · rw [perform_eq hstatement]
      cases hexec : exec w (p.start st.db q) (p.view st.db) q with
      | error e => exact ⟨rfl, rfl⟩
      | ok out =>
        cases p.tx with
        | none => exact recordsKept_of_onDecks (onDecks_of_exec hq hexec)
        | some ws => exact ⟨rfl, rfl⟩
    · cases q with
      | begin | rollback => exact ⟨rfl, rfl⟩
      | commit => exact recordsKept_of_onDecks (hcommit rfl)
      | _ => exact absurd trivial hstatement
  · exact ⟨rfl, rfl⟩

/-- A quiet call outside transactions does to the records what its operation says. -/
theorem Act.records (h : Act st others p q r st' p') (hq : q.quiet = true) (htx : p.tx = none) :
    st'.db.templateSlides = st.db.templateSlides ∧
      (recordOp? ⟨q, r⟩).elim (st'.db.records = st.db.records) fun o =>
        Slideo.records.apply st.db.records o = some st'.db.records := by
  have hstatement : q.IsStatement := by
    cases q with
    | begin | commit | rollback => cases hq
    | _ => trivial
  obtain ⟨-, ⟨e, rfl, hdb⟩ | ⟨w, snap, a, ws, hexec, -, rfl, hdb⟩⟩ := h.outside hstatement htx
  · rw [hdb, recordOp?_error]
    exact ⟨rfl, rfl⟩
  · rw [hdb]
    exact records_of_exec hq hexec

/-- The operations of a run, with the numbers of their requests. -/
def recordEffects (es : List ServerEvent) : List (Nat × RecordOp) := effects (fun _ a => recordOp? a) es

theorem ServerStep.records (h₀ : c₀.Idle) (run : ServerRun env c₀ es c) (step : ServerStep env c e c') :
    c'.shared.db.templateSlides = c.shared.db.templateSlides ∧
      (e.effect? (fun _ a => recordOp? a) (c.sessions.map (·.tag))).elim
        (c'.shared.db.records = c.shared.db.records) fun o =>
        Slideo.records.apply c.shared.db.records o.2 = some c'.shared.db.records := by
  cases step with
  | spawn req => exact ⟨rfl, rfl⟩
  | stall hx hp ha => exact ⟨rfl, rfl⟩
  | @act i x q k r st' p' hx hp ha =>
    simp only [Event.effect?, List.getElem?_map, hx, Option.map_some, Option.bind_some]
    cases hq : q.quiet with
    | true =>
      obtain ⟨hslides, hop⟩ := Act.records ha hq (closed_of_quiet h₀ run hx hp hq)
      exact ⟨hslides, by rwa [Option.elim_map]⟩
    | false =>
      have hkept : RecordsKept c.shared.db st'.db := by
        refine Act.recordsKept ha hq fun heq => ?_
        subst heq
        have hends := ServerRun.ends h₀ run x (List.mem_of_getElem? hx)
        rw [hp] at hends
        exact ((ServerRun.coherent h₀ run).sessions i x hx).held.onDecks hends.1
      rw [recordOp?_of_other (onRecords_of_not_quiet hq)]
      exact ⟨hkept.templateSlides, hkept.records⟩

theorem ServerRun.records (h₀ : c₀.Idle) (run : ServerRun env c₀ es c) :
    Slideo.records.run c₀.shared.db.records ((recordEffects es).map (·.2)) = some c.shared.db.records ∧
      c.shared.db.templateSlides = c₀.shared.db.templateSlides := by
  have hperforms : ∃ R, Slideo.records.run c₀.shared.db.records ((recordEffects es).map (·.2)) = some R ∧
      c.shared.db.records = R ∧ c.shared.db.templateSlides = c₀.shared.db.templateSlides := by
    refine Run.performs (R := fun R c => c.shared.db.records = R ∧
      c.shared.db.templateSlides = c₀.shared.db.templateSlides)
      h₀.sessions ⟨rfl, rfl⟩ run fun {es c c' e R} run step hR => ?_
    obtain ⟨rfl, hsame⟩ := hR
    obtain ⟨hslides, hop⟩ := ServerStep.records h₀ run step
    cases ho : e.effect? (fun _ a => recordOp? a) (c.sessions.map (·.tag)) with
    | none =>
      rw [ho] at hop
      exact ⟨hop, hslides.trans hsame⟩
    | some o =>
      rw [ho] at hop
      exact ⟨_, hop, rfl, hslides.trans hsame⟩
  obtain ⟨R, hR, rfl, hslides⟩ := hperforms
  exact ⟨hR, hslides⟩

end Steps

/-! ### What a request asks for -/

def recordOps (log : List Call) : List RecordOp := log.filterMap recordOp?

/-- The operations of some calls, apart from the reset of the usage. -/
def bookings (log : List Call) : List RecordOp := (recordOps log).filter (!·.isReset)

/-- The endpoints that succeed with an operation. -/
def Endpoint.books : Endpoint → Bool
  | .createPresentation _ | .updateTemplate _ _ | .uploadPptx _ => true
  | _ => false

/-- The call that may come next. -/
inductive Books (env : Env) (req : Request) (log : List Call) : Query → Prop
  | other {q : Query} (hq : q.onRecords = false) : Books env req log q
  | reset {user : AuthUser} {row : User} {now : Time} (huser : req.user? env = some user)
      (hreq : req.endpoint.limited = true)
      (hrow : ⟨.userFindUnique user.id, .ok (some row)⟩ ∈ log) (hclock : ⟨.clock, .ok now⟩ ∈ log)
      (hmonth : monthChanged env now row.lastUsageReset) (hnone : recordOps log = []) :
      Books env req log (.userUpdate row.id (.resetUsage now))
  | count {user : AuthUser} {body title : Val} {data : List SlideData} {d : Deck}
      (huser : req.user? env = some user)
      (hreq : req.endpoint = .createPresentation body)
      (hdeck : ⟨.presentationCreate user.id title data, .ok d⟩ ∈ log)
      (hnone : bookings log = []) : Books env req log (.userUpdate user.id .incrementUsage)
  | edit {user : AuthUser} {id : String} {body : Val} (huser : req.user? env = some user)
      (hreq : req.endpoint = .updateTemplate id body) (hnone : bookings log = []) :
      Books env req log (.templateUpdate id (getOpt body "name")
        (getOpt body "category") (getOpt body "description")
        (getOpt body "themeId"))
  | upload {user : AuthUser} {name url : String} (huser : req.user? env = some user)
      (hreq : req.endpoint = .uploadPptx (some name))
      (hurl : ⟨.uploadRaw name, .ok url⟩ ∈ log) (hnone : bookings log = []) :
      Books env req log (.importedPptCreate user.id name url)

/-- A request makes one operation, after it may have begun a new month. -/
def bookkeeping (env : Env) (req : Request) :
    Monitor Query Query.Answer Err (List Call) := transcript (Books env req)

/-- An endpoint that books answers below 400 exactly if it has made its operation. -/
def Booked (e : Endpoint) (log : List Call) (r : Except Err Response) : Prop :=
  e.books = true → (bookings log ≠ [] ↔ ∃ response, r = .ok response ∧ response.status < 400)

/-- The monitor of programs that leave the records alone. -/
def still : Monitor Query Query.Answer Err Unit := ⟨fun _ q => q.onRecords = false, fun _ _ _ => ()⟩

section Rules
variable {env : Env} {req : Request} {e : Endpoint} {log : List Call} {a : Call} {q : Query} {α : Type}

theorem recordOps_append : recordOps (log ++ [a]) = recordOps log ++ (recordOp? a).toList := by
  rw [recordOps, List.filterMap_append, List.filterMap_cons]
  cases recordOp? a <;> rfl

theorem bookings_append : bookings (log ++ [a]) = bookings log ++ (recordOp? a).toList.filter (!·.isReset) := by
  rw [bookings, recordOps_append, List.filter_append]
  rfl

theorem bookings_of_none (h : recordOps log = []) : bookings log = [] := by rw [bookings, h, List.filter_nil]

theorem recordOps_other (hq : q.onRecords = false) (r : Except Err q.Answer) :
    recordOps (log ++ [⟨q, r⟩]) = recordOps log := by
  rw [recordOps_append, recordOp?_of_other hq, Option.toList_none, List.append_nil]

theorem bookings_other (hq : q.onRecords = false) (r : Except Err q.Answer) :
    bookings (log ++ [⟨q, r⟩]) = bookings log := by
  rw [bookings, recordOps_other hq, bookings]

theorem bookings_error {err : Err} : bookings (log ++ [⟨q, .error err⟩]) = bookings log := by
  rw [bookings_append, recordOp?_error, Option.toList_none, List.filter_nil, List.append_nil]

theorem booked_failed {response : Response} (hnone : bookings log = []) (hstatus : 400 ≤ response.status) :
    (bookkeeping env req).Ensures log (pure response) (Booked e) := by
  refine fun _ => iff_of_false (fun h => h hnone) ?_
  rintro ⟨response', heq, hlow⟩
  cases heq
  omega

theorem booked_done {response : Response} (hone : bookings log ≠ []) (hstatus : response.status < 400) :
    (bookkeeping env req).Ensures log (pure response) (Booked e) :=
  fun _ => iff_of_true hone ⟨response, rfl, hstatus⟩

theorem booked_threw {err : Err} (hnone : bookings log = []) : Booked e log (.error err) := by
  refine fun _ => iff_of_false (fun h => h hnone) ?_
  rintro ⟨response, heq, -⟩
  cases heq

theorem booked_guarded {onError : Err → Response} {body : Handler Response}
    (h : (bookkeeping env req).Ensures log body (Booked e)) (hstatus : ∀ err, 400 ≤ (onError err).status) :
    (bookkeeping env req).Ensures log (guarded onError body) (Booked e) := by
  refine ensures_guarded h fun log' err hr he => iff_of_false (fun hone => ?_) ?_
  · obtain ⟨response, heq, -⟩ := (hr he).mp hone
    cases heq
  · rintro ⟨response, heq, hlow⟩
    cases heq
    exact absurd hlow (not_lt.mpr (hstatus err))

theorem booked_ofOption_bind {o : Option α} {f : α → Handler Response} (hnone : bookings log = [])
    (h : ∀ a, o = some a → (bookkeeping env req).Ensures log (f a) (Booked e)) :
    (bookkeeping env req).Ensures log (ofOption o >>= f) (Booked e) :=
  ensures_ofOption_bind (booked_threw hnone) h

theorem booked_ask_bind {f : q.Answer → Handler Response} (hq : q.onRecords = false) (hnone : bookings log = [])
    (h : ∀ a, bookings (log ++ [⟨q, .ok a⟩]) = [] →
      (bookkeeping env req).Ensures (log ++ [⟨q, .ok a⟩]) (f a) (Booked e)) :
    (bookkeeping env req).Ensures log (ask q >>= f) (Booked e) := by
  have hnext : ∀ r, bookings (log ++ [⟨q, r⟩]) = [] := fun r => (bookings_other hq r).trans hnone
  exact Monitor.Ensures.ask_bind (.other hq) (fun a => h a (hnext _)) fun err => booked_threw (hnext _)

/-- The operation of a request is its last call. -/
theorem booked_last {response : q.Answer → Response} (hq : Books env req log q) (hnone : bookings log = [])
    (hstatus : ∀ a, (response a).status < 400) (hop : ∀ a, ∃ o, recordOp? ⟨q, .ok a⟩ = some o ∧ o.isReset = false) :
    (bookkeeping env req).Ensures log (ask q >>= fun a => pure (response a)) (Booked e) := by
  refine ⟨hq, fun r => ?_⟩
  cases r with
  | error err => exact booked_threw (bookings_error.trans hnone)
  | ok a =>
    obtain ⟨o, ho, hreset⟩ := hop a
    have hone : bookings (log ++ [⟨q, .ok a⟩]) = [o] := by
      rw [bookings_append, hnone, ho, List.nil_append, Option.toList_some,
        List.filter_cons_of_pos (by rw [hreset]; rfl), List.filter_nil]
    refine booked_done (fun hnil => ?_) (hstatus a)
    cases hone.symm.trans hnil

/-- A program that leaves the records alone makes no operation. -/
theorem ensures_still {p : Handler α} : ∀ {log : List Call}, still.Obeys () p →
    (bookkeeping env req).Ensures log p fun log' _ => bookings log' = bookings log := by
  induction p with
  | pure a => exact fun _ => rfl
  | throw err => exact fun _ => rfl
  | call q k ih =>
    exact fun h => ⟨.other h.1, fun r => (ih r (h.2 r)).mono fun log' _ heq => heq.trans (bookings_other h.1 r)⟩

theorem booked_still_bind {p : Handler α} {f : α → Handler Response}
    (hp : still.Obeys () p) (hnone : bookings log = [])
    (h : ∀ log' a, bookings log' = [] → (bookkeeping env req).Ensures log' (f a) (Booked e)) :
    (bookkeeping env req).Ensures log (p >>= f) (Booked e) :=
  (ensures_still hp).bind_of (fun log' a heq => h log' a (heq.trans hnone)) fun _ _ heq =>
    booked_threw (heq.trans hnone)

end Rules

section Handlers
variable {env : Env} {req : Request} {e : Endpoint} {log : List Call} {user : AuthUser} {id : String} {body : Val}

theorem silent_still (m : Unit) (q : Query) (hq : q.silent = true) : still.Allowed m q := onRecords_of_silent hq

theorem silent_books (log : List Call) (q : Query) (hq : q.silent = true) : (bookkeeping env req).Allowed log q :=
  .other (onRecords_of_silent hq)

/-- The limiter books nothing, and refuses with an error. -/
theorem books_limits (huser : req.user? env = some user)
    (hlimited : req.endpoint.limited = true) (hnone : recordOps log = []) :
    (bookkeeping env req).Ensures log (checkLimits env user) fun log' r =>
      bookings log' = [] ∧ ∀ response, r = .ok (.inl response) → 400 ≤ response.status := by
  have refused : ∀ {log' : List Call} {given : Response}, bookings log' = [] →
    400 ≤ given.status → bookings log' = [] ∧
      ∀ response, (Except.ok (Sum.inl given) : Except Err (Response ⊕ User)) = .ok (.inl response) →
        400 ≤ response.status := by
    intro log' given hlog hgiven
    refine ⟨hlog, fun response h => ?_⟩
    cases h
    exact hgiven
  have threw : ∀ log' e, bookings log' = [] → bookings log' = [] ∧ ∀ response,
      (Except.error e : Except Err (Response ⊕ User)) = .ok (.inl response) → 400 ≤ response.status :=
    fun _ _ hlog => ⟨hlog, fun _ h => by cases h⟩
  refine Monitor.Ensures.caught (?_ : (bookkeeping env req).Ensures log _ fun log' r => bookings log' = [] ∧
    ∀ response, r = .ok (.inl response) → 400 ≤ response.status) (fun _ _ h => h)
    fun _ _ h => refused h.1 (show 400 ≤ 500 by decide)
  have hfound : ∀ r, recordOps (log ++ [⟨.userFindUnique user.id, r⟩]) = [] := fun r =>
    (recordOps_other rfl r).trans hnone
  refine Monitor.Ensures.ask_bind (.other rfl) (fun found => ?_) fun e => threw _ e (bookings_of_none (hfound _))
  cases found with
  | none => exact refused (bookings_of_none (hfound _)) (show 400 ≤ 401 by decide)
  | some row =>
    have htime : ∀ r, recordOps (log ++ [⟨.userFindUnique user.id, .ok (some row)⟩] ++ [⟨.clock, r⟩]) = [] := fun r =>
      (recordOps_other (q := .clock) rfl r).trans (hfound _)
    refine Monitor.Ensures.ask_bind (.other rfl) (fun now => ?_) fun e => threw _ e (bookings_of_none (htime _))
    have hreset : (bookkeeping env req).Ensures
      (log ++ [⟨.userFindUnique user.id, .ok (some row)⟩] ++ [⟨.clock, .ok now⟩])
        (resetUsage env now row) fun log' _ => bookings log' = [] := by
      unfold resetUsage
      split
      · rename_i hmonth
        refine Monitor.Ensures.ask_bind (.reset huser hlimited (List.mem_append_left _ mem_last) mem_last hmonth
          (htime _)) (fun _ => ?_) fun _ => bookings_error.trans (bookings_of_none (htime _))
        exact bookings_append.trans (by rw [bookings_of_none (htime _)]; rfl)
      · exact bookings_of_none (htime _)
    refine hreset.bind_of (fun log' row' hlog => ?_) threw
    show (bookkeeping env req).Ensures _ (if _ then _ else _) _
    split
    · exact refused hlog (show 400 ≤ 403 by decide)
    · exact ⟨hlog, fun _ h => by cases h⟩

theorem booked_saveDeck {topic : Val} {slides : List Json} (huser : req.user? env = some user)
    (hreq : req.endpoint = .createPresentation body) (hnone : bookings log = []) :
    (bookkeeping env req).Ensures log (saveDeck user topic slides) (Booked e) :=
  booked_ofOption_bind hnone fun _ _ => booked_ask_bind rfl hnone fun _ hnone =>
    booked_last (.count huser hreq mem_last hnone) hnone (fun _ => show 201 < 400 by decide) fun _ => ⟨_, rfl, rfl⟩

theorem booked_createPresentation {given : Val} (huser : req.user? env = some user)
    (hreq : req.endpoint = .createPresentation body) (hnone : bookings log = []) :
    (bookkeeping env req).Ensures log (createPresentation user given) (Booked e) := by
  refine booked_guarded ?_ fun _ => by decide
  split
  · exact booked_failed hnone (by decide)
  refine booked_ofOption_bind hnone fun topic _ => ?_
  show (bookkeeping env req).Ensures log (if _ then _ else _) _
  split
  · exact booked_failed hnone (by decide)
  exact booked_still_bind (lenient_findRequiredLayouts silent_still) hnone fun _ layouts hnone =>
    booked_still_bind (lenient_finalSlides silent_still) hnone fun _ slides hnone =>
      booked_saveDeck huser hreq hnone

theorem booked_postPresentations (huser : req.user? env = some user)
    (hreq : req.endpoint = .createPresentation body) :
    (bookkeeping env req).Ensures [] (postPresentations env body user) (Booked e) := by
  refine (books_limits huser (by rw [hreq]; rfl) rfl).bind_of (fun log' passed hr => ?_) fun _ _ h => booked_threw h.1
  obtain ⟨hnone, hrefused⟩ := hr
  rcases passed with response | row
  · exact booked_failed hnone (hrefused response rfl)
  · dsimp only
    split
    · exact booked_createPresentation huser hreq hnone
    · exact booked_failed hnone (by decide)

theorem booked_updateTemplate (huser : req.user? env = some user) (hreq : req.endpoint = .updateTemplate id body) :
    (bookkeeping env req).Ensures [] (updateTemplate id body) (Booked e) := by
  refine booked_guarded ?_ fun _ => by decide
  rw [prop]
  cases hname : get body "name" with
  | none => exact booked_threw rfl
  | some name =>
    have hget : getOpt body "name" = name := by rw [getOpt, hname, Option.getD_some]
    exact booked_last (hget ▸ .edit huser hreq rfl) rfl (fun _ => show 200 < 400 by decide) fun _ => ⟨_, rfl, rfl⟩

theorem booked_uploadPptx {fileName : Option String} (huser : req.user? env = some user)
    (hreq : req.endpoint = .uploadPptx fileName) :
    (bookkeeping env req).Ensures [] (uploadPptx user fileName) (Booked e) := by
  refine booked_guarded ?_ fun _ => show 400 ≤ 500 by decide
  split
  · exact booked_failed rfl (by decide)
  cases fileName with
  | none => exact booked_failed rfl (by decide)
  | some name =>
    exact booked_ask_bind rfl rfl fun url hnone =>
      booked_last (.upload huser hreq mem_last hnone) hnone (fun _ => show 201 < 400 by decide) fun _ => ⟨_, rfl, rfl⟩

theorem booked_of_obeys {p : Handler Response} (hreq : req.endpoint = e) (he : e.books = false)
    (h : (bookkeeping env req).Obeys log p) : (bookkeeping env req).Ensures log p (Booked req.endpoint) := by
  refine h.mono fun _ _ _ hbooks => ?_
  rw [hreq, he] at hbooks
  cases hbooks

theorem booked_authenticated {handler : AuthUser → Handler Response}
    (h : ∀ user, req.user? env = some user → (bookkeeping env req).Ensures [] (handler user) (Booked e)) :
    (bookkeeping env req).Ensures [] (authenticated env req handler) (Booked e) := by
  cases huser : req.user? env with
  | none =>
    unfold Request.user? at huser
    unfold authenticated
    split at huser
    · cases huser
    · rename_i response hrefused
      exact booked_failed rfl (le_of_le_of_eq (show 400 ≤ 401 by decide) (authenticate_error hrefused).symm)
  | some user =>
    rw [authenticated_of_user huser]
    exact h user huser

/-- Every request makes at most the operation that it asks for, and says whether it has. -/
theorem booked_handle (env : Env) (req : Request) :
    (bookkeeping env req).Ensures [] (handle env req) (Booked req.endpoint) := by
  unfold handle
  split <;> rename_i hreq
  · exact booked_authenticated fun user huser => booked_postPresentations huser hreq
  · refine booked_of_obeys hreq rfl (obeys_authenticated_of fun user huser => ?_)
    exact lenient_postGenerateSlide silent_books
      ((books_limits huser (by rw [hreq]; rfl) rfl).mono fun _ _ _ => trivial)
  · exact booked_of_obeys hreq rfl (obeys_authenticated_of fun _ _ => lenient_getUserPresentations silent_books)
  · exact booked_of_obeys hreq rfl (obeys_authenticated_of fun _ _ => lenient_getPresentationById silent_books)
  · exact booked_of_obeys hreq rfl (obeys_authenticated_of fun _ _ =>
      lenient_updatePresentation silent_books fun _ _ _ _ => .other rfl)
  · exact booked_of_obeys hreq rfl (obeys_authenticated_of fun _ _ => lenient_deletePresentation silent_books)
  · exact booked_of_obeys hreq rfl (obeys_authenticated_of fun _ _ => lenient_exportToPptx silent_books)
  · exact booked_of_obeys hreq rfl (obeys_authenticated_of fun _ _ =>
      lenient_createShareLink silent_books fun _ _ _ _ _ => .other rfl)
  · exact booked_of_obeys hreq rfl (lenient_resolveShareToken silent_books)
  · exact booked_of_obeys hreq rfl (lenient_getSharedPresentation silent_books)
  · exact booked_of_obeys hreq rfl (obeys_guarded (Monitor.Obeys.ask_bind (.other rfl) fun _ => trivial))
  · exact booked_of_obeys hreq rfl (lenient_getTemplateById silent_books)
  · exact booked_of_obeys hreq rfl (obeys_authenticated_of fun _ _ =>
      lenient_useTemplate silent_books fun _ _ _ _ _ _ => .other rfl)
  · exact booked_authenticated fun user huser => booked_updateTemplate huser hreq
  · exact booked_of_obeys hreq rfl (obeys_authenticated_of fun _ _ => lenient_getImportedPpts silent_books)
  · exact booked_authenticated fun user huser => booked_uploadPptx huser hreq
  · exact booked_of_obeys hreq rfl (obeys_authenticated_of fun _ _ =>
      lenient_convertPptToPresentation silent_books fun _ _ _ _ _ => .other rfl)
  · exact booked_of_obeys hreq rfl (obeys_authenticated_of fun _ _ => lenient_getUserPlan silent_books)

end Handlers

/-! ### Runs -/

/-- What a request that performs an operation has to do with it. -/
def Request.Asks (env : Env) (req : Request) (log : List Call) : RecordOp → Prop
  | .reset id now => ∃ user row, req.user? env = some user ∧ user.id = id ∧ req.endpoint.limited = true ∧
      ⟨.userFindUnique id, .ok (some row)⟩ ∈ log ∧ ⟨.clock, .ok now⟩ ∈ log ∧ monthChanged env now row.lastUsageReset
  | .count id => ∃ user body title data d, req.user? env = some user ∧ user.id = id ∧
    req.endpoint = .createPresentation body ∧
      ⟨.presentationCreate id title data, .ok d⟩ ∈ log
  | .edit id patch => ∃ user body, req.user? env = some user ∧ req.endpoint = .updateTemplate id body ∧
      patch = ⟨given (getOpt body "name"), given (getOpt body "category"),
        given (getOpt body "description"), given (getOpt body "themeId")⟩
  | .upload file => ∃ user, req.user? env = some user ∧ user.id = file.userId ∧
    req.endpoint = .uploadPptx (some file.fileName) ∧
      ⟨.uploadRaw file.fileName, .ok file.fileUrl⟩ ∈ log

/-- The rows in a log are those that were asked for. -/
def Rows (log : List Call) : Prop := ∀ id row, ⟨.userFindUnique id, .ok (some row)⟩ ∈ log → row.id = id

section Runs
variable {env : Env} {c₀ c : Server} {es : List ServerEvent} {req : Request} {log : List Call} {q : Query}
  {r : Except Err q.Answer} {o : RecordOp}

theorem Request.Asks.mono {log' : List Call} (h : req.Asks env log o)
    (hsub : ∀ a ∈ log, a ∈ log') : req.Asks env log' o := by
  cases o with
  | reset id now =>
    obtain ⟨user, row, huser, hid, hlimited, hrow, hclock, hmonth⟩ := h
    exact ⟨user, row, huser, hid, hlimited, hsub _ hrow, hsub _ hclock, hmonth⟩
  | count id =>
    obtain ⟨user, body, title, data, d, huser, hid, hreq, hdeck⟩ := h
    exact ⟨user, body, title, data, d, huser, hid, hreq, hsub _ hdeck⟩
  | edit id patch => exact h
  | upload file =>
    obtain ⟨user, huser, hid, hreq, hurl⟩ := h
    exact ⟨user, huser, hid, hreq, hsub _ hurl⟩

/-- How many operations of each kind a request has made. -/
def opCount (kind : Bool) (log : List Call) : Nat := (recordOps log).countP (·.isReset == kind)

theorem opCount_of_bookings (hnone : bookings log = []) : opCount false log = 0 := by
  rw [opCount, List.countP_eq_zero]
  intro o ho hkind
  have hmem : o ∈ bookings log := List.mem_filter.mpr ⟨ho, by simpa using hkind⟩
  rw [hnone] at hmem
  cases hmem

/-- The operation of an allowed call is asked for, and the first of its kind. -/
theorem Books.op (hq : Books env req log q) (ho : recordOp? ⟨q, r⟩ = some o) :
    (Rows log → req.Asks env log o) ∧ opCount o.isReset log = 0 := by
  cases r with
  | error err =>
    rw [recordOp?_error] at ho
    cases ho
  | ok a =>
    cases hq with
    | other hq =>
      rw [recordOp?_of_other hq] at ho
      cases ho
    | @reset user row now huser hreq hrow hclock hmonth hnone =>
      cases ho
      refine ⟨fun hrows => ?_, by rw [opCount, hnone, List.countP_nil]⟩
      -- the row that was looked up is the user's
      have hid := hrows _ _ hrow
      exact ⟨user, row, huser, hid.symm, hreq, hid.symm ▸ hrow, hclock, hmonth⟩
    | count huser hreq hdeck hnone =>
      cases ho
      exact ⟨fun _ => ⟨_, _, _, _, _, huser, rfl, hreq, hdeck⟩, opCount_of_bookings hnone⟩
    | edit huser hreq hnone =>
      cases ho
      exact ⟨fun _ => ⟨_, _, huser, hreq, rfl⟩, opCount_of_bookings hnone⟩
    | upload huser hreq hurl hnone =>
      cases ho
      exact ⟨fun _ => ⟨_, huser, rfl, hreq, hurl⟩, opCount_of_bookings hnone⟩

/-- What holds of the calls of a request. -/
structure Bookkept (env : Env) (req : Request) (log : List Call) : Prop where
  asks : Rows log → ∀ o ∈ recordOps log, req.Asks env log o
  once : ∀ kind, opCount kind log ≤ 1

theorem Bookkept.next (h : Bookkept env req log) (hq : Books env req log q) (r : Except Err q.Answer) :
    Bookkept env req (log ++ [⟨q, r⟩]) := by
  have hsub : ∀ a ∈ log, a ∈ log ++ [(⟨q, r⟩ : Call)] := fun a ha => List.mem_append_left _ ha
  constructor
  · intro hrows o ho
    have hold : Rows log := fun id row hmem => hrows id row (hsub _ hmem)
    rw [recordOps_append] at ho
    rcases List.mem_append.mp ho with ho | ho
    · exact (h.asks hold o ho).mono hsub
    · exact ((hq.op (Option.mem_toList.mp ho)).1 hold).mono hsub
  · intro kind
    have hcount : opCount kind (log ++ [⟨q, r⟩]) = opCount kind log +
      ((recordOp? ⟨q, r⟩).toList.countP (·.isReset == kind)) := by
      rw [opCount, recordOps_append, List.countP_append, opCount]
    rw [hcount]
    have honce := h.once kind
    cases ho : recordOp? ⟨q, r⟩ with
    | none => exact honce
    | some o =>
      have hfirst := (hq.op ho).2
      rw [Option.toList_some, List.countP_singleton]
      by_cases hkind : o.isReset = kind
      · subst hkind
        rw [hfirst, beq_self_eq_true, if_pos rfl]
      · rw [if_neg (by simpa using hkind)]
        exact honce

theorem ServerRun.rows (h₀ : c₀.Idle) (run : ServerRun env c₀ es c) : ∀ x ∈ c.sessions, Rows x.log := by
  intro x hx id row h
  obtain ⟨i, hi⟩ := List.mem_iff_getElem?.mp hx
  have htold : During env c₀ es c i (·.users.find? id = some row) := ServerRun.told h₀ run i x hi _ h
  exact During.const (htold.mono fun db hdb => Table.key_of_find? hdb)

theorem ServerRun.bookkept (h₀ : c₀.Idle) (run : ServerRun env c₀ es c) :
    ∀ x ∈ c.sessions, Bookkept env x.tag x.log := by
  intro x hx
  have hkept := Run.monitored (P := fun req log => Bookkept env req log) (bookkeeping env) (fun _ => []) h₀.sessions
    (fun req => (booked_handle env req).mono fun _ _ _ => trivial)
    (fun req => ⟨fun _ o ho => (by cases ho), fun _ => Nat.zero_le 1⟩)
      (fun req log q r h hq => h.next hq r) run x hx
  rwa [bookkeeping, after_transcript] at hkept

theorem ServerRun.booked (h₀ : c₀.Idle) (run : ServerRun env c₀ es c) :
    ∀ x ∈ c.sessions, (bookkeeping env x.tag).Ensures x.log x.prog (Booked x.tag.endpoint) := by
  intro x hx
  have hends := Run.ensures (T := fun _ => True) (bookkeeping env) (fun _ => []) run
    (fun req _ => booked_handle env req)
    (fun s hs => by rw [h₀.sessions] at hs; cases hs) x hx trivial
  rwa [bookkeeping, after_transcript] at hends

/-- An endpoint that books has answered below 400 exactly if the request has made its operation. -/
theorem booked_iff_low {x : ServerSession} {response : Response} (h₀ : c₀.Idle)
    (run : ServerRun env c₀ es c) (hx : x ∈ c.sessions) (hp : x.prog = .pure response)
    (hbooks : x.tag.endpoint.books = true) : response.status < 400 ↔ bookings x.log ≠ [] := by
  have hends := ServerRun.booked h₀ run x hx
  rw [hp] at hends
  refine Iff.trans ⟨fun h => ⟨response, rfl, h⟩, ?_⟩ (hends hbooks).symm
  rintro ⟨response', heq, h⟩
  cases heq
  exact h

theorem opsOf_records {i : Nat} {x : ServerSession} (hx : c.sessions[i]? = some x) :
    c.opsOf (fun _ a => recordOp? a) i = recordOps x.log := by
  rw [Config.opsOf, hx]
  rfl

/-- Of each kind, no session has two operations. -/
theorem nodup_recordEffects (h₀ : c₀.Idle) (run : ServerRun env c₀ es c) (kind : Bool) :
    (((recordEffects es).filter (·.2.isReset == kind)).map (·.1)).Nodup := by
  refine List.nodup_iff_count_le_one.mpr fun i => ?_
  have hops : (c.opsOf (fun _ a => recordOp? a) i).countP (·.isReset == kind) ≤ 1 := by
    cases hx : c.sessions[i]? with
    | none =>
      rw [Config.opsOf, hx]
      exact Nat.zero_le 1
    | some x =>
      rw [opsOf_records hx]
      exact (ServerRun.bookkept h₀ run x (List.mem_of_getElem? hx)).once kind
  rw [← run.effects_of h₀.sessions i, List.countP_map, List.countP_filter] at hops
  rw [List.count, List.countP_map, List.countP_filter]
  refine le_trans (le_of_eq (List.countP_congr fun o _ => ?_)) hops
  simp [and_comm]

end Runs

/-! ### The records are linearizable -/

/-- In every run the operations of the requests on the usage, the templates and the uploaded files, in the
    order in which they take effect, lead from the records at the start to those of the database, and the
    slides of the templates stay. A request begins at most one month and makes at most one other operation,
    each as it asks for. One that books a presentation, a template or a file answers below 400 exactly if it
    has made that operation. -/
theorem records_linearizable {env : Env} {c₀ c : Server} {es : List ServerEvent}
    (h₀ : c₀.Idle) (run : ServerRun env c₀ es c) :
    records.run c₀.shared.db.records ((recordEffects es).map (·.2)) = some c.shared.db.records ∧
    c.shared.db.templateSlides = c₀.shared.db.templateSlides ∧
    (∀ kind, (((recordEffects es).filter (·.2.isReset == kind)).map (·.1)).Nodup) ∧
    (∀ i o, (i, o) ∈ recordEffects es → ∃ x, c.sessions[i]? = some x ∧ x.tag.Asks env x.log o) ∧
    ∀ (i : Nat) (x : ServerSession) (response : Response), c.sessions[i]? = some x → x.prog = .pure response →
      x.tag.endpoint.books = true → (response.status < 400 ↔
        ∃ o, (i, o) ∈ recordEffects es ∧ o.isReset = false) := by
  obtain ⟨hrun, hslides⟩ := ServerRun.records h₀ run
  refine ⟨hrun, hslides, nodup_recordEffects h₀ run, fun i o ho => ?_, fun i x response hx hp hbooks => ?_⟩
  · rw [recordEffects, Run.effect_mem h₀.sessions run] at ho
    cases hx : c.sessions[i]? with
    | none =>
      rw [Config.opsOf, hx] at ho
      cases ho
    | some x =>
      rw [opsOf_records hx] at ho
      have hmem := List.mem_of_getElem? hx
      exact ⟨x, rfl, (ServerRun.bookkept h₀ run x hmem).asks (ServerRun.rows h₀ run x hmem) o ho⟩
  · have hsome : bookings x.log ≠ [] ↔ ∃ o, o ∈ bookings x.log := by
      refine ⟨List.exists_mem_of_ne_nil _, ?_⟩
      rintro ⟨o, ho⟩
      exact List.ne_nil_of_mem ho
    rw [booked_iff_low h₀ run (List.mem_of_getElem? hx) hp hbooks, hsome]
    refine exists_congr fun o => ?_
    rw [recordEffects, Run.effect_mem h₀.sessions run, opsOf_records hx, bookings,
      List.mem_filter, Bool.not_eq_true']

/-- The office with a template. -/
def templateOffice : Server := ⟨⟨{ officeDb with templates := pitchTemplates }, ∅⟩, []⟩

/-- `alice` creates her first deck of the month, while she and `bob` edit one template. -/
def editTogether : List Move :=
  [.arrive (aliceRequest (.createPresentation (some (.obj [("topic", .str "Roadmap"), ("slides", .arr [])])))),
    .arrive (aliceRequest (.updateTemplate "t" (some (.obj [("name", .str "Deck")])))),
    .arrive ⟨some "Bearer bob", .updateTemplate "t" (some (.obj [("category", .str "Sales")]))⟩,
    .answer 0, .answer 1, .answer 0, .answer 0, .answer 0, .answer 2, .answer 0]

theorem edited_together :
    ∃ es c, ServerRun twoMonths templateOffice es c ∧ (recordEffects es).map (·.1) = [1, 0, 2, 0] ∧
      records.run templateOffice.shared.db.records ((recordEffects es).map (·.2)) = some c.shared.db.records ∧
      (c.shared.db.templates.find? "t").map Template.info = some ⟨"Deck", "Sales", "", "dark"⟩ ∧
      (c.shared.db.users.find? "alice").map User.meter = some ⟨.FREE, 1, 1000⟩ := by
  have hidle : templateOffice.Idle :=
    ⟨rfl, ⟨fun _ h => (by cases h), fun _ h => by cases h⟩, fun _ h => (by cases h), fun _ h => by cases h⟩
  have hplay : templateOffice.playable (fun _ _ => true) twoMonths 1000 0 editTogether = true := by decide +kernel
  obtain ⟨run, -⟩ := Server.play_run twoMonths
    (show Unissued 0 templateOffice.shared.issued from fun _ _ _ h => h) hplay
  obtain ⟨hrecords, -⟩ := records_linearizable hidle run.run
  exact ⟨_, _, run.run, by decide +kernel, hrecords, by decide +kernel, by decide +kernel⟩

end Slideo
