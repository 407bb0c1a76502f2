import Slideo.Theorems.Alone

/-! `createPresentation` alone: where its slides come from, what it stores and what it counts. -/

namespace Slideo
open Js

/-! ### The slides that a request stores -/

/-- The layouts of the template that a body names, if there is one. -/
def templateLayouts (db : Db) (templateId : Val) : Option (List String) :=
  if truthy templateId then
    match textArg templateId with
    | .ok id => (db.templates.find? id).map fun t =>
        ((db.templateSlidesOf t.id).insertionSort fun a b => a.index ≤ b.index).map (·.layout)
    | .error _ => none
  else none

/-- The entries of the model's answer to a request, if it gets one that can be mapped. -/
def proposedSlides (topic : Val) (count : Int) (o : AdvancedOptions) (gemini : Except Err (Option String)) :
    Option (List Json) := do
  let _ ← prompt topic count o
  let text ← gemini.toOption
  let _ ← mapResponse o text
  parseResponse text

/-- The slides that the model's answer maps to, if nothing on the way throws. -/
def mappedSlides (topic : Val) (count : Int) (o : AdvancedOptions) (gemini : Except Err (Option String)) :
    Option (List GeneratedSlide) := do
  let _ ← prompt topic count o
  let text ← gemini.toOption
  mapResponse o text

/-- The slides that generation gives: the model's, or the fallback deck. -/
def generatedSlides (topic : Val) (count : Int) (o : AdvancedOptions) (gemini : Except Err (Option String)) :
    Option (List GeneratedSlide) := (mappedSlides topic count o gemini).or (fallbackDeck topic count o)

/-- The number of slides that generation gives. -/
def generatedCount (topic : Val) (count : Int) (o : AdvancedOptions) (gemini : Except Err (Option String)) : Nat :=
  match proposedSlides topic count o gemini with
  | some items => items.length
  | none => (requestedCount count o).toNat

section Generation
variable {ws : Nat → World} {n : Nat} {db : Db} {topic : Val} {count : Int} {o : AdvancedOptions}

theorem mapM_eq_some_iff {α β : Type} {f : α → Option β} {xs : List α} {ys : List β} :
    xs.mapM f = some ys ↔ xs.map f = ys.map some := by
  induction xs generalizing ys with
  | nil => cases ys <;> simp
  | cons x xs ih =>
    rw [List.mapM_cons]
    cases hx : f x with
    | none => cases ys <;> simp [hx]
    | some y =>
      cases hxs : xs.mapM f with
      | none =>
        cases ys with
        | nil => simp
        | cons y' ys => simp [hx, ← ih, hxs]
      | some rest =>
        cases ys with
        | nil => simp
        | cons y' ys => simp [hx, ← ih, hxs]

theorem mapIdxOption_eq_some_iff {α β : Type} {f : Nat → α → Option β} {xs : List α} {ys : List β} :
    mapIdxOption f xs = some ys ↔ xs.mapIdx f = ys.map some := by
  rw [mapIdxOption, mapM_eq_some_iff, List.map_id]

theorem length_of_mapM {α β : Type} {f : α → Option β} {xs : List α} {ys : List β} (h : xs.mapM f = some ys) :
    ys.length = xs.length := by
  have hlength := congrArg List.length (mapM_eq_some_iff.mp h)
  rw [List.length_map, List.length_map] at hlength
  exact hlength.symm

theorem length_mapIdxOption {α β : Type} {f : Nat → α → Option β} {xs : List α} {ys : List β}
    (h : mapIdxOption f xs = some ys) : ys.length = xs.length := by
  rw [length_of_mapM h, List.length_mapIdx]

theorem length_fallbackDeck {slides : List GeneratedSlide} (h : fallbackDeck topic count o = some slides) :
    slides.length = (requestedCount count o).toNat := by
  unfold fallbackDeck at h
  split at h
  · cases h
  · rw [length_of_mapM h, List.length_range]

/-- A call that stores no presentation. -/
def Query.stores : Query → Bool
  | .presentationCreate _ _ _ => true
  | _ => false

theorem run_ofOption {α : Type} (ws : Nat → World) (n : Nat) (db : Db) (a : Option α) :
    (ofOption a).run answer ws n (db, {}) = ⟨a.elim (.error .typeError) .ok, (db, {}), []⟩ := by
  cases a <;> rfl

/-- Generation gives the slides of the model, or the fallback deck. -/
theorem run_generatePresentationSlides (ws : Nat → World) (n : Nat) (db : Db) (topic : Val)
    (count : Int) (o : AdvancedOptions) :
    ∃ log, (generatePresentationSlides topic count o).run answer ws n (db, {}) =
        ⟨(generatedSlides topic count o (ws n).gemini).elim (.error .typeError) .ok, (db, {}), log⟩ ∧
      ∀ c ∈ log, c.1.stores = false := by
  have fallback := fun m => run_ofOption ws m db (fallbackDeck topic count o)
  unfold generatePresentationSlides generatedSlides
  cases hprompt : prompt topic count o with
  | none =>
    rw [show mappedSlides topic count o (ws n).gemini = none by rw [mappedSlides, hprompt]; rfl]
    exact ⟨_, Prog.run_tryCatch_error rfl (fallback n), fun c hc => by cases hc⟩
  | some p =>
    cases hgemini : (ws n).gemini with
    | error e =>
      have hask : answer (ws n) (.generateContent p) (db, {}) = (.error e, (db, {})) :=
        answer_error (q := .generateContent p) trivial (by simp [exec, hgemini, Except.map])
      rw [show mappedSlides topic count o (.error e) = none by rw [mappedSlides, hprompt]; rfl]
      exact ⟨_, Prog.run_tryCatch_error (Prog.run_ask_bind_error hask) (fallback (n + 1)), by simp [Query.stores]⟩
    | ok text =>
      have hask : answer (ws n) (.generateContent p) (db, {}) = (.ok text, (db, {})) :=
        answer_read (q := .generateContent p) trivial (by simp [exec, hgemini, Except.map])
      have hbody : (ask (.generateContent p) >>= fun text => ofOption (mapResponse o text)).run answer ws n (db, {}) =
          ⟨(mapResponse o text).elim (.error .typeError) .ok, (db, {}), [⟨.generateContent p, .ok text⟩]⟩ :=
        Prog.run_ask_bind hask (run_ofOption ws (n + 1) db (mapResponse o text))
      rw [show mappedSlides topic count o (.ok text) = mapResponse o text by rw [mappedSlides, hprompt]; rfl]
      generalize mapResponse o text = mapped at hbody ⊢
      cases mapped with
      | none => exact ⟨_, Prog.run_tryCatch_error hbody (fallback (n + 1)), by simp [Query.stores]⟩
      | some slides => exact ⟨_, Prog.run_tryCatch_ok hbody _, by simp [Query.stores]⟩

theorem length_mappedSlides {gemini : Except Err (Option String)} {slides : List GeneratedSlide}
    (h : mappedSlides topic count o gemini = some slides) :
    ∃ items, proposedSlides topic count o gemini = some items ∧ slides.length = items.length := by
  obtain ⟨p, hprompt, h⟩ := Option.bind_eq_some_iff.mp h
  obtain ⟨text, hgemini, hmap⟩ := Option.bind_eq_some_iff.mp h
  obtain ⟨items, hparse, hslides⟩ := Option.bind_eq_some_iff.mp hmap
  refine ⟨items, ?_, length_mapIdxOption hslides⟩
  rw [proposedSlides, hprompt, hgemini]
  show (mapResponse o text).bind (fun _ => parseResponse text) = some items
  rw [hmap]
  exact hparse

theorem proposedSlides_eq_none {gemini : Except Err (Option String)}
    (h : mappedSlides topic count o gemini = none) :
    proposedSlides topic count o gemini = none := by
  have hproposed : proposedSlides topic count o gemini =
      (mappedSlides topic count o gemini).bind fun _ => gemini.toOption.bind parseResponse := by
    unfold proposedSlides mappedSlides
    cases prompt topic count o <;> cases gemini <;> rfl
  rw [hproposed, h]
  rfl

/-- Generation gives as many slides as the model proposed, or the fallback deck. -/
theorem run_generate (ws : Nat → World) (n : Nat) (db : Db) (topic : Val) (count : Int) (o : AdvancedOptions) :
    ∃ r log, (generatePresentationSlides topic count o).run answer ws n (db, {}) = ⟨r, (db, {}), log⟩ ∧
    (∀ c ∈ log, c.1.stores = false) ∧
    ∀ slides, r = .ok slides → slides.length = generatedCount topic count o (ws n).gemini := by
  obtain ⟨log, hrun, hlog⟩ := run_generatePresentationSlides ws n db topic count o
  refine ⟨_, log, hrun, hlog, fun slides hslides => ?_⟩
  unfold generatedSlides at hslides
  unfold generatedCount
  cases hmapped : mappedSlides topic count o (ws n).gemini with
  | some mapped =>
    rw [hmapped] at hslides
    cases hslides
    obtain ⟨items, hitems, hlen⟩ := length_mappedSlides hmapped
    rw [hitems, hlen]
  | none =>
    rw [hmapped, Option.none_or] at hslides
    rw [proposedSlides_eq_none hmapped]
    cases hdeck : fallbackDeck topic count o with
    | none =>
      rw [hdeck] at hslides
      cases hslides
    | some deck =>
      rw [hdeck] at hslides
      cases hslides
      exact length_fallbackDeck hdeck

end Generation

/-- The number of slides that a body leads to, if the presentation is created. -/
def storedCount (ws : Nat → World) (n : Nat) (db : Db) (body : Val) : Nat :=
  let layouts := templateLayouts db (getOpt body "templateId")
  match asArray (getOpt body "slides") with
  | some slides => slides.length
  | none => generatedCount (getOpt body "topic") ((slideCountFor layouts (getOpt body "slideCount")).getD 0)
      (advancedOptions body layouts) (ws (n + if truthy (getOpt body "templateId") then 1 else 0)).gemini

section Creation
variable {ws : Nat → World} {n : Nat} {db : Db} {user : AuthUser} {body : Val}

theorem run_findRequiredLayouts (ws : Nat → World) (n : Nat) (db : Db) (templateId : Val) :
    ∃ r log, (findRequiredLayouts templateId).run answer ws n (db, {}) = ⟨r, (db, {}), log⟩ ∧
      (∀ c ∈ log, c.1.stores = false) ∧
      ∀ layouts, r = .ok layouts → layouts = templateLayouts db templateId ∧
      log.length = if truthy templateId then 1 else 0 := by
  unfold findRequiredLayouts templateLayouts
  by_cases ht : truthy templateId = true
  · simp only [ht, if_true]
    cases hid : textArg templateId with
    | error e =>
      have hask : answer (ws n) (.templateFindUnique templateId) (db, {}) = (.error e, (db, {})) :=
        answer_error (q := .templateFindUnique templateId) trivial (by simp only [exec, hid]; rfl)
      exact ⟨_, _, Prog.run_ask_bind_error hask, by simp [Query.stores], fun _ h => by cases h⟩
    | ok id =>
      have hask : answer (ws n) (.templateFindUnique templateId) (db, {}) =
          (.ok ((db.templates.find? id).map fun t => (t, db.templateSlidesOf t.id)), (db, {})) :=
        answer_read (q := .templateFindUnique templateId) trivial (by simp only [exec, hid]; rfl)
      refine ⟨_, _, Prog.run_ask_bind hask rfl, by simp [Query.stores], fun _ h => ?_⟩
      cases h
      refine ⟨?_, rfl⟩
      rw [Option.map_map]
      rfl
  · simp only [Bool.not_eq_true _ ▸ ht]
    exact ⟨_, _, rfl, fun c hc => (by cases hc), fun _ h => by cases h; exact ⟨rfl, rfl⟩⟩

theorem run_finalSlides (ws : Nat → World) (n : Nat) (db : Db) (body topic : Val) (layouts : Option (List String)) :
    ∃ r log, (finalSlides body topic layouts).run answer ws n (db, {}) = ⟨r, (db, {}), log⟩ ∧
      (∀ c ∈ log, c.1.stores = false) ∧
      ∀ slides, r = .ok slides → slides.length = match asArray (getOpt body "slides") with
        | some slides => slides.length
        | none => generatedCount topic ((slideCountFor layouts (getOpt body "slideCount")).getD 0)
            (advancedOptions body layouts) (ws n).gemini := by
  unfold finalSlides
  cases asArray (getOpt body "slides") with
  | some given => exact ⟨_, _, rfl, fun c hc => (by cases hc), fun _ h => by cases h; rfl⟩
  | none =>
    cases hcount : slideCountFor layouts (getOpt body "slideCount") with
    | none => exact ⟨_, _, rfl, fun c hc => (by cases hc), fun _ h => by cases h⟩
    | some count =>
      obtain ⟨r, log, hrun, hstores, hlen⟩ := run_generate ws n db topic count (advancedOptions body layouts)
      show ∃ r log, (generatePresentationSlides topic count (advancedOptions body layouts) >>= fun generated =>
        pure (generated.map GeneratedSlide.toJson)).run answer ws n (db, {}) = ⟨r, (db, {}), log⟩ ∧ _
      cases r with
      | error e => exact ⟨_, _, Prog.run_bind_error hrun _, hstores, fun _ h => by cases h⟩
      | ok generated =>
        refine ⟨_, _, Prog.run_bind_ok hrun rfl, by simpa using hstores, fun _ h => ?_⟩
        cases h
        rw [List.length_map, hlen generated rfl]
        rfl

/-- Each slide that is stored passed its checks. -/
theorem forall₂_of_mapM_check {data : List SlideData} : ∀ {bodies : List SlideBody},
    data.mapM SlideData.check = .ok bodies →
    List.Forall₂ (fun d b => d.check = .ok b) data bodies := by
  induction data with
  | nil =>
    intro bodies h
    cases h
    exact .nil
  | cons d data ih =>
    intro bodies h
    rw [List.mapM_cons] at h
    obtain ⟨b, hb, h⟩ := except_bind_eq_ok.mp h
    obtain ⟨rest, hrest, h⟩ := except_bind_eq_ok.mp h
    cases h
    exact .cons hb (ih hrest)

/-- A change of the user table. -/
def Write.onUsers : Write → Bool
  | .insertUser _ | .patchUser _ _ _ => true
  | _ => false

theorem applyAll_users {writes : List Write} : ∀ {db : Db}, (∀ y ∈ writes, y.onUsers = false) →
    (db.applyAll writes).users = db.users := by
  induction writes with
  | nil => exact fun _ => rfl
  | cons y writes ih =>
    intro db h
    rw [Db.applyAll_cons, ih fun y' hy' => h y' (List.mem_cons_of_mem y hy')]
    have hy := h y List.mem_cons_self
    cases y with
    | insertUser _ | patchUser _ _ _ => cases hy
    | _ => rfl

/-- The request counts exactly what it stores. -/
theorem run_saveDeck (ws : Nat → World) (n : Nat) (db : Db) (user : AuthUser) (topic : Val) (slides : List Json) :
    ∃ r db' log, (saveDeck user topic slides).run answer ws n (db, {}) = ⟨r, (db', {}), log⟩ ∧
      ((∃ response, r = .ok response ∧ response.status = 201 ∧
          ∃ at_, db'.users = (db.apply (.patchUser user.id at_ .incrementUsage)).users) ∨
        (∃ e, r = .error e) ∧ db'.users = db.users) := by
  unfold saveDeck
  cases mapIdxOption createSlideData slides with
  | none => exact ⟨_, _, _, rfl, Or.inr ⟨⟨_, rfl⟩, rfl⟩⟩
  | some data =>
    generalize htitle : Js.or topic (some (.str "New Presentation")) = title
    show ∃ r db' log, (ask (.presentationCreate user.id title data) >>= fun deck =>
      ask (.userUpdate user.id .incrementUsage) >>= fun _ =>
        pure ⟨201, .deck ⟨deck.row, byIndex deck.slides⟩⟩ : Handler Response).run answer ws n
          (db, {}) = ⟨r, (db', {}), log⟩ ∧ _
    cases hexec : exec (ws n) db db (.presentationCreate user.id title data) with
    | error e =>
      have hcreate := answer_error (q := .presentationCreate user.id title data) trivial hexec
      exact ⟨_, _, _, Prog.run_ask_bind_error hcreate, Or.inr ⟨⟨_, rfl⟩, rfl⟩⟩
    | ok out =>
      obtain ⟨deck, writes⟩ := out
      have hcreate := answer_ok (q := .presentationCreate user.id title data) trivial hexec
      obtain ⟨t, bodies, -, -, huser, -, -, -, -, hwrites⟩ := createDeck_ok hexec
      have husers : (db.applyAll writes).users = db.users := by
        refine applyAll_users fun y hy => ?_
        rw [hwrites] at hy
        rcases List.mem_cons.mp hy with rfl | hy
        · rfl
        · obtain ⟨s, -, rfl⟩ := List.mem_map.mp hy
          rfl
      have hupdate : exec (ws (n + 1)) (db.applyAll writes) (db.applyAll writes)
        (.userUpdate user.id .incrementUsage) =
          .ok ((), [.patchUser user.id (ws (n + 1)).now .incrementUsage]) := by
        simp only [exec, updateUserRow, husers, require, huser, and_self, if_true]
        rfl
      have hcount := answer_ok (q := .userUpdate user.id .incrementUsage) trivial hupdate
      refine ⟨_, _, _, Prog.run_ask_bind hcreate (Prog.run_ask_bind hcount rfl),
        Or.inl ⟨_, rfl, rfl, (ws (n + 1)).now, ?_⟩⟩
      simp only [Db.applyAll_cons, Db.applyAll_nil, Db.apply, husers]

/-- The deck that is stored has the slides it was given. -/
theorem saveDeck_stores {topic : Val} {slides : List Json} {userId : String} {title : Val} {data : List SlideData}
    {deck : Deck} (h : ⟨.presentationCreate userId title data, .ok deck⟩ ∈
      ((saveDeck user topic slides).run answer ws n (db, {})).log) : deck.slides.length = slides.length := by
  unfold saveDeck at h
  cases hdata : mapIdxOption createSlideData slides with
  | none =>
    rw [hdata] at h
    cases h
  | some made =>
    rw [hdata] at h
    -- The deck is stored by the first call; the second one counts it.
    rcases Prog.mem_log_bind (p := ask (.presentationCreate user.id _ made)) h with h | ⟨stored, -, h⟩
    · cases hanswer : (answer (ws n) (.presentationCreate user.id
        (Js.or topic (some (.str "New Presentation"))) made)
          (db, {})).1 with
      | error e =>
        have hcall := Prog.mem_log_ask h
        rw [hanswer] at hcall
        cases hcall
      | ok stored =>
        have hcall := Prog.mem_log_ask h
        rw [hanswer] at hcall
        cases hcall
        obtain ⟨writes, hexec⟩ := exec_of_answer (q := .presentationCreate _ _ _) trivial hanswer
        obtain ⟨t, bodies, -, hbodies, -, -, -, hrows, -⟩ := createDeck_ok hexec
        rw [hrows, slideRows, List.length_mapIdx,
          ← (forall₂_of_mapM_check hbodies).length_eq, length_mapIdxOption hdata]
    · rcases Prog.mem_log_bind (p := ask (.userUpdate user.id .incrementUsage)) h with h | ⟨_, -, h⟩
      · cases Prog.mem_log_ask h
      · cases h

/-- What a request stores when it creates a presentation. -/
theorem createPresentation_stores {userId : String} {title : Val} {data : List SlideData} {deck : Deck}
    (h : ⟨.presentationCreate userId title data, .ok deck⟩ ∈
      ((createPresentation user body).run answer ws n (db, {})).log) :
    deck.slides.length = storedCount ws n db body := by
  unfold createPresentation at h
  rw [run_guarded (show Prog.run answer ws _ n (db, {}) = ⟨_, _, _⟩ from rfl)] at h
  split at h
  · cases h
  unfold prop at h
  cases hget : Js.get body "topic" with
  | none =>
    rw [hget] at h
    cases h
  | some topic =>
    have htopic : getOpt body "topic" = topic := by rw [getOpt, hget]; rfl
    rw [hget] at h
    replace h : _ ∈ (Prog.run answer ws (if _ then _ else _) n (db, {})).log := h
    split at h
    · cases h
    obtain ⟨r, log, hlayouts, hquiet, hr⟩ := run_findRequiredLayouts ws n db (getOpt body "templateId")
    rcases Prog.mem_log_bind (p := findRequiredLayouts _) h with h | ⟨layouts, hok, h⟩
    · rw [hlayouts] at h
      cases hquiet _ h
    rw [hlayouts] at hok h
    obtain ⟨rfl, hlen⟩ := hr layouts hok
    simp only [hlen] at h
    obtain ⟨r', log', hslides, hquiet', hr'⟩ := run_finalSlides ws _ db body topic
      (templateLayouts db (getOpt body "templateId"))
    rcases Prog.mem_log_bind (p := finalSlides _ _ _) h with h | ⟨slides, hok', h⟩
    · rw [hslides] at h
      cases hquiet' _ h
    rw [hslides] at hok' h
    rw [saveDeck_stores h, hr' slides hok', storedCount, htopic]

/-- The outcome of a request: it answers 201 exactly when it has counted a presentation. -/
def Counted (user : AuthUser) (db : Db) (r : Except Err Response) (db' : Db) : Prop :=
  (∃ response, r = .ok response ∧ response.status = 201 ∧
    ∃ at_, db'.users = (db.apply (.patchUser user.id at_ .incrementUsage)).users) ∨
  ((∀ response, r = .ok response → response.status ≠ 201) ∧ db'.users = db.users)

theorem Counted.caught {r : Except Err Response} {db' : Db} {message : String} (h : Counted user db r db') :
    Counted user db (.ok (caught (fun _ => .error 500 message) r)) db' := by
  rcases h with ⟨response, rfl, h⟩ | ⟨hstatus, husers⟩
  · exact Or.inl ⟨response, rfl, h⟩
  · refine Or.inr ⟨fun response hresponse => ?_, husers⟩
    cases r with
    | ok given => exact hstatus response hresponse
    | error e =>
      cases hresponse
      show 500 ≠ 201
      decide

/-- The part of `createPresentation` behind its checks. -/
theorem run_create_tail (ws : Nat → World) (n : Nat) (db : Db) (user : AuthUser) (body topic : Val) :
    ∃ r db' log, (findRequiredLayouts (getOpt body "templateId") >>= fun layouts =>
        finalSlides body topic layouts >>= fun slides => saveDeck user topic slides).run answer ws n (db, {}) =
      ⟨r, (db', {}), log⟩ ∧ Counted user db r db' := by
  obtain ⟨r, log, hlayouts, -, -⟩ := run_findRequiredLayouts ws n db (getOpt body "templateId")
  cases r with
  | error e => exact ⟨_, _, _, Prog.run_bind_error hlayouts _, Or.inr ⟨fun _ h => (by cases h), rfl⟩⟩
  | ok layouts =>
    obtain ⟨r', log', hslides, -, -⟩ := run_finalSlides ws (n + log.length) db body topic layouts
    cases r' with
    | error e =>
      exact ⟨_, _, _, Prog.run_bind_ok hlayouts (Prog.run_bind_error hslides _),
        Or.inr ⟨fun _ h => (by cases h), rfl⟩⟩
    | ok slides =>
      obtain ⟨r'', db', log'', hsave, hcase⟩ := run_saveDeck ws (n + log.length + log'.length) db user topic slides
      refine ⟨_, _, _, Prog.run_bind_ok hlayouts (Prog.run_bind_ok hslides hsave), ?_⟩
      rcases hcase with h | ⟨⟨e, rfl⟩, hsame⟩
      · exact Or.inl h
      · exact Or.inr ⟨fun _ h => (by cases h), hsame⟩

theorem run_createPresentation (ws : Nat → World) (n : Nat) (db : Db) (user : AuthUser) (body : Val) :
    ∃ response db' log, (createPresentation user body).run answer ws n (db, {}) = ⟨.ok response, (db', {}), log⟩ ∧
      Counted user db (.ok response) db' := by
  have early : ∀ {status : Nat} {message : String}, status ≠ 201 →
      Counted user db (.ok (Response.error status message)) db := by
    intro status message hne
    exact Or.inr ⟨fun _ h => (by cases h; exact hne), rfl⟩
  unfold createPresentation prop
  split
  · exact ⟨_, _, _, rfl, early (by decide)⟩
  cases Js.get body "topic" with
  | none => exact ⟨_, _, _, rfl, early (by decide)⟩
  | some topic =>
    simp only [ofOption, Prog.mk_pure_bind]
    split
    · exact ⟨_, _, _, rfl, early (by decide)⟩
    · obtain ⟨r, db', log, hrun, hcounted⟩ := run_create_tail ws n db user body topic
      exact ⟨_, _, _, run_guarded hrun, hcounted.caught⟩

end Creation

end Slideo
