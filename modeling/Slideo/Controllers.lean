import Slideo.Import

/-! The handlers of `src/controllers`, as programs over the calls of `Slideo.Prisma`. Each is the body of
    its `try` with the answer of its `catch`. -/

namespace Slideo
open Js

/-! ### presentationController.ts -/

/-- The data of slide `index` in a nested create. -/
def createSlideData (index : Nat) (slide : Json) : Option SlideData := do
  let given ← get (some slide) "index"
  return { index := if given = none then some (.num index) else given
           layout := Js.or (getOpt (some slide) "layout") (some (.str "hero"))
           contentJSON := (Js.or (getOpt (some slide) "contentJSON") (some (.obj []))).getD (.obj [])
           themeChoice := Js.or (getOpt (some slide) "themeChoice") none }

/-- `template.slides.map(s => s.layout)`, ordered by index; `undefined` without a template. -/
def findRequiredLayouts (templateId : Val) : Handler (Option (List String)) :=
  if truthy templateId then do
    let template ← ask (.templateFindUnique templateId)
    return template.map fun t => (t.2.insertionSort fun a b => a.index ≤ b.index).map (·.layout)
  else return none

def slideCountFor (requiredLayouts : Option (List String)) (slideCount : Val) : Option Int :=
  match requiredLayouts with
  | some layouts => some layouts.length
  | none => parseIntOr slideCount 5

def advancedOptions (body : Val) (requiredLayouts : Option (List String)) : AdvancedOptions :=
  { tone := getOpt body "tone", language := getOpt body "language",
    textContentAmount := getOpt body "textContentAmount", themeId := getOpt body "themeId",
    imageStyle := getOpt body "imageStyle", requiredLayouts }

/-- The manual slides of the body, or generated ones. -/
def finalSlides (body topic : Val) (requiredLayouts : Option (List String)) : Handler (List Json) :=
  match asArray (getOpt body "slides") with
  | some slides => pure slides
  | none => do
    let count ← ofOption (slideCountFor requiredLayouts (getOpt body "slideCount"))
    let generated ← generatePresentationSlides topic count (advancedOptions body requiredLayouts)
    return generated.map GeneratedSlide.toJson

/-- Saves the deck and counts it. -/
def saveDeck (user : AuthUser) (topic : Val) (slides : List Json) : Handler Response := do
  let data ← ofOption (mapIdxOption createSlideData slides)
  let deck ← ask (.presentationCreate user.id (Js.or topic (some (.str "New Presentation"))) data)
  ask (.userUpdate user.id .incrementUsage)
  return ⟨201, .deck ⟨deck.row, byIndex deck.slides⟩⟩

def createPresentation (user : AuthUser) (body : Val) : Handler Response :=
  guarded (fun _ => .error 500 "Failed to create presentation") do
    if user.id = "" then return .error 401 "Unauthorized"
    let topic ← prop body "topic"
    if !truthy topic && !truthy (getOpt body "slides") then
      return .error 400 "Topic or manual slides are required"
    let requiredLayouts ← findRequiredLayouts (getOpt body "templateId")
    let slides ← finalSlides body topic requiredLayouts
    saveDeck user topic slides

def generateSingleSlide (user : AuthUser) (body : Val) : Handler Response :=
  guarded (fun _ => .error 500 "Failed to generate slide") do
    if user.id = "" then return .error 401 "Unauthorized"
    let topic ← prop body "topic"
    if !truthy topic then return .error 400 "Topic is required to generate a slide"
    let generated ← generatePresentationSlides topic 1
      { tone := getOpt body "tone", language := getOpt body "language",
        textContentAmount := getOpt body "textContentAmount" }
    match generated with
    | [] => return .error 500 "Failed to generate slide content"
    | slide :: _ => return ⟨200, .slide slide⟩

def getUserPresentations (user : AuthUser) (limit offset : Val) : Handler Response :=
  guarded (fun _ => .error 500 "Failed to fetch presentations") do
    if user.id = "" then return .error 401 "Unauthorized"
    let limit ← ofOption (parseIntAutoOr limit 10)
    let offset ← ofOption (parseIntAutoOr offset 0)
    let presentations ← ask (.presentationFindMany user.id limit offset)
    return ⟨200, .presentations presentations⟩

def getPresentationById (user : AuthUser) (id : String) : Handler Response :=
  guarded (fun _ => .error 500 "Failed to fetch presentation") do
    if user.id = "" then return .error 401 "Unauthorized"
    let some presentation ← ask (.presentationFindUnique id)
      | return .error 404 "Presentation not found"
    if presentation.row.userId ≠ user.id then return .error 403 "Forbidden"
    return ⟨200, .deck ⟨presentation.row, byIndex presentation.slides⟩⟩

/-- The data of a slide in `slide.createMany`. -/
def updateSlideData (slide : Json) : Option SlideData := do
  let index ← get (some slide) "index"
  return { index
           layout := Js.or (getOpt (some slide) "layout") (some (.str "content_list"))
           contentJSON := (Js.or (getOpt (some slide) "contentJSON") (some (.obj []))).getD (.obj [])
           themeChoice := Js.or (getOpt (some slide) "themeChoice") (some .null) }

/-- The slides to insert: none unless `slides && slides.length > 0`; only arrays have `map`. -/
def slidesToInsert (slides : Val) : Option (Option (List SlideData)) := do
  if !truthy slides then return none
  let length ← toNumber (← get slides "length")
  if !length.positive then return none
  return some (← (← asArray slides).mapM updateSlideData)

def insertSlides (id : String) (slides : Val) : Handler Unit := do
  match ← ofOption (slidesToInsert slides) with
  | some data => ask (.slideCreateMany id data)
  | none => return ()

/-- The transaction of `updatePresentation`: the title first, then the slides. -/
def saveSlides (id : String) (title slides : Val) : Handler Presentation := do
  let pres ← ask (.presentationUpdate id title)
  ask (.slideDeleteMany id)
  insertSlides id slides
  return pres

def updatePresentation (user : AuthUser) (id : String) (body : Val) : Handler Response :=
  guarded (fun _ => .error 500 "Failed to update presentation") do
    let title ← prop body "title"
    let slides ← prop body "slides"
    if user.id = "" then return .error 401 "Unauthorized"
    let some existing ← ask (.presentationFindUnique id)
      | return .error 404 "Presentation not found"
    if existing.row.userId ≠ user.id then return .error 403 "Forbidden"
    let updated ← transaction (saveSlides id title slides)
    return ⟨200, .presentation updated⟩

/-- The transaction of `deletePresentation`. -/
def removeDeck (id : String) : Handler Unit := do
  ask (.slideDeleteMany id)
  ask (.presentationDelete id)

def deletePresentation (user : AuthUser) (id : String) : Handler Response :=
  guarded (fun _ => .error 500 "Failed to delete presentation") do
    if user.id = "" then return .error 401 "Unauthorized"
    let some presentation ← ask (.presentationFindUnique id)
      | return .error 404 "Presentation not found"
    if presentation.row.userId ≠ user.id then return .error 403 "Forbidden"
    transaction (removeDeck id)
    return ⟨200, .message "Presentation deleted successfully"⟩

/-! ### exportController.ts -/

def exportToPptx (id : String) : Handler Response :=
  guarded (fun _ => ⟨500, .message "Failed to export presentation"⟩) do
    let some presentation ← ask (.presentationFindUnique id)
      | return ⟨404, .message "Presentation not found"⟩
    let doc ← ofOption (renderDeck presentation)
    return ⟨200, .pptx (exportFileName presentation.row.title) doc⟩

/-! ### shareController.ts -/

/-- `new Date(now + expiryHours * 60 * 60 * 1000)`; `none` is an invalid date. The product is exact, where one of
    doubles may be off by a millisecond. -/
def expiryTime (now : Time) (expiryHours : Number) : Option Time :=
  match expiryHours with
  | .finite q =>
    let t : Rat := now + q * 3600000
    let ms := if 0 ≤ t then t.floor else t.ceil
    if ms.natAbs ≤ 8640000000000000 then some ms else none
  | .nan | .infinite _ => none

def createShareLink (env : Env) (user : AuthUser) (presentationId : String) (body : Val) : Handler Response :=
  guarded (fun e => ⟨500, .errorDetails "Failed to create share link" e⟩) do
    let recipientEmail ← prop body "recipientEmail"
    let permission := (getOpt body "permission").getD (.str "view")
    let expiryHours := (getOpt body "expiryHours").getD (.num 24)
    if !truthy recipientEmail then return .error 400 "`recipientEmail` is required"
    let some _ ← ask (.presentationFindFirst presentationId user.id)
      | return .error 404 "Presentation not found or access denied"
    let token ← ask .randomUUID
    let now ← ask .clock
    let hours ← ofOption (toNumber (some expiryHours))
    let expiresAt := expiryTime now hours
    let permissionText ← ofOption permission.toStr
    ask (.shareTokenCreate presentationId token recipientEmail permissionText expiresAt)
    return ⟨201, .shareLink (env.frontendUrl ++ "/share/" ++ token) token (expiresAt.getD 0) (some permission)⟩

def resolveShareToken (token : String) : Handler Response :=
  guarded (fun e => ⟨500, .errorDetails "Failed to resolve share token" e⟩) do
    let some (shareToken, presentation) ← ask (.shareTokenFindUnique token)
      | return .error 404 "Share link not found or has already been used"
    let now ← ask .clock
    if shareToken.expiresAt < now then return .error 410 "This share link has expired"
    let title := (presentation.map (·.title)).getD ""
    return ⟨200, .resolved shareToken.presentationId (if title = "" then "Untitled" else title)
      shareToken.permission shareToken.recipientEmail shareToken.expiresAt⟩

def getSharedPresentation (id : String) (token : Val) : Handler Response :=
  guarded (fun e => ⟨500, .errorDetails "Failed to load presentation" e⟩) do
    if !truthy token then return .error 401 "Share token required"
    let token ← ofOption (toStr token)
    let some (shareToken, _) ← ask (.shareTokenFindUnique token)
      | return .error 404 "Invalid share token"
    if shareToken.presentationId ≠ id then return .error 404 "Invalid share token"
    let now ← ask .clock
    if shareToken.expiresAt < now then return .error 410 "This share link has expired"
    let some presentation ← ask (.presentationFindUnique id)
      | return .error 404 "Presentation not found"
    return ⟨200, .shared ⟨presentation.row, byIndex presentation.slides⟩ shareToken.permission⟩

/-! ### templateController.ts -/

/-- A template with its slides ordered by index. -/
def orderedTemplate (t : Template × List TemplateSlide) : Template × List TemplateSlide :=
  (t.1, t.2.insertionSort fun a b => a.index ≤ b.index)

def getTemplates : Handler Response :=
  guarded (fun _ => .error 500 "Failed to fetch templates") do
    let templates ← ask .templateFindMany
    return ⟨200, .templates (templates.map orderedTemplate)⟩

def getTemplateById (id : String) : Handler Response :=
  guarded (fun _ => .error 500 "Failed to fetch template") do
    let some template ← ask (.templateFindUnique (some (.str id)))
      | return .error 404 "Template not found"
    return ⟨200, .templates [orderedTemplate template]⟩

def useTemplate (user : AuthUser) (body : Val) : Handler Response :=
  guarded (fun _ => .error 500 "Failed to create presentation from template") do
    let templateId ← prop body "templateId"
    let customization := getOpt body "customization"
    if user.id = "" then return .error 401 "Unauthorized"
    let some (template, slides) ← ask (.templateFindUnique templateId)
      | return .error 404 "Template not found"
    let themeChoice := Js.or (getOpt customization "themeId") (some (.str template.themeId))
    let deck ← ask (.presentationCreate user.id (some (.str template.name))
      (slides.map fun s => ⟨some (.num s.index), some (.str s.layout), s.contentJSON, themeChoice⟩))
    return ⟨201, .deck deck⟩

def updateTemplate (id : String) (body : Val) : Handler Response :=
  guarded (fun _ => .error 500 "Failed to update template") do
    let name ← prop body "name"
    let template ← ask (.templateUpdate id name (getOpt body "category") (getOpt body "description")
      (getOpt body "themeId"))
    return ⟨200, .template template⟩

/-! ### importController.ts -/

def uploadPptx (user : AuthUser) (fileName : Option String) : Handler Response :=
  guarded (fun e => ⟨500, .errorDetails "Failed to upload PPTX" e⟩) do
    if user.id = "" then return .error 401 "Unauthorized"
    let some fileName := fileName | return .error 400 "No PPTX file provided"
    let url ← ask (.uploadRaw fileName)
    let importedPpt ← ask (.importedPptCreate user.id fileName url)
    return ⟨201, .importedPpt importedPpt⟩

def getImportedPpts (user : AuthUser) : Handler Response :=
  guarded (fun _ => .error 500 "Failed to fetch imported PPTs") do
    if user.id = "" then return .error 401 "Unauthorized"
    let imports ← ask (.importedPptFindMany user.id)
    return ⟨200, .importedPpts imports⟩

def convertPptToPresentation (user : AuthUser) (id : String) : Handler Response :=
  guarded (fun e => ⟨500, .errorDetails "Failed to convert PPT" e⟩) do
    if user.id = "" then return .error 401 "Unauthorized"
    let some importedPpt ← ask (.importedPptFindFirst id user.id)
      | return .error 404 "Imported PPT not found"
    let entries ← ask (.fetchArchive importedPpt.fileUrl)
    let deck ← ask (.presentationCreate user.id (some (.str (importTitle importedPpt.fileName)))
      (importedSlides importedPpt.fileName entries))
    return ⟨201, .deck deck⟩

/-! ### planController.ts -/

def getUserPlan (user : AuthUser) : Handler Response :=
  guarded (fun _ => .error 500 "Failed to fetch user plan") do
    if user.id = "" then return .error 401 "Unauthorized"
    let some row ← ask (.userFindUnique user.id)
      | return .error 401 "Unauthorized: User record missing"
    return ⟨200, .usage row.plan row.presentationsCreatedThisMonth row.lastUsageReset⟩

end Slideo
