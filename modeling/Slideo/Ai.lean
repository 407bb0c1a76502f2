import Slideo.Prisma
import Slideo.Lib.JsonText

/-! `services/aiService.ts`: the prompt, the mapping of the model's blocks to slides, and the deck that
    replaces it when anything in between throws. -/

namespace Slideo
open Js

/-- `PALETTE_FAMILIES`, in the order of its keys. -/
def paletteFamilies : List (List String) :=
  [["midnight-dark", "obsidian", "blackout", "abyss", "dark-knight", "carbon", "midnight-city"],
   ["minimal-light", "slate-light", "cool-light", "warm-light", "corporate-blue", "pearl", "silver"],
   ["purple-gradient", "ocean-gradient", "emerald-gradient", "neon-blue", "executive", "electric-violet"],
   ["lavender-haze", "mint-tea", "gold-rush", "aurora", "peach-fuzz", "rose-water", "spring"],
   ["royal-velvet", "blood-moon", "galaxy", "space-dust", "retrowave", "sunset-gradient"]]

structure AdvancedOptions where
  tone : Val := none
  language : Val := none
  textContentAmount : Val := none
  themeId : Val := none
  imageStyle : Val := none
  requiredLayouts : Option (List String) := none

/-- A slide of a generated deck. A field of the content may hold `undefined`. -/
structure GeneratedSlide where
  layout : String
  themeChoice : Json
  contentJSON : List (String × Val)

/-- `content.name = v`. -/
def setContent (content : List (String × Val)) (name : String) (v : Val) : List (String × Val) :=
  if content.any (·.1 == name) then content.map fun f => if f.1 == name then (name, v) else f
  else content ++ [(name, v)]

/-- The object as JSON: fields that are `undefined` are left out. -/
def GeneratedSlide.toJson (s : GeneratedSlide) : Json :=
  .obj [("layout", .str s.layout), ("themeChoice", s.themeChoice),
    ("contentJSON", .obj (s.contentJSON.filterMap fun f => f.2.map (f.1, ·)))]

/-! ### Themes -/

def selectedTheme (themeId : Val) : Json := if truthy themeId then themeId.getD .null else .str "minimal-light"

/-- The first family that contains the theme, or the theme alone. -/
def familyThemes (theme : Json) : List Json :=
  match paletteFamilies.find? fun themes => (themes.map Json.str).contains theme with
  | some themes => themes.map Json.str
  | none => [theme]

/-- `familyThemes[i % familyThemes.length]`. -/
def rotatedTheme (theme : Json) (i : Nat) : Json :=
  (familyThemes theme)[i % (familyThemes theme).length]?.getD theme

/-! ### The prompt -/

/-- A template string around `${v}`. -/
def interpolate (before : String) (v : Val) (after : String) : Option String :=
  (toStr v).map fun s => before ++ s ++ after

def toneInstruction (o : AdvancedOptions) : Option String :=
  if truthy o.tone then interpolate "Tone: " o.tone "." else some "Tone: professional and informative."

def languageInstruction (o : AdvancedOptions) : Option String :=
  if truthy o.language then interpolate "Language: " o.language "." else some "Language: English."

def contentDensity (o : AdvancedOptions) : String :=
  if o.textContentAmount = some (.str "minimal") then
    "Keep content brief (1-sentence descriptions, 3 items minimum)."
  else if o.textContentAmount = some (.str "detailed") then
    "Include rich detail (2–3 sentences, 4–5 items per slide)."
  else "Use moderate content (1–2 sentences, 3–4 items per slide)."

def imageStyleInstruction (o : AdvancedOptions) : Option String :=
  if truthy o.imageStyle then
    interpolate "Visual Style for images: " o.imageStyle ". Describe images that fit this aesthetic."
  else some ""

/-- The number of slides to ask for. -/
def requestedCount (slideCount : Int) (o : AdvancedOptions) : Int :=
  match o.requiredLayouts with
  | some layouts => layouts.length
  | none => slideCount

def layoutInstruction (slideCount : Int) (o : AdvancedOptions) : String :=
  match o.requiredLayouts with
  | some layouts =>
    "CRITICAL: You MUST generate EXACTLY " ++ toString (requestedCount slideCount o) ++
      " slides that map visually to these layouts in order: [" ++ String.intercalate ", " layouts ++
      "]. Do not skip any. Use the blocks that best fit each required layout."
  | none => "Slide Count: Exactly " ++ toString (requestedCount slideCount o) ++ " slides."

/-- The part of the prompt that depends on the request; the text around it is constant. Writing a value
    into it may throw. -/
def prompt (topic : Val) (slideCount : Int) (o : AdvancedOptions) : Option String := do
  let tone ← toneInstruction o
  let language ← languageInstruction o
  let imageStyle ← imageStyleInstruction o
  let topic ← interpolate "Topic: \"" topic "\""
  return String.intercalate "\n"
    [topic, layoutInstruction slideCount o, tone, language, contentDensity o, imageStyle]

/-! ### The model's answer -/

/-- `text.replace(/```json/g, '').replace(/```/g, '').trim()`. -/
def cleanText (text : String) : List Char :=
  let cs := text.toList
  let cs := removeAll "```json".toList cs.length cs
  trim (removeAll "```".toList cs.length cs)

/-- The slide array of the parsed answer; `null` has no property `slides`. -/
def rawSlides (parsed : Json) : Option (List Json) := do
  let slides ← get (some parsed) "slides"
  return match asArray slides with
    | some items => items
    | none => (asArray (some parsed)).getD []

/-- What the mapping of a slide has gathered from its blocks. -/
structure BlockState where
  layout : String
  content : List (String × Val)

/-- `Array.isArray(block.items) ? block.items : []`. -/
def itemsOf (block : Json) : Val := some (.arr ((asArray (getOpt (some block) "items")).getD []))

/-- `block.items?.length === n`. -/
def itemCountIs (block : Json) (n : Nat) : Bool :=
  getOpt (getOpt (some block) "items") "length" == some (.num n)

def columnsIs (block : Json) (n : Nat) : Bool := getOpt (some block) "columns" == some (.num n)

def cardsLayout (block : Json) : String :=
  if columnsIs block 2 || itemCountIs block 2 || itemCountIs block 4 then "card-grid"
  else if columnsIs block 3 || itemCountIs block 3 then "three-cards"
  else "card-grid"

def isObject : Json → Bool
  | .arr _ | .obj _ => true
  | _ => false

/-- One turn of the loop over the blocks of a slide. -/
def mapBlock (s : BlockState) (block : Json) : BlockState :=
  let field := getOpt (some block)
  let set := setContent s.content
  if !isObject block then s
  else if field "type" = some (.str "header") then { s with content := set "title" (field "text") }
  else if field "type" = some (.str "paragraph") then { s with content := set "subtitle" (field "text") }
  else if field "type" = some (.str "cards") then ⟨cardsLayout block, set "cards" (itemsOf block)⟩
  else if field "type" = some (.str "bullet-list") then
    let content := set "bullets" (itemsOf block)
    ⟨"bullet-slide", if truthy (field "title") then setContent content "title" (field "title") else content⟩
  else if field "type" = some (.str "stats") then ⟨"stats", set "stats" (itemsOf block)⟩
  else if field "type" = some (.str "steps") then ⟨"steps", set "steps" (itemsOf block)⟩
  else if field "type" = some (.str "timeline") then ⟨"timeline", set "timelineEvents" (itemsOf block)⟩
  else if field "type" = some (.str "quote") then
    ⟨"quote", set "quote" (some (.obj [("text", (Js.or (field "text") (some (.str ""))).getD .null),
      ("author", (Js.or (field "author") (some (.str ""))).getD .null)]))⟩
  else if field "type" = some (.str "image") then { s with layout := "image-left" }
  else if field "type" = some (.str "chart") ∨ field "type" = some (.str "diagram") then
    ⟨"diagram", set "cards" (itemsOf block)⟩
  else s

/-- Slide `idx` of the answer; a `null` entry throws. -/
def mapSlide (o : AdvancedOptions) (idx : Nat) (slideObj : Json) : Option GeneratedSlide := do
  let blocks ← get (some slideObj) "blocks"
  let s := ((asArray blocks).getD []).foldl mapBlock ⟨"hero", []⟩
  let layout := if idx = 0 then "hero" else s.layout
  let layout := match o.requiredLayouts.bind (·[idx]?) with
    | some required => if required = "" then layout else required
    | none => layout
  return ⟨layout, rotatedTheme (selectedTheme o.themeId) idx, s.content⟩

/-- `xs.map(f)` where `f` may throw. -/
def mapIdxOption {α β : Type} (f : Nat → α → Option β) (xs : List α) : Option (List β) :=
  (xs.mapIdx f).mapM id

/-- The entries of the slide array in the model's text; `none` where reading it throws. -/
def parseResponse (text : Option String) : Option (List Json) := do
  let text ← text
  if text = "" then none
  rawSlides (← parseChars (cleanText text))

/-- The whole model path after the call. -/
def mapResponse (o : AdvancedOptions) (text : Option String) : Option (List GeneratedSlide) := do
  mapIdxOption (mapSlide o) (← parseResponse text)

/-! ### The fallback deck -/

def fallbackLayouts : List String :=
  ["hero", "bullet-slide", "card-grid", "stats", "steps", "timeline", "comparison", "quote"]

def fallbackLayout (o : AdvancedOptions) (count : Int) (i : Nat) : String :=
  match o.requiredLayouts with
  | some layouts => layouts[i]?.getD ""
  | none =>
    if i = 0 then "hero"
    else if (i : Int) = count - 1 then "quote"
    else fallbackLayouts[i % fallbackLayouts.length]?.getD ""

/-- An object with string fields. -/
def record (fields : List (String × String)) : Json := .obj (fields.map fun f => (f.1, .str f.2))

def fallbackBullets : Json :=
  .arr [.str "Comprehensive industry-leading analysis and reporting",
    .str "Strategic implementation of core principles",
    .str "Data-driven decision making for optimal performance",
    .str "User-centric design focus with accessibility in mind"]

def fallbackCards : Json :=
  .arr [record [("icon", "zap"), ("title", "Performance"), ("description", "Blazing fast load times.")],
    record [("icon", "shield"), ("title", "Security"), ("description", "Enterprise-grade protection.")],
    record [("icon", "brain"), ("title", "Intelligence"), ("description", "Advanced AI driven workflows.")],
    record [("icon", "layout"), ("title", "Design"), ("description", "Premium aesthetics with focus.")]]

def fallbackStats : Json :=
  .arr [record [("value", "98%"), ("label", "Uptime"), ("description", "Guaranteed reliability.")],
    record [("value", "4.8/5"), ("label", "Satisfaction"), ("description", "Industry leader.")],
    record [("value", "12x"), ("label", "Growth"), ("description", "Scalable infrastructure.")]]

def fallbackTimeline : Json :=
  .arr [record [("date", "Phase 1"), ("title", "Strategy"), ("description", "Core objective setting.")],
    record [("date", "Phase 2"), ("title", "Execution"), ("description", "Iterative deployment cycle.")],
    record [("date", "Phase 3"), ("title", "Optimization"), ("description", "Scaling and performance.")]]

def fallbackSteps : Json :=
  .arr [record [("title", "Discovery"), ("description", "Deep dive into user needs.")],
    record [("title", "Prototyping"), ("description", "Interactive design testing.")],
    record [("title", "Launch"), ("description", "Full-scale market release.")]]

def fallbackComparison : Json :=
  .arr [record [("left", "Manual processes"), ("right", "AI-automated workflows")],
    record [("left", "Static reporting"), ("right", "Interactive real-time dashboards")],
    record [("left", "Fragmented tools"), ("right", "Unified all-in-one ecosystem")]]

def fallbackQuote : Json :=
  record [("text", "Innovation distinguishes between a leader and a follower."), ("author", "Steve Jobs")]

/-- The payload that goes with a layout. -/
def fallbackPayload (layout : String) : List (String × Val) :=
  (if layout ∈ ["bullet-slide", "list"] then [("bullets", some fallbackBullets)] else []) ++
  (if layout ∈ ["card-grid", "numbered-cards", "diagram"] then [("cards", some fallbackCards)] else []) ++
  (if layout = "stats" then [("stats", some fallbackStats)] else []) ++
  (if layout ∈ ["timeline", "timelineEvents"] then [("timelineEvents", some fallbackTimeline)] else []) ++
  (if layout ∈ ["steps", "process-flow"] then [("steps", some fallbackSteps)] else []) ++
  (if layout = "comparison" then
    [("leftLabel", some (.str "Traditional")), ("rightLabel", some (.str "Next-Gen")),
      ("comparisonItems", some fallbackComparison)] else []) ++
  (if layout = "quote" then [("quote", some fallbackQuote)] else [])

/-- Slide `i` of the fallback deck. Writing the topic into the subtitle may throw. -/
def fallbackSlide (topic : Val) (o : AdvancedOptions) (count : Int) (i : Nat) : Option GeneratedSlide := do
  let layout := fallbackLayout o count i
  let theme := selectedTheme o.themeId
  let title : Val := if i = 0 then topic else some (.str ("Key Insight " ++ toString i ++ ": Detailed Analysis"))
  let subtitle ← interpolate "In-depth exploration of " topic
    " and its strategic implications for modern development."
  return ⟨layout, if i = 0 then theme else rotatedTheme theme i,
    ("title", title) :: ("subtitle", some (.str subtitle)) :: fallbackPayload layout⟩

/-- `Array.from({ length })` throws where no array is that long, and takes a negative length as 0. -/
def fallbackDeck (topic : Val) (slideCount : Int) (o : AdvancedOptions) : Option (List GeneratedSlide) :=
  if 4294967296 ≤ requestedCount slideCount o then none
  else (List.range (requestedCount slideCount o).toNat).mapM (fallbackSlide topic o (requestedCount slideCount o))

/-! ### Generation -/

/-- A value whose computation may throw a `TypeError`, or a `RangeError`, which no caller tells from it. -/
def ofOption {α : Type} : Option α → Handler α
  | some a => .pure a
  | none => .throw .typeError

def generatePresentationSlides (topic : Val) (slideCount : Int) (o : AdvancedOptions) :
    Handler (List GeneratedSlide) :=
  Prog.tryCatch
    (do
      let prompt ← ofOption (prompt topic slideCount o)
      let text ← ask (.generateContent prompt)
      ofOption (mapResponse o text))
    (fun _ => ofOption (fallbackDeck topic slideCount o))

end Slideo
