import Slideo.Ai

/-! `controllers/exportController.ts`: the text boxes that `exportToPptx` puts on each slide. The document
    stands for the file that `pptx.write` makes from it. -/

namespace Slideo
open Js

/-- A width: a share of the page, or inches. -/
inductive Extent where
  | percent (n : Nat)
  | inches (q : Rat)
  deriving DecidableEq

/-- The text of a box: one value, or a list of bullet runs. -/
inductive BoxText where
  | plain (text : Json)
  | bullets (runs : List Json)
  deriving DecidableEq

structure TextBox where
  text : BoxText
  x : Rat
  y : Rat
  w : Extent
  h : Option Rat := none
  fontSize : Nat
  bold : Bool := false
  italic : Bool := false
  color : Option String := none
  centered : Bool := false
  deriving DecidableEq

structure Pptx where
  title : String
  slides : List (List TextBox)
  deriving DecidableEq

/-- `a || b || d` over the fields `a` and `b` of an object. -/
def firstOf (v : Val) (a b : String) (d : Json) : Json :=
  (Js.or (getOpt v a) (Js.or (getOpt v b) (some d))).getD d

def titleBox (content : Val) : TextBox where
  text := .plain ((Js.or (getOpt content "title") (some (.str "Untitled Slide"))).getD .null)
  x := 1 / 2
  y := 1 / 2
  w := .percent 90
  h := some 1
  fontSize := 32
  bold := true
  color := some "363636"
  centered := true

def heroBoxes (content : Val) : List TextBox :=
  if truthy (getOpt content "subtitle") then
    [{ text := .plain ((getOpt content "subtitle").getD .null), x := 1 / 2, y := 9 / 5, w := .percent 90,
       fontSize := 20, color := some "666666", centered := true }]
  else []

/-- A list with a positive length is drawn by `map`, which only arrays have. -/
def bulletBoxes (content : Val) : Option (List TextBox) := do
  let bullets := firstOf content "bullets" "list" (.arr [])
  let length ← toNumber (← get (some bullets) "length")
  if length.positive then
    let runs ← asArray (some bullets)
    return [{ text := .bullets runs, x := 1 / 2, y := 2, w := .percent 90, fontSize := 18, color := some "444444" }]
  else return []

/-- The two boxes of item `idx` of a grid. -/
def itemBoxes (idx : Nat) (item : Json) : Option (List TextBox) := do
  let _ ← get (some item) "title"
  let xPos : Rat := 1 / 2 + (idx % 2 : Nat) * (9 / 2)
  let yPos : Rat := 2 + (idx / 2 : Nat) * 2
  return [{ text := .plain (firstOf (some item) "title" "label" (.str "")), x := xPos, y := yPos, w := .inches 4,
            fontSize := 16, bold := true, color := some "000000" },
          { text := .plain (firstOf (some item) "description" "value" (.str "")), x := xPos, y := yPos + 1 / 2,
            w := .inches 4, fontSize := 14, color := some "666666" }]

def gridBoxes (content : Val) : Option (List TextBox) := do
  let items ← asArray (some (firstOf content "cards" "stats" (.arr [])))
  return (← mapIdxOption itemBoxes items).flatten

def quoteBoxes (content : Val) : Option (List TextBox) :=
  let quote := getOpt content "quote"
  if truthy quote then do
    let text ← interpolate "\"" (getOpt quote "text") "\""
    let textBox : TextBox :=
      { text := .plain (.str text), x := 1, y := 2, w := .inches 8, fontSize := 24, italic := true,
        centered := true }
    if truthy (getOpt quote "author") then
      let author ← interpolate "— " (getOpt quote "author") ""
      let authorBox : TextBox :=
        { text := .plain (.str author), x := 1, y := 7 / 2, w := .inches 8, fontSize := 16, centered := true }
      return [textBox, authorBox]
    else return [textBox]
  else some []

def defaultBoxes (content : Val) : List TextBox :=
  if truthy (getOpt content "description") then
    [{ text := .plain ((getOpt content "description").getD .null), x := 1 / 2, y := 2, w := .percent 90,
       fontSize := 16, color := some "333333" }]
  else []

/-- The boxes that the layout adds under the title. -/
def layoutBoxes (layout : String) (content : Val) : Option (List TextBox) :=
  if layout = "hero" then some (heroBoxes content)
  else if layout = "bullet-slide" ∨ layout = "list" then bulletBoxes content
  else if layout = "card-grid" ∨ layout = "stats" then gridBoxes content
  else if layout = "quote" then quoteBoxes content
  else some (defaultBoxes content)

/-- One slide; a content of `null` throws. -/
def renderSlide (s : Slide) : Option (List TextBox) := do
  let content : Val := some s.contentJSON
  let _ ← get content "title"
  return titleBox content :: (← layoutBoxes s.layout content)

/-- `orderBy: { index: 'asc' }`. Slides of one index keep the order of their rows, where the database promises none. -/
def byIndex (slides : List Slide) : List Slide := slides.insertionSort fun a b => a.index ≤ b.index

theorem byIndex_perm (slides : List Slide) : (byIndex slides).Perm slides := List.perm_insertionSort _ slides

def renderDeck (d : Deck) : Option Pptx := do
  return ⟨d.row.title, ← (byIndex d.slides).mapM renderSlide⟩

/-- `title.replace(/[^a-z0-9]/gi, '_')`, one underscore for each UTF-16 unit. -/
def exportFileName (title : String) : String :=
  String.ofList (title.toList.flatMap fun c =>
    if c.isAlphanum then [c] else List.replicate (units c).length '_') ++ ".pptx"

end Slideo
