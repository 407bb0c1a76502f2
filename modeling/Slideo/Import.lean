import Slideo.Http

/-! `controllers/importController.ts`: from the files of an uploaded archive to slides. -/

namespace Slideo
open Js

/-- The slide files of an archive. -/
def isSlideEntry (e : ZipEntry) : Bool := startsWith e.entryName "ppt/slides/slide" && endsWith e.entryName ".xml"

/-- `parseInt(name.match(/\d+/)?.[0] || '0')`: the first run of digits in the name. -/
def entryNumber (e : ZipEntry) : Nat :=
  digitsVal 10 ((e.entryName.toList.dropWhile fun c => !isDigit c).takeWhile isDigit)

def slideEntries (entries : List ZipEntry) : List ZipEntry :=
  (entries.filter isSlideEntry).insertionSort fun a b => entryNumber a ≤ entryNumber b

/-- The match of `/<a:t>([^<]+)<\/a:t>/` at the start of the text. -/
def textMatchHere (cs : List Char) : Option (List Char) :=
  if "<a:t>".toList.isPrefixOf cs then
    let inner := (cs.drop 5).takeWhile (· != '<')
    if inner ≠ [] ∧ "</a:t>".toList.isPrefixOf ((cs.drop 5).drop inner.length) then
      some ("<a:t>".toList ++ inner ++ "</a:t>".toList)
    else none
  else none

/-- `content.match(/<a:t>([^<]+)<\/a:t>/g) || []`; the length of the text is enough fuel. -/
def textMatches : Nat → List Char → List (List Char)
  | 0, _ => []
  | _ + 1, [] => []
  | n + 1, c :: cs =>
    match textMatchHere (c :: cs) with
    | some m => m :: textMatches n ((c :: cs).drop m.length)
    | none => textMatches n cs

/-- `m.replace(/<a:t>|<\/a:t>/g, '')`. -/
def stripTags : Nat → List Char → List Char
  | 0, cs => cs
  | _ + 1, [] => []
  | n + 1, c :: cs =>
    if "<a:t>".toList.isPrefixOf (c :: cs) then stripTags n ((c :: cs).drop 5)
    else if "</a:t>".toList.isPrefixOf (c :: cs) then stripTags n ((c :: cs).drop 6)
    else c :: stripTags n cs

def cleanTexts (content : String) : List String :=
  (textMatches content.toList.length content.toList).map fun m => String.ofList (stripTags m.length m)

/-- The slide at position `index` from its texts. -/
def parsedSlide (index : Nat) (texts : List String) : SlideData :=
  let slideN := "Slide " ++ toString (index + 1)
  let title := texts.headD slideN
  let bullets := texts.tail.filter fun t => trim t.toList ≠ []
  let tooLong := 100 < utf16Length title ∧ bullets = []
  let bullets' := if tooLong then [title] else bullets
  let title' := if tooLong then slideN else title
  { index := some (.num index)
    layout := some (.str (if index = 0 then "hero" else if 5 < bullets'.length then "list" else "content_list"))
    themeChoice := some (.str "minimal-light")
    contentJSON := .obj [("title", .str title'),
      ("subtitle", .str (if index = 0 then bullets'.headD "" else "")),
      ("bullets", .arr (if index = 0 then [] else bullets'.map .str)),
      ("alignment", .str "left")] }

def parsedSlides (entries : List ZipEntry) : List SlideData :=
  (slideEntries entries).mapIdx fun index e => parsedSlide index (cleanTexts e.data)

/-- `fileName.replace('.pptx', '')`. -/
def importTitle (fileName : String) : String := String.ofList (removeFirst ".pptx".toList fileName.toList)

/-- The slides to store; an archive without slides gives one placeholder. -/
def importedSlides (fileName : String) (entries : List ZipEntry) : List SlideData :=
  if parsedSlides entries = [] then
    [{ index := some (.num 0)
       layout := some (.str "hero")
       themeChoice := none
       contentJSON := .obj [("title", .str (importTitle fileName)),
         ("subtitle", .str "Imported Presentation (No text found)"), ("alignment", .str "center")] }]
  else parsedSlides entries

end Slideo
