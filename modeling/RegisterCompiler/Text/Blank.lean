/-
Blank characters and the words between them.

A word is a maximal run of characters that are not blank.
-/

import RegisterCompiler.Text.Utf8

set_option autoImplicit false

namespace RegisterCompiler
namespace Text

/-- The blank characters: the control characters that move the print position,
the space, and the wider, narrower and non-breaking spaces. -/
def isBlank (char : Char) : Bool :=
  let code := char.toNat
  (9 ≤ code && code ≤ 13) || code == 0x20 || code == 0x85 || code == 0xA0 || code == 0x1680 ||
    (0x2000 ≤ code && code ≤ 0x200A) || code == 0x2028 || code == 0x2029 || code == 0x202F ||
    code == 0x205F || code == 0x3000

def pushRun {α : Type} (run : List α × Option α) (later : List (List α × Option α)) :
    List (List α × Option α) :=
  if run.1.isEmpty then later else run :: later

/-- The run a list starts with, possibly empty, and the runs after it. -/
def leadingRun {α : Type} (isGap : α → Bool) :
    List α → (List α × Option α) × List (List α × Option α)
  | [] => (([], none), [])
  | item :: rest =>
      let (run, later) := leadingRun isGap rest
      if isGap item then (([], some item), pushRun run later)
      else ((item :: run.1, run.2), later)

/-- The maximal nonempty runs of items that are no gap, in order, each with the gap
behind it.  A run at the end has none. -/
def closedRuns {α : Type} (isGap : α → Bool) (items : List α) : List (List α × Option α) :=
  let (run, later) := leadingRun isGap items
  pushRun run later

def runs {α : Type} (isGap : α → Bool) (items : List α) : List (List α) :=
  (closedRuns isGap items).map Prod.fst

def words (text : String) : List String :=
  (runs isBlank text.toList).map String.ofList

/-- The words of a byte string, each as the glyphs that spell it, with the blank behind
it. -/
def glyphWords (bytes : Bytes) : List (List Glyph × Option Glyph) :=
  closedRuns (fun glyph => isBlank glyph.char) (glyphs bytes)

def trim (text : String) : String :=
  String.ofList (((text.toList.dropWhile isBlank).reverse.dropWhile isBlank).reverse)

def splitAt {α : Type} (isSeparator : α → Bool) : List α → List (List α)
  | [] => [[]]
  | item :: rest =>
      if isSeparator item then [] :: splitAt isSeparator rest
      else
        match splitAt isSeparator rest with
        | [] => [[item]]
        | piece :: later => (item :: piece) :: later

def lines (text : String) : List String :=
  (splitAt (· == '\n') text.toList).map String.ofList

end Text
end RegisterCompiler
