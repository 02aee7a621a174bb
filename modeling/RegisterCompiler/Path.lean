/-
Paths of files.

The parts of a path are divided by slashes.  A path is clean when it has no empty
part and no part that only stays or goes back, except for steps upward at the
start of a relative path.
-/

import RegisterCompiler.Text.Blank

set_option autoImplicit false

namespace RegisterCompiler
namespace Path

def parts (path : String) : List String :=
  (Text.splitAt (· == '/') path.toList).map String.ofList

def isAbsolute (path : String) : Bool :=
  path.toList.head? == some '/'

/-- Adds a part behind the clean parts before it, which are in reverse order. -/
def addPart (absolute : Bool) (before : List String) (part : String) : List String :=
  if part = "" || part = "." then before
  else if part = ".." then
    match before with
    | [] => if absolute then [] else [".."]
    | last :: rest => if last = ".." then ".." :: last :: rest else rest
  else part :: before

def ofParts (absolute : Bool) (parts : List String) : String :=
  let joined := String.intercalate "/" parts
  if absolute then "/" ++ joined else if parts.isEmpty then "." else joined

def clean (path : String) : String :=
  let absolute := isAbsolute path
  ofParts absolute ((parts path).foldl (addPart absolute) []).reverse

def join (first second : String) : String :=
  if first = "" then
    if second = "" then "" else clean second
  else clean (first ++ "/" ++ second)

def directory (path : String) : String :=
  let behind := path.toList.reverse.dropWhile (· != '/')
  clean (String.ofList behind.reverse)

/-- A path seen from the root, when relative paths start at `base`. -/
def absolute (base path : String) : String :=
  if isAbsolute path then clean path else join base path

end Path
end RegisterCompiler
