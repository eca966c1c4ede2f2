/-!
# File names

A file name is a text whose parts are separated by slashes. The base name is the last part
after trailing slashes are dropped: `.` for the empty name and `/` for a name of slashes only.
The extension of a name is the suffix of its last part that starts at the last dot of that
part, or nothing when that part has no dot.

An assembled program is written to the given output name, or to `compiled_` followed by the
base name of the source without its extension; `.mqa` is appended to a name without extension.

A name is cleaned by dropping empty and `.` parts and letting each `..` cancel the part before
it; `..` parts that cancel nothing stay in front, or vanish after a leading slash. The clean
form of a name with no parts is `.`, or `/` for a name from the root.
-/

namespace PagedAsm

namespace FileName

/-- The parts of a name between slashes, empty parts included. -/
def parts (s : String) : List String :=
  s.splitOn "/"

def lastPart (cs : List Char) : List Char :=
  (cs.reverse.takeWhile (· ≠ '/')).reverse

/-- The base name: the last part once trailing slashes are dropped. -/
def base (s : String) : String :=
  if s.isEmpty then "."
  else
    let trimmed := (s.toList.reverse.dropWhile (· = '/')).reverse
    if trimmed.isEmpty then "/" else String.ofList (lastPart trimmed)

/-- The extension: the suffix of the last part from its last dot, or the empty text. -/
def extension (s : String) : String :=
  let part := lastPart s.toList
  if part.contains '.' then String.ofList ('.' :: (part.reverse.takeWhile (· ≠ '.')).reverse)
  else ""

def stem (s : String) : String :=
  String.ofList (s.toList.take (s.length - (extension s).length))

def imageExtension : String := ".mqa"

/-- The name an assembled program is written to: `output` when given, else `compiled_` and
the stem of the base name of `input`; `.mqa` is appended to a name without extension. -/
def output (input output : String) : String :=
  let name := if output.isEmpty then "compiled_" ++ stem (base input) else output
  if (extension name).isEmpty then name ++ imageExtension else name

def isAbsolute (s : String) : Bool :=
  s.startsWith "/"

def cleanParts (rooted : Bool) (parts : List String) : List String :=
  (parts.foldl (fun (kept : List String) part =>
    if part = "" ∨ part = "." then kept
    else if part = ".." then
      match kept with
      | last :: rest => if last = ".." then part :: kept else rest
      | [] => if rooted then [] else [part]
    else part :: kept) []).reverse

/-- The shortest name that names the same place by purely textual steps. -/
def clean (s : String) : String :=
  let rooted := isAbsolute s
  let body := "/".intercalate (cleanParts rooted (parts s))
  if rooted then "/" ++ body
  else if body.isEmpty then "." else body

/-- Two names joined by a slash and cleaned; an empty name is left out. -/
def join (a b : String) : String :=
  if a.isEmpty then (if b.isEmpty then "" else clean b)
  else if b.isEmpty then clean a
  else clean (a ++ "/" ++ b)

def dir (s : String) : String :=
  clean (String.ofList (s.toList.reverse.dropWhile (· ≠ '/')).reverse)

end FileName

end PagedAsm
