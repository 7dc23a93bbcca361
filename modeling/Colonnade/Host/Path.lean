/-
Paths as texts. A path is a row of names with slashes between them; several
slashes in a row are as good as one. A path that begins with a slash starts
at the top and every other one where the program is. One that ends in a
slash can name a directory only.

What a path leads to is a question for a volume. Here is only what can be
told from the text: its names, and the paths of the directories around it.

Chain: below `Host.Volume`, which walks the names.
-/

namespace Colonnade.Path

/-- What is between the slashes of a path, empty pieces included. -/
def pieces (path : String) : List String :=
  (split path.toList).map String.ofList
where
  /-- The runs of characters between slashes. -/
  split : List Char → List (List Char)
    | [] => [[]]
    | c :: cs =>
      if c == '/' then [] :: split cs
      else
        match split cs with
        | [] => [[c]]
        | run :: runs => (c :: run) :: runs

/-- The names of a path, dots among them. -/
def names (path : String) : List String :=
  (pieces path).filter (· != "")

/-- Whether a path starts at the top. -/
def startsAtTop (path : String) : Bool := path.toList.head? == some '/'

/-- Whether a path can name a directory only. -/
def endsInSlash (path : String) : Bool := path.toList.getLast? == some '/'

/-- The path of something in a directory. -/
def join (directory name : String) : String :=
  if directory == "" || endsInSlash directory then directory ++ name
  else directory ++ "/" ++ name

/-- Whether a piece of a path between slashes leads nowhere. -/
def staysPut (piece : String) : Bool := piece == "" || piece == "."

/-- The paths that the pieces of a path, the last one first, and those
before each of them spell. A piece that leads nowhere ends none of them. -/
def spellings : List String → List String
  | [] => []
  | piece :: before =>
    if staysPut piece then spellings before
    else String.intercalate "/" (piece :: before).reverse :: spellings before

/-- The paths of the directories around a path, the innermost first. They
are told from the text: around `a/..` is `a`. -/
def around (path : String) : List String :=
  (spellings (pieces path).reverse).drop 1

/-- The path of the directory around a path, which is empty if that is the
directory in which the path starts. -/
def parent (path : String) : String := (around path).headD ""

example : names "a//b/./c/" = ["a", "b", ".", "c"] := by decide +kernel
example : around "a//b/./c/" = ["a//b", "a"] := by decide +kernel
example : around "x/../db" = ["x/..", "x"] := by decide +kernel
example : parent "a/." = "" := by decide +kernel
example : join "db/" "LOCK" = "db/LOCK" := by decide +kernel

end Colonnade.Path
