import FoldedIni.Bytes

/-!
# Files

A path is brought to its plain form before it is used or shown: single strokes
between the names, no names that stand for the same directory. Steps up are kept,
since what is above a link cannot be told from its path. Rights and links are left
out.
-/

set_option autoImplicit false

namespace FoldedIni

inductive Found where
  | file (content : Bytes)
  | directory
  | nothing
  /-- The path leads on below a file. -/
  | belowFile
  deriving Repr

namespace Path

def names (path : String) : List String :=
  (path.splitOn "/").filter fun name => name != "" && name != "."

/-- The root at the start of a path. Just two strokes are a root of their own. -/
def root (path : String) : String :=
  match path.toList with
  | '/' :: '/' :: '/' :: _ => "/"
  | '/' :: '/' :: _ => "//"
  | '/' :: _ => "/"
  | _ => ""

def plain (path : String) : String :=
  let s := root path ++ "/".intercalate (names path)
  if s = "" then "." else s

end Path

/-- The files below a directory by their paths. -/
abbrev Directory := List (String × Bytes)

namespace Directory

/-- Follows names from the directory reached by the names in `here`, in reverse. -/
def follow (d : Directory) (here : List String) : List String → Found
  | [] => .directory
  | ".." :: rest =>
    match here with
    | [] => if rest.isEmpty then .directory else .nothing
    | _ :: above => d.follow above rest
  | name :: rest =>
    let path := "/".intercalate (name :: here).reverse
    match d.lookup path with
    | some content => if rest.isEmpty then .file content else .belowFile
    | none =>
      if d.any fun entry => (path ++ "/").isPrefixOf entry.1 then d.follow (name :: here) rest
      else .nothing

/-- What is found under a path. Nothing is known of what is not below the directory. -/
def find (d : Directory) (path : String) : Found :=
  if Path.root path = "" then d.follow [] (Path.names path)
  else if (Path.names path).isEmpty then .directory
  else .nothing

end Directory

end FoldedIni
