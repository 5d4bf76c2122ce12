/-
Module: Authorship.Docs.Site
Purpose: The files of a documentation site. The script of a trait's table lies below
  `implementors`, in directories that are made when it is written. They stay if the script itself
  cannot be written.
Main exports: Docs.Site, Docs.scriptPath, Docs.Site.write, Docs.Site.read?
-/
import Authorship.Assoc

namespace Authorship.Docs

/-- The names on the way from the root of the site. A way that leads out of it starts with `..`. -/
abbrev Location := List String

/-- The files of a site, and the directories below its root. -/
structure Site where
  directories : List Location := []
  files : Assoc Location String := .empty
deriving DecidableEq

/-! ## Paths -/

/-- Where the script of a trait lies. A trait that starts with a slash is not below
`implementors`. -/
def scriptPath (trait : String) : String :=
  (if trait.toList.head? = some '/' then trait else "implementors/" ++ trait) ++ ".js"

/-- The parts of a path, which slashes separate. -/
def pathParts (path : String) : List String :=
  (path.toList.splitOn '/').map String.ofList

/-- Whether a part of a path stays where it is. -/
def staysPut (part : String) : Bool :=
  part = "" || part = "."

/-- The parts that lead to the directory of a file, up to the last one that leads anywhere. -/
def folderParts (parts : List String) : List String :=
  (parts.dropLast.reverse.dropWhile staysPut).reverse

/-- The most bytes of a name. -/
def maxNameSize : Nat := 255

/-- The bytes of a path, with one behind each part: a slash, and what ends the path. -/
def pathSize : List String → Nat
  | [] => 0
  | part :: parts => part.utf8ByteSize + 1 + pathSize parts

/-- The most bytes of a path, with the one that ends it. -/
def maxPathSize : Nat := 4096

/-- Whether parts can be followed at all: they start within the site, hold no NUL, and are not too
long. -/
def canFollow (parts : List String) : Bool :=
  parts.head? != some "" && parts.all (fun part => !part.toList.contains '\x00')
    && pathSize parts ≤ maxPathSize

namespace Location

/-- Whether a place is the root, or above it. -/
def isOutward (place : Location) : Bool :=
  place.all (· = "..")

/-- Where a part of a path leads from a directory. -/
def follow (place : Location) (part : String) : Location :=
  if staysPut part then place
  else if part = ".." ∧ ¬ place.isOutward then place.dropLast
  else place ++ [part]

end Location

/-! ## Reading and writing -/

namespace Site

/-- Whether there is a directory. The root is one, and so are those above it. -/
def isDirectory (site : Site) (place : Location) : Bool :=
  place.isOutward || site.directories.contains place

/-- Follow the parts of a path, making the directories that are not there. That leads nowhere if a
name is too long or a file is in the way; the directories before it stay. -/
def descend (site : Site) (place : Location) : List String → Option Location × Site
  | [] => (some place, site)
  | part :: parts =>
    let next := place.follow part
    if site.isDirectory next then site.descend next parts
    else if site.files.contains next ∨ maxNameSize < part.utf8ByteSize then (none, site)
    else { site with directories := next :: site.directories }.descend next parts

/-- Follow the parts of a path through directories that are there. -/
def find? (site : Site) (place : Location) : List String → Option Location
  | [] => some place
  | part :: parts =>
    let next := place.follow part
    if site.isDirectory next then site.find? next parts else none

/-- Write a file into the directory that a path leads to. The answer says whether it is written: its
path must be one that can be followed, its name short enough, and no directory in the way. -/
def write (site : Site) (path text : String) : Bool × Site :=
  let parts := pathParts path
  let name := parts.getLastD ""
  if canFollow (folderParts parts) then
    match site.descend [] (folderParts parts) with
    | (none, site) => (false, site)
    | (some place, site) =>
      let file := place.follow name
      if canFollow parts && name.utf8ByteSize ≤ maxNameSize && !site.isDirectory file then
        (true, { site with files := site.files.insert file text })
      else (false, site)
  else (false, site)

def read? (site : Site) (path : String) : Option String :=
  let parts := pathParts path
  if canFollow parts then do
    let place ← site.find? [] (folderParts parts)
    site.files.get? (place.follow (parts.getLastD ""))
  else none

end Site

end Authorship.Docs
