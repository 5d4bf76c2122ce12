/-
Module: Authorship.Docs.Implementation
Purpose: What a documentation site lists: implementations of a trait, as pieces of HTML. The entry
  of a type that describes itself links to the type's page.
Main exports: Docs.Implementation, Docs.TypeDescription, Docs.TypeDescription.implementation
-/

namespace Authorship.Docs

structure Implementation where
  html : String
  /-- A second slot, which viewers ignore. -/
  extra : Option String := none
deriving DecidableEq, Repr

inductive TypeShape where
  | struct (fields : List String)
  | enumeration (variants : List String)
deriving DecidableEq, Repr

namespace TypeShape

/-- The word for a shape. -/
def word : TypeShape → String
  | .struct _ => "struct"
  | .enumeration _ => "enum"

def names : TypeShape → List String
  | .struct fields => fields
  | .enumeration variants => variants

def isEnumeration : TypeShape → Bool
  | .struct _ => false
  | .enumeration _ => true

end TypeShape

/-- The segments of a module path, which `::` separates. -/
def segments : List Char → List (List Char)
  | [] => [[]]
  | ':' :: ':' :: rest => [] :: segments rest
  | char :: rest =>
    match segments rest with
    | [] => [[char]]
    | first :: others => (char :: first) :: others

structure TypeDescription where
  /-- The path of the type's module. -/
  path : String
  name : String
  /-- Whether the type has a parameter. -/
  generic : Bool := false
  shape : TypeShape
deriving DecidableEq, Repr

namespace TypeDescription

/-- The crate that a type belongs to: the first segment of its path. -/
def owner (type : TypeDescription) : String :=
  String.ofList ((segments type.path.toList).headD [])

/-- The directory of a type's page: the segments of its path, separated by slashes. -/
def directory (type : TypeDescription) : String :=
  "/".intercalate ((segments type.path.toList).map String.ofList)

def parameter (type : TypeDescription) : String :=
  if type.generic then "&lt;T&gt;" else ""

/-- The implementation by which a type describes itself. -/
def implementation (type : TypeDescription) : Implementation where
  html :=
    let word := type.shape.word
    let link := s!"{type.directory}/{word}.{type.name}.html"
    let title := s!"{word} {type.path}::{type.name}"
    "impl" ++ type.parameter ++ " TypeInfo for <a class=\"" ++ word ++ "\" href=\"" ++ link
      ++ "\" title=\"" ++ title ++ "\">" ++ type.name ++ "</a>" ++ type.parameter

end TypeDescription

end Authorship.Docs
