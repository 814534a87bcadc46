import SearchFilter.Field
import SearchFilter.Formula

/-!
# Content selectors

A content selector says of a component's properties what a user may see. Selectors call fields by
names of their own, of which a field may have several. In the syntax tree groups are kept, so that
a tree tells how the text was written.
-/

namespace SearchFilter

/-! ## Property names -/

/-- The field behind each property name. -/
abbrev Aliases := String → Option Field

namespace Aliases

/-- No property has a field. -/
def none : Aliases := fun _ => Option.none

/-- Adds a name for a field, or gives a name to another field. -/
def add (aliases : Aliases) (name : String) (field : Field) : Aliases :=
  fun property => if property = name then some field else aliases property

/-- Adds several names, one after the other. -/
def addAll (aliases : Aliases) (entries : List (String × Field)) : Aliases :=
  entries.foldl (fun a e => a.add e.1 e.2) aliases

/-- The usual property names. -/
def standardTable : List (String × Field) :=
  [("format", .format), ("repository", .repository), ("path", .paths), ("namespace", .group),
    ("coordinate.groupId", .group), ("coordinate.namespace", .group), ("coordinate.scope", .group),
    ("coordinate.vendor", .group), ("name", .name), ("coordinate.artifactId", .name),
    ("coordinate.name", .name), ("coordinate.packageId", .name), ("coordinate.package", .name),
    ("coordinate.module", .name), ("version", .version), ("coordinate.version", .version),
    ("md5", .md5), ("sha1", .sha1), ("sha256", .sha256), ("sha512", .sha512),
    ("keywords", .keywords), ("tag", .tags)]

/-- The fields behind the usual property names. -/
def standard : Aliases := none.addAll standardTable

end Aliases

/-! ## Syntax trees -/

/-- How a selector compares a property with a text. -/
inductive Comparator where
  | equal
  | notEqual
  | startsWith
  | matching
  deriving DecidableEq, Repr

namespace Comparator

def all : List Comparator := [equal, notEqual, startsWith, matching]

/-- The comparator as it is written. -/
def token : Comparator → String
  | equal => "=="
  | notEqual => "!="
  | startsWith => "=^"
  | matching => "=~"

def title : Comparator → String
  | equal => "Equal"
  | notEqual => "NotEqual"
  | startsWith => "StartsWith"
  | matching => "Matches"

def ofToken? (token : String) : Option Comparator := all.find? (·.token == token)

end Comparator

/-- A content selector. -/
inductive Selector where
  | comparison (property : String) (op : Comparator) (value : String)
  | logical (op : Connective) (left right : Selector)
  | group (inner : Selector)
  deriving DecidableEq, Repr

end SearchFilter
