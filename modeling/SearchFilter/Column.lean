import SearchFilter.Dialect
import SearchFilter.Field

/-!
# Columns

Which columns of the database stand behind a field. A text column is searched through the column
it is matched by; where that is a search vector, a second column may hold the plain text. The
columns of list fields hold many values in one text and are called tokenized.
-/

namespace SearchFilter

/-- The columns behind one field. -/
structure Column where
  /-- The column that a search matches. -/
  matched : String
  /-- The plain column for comparisons, where it is another one. -/
  companion? : Option String
  /-- The column to sort by. -/
  sort? : Option String
  /-- The column holds a list of values in one text. -/
  tokenized : Bool
  /-- The dialect's text search works on the column. -/
  fulltext : Bool
  deriving DecidableEq, Repr

namespace Column

/-- A column with a single value and no text search. -/
def plain (name : String) : Column := ⟨name, none, some name, false, false⟩

/-- A column for text search. -/
def searchable (name : String) : Column := ⟨name, none, none, false, true⟩

/-- Adds the plain column. -/
def withExact (c : Column) (name : String) : Column := { c with companion? := some name }

/-- Adds the column to sort by. -/
def withSort (c : Column) (name : String) : Column := { c with sort? := some name }

/-- Marks the column as holding a list. -/
def asList (c : Column) : Column := { c with tokenized := true }

/-- The column for comparisons with a whole value. -/
def compared (c : Column) : String := c.companion?.getD c.matched

/-- The column that results are sorted by, if there is one. -/
def ordering? (c : Column) : Option String := c.sort?.or c.companion?

end Column

namespace Dialect

/-- The columns where each searchable text has a search vector. -/
def vectorColumn : Field → Column
  | .repository => .plain "repository_name"
  | .format => .plain "format"
  | .group => (Column.searchable "tsvector_namespace").withExact "namespace" |>.withSort "namespace"
  | .name =>
    (Column.searchable "tsvector_search_component_name").withExact "search_component_name"
      |>.withSort "search_component_name"
  | .version =>
    (Column.searchable "tsvector_version").withExact "version" |>.withSort "normalised_version"
  | .normalisedVersion => .plain "normalised_version"
  | .componentKind => .plain "component_kind"
  | .keywords => (Column.searchable "tsvector_keywords").asList
  | .paths => (Column.searchable "tsvector_paths").withExact "paths" |>.asList
  | .md5 => .plain "md5"
  | .sha1 => .plain "sha1"
  | .sha256 => .plain "sha256"
  | .sha512 => .plain "sha512"
  | .formatField1 =>
    (Column.searchable "tsvector_format_field_values_1").withExact "format_field_values_1"
  | .formatField2 =>
    (Column.searchable "tsvector_format_field_values_2").withExact "format_field_values_2"
  | .formatField3 =>
    (Column.searchable "tsvector_format_field_values_3").withExact "format_field_values_3"
  | .formatField4 =>
    (Column.searchable "tsvector_format_field_values_4").withExact "format_field_values_4"
  | .formatField5 =>
    (Column.searchable "tsvector_format_field_values_5").withExact "format_field_values_5"
  | .uploaders => (Column.searchable "tsvector_uploaders").asList
  | .uploaderIps => (Column.searchable "tsvector_uploader_ips").asList
  | .tags => (Column.searchable "tsvector_tags").asList
  | .lastModified => .plain "last_modified"

/-- The columns where texts are searched as they are stored. The addresses of uploaders have
none. -/
def textColumn? : Field → Option Column
  | .repository => some (.plain "repository_name")
  | .format => some (.plain "format")
  | .group => some ((Column.searchable "namespace").withSort "namespace")
  | .name => some ((Column.searchable "search_component_name").withSort "search_component_name")
  | .version => some ((Column.searchable "version").withSort "normalised_version")
  | .normalisedVersion => some (.plain "normalised_version")
  | .componentKind => some (.plain "component_kind")
  | .keywords => some (Column.searchable "keywords").asList
  | .paths => some (Column.searchable "paths").asList
  | .md5 => some (.plain "md5")
  | .sha1 => some (.plain "sha1")
  | .sha256 => some (.plain "sha256")
  | .sha512 => some (.plain "sha512")
  | .formatField1 => some (.searchable "format_field_values_1")
  | .formatField2 => some (.searchable "format_field_values_2")
  | .formatField3 => some (.searchable "format_field_values_3")
  | .formatField4 => some (.searchable "format_field_values_4")
  | .formatField5 => some (.searchable "format_field_values_5")
  | .uploaders => some (Column.searchable "uploaders").asList
  | .uploaderIps => none
  | .tags => some (Column.searchable "tags").asList
  | .lastModified => some (.plain "last_modified")

/-- The columns behind a field, if the dialect has any. -/
def column? : Dialect → Field → Option Column
  | postgres, f => some (vectorColumn f)
  | h2, f => textColumn? f

/-- The fields that a dialect has columns for. -/
def fields (d : Dialect) : List Field := Field.all.filter fun f => (d.column? f).isSome

/-- The clause that sorts by a field, if the dialect can. -/
def orderBy? (d : Dialect) (f : Field) (direction : SortDirection) : Option String := do
  let column ← d.column? f
  let name ← column.ordering?
  return s!"ORDER BY {name} {direction.keyword}"

end Dialect

end SearchFilter
