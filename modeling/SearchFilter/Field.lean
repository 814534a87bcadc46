/-!
# Search fields

What a component can be searched by, whatever the database calls the columns behind it. A field
has two names: the one it is shown under in messages, and the one it is written as in a search
expression. They differ for the five format-specific slots alone.
-/

namespace SearchFilter

/-- A searchable attribute of a component. -/
inductive Field where
  | repository
  | format
  | group
  | name
  | version
  | normalisedVersion
  | componentKind
  | keywords
  | paths
  | md5
  | sha1
  | sha256
  | sha512
  | formatField1
  | formatField2
  | formatField3
  | formatField4
  | formatField5
  | uploaders
  | uploaderIps
  | tags
  | lastModified
  deriving DecidableEq, Repr

namespace Field

/-- Every field, in the order in which they are listed. -/
def all : List Field :=
  [repository, format, group, name, version, normalisedVersion, componentKind, keywords, paths,
    md5, sha1, sha256, sha512, formatField1, formatField2, formatField3, formatField4,
    formatField5, uploaders, uploaderIps, tags, lastModified]

theorem mem_all (f : Field) : f ∈ all := by cases f <;> decide

/-- The name a field is shown under. -/
def label : Field → String
  | repository => "repository"
  | format => "format"
  | group => "namespace"
  | name => "name"
  | version => "version"
  | normalisedVersion => "normalised_version"
  | componentKind => "component_kind"
  | keywords => "keywords"
  | paths => "paths"
  | md5 => "md5"
  | sha1 => "sha1"
  | sha256 => "sha256"
  | sha512 => "sha512"
  | formatField1 => "format_field_1"
  | formatField2 => "format_field_2"
  | formatField3 => "format_field_3"
  | formatField4 => "format_field_4"
  | formatField5 => "format_field_5"
  | uploaders => "uploaders"
  | uploaderIps => "uploader_ips"
  | tags => "tags"
  | lastModified => "last_modified"

/-- The name a field is written as in an expression. -/
def key : Field → String
  | formatField1 => "format_field1"
  | formatField2 => "format_field2"
  | formatField3 => "format_field3"
  | formatField4 => "format_field4"
  | formatField5 => "format_field5"
  | f => f.label

/-- The field written as `key`. -/
def ofKey? (key : String) : Option Field := all.find? (·.key == key)

end Field

/-- The order in which results are sorted. -/
inductive SortDirection where
  | ascending
  | descending
  deriving DecidableEq, Repr

namespace SortDirection

def all : List SortDirection := [ascending, descending]

/-- The keyword of an `ORDER BY` clause. -/
def keyword : SortDirection → String
  | ascending => "ASC"
  | descending => "DESC"

def key : SortDirection → String
  | ascending => "asc"
  | descending => "desc"

end SortDirection

end SearchFilter
