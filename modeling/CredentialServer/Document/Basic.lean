import CredentialServer.NameMap

/-!
# Documents

A document is a tree of named values, whatever notation it was written in. A record can be read from
a table, in which names that it does not know are ignored, or from a list of its fields in order,
from which fields at the end may be missing. Notations differ in what more they take: see
`Dialect`.
-/

namespace CredentialServer

/-- A tree of named values. Numbers and dates are kept as they were written. -/
inductive Document where
  | null
  | bool (b : Bool)
  | scalar (written : String)
  | text (s : String)
  | list (l : List Document)
  | table (l : List (String × Document))

namespace Document

instance : Inhabited Document := ⟨.null⟩

/-- The notations of documents, so far as they differ in what may stand for a record or a word. -/
inductive Dialect where
  | json
  | toml
  deriving DecidableEq, Repr

/-- The name under which a date stands in its table. -/
def dateKey : String := "$__toml_private_datetime"

/-- A date or a time, which is a table of its text. -/
def ofDate (text : String) : Document := .table [(dateKey, .text text)]

/-- Whether a document stands for nothing, where a word is written as a table that gives it nothing:
null, or else an empty list or table. -/
def isUnit : Dialect → Document → Bool
  | .json, .null => true
  | .toml, .list [] | .toml, .table [] => true
  | _, _ => false

/-- The fields of a record, by name. -/
abbrev Fields := String → Option Document

/-- The fields with these names in a document; one that is given twice is an error, and in JSON so
are more values in a list than there are fields. -/
def fields? (dialect : Dialect) (names : List String) : Document → Option Fields
  | .table l =>
    if names.all (fun n => (l.filter (fun e => e.1 = n)).length ≤ 1) then
      some (fun n => NameMap.lookup n l)
    else none
  | .list l =>
    if dialect = .json ∧ names.length < l.length then none
    else some (fun n => NameMap.lookup n (names.zip l))
  | _ => none

def Fields.required (f : Fields) (name : String) (step : Document → Option α) : Option α :=
  (f name).bind step

/-- A field with a default. -/
def Fields.withDefault (f : Fields) (name : String) (default : α) (step : Document → Option α) :
    Option α :=
  match f name with
  | none => some default
  | some d => step d

def text? : Document → Option String
  | .text s => some s
  | _ => none

def bool? : Document → Option Bool
  | .bool b => some b
  | _ => none

/-- A value that may be null. -/
def optional? (step : Document → Option α) : Document → Option (Option α)
  | .null => some none
  | d => (step d).map some

/-- A list of values of one kind. -/
def list? (step : Document → Option α) : Document → Option (List α)
  | .list l => l.mapM step
  | _ => none

/-- A table of values of one kind; of two with one name the later counts. -/
def map? (step : Document → Option α) : Document → Option (NameMap α)
  | .table l => (l.mapM (fun e => (step e.2).map (fun v => (e.1, v)))).map NameMap.ofList
  | _ => none

end Document

end CredentialServer
