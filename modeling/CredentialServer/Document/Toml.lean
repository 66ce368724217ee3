import CredentialServer.Document.Basic
import CredentialServer.Document.Scalar

/-!
# Configuration files

A file is a row of settings, each a path of names and a value, under headings that name the table
they belong to. A table may be opened once; tables that a path only passes through may be opened
later. Main definition: `Toml.parse?` reads a file.
-/

namespace CredentialServer

namespace Toml

/-! ### Tables under construction -/

/-- How a table came about: a heading or a setting passed through it, a heading opened it, or a
setting with a path of names made it. -/
inductive Origin where
  | passed
  | opened
  | dotted
  deriving DecidableEq, Repr

/-- A value under construction; rows of tables have the last one first. -/
inductive Node where
  | leaf (d : Document)
  | table (origin : Origin) (entries : List (String × Node))
  | rows (tables : List (List (String × Node)))

abbrev Entries := List (String × Node)

mutual

/-- The finished value. -/
def Node.toDocument : Node → Document
  | .leaf d => d
  | .table _ l => .table (entriesToDocument l)
  | .rows l => .list (rowsToDocument l).reverse

def entriesToDocument : List (String × Node) → List (String × Document)
  | [] => []
  | (name, node) :: rest => (name, node.toDocument) :: entriesToDocument rest

def rowsToDocument : List (List (String × Node)) → List Document
  | [] => []
  | row :: rest => .table (entriesToDocument row) :: rowsToDocument rest

end

/-- Puts a node in place of the one of the same name. -/
def replace (name : String) (node : Node) (l : Entries) : Entries :=
  l.map (fun e => if e.1 = name then (name, node) else e)

/-- Changes the table at the end of a path; tables on the way are made if they are missing. With
`dotted` the path belongs to a setting, which enters no table that was opened by a heading. -/
def descend (dotted : Bool) (change : Origin → Entries → Option Entries) :
    List String → Origin → Entries → Option Entries
  | [], origin, entries => change origin entries
  | name :: path, _, entries =>
    match NameMap.lookup name entries with
    | none =>
      let origin := if dotted then Origin.dotted else Origin.passed
      (descend dotted change path origin []).map (fun l => entries ++ [(name, .table origin l)])
    | some (.table origin l) =>
      if dotted ∧ origin = .opened then none
      else (descend dotted change path origin l).map
        (fun l => replace name (.table origin l) entries)
    | some (.rows (row :: more)) =>
      (descend dotted change path .opened row).map
        (fun row => replace name (.rows (row :: more)) entries)
    | some _ => none

/-- Adds a setting to a table. Its path may lead through tables that settings made. -/
def addSetting (path : List String) (name : String) (node : Node) (origin : Origin)
    (entries : Entries) : Option Entries :=
  descend true (fun origin l =>
    if (origin = .dotted) = (path = []) ∨ (NameMap.lookup name l).isSome then none
    else some (l ++ [(name, node)])) path origin entries

/-- Opens the table with a name; one that was only passed through may be opened. -/
def openTable (name : String) (_ : Origin) (entries : Entries) : Option Entries :=
  match NameMap.lookup name entries with
  | none => some (entries ++ [(name, .table .opened [])])
  | some (.table .passed l) => some (replace name (.table .opened l) entries)
  | some _ => none

/-- Opens the next row of the tables with a name. -/
def openRow (name : String) (_ : Origin) (entries : Entries) : Option Entries :=
  match NameMap.lookup name entries with
  | none => some (entries ++ [(name, .rows [[]])])
  | some (.rows l) => some (replace name (.rows ([] :: l)) entries)
  | some _ => none

/-! ### Blanks and comments -/

/-- Whether a character is a blank inside a line. -/
def isSpace (c : Char) : Bool := c == ' ' || c == '\t'

def dropSpace (s : List Char) : List Char := s.dropWhile isSpace

/-- Whether a character may stand in a comment: everything but controls other than the tab. -/
def isCommentChar (c : Char) : Bool := c == '\t' || (' ' ≤ c && c ≠ '\x7f')

def dropNewline? : List Char → Option (List Char)
  | '\n' :: rest => some rest
  | '\r' :: '\n' :: rest => some rest
  | _ => none

/-- Drops blanks and a comment up to the end of a line or of the file. -/
def dropLineEnd? (s : List Char) : Option (List Char) :=
  let s := dropSpace s
  let s := if s.head? = some '#' then s.dropWhile isCommentChar else s
  if s.isEmpty then some [] else dropNewline? s

def dropGaps (comment : Bool) : List Char → List Char
  | [] => []
  | c :: rest =>
    if c = '\n' then dropGaps false rest
    else if c = '\r' then
      match rest with
      | '\n' :: _ => dropGaps false rest
      | _ => c :: rest
    else if comment then (if isCommentChar c then dropGaps true rest else c :: rest)
    else if isSpace c then dropGaps false rest
    else if c = '#' then dropGaps true rest
    else c :: rest

/-! ### Strings and names -/

def hexNumber? (s : List Char) : Option Nat :=
  if s.all Scalar.isHexDigit then some (Scalar.value 16 s) else none

/-- Reads the rest of an escape behind its backslash. -/
def readEscape? : List Char → Option (Char × List Char)
  | 'b' :: rest => some ('\x08', rest)
  | 't' :: rest => some ('\t', rest)
  | 'n' :: rest => some ('\n', rest)
  | 'f' :: rest => some ('\x0c', rest)
  | 'r' :: rest => some ('\r', rest)
  | '"' :: rest => some ('"', rest)
  | '\\' :: rest => some ('\\', rest)
  | c :: rest =>
    let width := if c = 'u' then 4 else 8
    if (c = 'u' ∨ c = 'U') ∧ width ≤ rest.length then
      match hexNumber? (rest.take width) with
      | some n => if n.isValidChar then some (Char.ofNat n, rest.drop width) else none
      | none => none
    else none
  | [] => none

/-- Whether a character may stand for itself in a string; quotes and backslashes are looked at
first. -/
def isStringChar (c : Char) : Bool := isCommentChar c

/-- Reads the rest of a string on one line; each step takes a character, so `fuel` is their
number. -/
def readBasic? : Nat → List Char → List Char → Option (String × List Char)
  | 0, _, _ => none
  | _ + 1, _, [] => none
  | fuel + 1, done, c :: rest =>
    if c = '"' then some (String.ofList done.reverse, rest)
    else if c = '\\' then
      match readEscape? rest with
      | some (e, rest) => readBasic? fuel (e :: done) rest
      | none => none
    else if isStringChar c then readBasic? fuel (c :: done) rest
    else none

/-- Reads the rest of a string on one line without escapes. -/
def readLiteral? (done : List Char) : List Char → Option (String × List Char)
  | [] => none
  | c :: rest =>
    if c = '\'' then some (String.ofList done.reverse, rest)
    else if isStringChar c then readLiteral? (c :: done) rest
    else none

/-- The number of equal characters at the head of a text. -/
def runLength (c : Char) (s : List Char) : Nat := (s.takeWhile (· = c)).length

def dropBlankLines : List Char → List Char
  | [] => []
  | c :: rest =>
    if isSpace c ∨ c = '\n' then dropBlankLines rest
    else if c = '\r' then
      match rest with
      | '\n' :: _ => dropBlankLines rest
      | _ => c :: rest
    else c :: rest

/-- Reads the rest of a string on several lines, up to three quotes, before which one or two more
may stand. With `escapes`, a backslash at the end of a line joins it to the next text. -/
def readLines? (quote : Char) (escapes : Bool) : Nat → List Char → List Char →
    Option (String × List Char)
  | 0, _, _ => none
  | _ + 1, _, [] => none
  | fuel + 1, done, c :: rest =>
    if c = quote then
      let count := runLength quote (c :: rest)
      if 3 ≤ count then
        let inner := min count 5 - 3
        some (String.ofList (List.replicate inner quote ++ done).reverse, rest.drop (inner + 2))
      else readLines? quote escapes fuel (c :: done) rest
    else if escapes ∧ c = '\\' then
      match dropNewline? (dropSpace rest) with
      | some more => readLines? quote escapes fuel done (dropBlankLines more)
      | none =>
        match readEscape? rest with
        | some (e, rest) => readLines? quote escapes fuel (e :: done) rest
        | none => none
    else match dropNewline? (c :: rest) with
      | some more => readLines? quote escapes fuel ('\n' :: done) more
      | none =>
        if isStringChar c then readLines? quote escapes fuel (c :: done) rest else none

/-- Reads a string of one of the four kinds. -/
def readString? (s : List Char) : Option (String × List Char) :=
  let fuel := s.length + 1
  let inside (rest : List Char) : List Char := (dropNewline? rest).getD rest
  match s with
  | '"' :: '"' :: '"' :: rest => readLines? '"' true fuel [] (inside rest)
  | '\'' :: '\'' :: '\'' :: rest => readLines? '\'' false fuel [] (inside rest)
  | '"' :: rest => readBasic? fuel [] rest
  | '\'' :: rest => readLiteral? [] rest
  | _ => none

/-- Whether a character may stand in a name without quotes. -/
def isBareChar (c : Char) : Bool := c.isAlphanum || c == '-' || c == '_'

def readName? (s : List Char) : Option (String × List Char) :=
  match s with
  | '"' :: rest => readBasic? s.length [] rest
  | '\'' :: rest => readLiteral? [] rest
  | _ =>
    let name := s.takeWhile isBareChar
    if name.isEmpty then none else some (String.ofList name, s.drop name.length)

/-- Reads names with points between them, last name first; each takes a character, so `fuel` is
their number. -/
def readPath? : Nat → List String → List Char → Option (List String × List Char)
  | 0, _, _ => none
  | fuel + 1, done, s =>
    match readName? (dropSpace s) with
    | none => none
    | some (name, s) =>
      match dropSpace s with
      | '.' :: rest => readPath? fuel (name :: done) rest
      | s => some (name :: done, s)

/-- How deep values and paths may be nested. -/
def nestingLimit : Nat := 80

/-- Reads a path: the names before the last, and the last. -/
def readKey? (s : List Char) : Option (List String × String × List Char) :=
  match readPath? (s.length + 1) [] s with
  | some (name :: done, s) =>
    if done.length + 1 < nestingLimit then some (done.reverse, name, s) else none
  | _ => none

/-! ### Values -/

/-- Whether a character may stand in a number or a date. -/
def isScalarChar (c : Char) : Bool := c.isAlphanum || "+-_.:".toList.contains c

/-- Reads a truth value, a number, a date or a time; a date may be followed by a blank and a
time. -/
def readScalar? (s : List Char) : Option (Document × List Char) :=
  let word := s.takeWhile isScalarChar
  let rest := s.drop word.length
  if word = "true".toList then some (.bool true, rest)
  else if word = "false".toList then some (.bool false, rest)
  else
    let isDay := (Scalar.readDate? word).any (·.2.isEmpty)
    let time := match rest with
      | ' ' :: c :: more =>
        if isDay && c.isDigit then ' ' :: (c :: more).takeWhile isScalarChar else []
      | _ => []
    let word := word ++ time
    (Scalar.document? word).map (·, rest.drop time.length)

mutual

/-- Reads a value with `depth` levels left; each call takes a character or leads to one that does,
so `fuel` is twice their number. -/
def readValue? : Nat → Nat → List Char → Option (Document × List Char)
  | 0, _, _ => none
  | fuel + 1, depth, s =>
    match s with
    | [] => none
    | c :: rest =>
      if c = '"' ∨ c = '\'' then (readString? s).map (fun r => (.text r.1, r.2))
      else if c = '[' then
        match depth with
        | 0 => none
        | depth + 1 => readItems? fuel depth [] rest
      else if c = '\x7b' then
        match depth with
        | 0 => none
        | depth + 1 =>
          match dropSpace rest with
          | '\x7d' :: rest => some (.table [], rest)
          | rest => readSettings? fuel depth [] rest
      else readScalar? s

/-- Reads the rest of a list; a comma may stand behind the last item. -/
def readItems? : Nat → Nat → List Document → List Char → Option (Document × List Char)
  | 0, _, _, _ => none
  | fuel + 1, depth, done, s =>
    match dropGaps false s with
    | ']' :: rest => some (.list done.reverse, rest)
    | s =>
      match readValue? fuel depth s with
      | none => none
      | some (d, s) =>
        match dropGaps false s with
        | ',' :: rest => readItems? fuel depth (d :: done) rest
        | ']' :: rest => some (.list (d :: done).reverse, rest)
        | _ => none

/-- Reads the rest of a table on one line. -/
def readSettings? : Nat → Nat → Entries → List Char → Option (Document × List Char)
  | 0, _, _, _ => none
  | fuel + 1, depth, entries, s =>
    match readKey? s with
    | some (path, name, '=' :: s) =>
      match readValue? fuel depth (dropSpace s) with
      | none => none
      | some (d, s) =>
        match addSetting path name (.leaf d) .opened entries with
        | none => none
        | some entries =>
          match dropSpace s with
          | ',' :: rest => readSettings? fuel depth entries rest
          | '\x7d' :: rest => some (.table (entriesToDocument entries), rest)
          | _ => none
    | _ => none

end

/-! ### Files -/

/-- Reads a heading and opens its table: the path of the table that settings go to from now on. -/
def readHeading? (entries : Entries) (s : List Char) :
    Option (List String × Entries × List Char) := do
  let (row, s) := match s with
    | '[' :: '[' :: rest => (true, rest)
    | _ => (false, s.drop 1)
  let (path, name, s) ← readKey? s
  let s ← match s with
    | ']' :: ']' :: rest => if row then some rest else none
    | ']' :: rest => if row then none else some rest
    | _ => none
  let entries ← descend false ((if row then openRow else openTable) name) path .opened entries
  let s ← dropLineEnd? s
  return (path ++ [name], entries, s)

/-- Reads a setting into the table at `current`. -/
def readSetting? (current : List String) (entries : Entries) (s : List Char) :
    Option (Entries × List Char) := do
  let (path, name, s) ← readKey? s
  match s with
  | '=' :: s =>
    let (d, s) ← readValue? (2 * s.length + 2) (nestingLimit - 1) (dropSpace s)
    let entries ← descend false (addSetting path name (.leaf d)) current .opened entries
    let s ← dropLineEnd? s
    return (entries, s)
  | _ => none

/-- Reads lines; each takes a character, so `fuel` is their number. -/
def readFile? : Nat → List String → Entries → List Char → Option Entries
  | 0, _, entries, s => if s.isEmpty then some entries else none
  | fuel + 1, current, entries, s =>
    match dropSpace s with
    | [] => some entries
    | c :: rest =>
      if c = '#' ∨ c = '\n' ∨ c = '\r' then
        match dropLineEnd? (c :: rest) with
        | some s => readFile? fuel current entries s
        | none => none
      else if c = '[' then
        match readHeading? entries (c :: rest) with
        | some (current, entries, s) => readFile? fuel current entries s
        | none => none
      else
        match readSetting? current entries (c :: rest) with
        | some (entries, s) => readFile? fuel current entries s
        | none => none

/-- The document that a file writes. A byte order mark may stand in front. -/
def parse? (text : String) : Option Document :=
  let s := match text.toList with
    | '\ufeff' :: rest => rest
    | s => s
  (readFile? (s.length + 1) [] [] s).map (fun l => .table (entriesToDocument l))

end Toml

end CredentialServer
