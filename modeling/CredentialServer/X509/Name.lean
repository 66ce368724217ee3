import CredentialServer.Der.Oid
import CredentialServer.Text.Quoted

/-!
# Distinguished names

A name is a row of sets of attributes, each a typed text. Main statements: `Name.keepLast` is the
name in which each type stands once, at its first place and with its last value, and
`nodup_keepLast` says so.
-/

namespace CredentialServer

namespace X509

/-- A typed text: the tag says which kind of string the value is. -/
structure Attribute where
  type : Oid
  tag : UInt8
  value : Bytes
  deriving DecidableEq, Repr

/-- A row of sets of attributes. -/
abbrev Name := List (List Attribute)

namespace Attribute

def encode (a : Attribute) : Bytes :=
  Der.encode Der.sequence (a.type.encode ++ Der.encode a.tag a.value)

/-- The attribute in an element of an encoding. -/
def ofElement? (e : Der.Element) : Option Attribute := do
  guard (e.tag = Der.sequence)
  let (oid, rest) ← Der.readTag? .any Der.objectIdentifier e.content
  let (value, _) ← Der.read? .any rest
  return ⟨⟨oid⟩, value.tag, value.content⟩

/-- The usual short names of attribute types. -/
def shortNames : List (Oid × String) :=
  [(.ofNumbers [2, 5, 4, 3], "CN"), (.ofNumbers [2, 5, 4, 6], "C"), (.ofNumbers [2, 5, 4, 7], "L"),
    (.ofNumbers [2, 5, 4, 8], "ST"), (.ofNumbers [2, 5, 4, 10], "O"),
    (.ofNumbers [2, 5, 4, 11], "OU"), (.ofNumbers [0, 9, 2342, 19200300, 100, 1, 25], "DC"),
    (.ofNumbers [1, 2, 840, 113549, 1, 9, 1], "Email"), (.ofNumbers [2, 5, 4, 4], "surname"),
    (.ofNumbers [2, 5, 4, 5], "serialNumber"), (.ofNumbers [2, 5, 4, 9], "streetAddress"),
    (.ofNumbers [2, 5, 4, 12], "title"), (.ofNumbers [2, 5, 4, 13], "description"),
    (.ofNumbers [2, 5, 4, 15], "businessCategory"), (.ofNumbers [2, 5, 4, 17], "postalCode"),
    (.ofNumbers [2, 5, 4, 41], "name"), (.ofNumbers [2, 5, 4, 42], "givenName"),
    (.ofNumbers [2, 5, 4, 43], "initials"), (.ofNumbers [2, 5, 4, 44], "generationQualifier")]

def typeText (a : Attribute) : String :=
  match shortNames.lookup a.type with
  | some name => name
  | none => "OID(" ++ a.type.text ++ ")"

def hexPair (x : UInt8) : List Char :=
  [(Nat.digitChar (x.toNat / 16)).toUpper, (Nat.digitChar (x.toNat % 16)).toUpper]

/-- The value as text: octets that are no single-byte string are shown in hexadecimal. -/
def valueText? (a : Attribute) : Option String :=
  if a.tag ∈ [0x0c, 0x07, 0x12, 0x13, 0x14, 0x15, 0x16, 0x19, 0x1a, 0x1b] then
    Bytes.toText? a.value
  else some (String.ofList (a.value.flatMap hexPair))

/-- Whether a character may stand in the string type of letters, digits and some punctuation. -/
def isPrintable (x : UInt8) : Bool :=
  let c := Char.ofNat x.toNat
  c.isAlphanum || " '()+,-./:=?".toList.contains c

/-- Octets as a row of numbers of `width` octets. -/
def units (width : Nat) (count : Nat) (b : Bytes) : List Nat :=
  match count with
  | 0 => []
  | count + 1 => Bytes.toNat (b.take width) :: units width count (b.drop width)

/-- Whether an attribute can be carried over into another certificate: its value is a well-formed
string of one of the kinds that names are made of. -/
def isText (a : Attribute) : Bool :=
  if a.tag = 0x0c then (Bytes.toText? a.value).isSome
  else if a.tag = 0x16 then a.value.all (· < 0x80)
  else if a.tag = 0x13 then a.value.all isPrintable
  else if a.tag = 0x14 then a.value.all (fun x => decide (0x20 ≤ x ∧ x ≤ 0x7f))
  else if a.tag = 0x1e then
    a.value.length % 2 == 0 &&
      (units 2 (a.value.length / 2) a.value).all (fun n => n < 0xd800 || 0xdfff < n)
  else if a.tag = 0x1c then
    a.value.length % 4 == 0 &&
      (units 4 (a.value.length / 4) a.value).all (fun n => Nat.isValidChar n)
  else false

end Attribute

namespace Name

def encode (n : Name) : Bytes :=
  Der.encode Der.sequence (n.flatMap (fun s => Der.encode Der.set (s.flatMap Attribute.encode)))

/-- The elements of a list of encodings if all have one tag, read by a step that can fail. -/
def each? (tag : UInt8) (step : Bytes → Option α) (l : List Der.Element) : Option (List α) :=
  l.mapM (fun e => if e.tag = tag then step e.content else none)

/-- The set of attributes in an element of an encoding, which has at least one. -/
def setOfElement? (e : Der.Element) : Option (List Attribute) :=
  if e.tag = Der.set then
    match Der.leading .any Attribute.ofElement? e.content.length e.content with
    | [] => none
    | l => some l
  else none

/-- The name that these octets are the content of; whatever is no set of attributes ends it. -/
def ofContent (content : Bytes) : Name := Der.leading .any setOfElement? content.length content

/-- The text of a name, if its values are text. -/
def text? (n : Name) : Option String :=
  (n.mapM (fun s : List Attribute =>
    (s.mapM (fun (a : Attribute) => a.valueText?.map (a.typeText ++ "=" ++ ·))).map
      (String.intercalate " + "))).map (String.intercalate ", ")

/-- Puts a value in place of the one of the same type, or behind all. -/
def put (a : Attribute) : List Attribute → List Attribute
  | [] => [a]
  | b :: rest => if b.type = a.type then a :: rest else b :: put a rest

/-- The attributes with each type once, at its first place and with its last value. -/
def keepLast (l : List Attribute) : List Attribute := l.foldl (fun l a => put a l) []

/-- The name as it is carried over into another certificate, if every set has one attribute and
every attribute can be carried over. -/
def carried? (n : Name) : Option Name :=
  (n.mapM (fun s => match s with
    | [a] => if Attribute.isText a then some a else none
    | _ => none)).map (fun l => (keepLast l).map ([·]))

theorem map_type_put (a : Attribute) (l : List Attribute) :
    (put a l).map (·.type) = if a.type ∈ l.map (·.type) then l.map (·.type)
      else l.map (·.type) ++ [a.type] := by
  induction l with
  | nil => rfl
  | cons b l ih =>
    simp only [put]
    split
    · next h => simp [h]
    · next h =>
      simp only [List.map_cons, ih, List.mem_cons, show a.type ≠ b.type from fun e => h e.symm,
        false_or]
      split <;> simp [*]

theorem nodup_put {a : Attribute} {l : List Attribute} (h : (l.map (·.type)).Nodup) :
    ((put a l).map (·.type)).Nodup := by
  rw [map_type_put]
  split
  · exact h
  · next hn =>
    refine List.nodup_append.2 ⟨h, by simp, ?_⟩
    intro x hx y hy e
    rw [List.mem_singleton.1 hy] at e
    exact hn (e ▸ hx)

theorem nodup_keepLast (l : List Attribute) : ((keepLast l).map (·.type)).Nodup := by
  have key : ∀ (l acc : List Attribute), (acc.map (·.type)).Nodup →
      ((l.foldl (fun l a => put a l) acc).map (·.type)).Nodup := by
    intro l
    induction l with
    | nil => exact fun _ h => h
    | cons a l ih => exact fun acc h => ih _ (nodup_put h)
  exact key l [] (by simp)

/-- The name whose only attribute is a common name. -/
def ofCommonName (s : String) : Name := [[⟨Oid.commonName, Der.utf8String, Bytes.ofText s⟩]]

/-- The first common name of a name, if it is text of one of the plain kinds. -/
def commonName? (n : Name) : Option String :=
  match n.flatten.find? (fun a => a.type = Oid.commonName) with
  | some a => if a.tag ∈ [0x0c, 0x12, 0x13, 0x16] then Bytes.toText? a.value else none
  | none => none

end Name

end X509

end CredentialServer
