import CredentialServer.Net.Address
import CredentialServer.X509.Name

/-!
# Extensions of a certificate

An extension is an identifier, a mark whether it must be understood, and an encoded value. This
module reads and writes the values that authorities deal with. `Extension.findUnique` tells a
missing extension from one that stands twice.
-/

namespace CredentialServer

namespace X509

/-- An extension as it is written. -/
structure Extension where
  oid : Oid
  critical : Bool
  value : Bytes
  deriving DecidableEq, Repr

namespace Extension

/-- The encoding of an extension; the mark is left out if it is not set. -/
def encode (e : Extension) : Bytes :=
  Der.encode Der.sequence (e.oid.encode ++
    (if e.critical then Der.encode Der.boolean [0xff] else []) ++
    Der.encode Der.octetString e.value)

/-- The extension that these octets are the content of. Any mark but zero is set. -/
def ofContent? (content : Bytes) : Option Extension := do
  let (oid, rest) ← Der.readTag? .any Der.objectIdentifier content
  let (first, next) ← Der.read? .any rest
  if first.tag = Der.boolean then
    guard (first.content.length = 1)
    let (value, _) ← Der.readTag? .any Der.octetString next
    return ⟨⟨oid⟩, first.content ≠ [0], value⟩
  else
    guard (first.tag = Der.octetString)
    return ⟨⟨oid⟩, false, first.content⟩

/-- The outcome of looking for an extension that may stand only once. -/
inductive Found where
  | missing
  | repeated
  | one (e : Extension)

/-- Looks for the extension with an identifier. -/
def findUnique (oid : Oid) (l : List Extension) : Found :=
  match l.filter (fun e => e.oid = oid) with
  | [] => .missing
  | [e] => .one e
  | _ => .repeated

end Extension

/-! ### Usages of a key -/

/-- The purposes that an extended key usage lists. -/
def usages? (value : Bytes) : Option (List Oid) := do
  let (content, _) ← Der.readTag? .any Der.sequence value
  let l ← Der.readAll? .any content
  l.mapM (fun e => if e.tag = Der.objectIdentifier then some ⟨e.content⟩ else none)

/-- The extended key usage with these purposes. -/
def encodeUsages (l : List Oid) : Bytes := Der.encode Der.sequence (l.flatMap Oid.encode)

/-- The purposes that have a well-known meaning. -/
def knownUsages : List Oid :=
  [Oid.anyUsage, Oid.serverUsage, Oid.clientUsage, .ofNumbers [1, 3, 6, 1, 5, 5, 7, 3, 3],
    .ofNumbers [1, 3, 6, 1, 5, 5, 7, 3, 4], .ofNumbers [1, 3, 6, 1, 5, 5, 7, 3, 8],
    .ofNumbers [1, 3, 6, 1, 5, 5, 7, 3, 9]]

/-! ### Alternative names -/

/-- A name of a subject beside its distinguished name, or another name by its number. -/
inductive GeneralName where
  | mail (name : Bytes)
  | domain (name : Bytes)
  | directory (name : Name)
  | uri (name : Bytes)
  | address (octets : Bytes)
  /-- A name of a registered type, with its encoded value. -/
  | other (type : Oid) (value : Bytes)
  | unsupported (number : UInt8)
  deriving DecidableEq, Repr

namespace GeneralName

def ofText? (make : Bytes → GeneralName) (b : Bytes) : Option GeneralName :=
  (Bytes.toText? b).map (fun _ => make b)

/-- The general name in an element of an encoding, if it is well formed. -/
def ofElement? (e : Der.Element) : Option GeneralName :=
  if e.tag &&& 0xc0 = 0x80 then
    match (e.tag &&& 0x1f).toNat with
    | 0 => (Der.readTag? .any Der.objectIdentifier e.content).map (fun (oid, value) =>
        .other ⟨oid⟩ value)
    | 1 => ofText? .mail e.content
    | 2 => ofText? .domain e.content
    | 4 =>
      match Der.readTag? .any Der.sequence e.content with
      | some (content, []) => some (.directory (Name.ofContent content))
      | _ => none
    | 6 => ofText? .uri e.content
    | 7 => some (.address e.content)
    | 3 | 5 | 8 => some (.unsupported (e.tag &&& 0x1f))
    | _ => none
  else none

/-- Whether the value of a name of a registered type is text. -/
def isTextValue (value : Bytes) : Bool :=
  match (Der.readTag? .any (Der.explicitTag 0) value).bind (fun r => Der.read? .any r.1) with
  | some (e, _) => e.tag == Der.utf8String && (Bytes.toText? e.content).isSome
  | none => false

/-- Whether a name is of a kind, and of a form, that can be carried over. -/
def isCarried : GeneralName → Bool
  | .domain n | .mail n | .uri n => n.all (· < 0x80)
  | .address n => n.length == 4 || n.length == 16
  | .other _ value => isTextValue value
  | .directory _ | .unsupported _ => false

def encode : GeneralName → Bytes
  | .mail n => Der.encode 0x81 n
  | .domain n => Der.encode 0x82 n
  | .directory n => Der.encode 0xa4 n.encode
  | .uri n => Der.encode 0x86 n
  | .address n => Der.encode 0x87 n
  | .other type value => Der.encode 0xa0 (type.encode ++ value)
  | .unsupported number => Der.encode (Der.implicitTag number) []

/-- The name of a host: an address if the text is one, else a domain, if it is ASCII. -/
def ofHost? (s : String) : Option GeneralName :=
  match Address.parse? s with
  | some a => some (.address a.octets)
  | none => if (Bytes.ofText s).all (· < 0x80) then some (.domain (Bytes.ofText s)) else none

end GeneralName

/-- The names in a list of alternative names. -/
def alternativeNames? (value : Bytes) : Option (List GeneralName) := do
  let (content, _) ← Der.readTag? .any Der.sequence value
  let l ← Der.readAll? .any content
  l.mapM GeneralName.ofElement?

def encodeAlternativeNames (l : List GeneralName) : Bytes :=
  Der.encode Der.sequence (l.flatMap GeneralName.encode)

/-! ### Constraints and identifiers -/

/-- Whether a certificate may sign others, and how long a chain below it may be. -/
structure BasicConstraints where
  authority : Bool
  pathLength : Option Nat
  deriving DecidableEq, Repr

/-- A truth value in an element of an encoding. -/
def flag? (e : Der.Element) : Option Bool :=
  if e.tag = Der.boolean ∧ e.content = [0] then some false
  else if e.tag = Der.boolean ∧ e.content = [0xff] then some true
  else none

/-- A number of 32 bits in an element of an encoding. -/
def small? (e : Der.Element) : Option Nat :=
  if e.tag = Der.integer ∧ Bytes.toNat e.content < UInt32.size then some (Bytes.toNat e.content)
  else none

/-- The basic constraints in a value. -/
def basicConstraints? (value : Bytes) : Option BasicConstraints := do
  let (content, _) ← Der.readTag? .any Der.sequence value
  match ← Der.readAll? .any content with
  | [] => return ⟨false, none⟩
  | [a] =>
    match flag? a with
    | some authority => return ⟨authority, none⟩
    | none => return ⟨false, some (← small? a)⟩
  | [a, b] => return ⟨← flag? a, some (← small? b)⟩
  | _ => none

/-- The bases of a row of subtrees of names, each a sequence that starts with its base. -/
def subtrees? (content : Bytes) : Option (List GeneralName) :=
  (Der.readAll? .any content).bind (fun l => l.mapM (fun e =>
    if e.tag = Der.sequence then
      (Der.read? .any e.content).bind (fun r => GeneralName.ofElement? r.1)
    else none))

/-- The rows of subtrees with a given number at the head of some octets, if it stands there, and
what follows it. -/
def subtreesAt? (number : UInt8) (b : Bytes) : Option (List GeneralName × Bytes) :=
  match Der.readTag? .any (Der.explicitTag number) b with
  | some (content, rest) => (subtrees? content).map (·, rest)
  | none => some ([], b)

/-- The names whose subtrees a value permits or excludes. -/
def nameConstraints? (value : Bytes) : Option (List GeneralName) := do
  let (content, _) ← Der.readTag? .any Der.sequence value
  let (permitted, rest) ← subtreesAt? 0 content
  let (excluded, _) ← subtreesAt? 1 rest
  return permitted ++ excluded

/-- The identifier of a subject's key. -/
def keyIdentifier? (value : Bytes) : Option Bytes :=
  (Der.readTag? .any Der.octetString value).map (·.1)

end X509

end CredentialServer
