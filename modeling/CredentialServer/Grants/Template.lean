import CredentialServer.NameMap
import CredentialServer.Text.Quoted
import CredentialServer.Text.Split

/-!
# Templates

A parameter of a grant is a template: variables in round brackets stand for the metadata of an
account. Brackets pair up and do not nest, and every variable must have a value that is not empty.
A `Template` is the same thing taken apart, with its writer `Template.text` and its value
`Template.fill?`. Main statements: `substitute_eq_ok_of_fill?` (a template without stray brackets
expands to its value) and `length_substituteAll`.
-/

namespace CredentialServer

/-- Why a template cannot be expanded. -/
inductive TemplateError where
  | extraneousClose (within : String)
  | missingClose (within : String)
  /-- The variable has no value, or an empty one. -/
  | undefinedVariable (name within : String)
  deriving DecidableEq, Repr

def TemplateError.message : TemplateError → String
  | .extraneousClose within =>
    "extraneous close parenthesis in substitution string " ++ quoted within
  | .missingClose within => "missing close parenthesis in substitution string " ++ quoted within
  | .undefinedVariable name within =>
    "undefined variable " ++ name ++ " in substitution string " ++ quoted within

/-- The values of variables. -/
abbrev Variables := NameMap String

/-- The value of a variable, unless it is missing or empty. -/
def Variables.value? (vars : Variables) (name : List Char) : Option (List Char) :=
  match vars.find? (String.ofList name) with
  | some value => if value.isEmpty then none else some value.toList
  | none => none

/-! ### Templates taken apart -/

/-- A text and a row of variables, each with the text behind it. -/
structure Template where
  head : List Char
  tail : List (List Char × List Char)
  deriving DecidableEq, Repr

namespace Template

/-- Whether a text has no brackets. -/
def IsPlain (s : List Char) : Prop := '(' ∉ s ∧ ')' ∉ s

/-- No text and no variable of a template has brackets. -/
def IsWellFormed (t : Template) : Prop :=
  IsPlain t.head ∧ ∀ p ∈ t.tail, IsPlain p.1 ∧ IsPlain p.2

def textTail : List (List Char × List Char) → List Char
  | [] => []
  | (var, text) :: rest => '(' :: var ++ ')' :: text ++ textTail rest

def text (t : Template) : List Char := t.head ++ textTail t.tail

/-- The value of a row of variables, if each has one. -/
def fillTail? (vars : Variables) : List (List Char × List Char) → Option (List Char)
  | [] => some []
  | (var, text) :: rest =>
    match vars.value? var, fillTail? vars rest with
    | some value, some rest => some (value ++ text ++ rest)
    | _, _ => none

/-- The value of a template, if each of its variables has one. -/
def fill? (vars : Variables) (t : Template) : Option (List Char) :=
  (fillTail? vars t.tail).map (t.head ++ ·)

end Template

/-! ### Expanding text -/

/-- Expands what stands behind an opening bracket, up to the next one. -/
def expandPart (vars : Variables) (within : String) (part : List Char) :
    Except TemplateError (List Char) :=
  match pieces ')' part with
  | [var, text] =>
    match vars.value? var with
    | some value => .ok (value ++ text)
    | none => .error (.undefinedVariable (String.ofList var) within)
  | _ :: _ :: _ :: _ => .error (.extraneousClose within)
  | _ => .error (.missingClose within)

def expandParts (vars : Variables) (within : String) :
    List (List Char) → Except TemplateError (List Char)
  | [] => .ok []
  | part :: rest =>
    match expandPart vars within part with
    | .error e => .error e
    | .ok text =>
      match expandParts vars within rest with
      | .error e => .error e
      | .ok texts => .ok (text ++ texts)

/-- Expands every variable of a template; the leftmost defect is the error. -/
def substitute (vars : Variables) (within : String) : Except TemplateError String :=
  match pieces '(' within.toList with
  | [] => .ok ""
  | head :: parts =>
    if ')' ∈ head then .error (.extraneousClose within)
    else match expandParts vars within parts with
      | .error e => .error e
      | .ok text => .ok (String.ofList (head ++ text))

def substituteAll (vars : Variables) : List String → Except TemplateError (List String)
  | [] => .ok []
  | within :: rest =>
    match substitute vars within with
    | .error e => .error e
    | .ok text =>
      match substituteAll vars rest with
      | .error e => .error e
      | .ok texts => .ok (text :: texts)

/-! ### Expansion is the value of the template -/

theorem expandPart_of_isPlain {vars : Variables} {var text value : List Char} (within : String)
    (hv : Template.IsPlain var) (ht : Template.IsPlain text) (h : vars.value? var = some value) :
    expandPart vars within (var ++ ')' :: text) = .ok (value ++ text) := by
  simp only [expandPart, pieces_append_cons, pieces_of_not_mem ')' hv.2,
    pieces_of_not_mem ')' ht.2, List.cons_append, List.nil_append, h]

theorem pieces_textTail {l : List (List Char × List Char)}
    (h : ∀ p ∈ l, Template.IsPlain p.1 ∧ Template.IsPlain p.2) {head : List Char}
    (hh : '(' ∉ head) :
    pieces '(' (head ++ Template.textTail l) = head :: l.map (fun p => p.1 ++ ')' :: p.2) := by
  induction l generalizing head with
  | nil => simpa [Template.textTail] using pieces_of_not_mem '(' hh
  | cons p l ih =>
    obtain ⟨var, text⟩ := p
    obtain ⟨hv, ht⟩ := h _ List.mem_cons_self
    have hp : '(' ∉ var ++ ')' :: text := by
      simp only [List.mem_append, List.mem_cons, not_or]
      exact ⟨hv.1, by decide, ht.1⟩
    rw [Template.textTail, show ('(' :: var ++ ')' :: text ++ Template.textTail l) =
      '(' :: ((var ++ ')' :: text) ++ Template.textTail l) by simp, pieces_append_cons,
      pieces_of_not_mem '(' hh, ih (fun q hq => h q (List.mem_cons_of_mem _ hq)) hp]
    rfl

theorem expandParts_of_fillTail? {vars : Variables} (within : String)
    {l : List (List Char × List Char)} {value : List Char}
    (h : ∀ p ∈ l, Template.IsPlain p.1 ∧ Template.IsPlain p.2)
    (hf : Template.fillTail? vars l = some value) :
    expandParts vars within (l.map (fun p => p.1 ++ ')' :: p.2)) = .ok value := by
  induction l generalizing value with
  | nil => cases hf; rfl
  | cons p l ih =>
    obtain ⟨var, text⟩ := p
    obtain ⟨hv, ht⟩ := h _ List.mem_cons_self
    simp only [Template.fillTail?] at hf
    split at hf
    · next v r hvar hrest =>
      cases hf
      rw [List.map_cons, expandParts, expandPart_of_isPlain within hv ht hvar,
        ih (fun q hq => h q (List.mem_cons_of_mem _ hq)) hrest]
    · cases hf

/-- A template without stray brackets expands to its value. -/
theorem substitute_eq_ok_of_fill? {vars : Variables} {t : Template} (h : t.IsWellFormed)
    {value : List Char} (hf : t.fill? vars = some value) :
    substitute vars (String.ofList t.text) = .ok (String.ofList value) := by
  simp only [Template.fill?, Option.map_eq_some_iff] at hf
  obtain ⟨rest, hr, rfl⟩ := hf
  rw [substitute, String.toList_ofList, Template.text, pieces_textTail h.2 h.1.1]
  simp only [if_neg h.1.2, expandParts_of_fillTail? _ h.2 hr]

theorem length_substituteAll {vars : Variables} {l r : List String}
    (h : substituteAll vars l = .ok r) : r.length = l.length := by
  induction l generalizing r with
  | nil => cases h; rfl
  | cons w l ih =>
    simp only [substituteAll] at h
    split at h
    · cases h
    · split at h
      · cases h
      · next texts ht => cases h; simp [ih ht]

end CredentialServer
