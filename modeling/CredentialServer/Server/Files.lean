import CredentialServer.Bytes
import CredentialServer.NameMap
import CredentialServer.Text.Split

/-!
# Files

A server reads files from a snapshot: what stands at each path below a working directory. A path is
followed name by name, and every name but the last must be that of a directory. Main statements:
`read?_of_isName` (a name without detours leads to what is kept under it) and `read?_put_of_isName`
(a file that was put into the working directory is read back).
-/

namespace CredentialServer

/-- What stands at a path. -/
inductive FileEntry where
  | file (content : Bytes)
  | directory
  deriving DecidableEq, Repr

/-- The files and directories below a working directory, by their paths without detours. -/
structure Files where
  entries : NameMap FileEntry
  deriving DecidableEq, Repr

/-- A path and a path behind it; one that starts at the root replaces what is before it. -/
def joinPath (dir name : String) : String :=
  if name.toList.head? = some '/' ∨ dir = "" then name
  else if dir.toList.getLast? = some '/' then dir ++ name
  else dir ++ "/" ++ name

namespace Files

def empty : Files := ⟨∅⟩

instance : Inhabited Files := ⟨empty⟩

/-- The path of these names, the last one first. -/
def plainPath (names : List String) : String := "/".intercalate names.reverse

/-- What stands at the path of these names, the last one first. -/
def at? (f : Files) (names : List String) : Option FileEntry :=
  if names = [] ∨ names = [""] then some .directory else f.entries.find? (plainPath names)

/-- Whether a directory stands at the path of these names. -/
def isDirectory (f : Files) (names : List String) : Bool := f.at? names == some .directory

/-- Goes on by one name; two dots go back, but not out of the working directory. -/
def step? (here : List String) (name : String) : Option (List String) :=
  if name = "" ∨ name = "." then some here
  else if name = ".." then
    match here with
    | [] => none
    | [""] => some [""]
    | _ :: above => some above
  else some (name :: here)

/-- Follows names from a directory, if the path leads somewhere. -/
def follow (f : Files) (here : List String) : List String → Option (List String)
  | [] => some here
  | name :: rest =>
    if f.isDirectory here then (step? here name).bind (fun here => f.follow here rest) else none

def namesOf (path : String) : List String := (pieces '/' path.toList).map String.ofList

/-- Where a path starts: at the root or in the working directory. -/
def start (path : String) : List String := if path.toList.head? = some '/' then [""] else []

def find? (f : Files) (path : String) : Option FileEntry :=
  if path = "" then none else (f.follow (start path) (namesOf path)).bind f.at?

/-- Whether something at a path can be opened. -/
def canOpen (f : Files) (path : String) : Bool := (f.find? path).isSome

/-- The content of the file at a path. -/
def read? (f : Files) (path : String) : Option Bytes :=
  match f.find? path with
  | some (.file content) => some content
  | _ => none

/-- Where a path leads if there is nothing in its way. -/
def target? (path : String) : Option (List String) := (namesOf path).foldlM step? (start path)

/-- Makes directories at the paths of all but the last of these names, the last one first. -/
def makeParents : List String → NameMap FileEntry → NameMap FileEntry
  | [], m => m
  | [_], m => m
  | _ :: name :: names, m =>
    (makeParents (name :: names) m).insert (plainPath (name :: names)) .directory

/-- Puts something at a path, with the directories that lead there. -/
def put (f : Files) (path : String) (entry : FileEntry) : Files :=
  match target? path with
  | none => f
  | some names => ⟨(makeParents names f.entries).insert (plainPath names) entry⟩

def remove (f : Files) (path : String) : Files :=
  match target? path with
  | none => f
  | some names => ⟨f.entries.erase (plainPath names)⟩

/-- Whether a name is that of a file in the working directory. -/
def isName (name : String) : Bool :=
  name ≠ "" && name ≠ "." && name ≠ ".." && !(name.toList.contains '/')

theorem namesOf_of_isName {name : String} (h : isName name = true) : namesOf name = [name] := by
  simp only [isName, Bool.and_eq_true, Bool.not_eq_true', List.contains_eq_mem,
    decide_eq_false_iff_not] at h
  rw [namesOf, pieces_of_not_mem '/' h.2]
  simp

theorem start_of_isName {name : String} (h : isName name = true) : start name = [] := by
  simp only [isName, Bool.and_eq_true, Bool.not_eq_true', List.contains_eq_mem,
    decide_eq_false_iff_not] at h
  rw [start, if_neg]
  intro hh
  exact h.2 (List.mem_of_mem_head? hh)

/-- A name without detours leads to the file that is kept under it. -/
theorem read?_of_isName {f : Files} {name : String} {content : Bytes} (h : isName name = true)
    (hfile : f.entries.find? name = some (.file content)) : f.read? name = some content := by
  have hn := namesOf_of_isName h
  have hs := start_of_isName h
  simp only [isName, Bool.and_eq_true, decide_eq_true_eq] at h
  obtain ⟨⟨⟨h₁, h₂⟩, h₃⟩, -⟩ := h
  have hstep : step? [] name = some [name] := by simp [step?, h₁, h₂, h₃]
  have hat : f.at? [name] = some (.file content) := by
    rw [at?, if_neg (by simp [h₁])]
    simpa [plainPath] using hfile
  have hfind : f.find? name = some (.file content) := by
    rw [find?, if_neg h₁, hn, hs, follow, if_pos (by simp [isDirectory, at?])]
    simp [hstep, follow, hat]
  simp only [read?, hfind]

theorem read?_put_of_isName (f : Files) {name : String} (h : isName name = true)
    (content : Bytes) : (f.put name (.file content)).read? name = some content := by
  have hn := namesOf_of_isName h
  have hs := start_of_isName h
  refine read?_of_isName h ?_
  simp only [isName, Bool.and_eq_true, decide_eq_true_eq] at h
  obtain ⟨⟨⟨h₁, h₂⟩, h₃⟩, -⟩ := h
  have hstep : step? [] name = some [name] := by simp [step?, h₁, h₂, h₃]
  simp [put, target?, hn, hs, hstep, plainPath, makeParents, NameMap.find?_insert]

end Files

end CredentialServer
