import CredentialServer.Json.Skip

/-!
# Batches as text

A batch is a JSON list of entries, each with the name of an operation and a body, as a record with
these two fields or as a list of the two. Other fields of a record are skipped, and each of the two
stands exactly once. The answer is a JSON list of strings. Main statements: `read?_encode` (a batch
that was written is read back) and `readStrings?_encodeStrings` (so is an answer).
-/

namespace CredentialServer

/-- An entry of a batch. -/
structure Operation where
  api : String
  body : String
  deriving DecidableEq, Repr

namespace Batch

open Json

/-- Reads the rest of a record behind its opening bracket or a comma; `api` and `body` are the
fields so far. Each field takes an octet, so `fuel` is their number. -/
def readFields? : Nat → Option String → Option String → Bytes → Option (Operation × Bytes)
  | 0, _, _, _ => none
  | fuel + 1, api, body, b => do
    let (name, b) ← readString? (dropBlanks b)
    let b ← readMark? 0x3a b
    let (api, body, b) ←
      if name = "api" then
        if api.isSome then none
        else (readString? (dropBlanks b)).map (fun (s, b) => (some s, body, b))
      else if name = "body" then
        if body.isSome then none
        else (readString? (dropBlanks b)).map (fun (s, b) => (api, some s, b))
      else (skip? b).map (fun b => (api, body, b))
    match readMark? 0x2c b with
    | some b => readFields? fuel api body b
    | none =>
      let b ← readMark? 0x7d b
      return (⟨← api, ← body⟩, b)

def readEntry? (b : Bytes) : Option (Operation × Bytes) :=
  match dropBlanks b with
  | x :: rest =>
    if x = 0x7b then readFields? rest.length none none rest
    else if x = 0x5b then do
      let (api, b) ← readString? (dropBlanks rest)
      let b ← readMark? 0x2c b
      let (body, b) ← readString? (dropBlanks b)
      let b ← readMark? 0x5d b
      return (⟨api, body⟩, b)
    else none
  | [] => none

/-- Reads items up to the closing bracket; `done` are the items so far, last item first. Each takes
an octet, so `fuel` is their number. -/
def readItems? (item : Bytes → Option (α × Bytes)) : Nat → List α → Bytes → Option (List α × Bytes)
  | 0, _, _ => none
  | fuel + 1, done, b =>
    match item b with
    | none => none
    | some (a, b) =>
      match readMark? 0x2c b with
      | some b => readItems? item fuel (a :: done) b
      | none =>
        match readMark? 0x5d b with
        | some b => some ((a :: done).reverse, b)
        | none => none

/-- Reads a list that is all there is. -/
def readList? (item : Bytes → Option (α × Bytes)) (b : Bytes) : Option (List α) :=
  match readMark? 0x5b b with
  | none => none
  | some b =>
    match (match readMark? 0x5d b with
      | some b => some ([], b)
      | none => readItems? item b.length [] b) with
    | some (l, b) => if dropBlanks b = [] then some l else none
    | none => none

/-- The batch that some octets write. -/
def read? (b : Bytes) : Option (List Operation) := readList? readEntry? b

/-- The strings that some octets write. -/
def readStrings? (b : Bytes) : Option (List String) :=
  readList? (fun b => readString? (dropBlanks b)) b

def encodeList : List Bytes → Bytes
  | [] => [0x5b, 0x5d]
  | x :: rest => 0x5b :: (x ++ (rest.flatMap (fun y => 0x2c :: y) ++ [0x5d]))

def encodeEntry (o : Operation) : Bytes :=
  0x7b :: (encodeString (Bytes.ofText "api") ++ 0x3a :: (encodeString (Bytes.ofText o.api) ++
    0x2c :: (encodeString (Bytes.ofText "body") ++ 0x3a :: (encodeString (Bytes.ofText o.body) ++
      [0x7d]))))

def encode (l : List Operation) : Bytes := encodeList (l.map encodeEntry)

def encodeStrings (l : List String) : Bytes :=
  encodeList (l.map (fun s => encodeString (Bytes.ofText s)))

/-! ### Reading what was written -/

theorem dropBlanks_cons {x : UInt8} (h : isBlankOctet x = false) (b : Bytes) :
    dropBlanks (x :: b) = x :: b := by simp [dropBlanks, h]

theorem readMark?_cons_self {x : UInt8} (h : isBlankOctet x = false) (b : Bytes) :
    readMark? x (x :: b) = some b := by simp [readMark?, dropBlanks_cons h]

theorem readMark?_cons_of_ne {x mark : UInt8} (h : isBlankOctet x = false) (hne : x ≠ mark)
    (b : Bytes) : readMark? mark (x :: b) = none := by simp [readMark?, dropBlanks_cons h, hne]

theorem readString?_dropBlanks (s : String) (rest : Bytes) :
    readString? (dropBlanks (encodeString (Bytes.ofText s) ++ rest)) = some (s, rest) := by
  rw [← readString?_encodeString s rest]
  exact congrArg readString? (dropBlanks_cons (by decide) _)

theorem readEntry?_encodeEntry (o : Operation) (rest : Bytes) :
    readEntry? (encodeEntry o ++ rest) = some (o, rest) := by
  have fields : ∀ fuel, readFields? (fuel + 2) none none
      (encodeString (Bytes.ofText "api") ++ 0x3a :: (encodeString (Bytes.ofText o.api) ++
        0x2c :: (encodeString (Bytes.ofText "body") ++ 0x3a ::
          (encodeString (Bytes.ofText o.body) ++ 0x7d :: rest)))) = some (o, rest) := by
    intro fuel
    have colon := readMark?_cons_self (show isBlankOctet 0x3a = false by decide)
    have comma := readMark?_cons_self (show isBlankOctet 0x2c = false by decide)
    have bracket := readMark?_cons_self (show isBlankOctet 0x7d = false by decide)
    have noComma := readMark?_cons_of_ne (show isBlankOctet 0x7d = false by decide)
      (show (0x7d : UInt8) ≠ 0x2c by decide)
    simp [readFields?, readString?_dropBlanks, colon, comma, bracket, noComma]
  have long : ∀ b : Bytes, ∃ fuel, (encodeString (Bytes.ofText "api") ++ b).length = fuel + 2 := by
    intro b
    exact ⟨(encodeString (Bytes.ofText "api") ++ b).length - 2, by
      have : (encodeString (Bytes.ofText "api")).length = 5 := by decide +kernel
      rw [List.length_append]
      omega⟩
  simp only [encodeEntry, List.cons_append, List.append_assoc, List.nil_append, readEntry?,
    dropBlanks_cons (show isBlankOctet 0x7b = false by decide), if_true]
  obtain ⟨fuel, hf⟩ := long (0x3a :: (encodeString (Bytes.ofText o.api) ++
    0x2c :: (encodeString (Bytes.ofText "body") ++ 0x3a :: (encodeString (Bytes.ofText o.body) ++
      0x7d :: rest))))
  rw [hf]
  exact fields fuel

theorem readItems?_flatMap {item : Bytes → Option (α × Bytes)} {write : α → Bytes}
    (hi : ∀ a rest, item (write a ++ rest) = some (a, rest)) (l : List α) (a : α) (rest : Bytes) :
    ∀ (fuel : Nat) (done : List α), l.length < fuel →
      readItems? item fuel done
        (write a ++ ((l.map write).flatMap (fun y => 0x2c :: y) ++ 0x5d :: rest)) =
      some (done.reverse ++ a :: l, rest) := by
  induction l generalizing a with
  | nil =>
    intro fuel done hf
    obtain ⟨fuel, rfl⟩ := Nat.exists_eq_succ_of_ne_zero (Nat.ne_of_gt hf)
    simp only [readItems?, hi, List.map_nil, List.flatMap_nil, List.nil_append,
      readMark?_cons_of_ne (show isBlankOctet 0x5d = false by decide)
        (show (0x5d : UInt8) ≠ 0x2c by decide),
      readMark?_cons_self (show isBlankOctet 0x5d = false by decide)]
    simp
  | cons b l ih =>
    intro fuel done hf
    obtain ⟨fuel, rfl⟩ := Nat.exists_eq_succ_of_ne_zero (Nat.ne_of_gt (Nat.zero_lt_of_lt hf))
    simp only [readItems?, hi, List.map_cons, List.flatMap_cons, List.cons_append,
      List.append_assoc, readMark?_cons_self (show isBlankOctet 0x2c = false by decide)]
    rw [ih b fuel (a :: done) (Nat.lt_of_succ_lt_succ hf)]
    simp

/-- A list that was written is read back if each item is and none starts like the end of a list. -/
theorem readList?_encodeList {item : Bytes → Option (α × Bytes)} {write : α → Bytes}
    (hi : ∀ a rest, item (write a ++ rest) = some (a, rest))
    (hs : ∀ a rest, readMark? 0x5d (write a ++ rest) = none) (l : List α) :
    readList? item (encodeList (l.map write)) = some l := by
  cases l with
  | nil => rfl
  | cons a l =>
    have hlen : l.length < (write a ++ ((l.map write).flatMap (fun y => 0x2c :: y) ++
        [0x5d])).length := by
      have : l.length ≤ ((l.map write).flatMap (fun y => 0x2c :: y)).length := by
        induction l with
        | nil => exact Nat.le_refl _
        | cons b l ih =>
          simp only [List.map_cons, List.flatMap_cons, List.length_append, List.length_cons] at ih ⊢
          omega
      simp only [List.length_append, List.length_cons, List.length_nil]
      omega
    simp only [List.map_cons, encodeList, readList?,
      readMark?_cons_self (show isBlankOctet 0x5b = false by decide), hs]
    rw [readItems?_flatMap hi l a [] _ [] hlen]
    simp [dropBlanks]

/-- A batch that was written is read back. -/
theorem read?_encode (l : List Operation) : read? (encode l) = some l :=
  readList?_encodeList readEntry?_encodeEntry
    (fun _ _ => readMark?_cons_of_ne (by decide) (by decide) _) l

theorem readStrings?_encodeStrings (l : List String) : readStrings? (encodeStrings l) = some l :=
  readList?_encodeList readString?_dropBlanks
    (fun _ _ => readMark?_cons_of_ne (by decide) (by decide) _) l

end Batch

end CredentialServer
