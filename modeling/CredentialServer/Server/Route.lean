import CredentialServer.Bytes
import CredentialServer.Text.Split

/-!
# Routes

The target of a request is a path, perhaps with a query, which is ignored. A path leads to one of
three resources, two of which have a name in which octets may be written in hexadecimal. Main
statements: `ofPath_eq_published_iff` and `ofPath_eq_static_iff` say which paths lead to a named
resource.
-/

namespace CredentialServer

/-- Where a path leads. -/
inductive Route where
  | batch
  /-- The public half of an authority; the name is still encoded. -/
  | published (name : Bytes)
  /-- A static file; the name is still encoded. -/
  | static (name : Bytes)
  | nowhere
  deriving DecidableEq, Repr

namespace Route

def hexDigit? (x : UInt8) : Option UInt8 :=
  if 0x30 ≤ x ∧ x ≤ 0x39 then some (x - 0x30)
  else if 0x41 ≤ x ∧ x ≤ 0x46 then some (x - 0x37)
  else if 0x61 ≤ x ∧ x ≤ 0x66 then some (x - 0x57)
  else none

/-- Replaces a percent sign and two hexadecimal digits by the octet that they write. A percent sign
without digits stands for itself. -/
def decodePercent : Bytes → Bytes
  | [] => []
  | 0x25 :: x :: y :: rest =>
    match hexDigit? x, hexDigit? y with
    | some a, some b => (a * 16 + b) :: decodePercent rest
    | _, _ => 0x25 :: decodePercent (x :: y :: rest)
  | x :: rest => x :: decodePercent rest

/-- The path of a target, without query and fragment. -/
def pathOf (target : Bytes) : Bytes := target.takeWhile (fun x => x ≠ 0x3f && x ≠ 0x23)

/-- Where a path leads. A name is one part of the path and not empty. -/
def ofPath (path : Bytes) : Route :=
  match pieces 0x2f path with
  | [[], a] => if a = Bytes.ofText "apirequest" then .batch else .nowhere
  | [[], a, name] =>
    if name = [] then .nowhere
    else if a = Bytes.ofText "pub" then .published name
    else if a = Bytes.ofText "static" then .static name
    else .nowhere
  | _ => .nowhere

def ofTarget (target : Bytes) : Route := ofPath (pathOf target)

/-- A name in a path, if it is text. -/
def name? (encoded : Bytes) : Option String := Bytes.toText? (decodePercent encoded)

theorem pieces_eq_two_iff {path a name : Bytes} : pieces 0x2f path = [[], a, name] ↔
    path = 0x2f :: (a ++ 0x2f :: name) ∧ 0x2f ∉ a ∧ 0x2f ∉ name := by
  constructor
  · intro h
    have hs := intercalate_pieces 0x2f path
    rw [h] at hs
    refine ⟨?_, not_mem_of_mem_pieces 0x2f (s := path) (by simp [h]),
      not_mem_of_mem_pieces 0x2f (s := path) (by simp [h])⟩
    rw [← hs]
    simp [List.intercalate]
  · rintro ⟨rfl, ha, hn⟩
    rw [pieces_cons_self, pieces_append_cons, pieces_of_not_mem 0x2f ha, pieces_of_not_mem 0x2f hn]
    rfl

/-- Only paths of three parts lead anywhere but to batches. -/
theorem pieces_of_ofPath {path : Bytes} (hbatch : ofPath path ≠ .batch)
    (hsome : ofPath path ≠ .nowhere) : ∃ a name, pieces 0x2f path = [[], a, name] ∧ name ≠ [] := by
  rw [ofPath] at hbatch hsome
  split at hbatch
  · split at hbatch
    · exact absurd rfl hbatch
    · next hp hne => exact absurd (by rw [hp]; exact if_neg hne) hsome
  · next a name hp =>
    refine ⟨a, name, hp, ?_⟩
    rintro rfl
    exact hsome (by rw [hp]; rfl)
  · next hbatches hnames =>
    split at hsome
    · next a hp => exact absurd hp (hbatches a)
    · next a name hp => exact absurd hp (hnames a name)
    · exact absurd rfl hsome

theorem ofPath_of_pieces {path a name : Bytes} (hp : pieces 0x2f path = [[], a, name])
    (hn : name ≠ []) : ofPath path =
      if a = Bytes.ofText "pub" then .published name
      else if a = Bytes.ofText "static" then .static name else .nowhere := by
  rw [ofPath, hp]
  exact if_neg hn

/-- A path leads to a public half just if it is that directory and one name. -/
theorem ofPath_eq_published_iff {path name : Bytes} : ofPath path = .published name ↔
    path = 0x2f :: (Bytes.ofText "pub" ++ 0x2f :: name) ∧ name ≠ [] ∧ 0x2f ∉ name := by
  constructor
  · intro h
    have hbatch : ofPath path ≠ .batch := by simp [h]
    have hsome : ofPath path ≠ .nowhere := by simp [h]
    obtain ⟨a, n, hp, hn⟩ := pieces_of_ofPath hbatch hsome
    obtain ⟨he, -, hm⟩ := pieces_eq_two_iff.1 hp
    rw [ofPath_of_pieces hp hn] at h
    split at h
    · next ha => cases h; exact ⟨ha ▸ he, hn, hm⟩
    · split at h <;> cases h
  · rintro ⟨he, hn, hm⟩
    have hp := pieces_eq_two_iff.2 ⟨he, by decide +kernel, hm⟩
    rw [ofPath_of_pieces hp hn, if_pos rfl]

/-- A path leads to a static file just if it is that directory and one name. -/
theorem ofPath_eq_static_iff {path name : Bytes} : ofPath path = .static name ↔
    path = 0x2f :: (Bytes.ofText "static" ++ 0x2f :: name) ∧ name ≠ [] ∧ 0x2f ∉ name := by
  have hne : Bytes.ofText "static" ≠ Bytes.ofText "pub" := by decide +kernel
  constructor
  · intro h
    have hbatch : ofPath path ≠ .batch := by simp [h]
    have hsome : ofPath path ≠ .nowhere := by simp [h]
    obtain ⟨a, n, hp, hn⟩ := pieces_of_ofPath hbatch hsome
    obtain ⟨he, -, hm⟩ := pieces_eq_two_iff.1 hp
    rw [ofPath_of_pieces hp hn] at h
    split at h
    · cases h
    · split at h
      · next ha => cases h; exact ⟨ha ▸ he, hn, hm⟩
      · cases h
  · rintro ⟨he, hn, hm⟩
    have hp := pieces_eq_two_iff.2 ⟨he, by decide +kernel, hm⟩
    rw [ofPath_of_pieces hp hn, if_neg hne, if_pos rfl]

end Route

end CredentialServer
