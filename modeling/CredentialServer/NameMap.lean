/-!
# Tables keyed by name

Accounts, groups, authorities, grants and tokens are all looked up by a string and listed in
string order. A `NameMap` is the list of its entries in strictly increasing order of name, so two
tables with the same answers are equal. Main statements: `find?_insert`, `find?_erase` and
`find?_filter` say what each operation does to every look-up, and `mem_toList_iff` ties look-ups
to the entries.
-/

namespace CredentialServer

/-- A finite table from names to values, its entries in strictly increasing order of name. -/
structure NameMap (α : Type u) where
  /-- The entries, in order. -/
  toList : List (String × α)
  /-- No name comes twice and the order is that of the names. -/
  sorted : toList.Pairwise (fun a b => a.1 < b.1)

namespace NameMap

variable {α : Type u} {β : Type v}

def empty : NameMap α := ⟨[], List.Pairwise.nil⟩

instance : EmptyCollection (NameMap α) := ⟨empty⟩
instance : Inhabited (NameMap α) := ⟨empty⟩

instance [BEq α] : BEq (NameMap α) := ⟨fun a b => a.toList == b.toList⟩
instance [Repr α] : Repr (NameMap α) := ⟨fun m n => reprPrec m.toList n⟩

theorem ext {a b : NameMap α} (h : a.toList = b.toList) : a = b := by
  cases a; cases b; cases h; rfl

instance [DecidableEq α] : DecidableEq (NameMap α) := fun a b =>
  if h : a.toList = b.toList then isTrue (ext h) else isFalse (fun e => h (e ▸ rfl))

/-- The value of the first entry with this name. -/
def lookup (name : String) : List (String × α) → Option α
  | [] => none
  | (k, v) :: rest => if k = name then some v else lookup name rest

/-- The value of `name`, if the table has it. -/
def find? (m : NameMap α) (name : String) : Option α := lookup name m.toList

/-- Whether the table has an entry for `name`. -/
def contains (m : NameMap α) (name : String) : Bool := (m.find? name).isSome

def size (m : NameMap α) : Nat := m.toList.length

def isEmpty (m : NameMap α) : Bool := m.toList.isEmpty

def names (m : NameMap α) : List String := m.toList.map (·.1)

/-- The values, in the order of their names. -/
def values (m : NameMap α) : List α := m.toList.map (·.2)

/-- Puts an entry at its place in an ordered list, in place of an entry of the same name. -/
def place (name : String) (value : α) : List (String × α) → List (String × α)
  | [] => [(name, value)]
  | (k, v) :: rest =>
    if name < k then (name, value) :: (k, v) :: rest
    else if name = k then (name, value) :: rest
    else (k, v) :: place name value rest

theorem mem_place {name : String} {value : α} {l : List (String × α)} {e : String × α}
    (h : e ∈ place name value l) : e = (name, value) ∨ e ∈ l := by
  induction l with
  | nil => simpa [place] using h
  | cons x l ih =>
    obtain ⟨k, v⟩ := x
    simp only [place] at h
    split at h
    · simpa using h
    · split at h
      · rcases List.mem_cons.1 h with h | h
        · exact .inl h
        · exact .inr (List.mem_cons_of_mem _ h)
      · rcases List.mem_cons.1 h with h | h
        · exact .inr (h ▸ List.mem_cons_self)
        · exact (ih h).imp id (List.mem_cons_of_mem _)

theorem pairwise_place {name : String} {value : α} {l : List (String × α)}
    (h : l.Pairwise (fun a b => a.1 < b.1)) :
    (place name value l).Pairwise (fun a b => a.1 < b.1) := by
  induction l with
  | nil => simp [place]
  | cons x l ih =>
    obtain ⟨k, v⟩ := x
    obtain ⟨hx, hl⟩ := List.pairwise_cons.1 h
    simp only [place]
    split
    · next hlt =>
      refine List.pairwise_cons.2 ⟨fun e he => ?_, h⟩
      rcases List.mem_cons.1 he with rfl | he
      · exact hlt
      · exact String.lt_trans hlt (hx e he)
    · next hge =>
      split
      · next heq => subst heq; exact List.pairwise_cons.2 ⟨hx, hl⟩
      · next hne =>
        refine List.pairwise_cons.2 ⟨fun e he => ?_, ih hl⟩
        rcases mem_place he with rfl | he
        · exact Std.lt_of_le_of_ne (String.not_lt.1 hge) (fun e => hne e.symm)
        · exact hx e he

/-- Adds an entry, in place of an entry of the same name. -/
def insert (m : NameMap α) (name : String) (value : α) : NameMap α :=
  ⟨place name value m.toList, pairwise_place m.sorted⟩

def filter (p : String → α → Bool) (m : NameMap α) : NameMap α :=
  ⟨m.toList.filter (fun e => p e.1 e.2), m.sorted.filter _⟩

/-- Removes the entry for `name`, if there is one. -/
def erase (m : NameMap α) (name : String) : NameMap α := m.filter (fun k _ => k ≠ name)

def map (f : String → α → β) (m : NameMap α) : NameMap β :=
  ⟨m.toList.map (fun e => (e.1, f e.1 e.2)), by
    rw [List.pairwise_map]; exact m.sorted⟩

/-- The table of a list of entries; of two entries with one name the later counts. -/
def ofList (l : List (String × α)) : NameMap α :=
  l.foldl (fun m e => m.insert e.1 e.2) empty

/-- Changes every value by a step that can fail; the first failure, in order of name, is the
result. -/
def mapExcept (f : String → α → Except ε β) : List (String × α) → Except ε (List (String × β))
  | [] => .ok []
  | (k, v) :: rest =>
    match f k v with
    | .error e => .error e
    | .ok w =>
      match mapExcept f rest with
      | .error e => .error e
      | .ok ws => .ok ((k, w) :: ws)

theorem map_fst_mapExcept {f : String → α → Except ε β} {l : List (String × α)}
    {r : List (String × β)} (h : mapExcept f l = .ok r) : r.map (·.1) = l.map (·.1) := by
  induction l generalizing r with
  | nil => cases h; rfl
  | cons x l ih =>
    obtain ⟨k, v⟩ := x
    simp only [mapExcept] at h
    split at h
    · cases h
    · split at h
      · cases h
      · next ws hws => cases h; simp [ih hws]

theorem pairwise_map_fst {l : List (String × α)} :
    l.Pairwise (fun a b => a.1 < b.1) ↔ (l.map (·.1)).Pairwise (· < ·) := by
  rw [List.pairwise_map]

/-- The table whose values are the results of a step that can fail, or the first failure in order
of name. -/
def mapM (f : String → α → Except ε β) (m : NameMap α) : Except ε (NameMap β) :=
  match h : mapExcept f m.toList with
  | .error e => .error e
  | .ok r => .ok ⟨r, by
      rw [pairwise_map_fst, map_fst_mapExcept h, ← pairwise_map_fst]; exact m.sorted⟩

theorem mapM_eq_ok_iff {f : String → α → Except ε β} {m : NameMap α} {r : NameMap β} :
    m.mapM f = .ok r ↔ mapExcept f m.toList = .ok r.toList := by
  simp only [mapM]
  split
  · next hr => simp [hr]
  · next l hr =>
    constructor
    · intro h
      cases h
      exact hr
    · intro h
      rw [hr] at h
      cases h
      rfl

theorem names_mapM {f : String → α → Except ε β} {m : NameMap α} {r : NameMap β}
    (h : m.mapM f = .ok r) : r.names = m.names := map_fst_mapExcept (mapM_eq_ok_iff.1 h)

/-! ### Look-ups after each operation -/

@[simp] theorem find?_empty (name : String) : (empty : NameMap α).find? name = none := rfl

theorem lookup_place (name : String) (value : α) (l : List (String × α)) (other : String) :
    lookup other (place name value l) = if other = name then some value else lookup other l := by
  induction l with
  | nil => simp [place, lookup, eq_comm]
  | cons x l ih =>
    obtain ⟨k, v⟩ := x
    simp only [place]
    split
    · simp [lookup, eq_comm]
    · split
      · next heq =>
        subst heq
        by_cases h : other = name
        · simp [lookup, h]
        · simp [lookup, h, show name ≠ other from fun e => h e.symm]
      · next hne =>
        simp only [lookup, ih]
        by_cases h : k = other
        · subst h
          simp [show k ≠ name from fun e => hne e.symm]
        · simp [h]

theorem find?_insert (m : NameMap α) (name : String) (value : α) (other : String) :
    (m.insert name value).find? other = if other = name then some value else m.find? other :=
  lookup_place name value m.toList other

theorem lookup_eq_some_iff {l : List (String × α)} (h : l.Pairwise (fun a b => a.1 < b.1))
    {name : String} {value : α} : lookup name l = some value ↔ (name, value) ∈ l := by
  induction l with
  | nil => simp [lookup]
  | cons x l ih =>
    obtain ⟨k, v⟩ := x
    obtain ⟨hx, hl⟩ := List.pairwise_cons.1 h
    simp only [lookup, List.mem_cons, Prod.mk.injEq]
    by_cases hk : k = name
    · subst hk
      simp only [if_true, Option.some.injEq, true_and]
      constructor
      · intro e; exact .inl e.symm
      · rintro (e | e)
        · exact e.symm
        · exact absurd (hx _ e) (String.lt_irrefl _)
    · simp only [if_neg hk, ih hl]
      constructor
      · exact .inr
      · rintro (⟨e, _⟩ | e)
        · exact absurd e.symm hk
        · exact e

/-- The entries are exactly the look-ups that succeed. -/
theorem mem_toList_iff (m : NameMap α) {name : String} {value : α} :
    (name, value) ∈ m.toList ↔ m.find? name = some value :=
  (lookup_eq_some_iff m.sorted).symm

theorem find?_filter (p : String → α → Bool) (m : NameMap α) (name : String) :
    (m.filter p).find? name = (m.find? name).filter (p name) := by
  apply Option.ext
  intro v
  rw [← mem_toList_iff]
  simp only [filter, List.mem_filter, mem_toList_iff, Option.filter_eq_some_iff]

theorem find?_erase (m : NameMap α) (name other : String) :
    (m.erase name).find? other = if other = name then none else m.find? other := by
  rw [erase, find?_filter]
  by_cases h : other = name
  · subst h; cases m.find? other <;> simp
  · cases m.find? other <;> simp [h]

theorem lookup_map (f : String → α → β) (l : List (String × α)) (name : String) :
    lookup name (l.map (fun e => (e.1, f e.1 e.2))) = (lookup name l).map (f name) := by
  induction l with
  | nil => rfl
  | cons x l ih =>
    obtain ⟨k, v⟩ := x
    simp only [List.map_cons, lookup, ih]
    by_cases h : k = name
    · subst h; simp
    · simp [h]

theorem find?_map (f : String → α → β) (m : NameMap α) (name : String) :
    (m.map f).find? name = (m.find? name).map (f name) := lookup_map f m.toList name

theorem lookup_mapExcept {f : String → α → Except ε β} {l : List (String × α)}
    {r : List (String × β)} (h : mapExcept f l = .ok r) (name : String) :
    match lookup name l with
    | none => lookup name r = none
    | some v => ∃ w, f name v = .ok w ∧ lookup name r = some w := by
  induction l generalizing r with
  | nil => cases h; rfl
  | cons x l ih =>
    obtain ⟨k, v⟩ := x
    simp only [mapExcept] at h
    split at h
    · cases h
    · next w hw =>
      split at h
      · cases h
      · next ws hws =>
        cases h
        by_cases hk : k = name
        · subst hk; simpa [lookup] using hw
        · simpa [lookup, hk] using ih hws

theorem find?_mapM_of_none {f : String → α → Except ε β} {m : NameMap α} {r : NameMap β}
    (h : m.mapM f = .ok r) {name : String} (hn : m.find? name = none) : r.find? name = none := by
  have := lookup_mapExcept (mapM_eq_ok_iff.1 h) name
  rwa [show lookup name m.toList = none from hn] at this

theorem find?_mapM_of_some {f : String → α → Except ε β} {m : NameMap α} {r : NameMap β}
    (h : m.mapM f = .ok r) {name : String} {v : α} (hv : m.find? name = some v) :
    ∃ w, f name v = .ok w ∧ r.find? name = some w := by
  have := lookup_mapExcept (mapM_eq_ok_iff.1 h) name
  rwa [show lookup name m.toList = some v from hv] at this

theorem exists_mapExcept_iff {f : String → α → Except ε β} {l : List (String × α)} :
    (∃ r, mapExcept f l = .ok r) ↔ ∀ e ∈ l, ∃ w, f e.1 e.2 = .ok w := by
  induction l with
  | nil => simp [mapExcept]
  | cons x l ih =>
    obtain ⟨k, v⟩ := x
    rw [List.forall_mem_cons, ← ih, mapExcept]
    cases f k v with
    | error e => simp
    | ok w => cases mapExcept f l <;> simp

theorem exists_mapM_iff {f : String → α → Except ε β} {m : NameMap α} :
    (∃ r, m.mapM f = .ok r) ↔ ∀ name v, m.find? name = some v → ∃ w, f name v = .ok w := by
  have hlist : (∃ r, m.mapM f = .ok r) ↔ ∃ r, mapExcept f m.toList = .ok r := by
    constructor
    · rintro ⟨r, h⟩
      exact ⟨r.toList, mapM_eq_ok_iff.1 h⟩
    · rintro ⟨r, h⟩
      simp only [mapM]
      split
      · next h' => rw [h] at h'; cases h'
      · exact ⟨_, rfl⟩
  rw [hlist, exists_mapExcept_iff]
  constructor
  · intro h name v hv
    exact h (name, v) ((mem_toList_iff m).2 hv)
  · rintro h ⟨name, v⟩ he
    exact h name v ((mem_toList_iff m).1 he)

theorem mapM_singleton {f : String → α → Except ε β} {name : String} {v : α} {w : β}
    (h : f name v = .ok w) : (empty.insert name v).mapM f = .ok (empty.insert name w) := by
  rw [mapM_eq_ok_iff]
  simp [insert, empty, place, mapExcept, h]

theorem mem_names_iff (m : NameMap α) {name : String} :
    name ∈ m.names ↔ ∃ v, m.find? name = some v := by
  simp only [names, List.mem_map]
  constructor
  · rintro ⟨⟨k, v⟩, h, rfl⟩; exact ⟨v, (mem_toList_iff m).1 h⟩
  · rintro ⟨v, h⟩; exact ⟨(name, v), (mem_toList_iff m).2 h, rfl⟩

theorem nodup_names (m : NameMap α) : m.names.Nodup := by
  refine (pairwise_map_fst.1 m.sorted).imp ?_
  rintro a _ h rfl
  exact String.lt_irrefl a h

theorem length_le_of_subset {l s : List String} (hl : l.Nodup) (h : ∀ name ∈ l, name ∈ s) :
    l.length ≤ s.length := by
  induction l generalizing s with
  | nil => exact Nat.zero_le _
  | cons x l ih =>
    obtain ⟨hx, hl⟩ := List.nodup_cons.1 hl
    have hs := h x List.mem_cons_self
    have hlen := ih hl (s := s.erase x) (fun name hn =>
      (List.mem_erase_of_ne (fun e => by subst e; exact hx hn)).2
        (h name (List.mem_cons_of_mem _ hn)))
    rw [List.length_erase_of_mem hs] at hlen
    have := List.length_pos_of_mem hs
    rw [List.length_cons]
    omega

/-- A table has at least as many entries as different names are found in it. -/
theorem length_le_size {m : NameMap α} {l : List String} (hl : l.Nodup)
    (h : ∀ name ∈ l, m.contains name = true) : l.length ≤ m.size := by
  have := length_le_of_subset (s := m.names) hl (fun name hn =>
    (mem_names_iff m).2 (Option.isSome_iff_exists.1 (h name hn)))
  rwa [names, List.length_map] at this

end NameMap

/-- A finite set of names, listed in order. -/
abbrev NameSet := NameMap Unit

def NameSet.add (s : NameSet) (name : String) : NameSet := NameMap.insert s name ()

/-- The set of the names in a list. -/
def NameSet.ofNames (l : List String) : NameSet := NameMap.ofList (l.map (fun n => (n, ())))

end CredentialServer
