import CredentialServer.Config.Basic
import Mathlib.Data.List.Nodup

/-! # Documents with parts left out

A document that was written in full can be abridged: fields are left out of its records, at any
depth, and names that nobody knows are added to them.  Which parts of a document are records, and
which of their fields have to be there, is a matter of its `Form`; where fields are left out is
given by the way to them (`Gaps`).  A reader of a form (`Form.Reads`) fails just if a field is left
out that has to be there (`Form.lacks`), and what it takes otherwise is the same for all documents
that are abridged alike.  Readers are built as forms are: see `reads_value`, `reads_record`,
`reads_entries` and `reads_items`. -/

namespace CredentialServer

/-! ### Tables -/

namespace NameMap

theorem place_of_forall_lt {name : String} {value : α} {l : List (String × α)}
    (h : ∀ e ∈ l, e.1 < name) : place name value l = l ++ [(name, value)] := by
  induction l with
  | nil => rfl
  | cons e l ih =>
      obtain ⟨k, v⟩ := e
      have hlt : k < name := h _ List.mem_cons_self
      have hnot : ¬ name < k := fun hgt => String.lt_irrefl _ (String.lt_trans hlt hgt)
      have hne : name ≠ k := by
        rintro rfl
        exact String.lt_irrefl _ hlt
      unfold place
      rw [if_neg hnot, if_neg hne, ih fun e he => h e (List.mem_cons_of_mem _ he)]
      rfl

theorem toList_foldl_insert {l : List (String × α)} {m : NameMap α}
    (h : (m.toList ++ l).Pairwise (fun a b => a.1 < b.1)) :
    (l.foldl (fun m e => m.insert e.1 e.2) m).toList = m.toList ++ l := by
  induction l generalizing m with
  | nil => rw [List.foldl_nil, List.append_nil]
  | cons e l ih =>
      have hlast : (m.insert e.1 e.2).toList = m.toList ++ [e] :=
        place_of_forall_lt fun e' he' => (List.pairwise_append.mp h).2.2 e' he' e List.mem_cons_self
      rw [List.append_cons] at h
      rw [List.foldl_cons, ih (by rwa [hlast]), hlast, ← List.append_cons]

theorem map_id (m : NameMap α) : m.map (fun _ a => a) = m :=
  ext (List.map_id' m.toList)

theorem ofList_toList (m : NameMap α) : ofList m.toList = m :=
  ext (toList_foldl_insert m.sorted)

end NameMap

namespace Document

/-! ### Forms -/

/-- A step from a document into one of its parts. -/
inductive Key where
  | name (s : String)
  | index (n : Nat)
  deriving DecidableEq, Repr

/-- Which fields are left out, by the way to them. -/
abbrev Gaps := List Key → Bool

namespace Gaps

def empty : Gaps := fun _ => false

/-- The gaps of a part. -/
def below (gaps : Gaps) (key : Key) : Gaps := fun way => gaps (key :: way)

/-- Whether the field of that name is left out. -/
def has (gaps : Gaps) (name : String) : Bool := gaps [.name name]

/-- What is taken from a field: its default if it is left out. -/
def fill (gaps : Gaps) (name : String) (default a : α) : α := if gaps.has name then default else a

end Gaps

/-- What is added to records, by the way to them. -/
abbrev Extras := List Key → List (String × Document)

/-- What is added to a part. -/
def Extras.below (extras : Extras) (key : Key) : Extras := fun way => extras (key :: way)

/-- What stands where in a document. -/
inductive Form where
  /-- Anything that has no records in it. -/
  | value
  /-- A table of fields, of which some have to be there. -/
  | record (needed : List String) (forms : String → Form)
  /-- A table whose names are free. -/
  | entries (form : Form)
  /-- A list of values of one form. -/
  | items (form : Form)

namespace Form

/-- One document is the other one abridged: of the fields of a record just those are left out that
the gaps say, the others are abridged in turn, and there may be more names in it, in any order. -/
def Abridges : Form → Gaps → Document → Document → Prop
  | .record _ forms, gaps, .table l, d => ∃ l', d = .table l' ∧ ∀ e ∈ l,
    if gaps.has e.1 then l'.filter (fun e' => e'.1 = e.1) = []
    else ∃ v, l'.filter (fun e' => e'.1 = e.1) = [(e.1, v)] ∧
      (forms e.1).Abridges (gaps.below (.name e.1)) e.2 v
  | .entries form, gaps, .table l, d => ∃ l', d = .table l' ∧ List.Forall₂
    (fun e e' => e'.1 = e.1 ∧ form.Abridges (gaps.below (.name e.1)) e.2 e'.2) l l'
  | .items form, gaps, .list l, d => ∃ l', d = .list l' ∧ List.Forall₂
    (fun e v => form.Abridges (gaps.below (.index e.2)) e.1 v) l.zipIdx l'
  | _, _, d, d' => d' = d

/-- Whether a field that has to be there is left out of a record that is there. -/
def lacks : Form → Gaps → Document → Bool
  | .record needed forms, gaps, .table l => l.any (fun e =>
    if gaps.has e.1 then needed.contains e.1
    else (forms e.1).lacks (gaps.below (.name e.1)) e.2)
  | .entries form, gaps, .table l => l.any (fun e => form.lacks (gaps.below (.name e.1)) e.2)
  | .items form, gaps, .list l =>
    l.zipIdx.any (fun e => form.lacks (gaps.below (.index e.2)) e.1)
  | _, _, _ => false

/-- Leaves fields out of a document and adds what its records do not know. -/
def edit : Form → Gaps → Extras → Document → Document
  | .record _ forms, gaps, extras, .table l =>
    .table ((l.filter (fun e => !gaps.has e.1)).map (fun e =>
        (e.1, (forms e.1).edit (gaps.below (.name e.1)) (extras.below (.name e.1)) e.2)) ++
      (extras []).filter (fun e => e.1 ∉ l.map Prod.fst))
  | .entries form, gaps, extras, .table l =>
    .table (l.map (fun e =>
      (e.1, form.edit (gaps.below (.name e.1)) (extras.below (.name e.1)) e.2)))
  | .items form, gaps, extras, .list l =>
    .list (l.zipIdx.map (fun e =>
      form.edit (gaps.below (.index e.2)) (extras.below (.index e.2)) e.1))
  | _, _, _, d => d

/-- No record in a document has two fields of one name. -/
def Fits : Form → Document → Prop
  | .record _ forms, .table l => (l.map Prod.fst).Nodup ∧ ∀ e ∈ l, (forms e.1).Fits e.2
  | .entries form, .table l => ∀ e ∈ l, form.Fits e.2
  | .items form, .list l => ∀ v ∈ l, form.Fits v
  | _, _ => True

end Form

theorem Form.fits_ofMap {α : Type} {form : Form} {m : NameMap α} {write : α → Document}
    (h : ∀ a, form.Fits (write a)) : (entries form).Fits (.ofMap m write) := by
  intro e he
  obtain ⟨e', -, rfl⟩ := List.mem_map.mp he
  exact h e'.2

/-! ### Editing -/

section
variable {l : List (String × Document)}

theorem filter_fst_of_mem (h : (l.map Prod.fst).Nodup) {e : String × Document} (he : e ∈ l) :
    l.filter (fun e' => e'.1 = e.1) = [e] := by
  induction l with
  | nil => cases he
  | cons other l ih =>
      rw [List.map_cons, List.nodup_cons] at h
      rcases List.mem_cons.mp he with rfl | he
      · have hrest : l.filter (fun e' => e'.1 = e.1) = [] := by
          rw [List.filter_eq_nil_iff]
          intro e' he' heq
          exact h.1 (of_decide_eq_true heq ▸ List.mem_map_of_mem he')
        rw [List.filter_cons_of_pos (by simp), hrest]
      · have hne : other.1 ≠ e.1 := fun heq => h.1 (heq ▸ List.mem_map_of_mem he)
        rw [List.filter_cons_of_neg (by simpa using hne), ih h.2 he]

theorem filter_fst_map (f : String × Document → Document) (name : String) :
    (l.map (fun e => (e.1, f e))).filter (fun e => e.1 = name) =
      (l.filter (fun e => e.1 = name)).map (fun e => (e.1, f e)) := by
  rw [List.filter_map]
  rfl

theorem filter_fst_extras {name : String} (h : name ∈ l.map Prod.fst)
    (added : List (String × Document)) :
    (added.filter (fun e => e.1 ∉ l.map Prod.fst)).filter (fun e => e.1 = name) = [] := by
  rw [List.filter_filter, List.filter_eq_nil_iff]
  intro e _ he
  obtain ⟨heq, hnot⟩ := Bool.and_eq_true_iff.mp he
  exact of_decide_eq_true hnot (of_decide_eq_true heq ▸ h)

end

/-- Whatever fields are left out and whatever else is added, the result is the document abridged. -/
theorem Form.abridges_edit (form : Form) {d : Document} (h : form.Fits d) (gaps : Gaps)
    (extras : Extras) : form.Abridges gaps d (form.edit gaps extras d) := by
  induction form generalizing d gaps extras with
  | value => rfl
  | record needed forms ih =>
      cases d with
      | table l =>
          obtain ⟨hnodup, hfits⟩ := h
          refine ⟨_, rfl, fun e he => ?_⟩
          rw [List.filter_append, filter_fst_extras (List.mem_map_of_mem he), List.append_nil,
            filter_fst_map, List.filter_comm, filter_fst_of_mem hnodup he]
          by_cases hgap : gaps.has e.1 = true
          · rw [if_pos hgap, List.filter_cons_of_neg (by simp [hgap])]
            rfl
          · rw [if_neg hgap, List.filter_cons_of_pos (by simp [hgap])]
            exact ⟨_, rfl, ih e.1 (hfits e he) _ _⟩
      | null | bool b | scalar s | text s | list l => rfl
  | entries form ih =>
      cases d with
      | table l =>
          refine ⟨_, rfl, List.forall₂_map_right_iff.mpr (List.forall₂_same.mpr ?_)⟩
          exact fun e he => ⟨rfl, ih (h e he) _ _⟩
      | null | bool b | scalar s | text s | list l => rfl
  | items form ih =>
      cases d with
      | list l =>
          refine ⟨_, rfl, List.forall₂_map_right_iff.mpr (List.forall₂_same.mpr ?_)⟩
          intro e he
          exact ih (h e.1 (List.fst_mem_of_mem_zipIdx he)) _ _
      | null | bool b | scalar s | text s | table l => rfl

theorem Form.edit_empty (form : Form) (d : Document) :
    form.edit .empty (fun _ => []) d = d := by
  induction form generalizing d with
  | value => rfl
  | record needed forms ih =>
      cases d with
      | table l =>
          have hstay : (fun e : String × Document =>
              (e.1, (forms e.1).edit .empty (fun _ => []) e.2)) = id :=
            funext fun e => Prod.ext rfl (ih e.1 e.2)
          show Document.table (List.map (fun e : String × Document =>
            (e.1, (forms e.1).edit .empty (fun _ => []) e.2)) (l.filter fun _ => true) ++ []) = _
          rw [hstay, List.append_nil, List.map_id, List.filter_true]
      | null | bool b | scalar s | text s | list l => rfl
  | entries form ih =>
      cases d with
      | table l =>
          have hstay : (fun e : String × Document =>
              (e.1, form.edit .empty (fun _ => []) e.2)) = id :=
            funext fun e => Prod.ext rfl (ih e.2)
          show Document.table (l.map fun e => (e.1, form.edit .empty (fun _ => []) e.2)) = _
          rw [hstay, List.map_id]
      | null | bool b | scalar s | text s | list l => rfl
  | items form ih =>
      cases d with
      | list l =>
          have hstay : (fun e : Document × Nat => form.edit .empty (fun _ => []) e.1) = Prod.fst :=
            funext fun e => ih e.1
          show Document.list (l.zipIdx.map fun e => form.edit .empty (fun _ => []) e.1) = _
          rw [hstay, List.zipIdx_map_fst]
      | null | bool b | scalar s | text s | table l => rfl

theorem Form.abridges_refl {form : Form} {d : Document} (h : form.Fits d) :
    form.Abridges .empty d d := by
  have hedit := form.abridges_edit h .empty (fun _ => [])
  rwa [form.edit_empty] at hedit

theorem Form.lacks_empty (form : Form) (d : Document) : form.lacks .empty d = false := by
  induction form generalizing d with
  | value => rfl
  | record needed forms ih =>
      cases d with
      | table l => exact List.any_eq_false.mpr fun e _ => ne_true_of_eq_false (ih e.1 e.2)
      | null | bool b | scalar s | text s | list l => rfl
  | entries form ih =>
      cases d with
      | table l => exact List.any_eq_false.mpr fun e _ => ne_true_of_eq_false (ih e.2)
      | null | bool b | scalar s | text s | list l => rfl
  | items form ih =>
      cases d with
      | list l => exact List.any_eq_false.mpr fun e _ => ne_true_of_eq_false (ih e.1)
      | null | bool b | scalar s | text s | table l => rfl

/-! ### Reading -/

/-- A value, unless something is lacking. -/
def given (lacking : Bool) (a : α) : Option α := if lacking then none else some a

section
variable {α β : Type} {step : Document → Option α} {gaps : Gaps} {d : Document} {a : α}

@[simp] theorem given_false (a : α) : given false a = some a := rfl

@[simp] theorem given_true (a : α) : given true a = none := rfl

theorem map_given (f : α → β) (lacking : Bool) (a : α) :
    (given lacking a).map f = given lacking (f a) := by
  cases lacking <;> rfl

/-- What is read in two steps is lacking if either of them is. -/
theorem bind_given {x : Option α} {f : α → Option β} {lacking lacking' : Bool} {b : β}
    (hx : x = given lacking a) (hf : f a = given lacking' b) :
    x >>= f = given (lacking || lacking') b := by
  subst hx
  cases lacking with
  | false => exact hf
  | true => rfl

theorem mapM_given {γ : Type} {step : β → Option γ} {lacking : α → Bool} {f : α → γ}
    {l : List α} {l' : List β}
    (h : List.Forall₂ (fun a b => step b = given (lacking a) (f a)) l l') :
    l'.mapM step = given (l.any lacking) (l.map f) := by
  induction h with
  | nil => rfl
  | @cons a b l l' hstep _ ih =>
      rw [List.mapM_cons, List.any_cons, List.map_cons]
      refine bind_given hstep ?_
      rw [ih]
      cases l.any lacking <;> rfl

/-- A reader takes a value from a document of this form, however that is abridged: nothing, if a
field is left out that has to be there, and else always the same. -/
def Form.Reads (form : Form) (gaps : Gaps) (d : Document) (step : Document → Option α) (a : α) :
    Prop :=
  ∀ d', form.Abridges gaps d d' → step d' = given (form.lacks gaps d) a

theorem Form.Reads.eq_some {form : Form} (h : form.Reads .empty d step a) (hd : form.Fits d) :
    step d = some a := by
  rw [h d (abridges_refl hd), lacks_empty, given_false]

theorem Form.reads_value (h : step d = some a) : Form.value.Reads gaps d step a := by
  rintro d' rfl
  exact h

/-! ### Reading records -/

variable {needed : List String} {forms : String → Form} {l : List (String × Document)}

/-- Whether a field is lacking from a record. -/
def Form.lacksField (needed : List String) (forms : String → Form) (gaps : Gaps)
    (e : String × Document) : Bool :=
  if gaps.has e.1 then needed.contains e.1
  else (forms e.1).lacks (gaps.below (.name e.1)) e.2

/-- The fields of a record that was abridged. -/
def Form.Shows (forms : String → Form) (gaps : Gaps) (l : List (String × Document))
    (f : Fields) : Prop :=
  ∀ e ∈ l, if gaps.has e.1 then f e.1 = none
    else ∃ v, f e.1 = some v ∧ (forms e.1).Abridges (gaps.below (.name e.1)) e.2 v

theorem lookup_eq_head?_filter (name : String) (l : List (String × Document)) :
    NameMap.lookup name l = (l.filter (fun e => e.1 = name)).head?.map Prod.snd := by
  induction l with
  | nil => rfl
  | cons e l ih =>
      obtain ⟨k, v⟩ := e
      unfold NameMap.lookup
      by_cases hk : k = name
      · rw [if_pos hk, List.filter_cons_of_pos (by simpa using hk)]
        rfl
      · rw [if_neg hk, List.filter_cons_of_neg (by simpa using hk), ih]

/-- A record that was abridged has its fields at most once each. -/
theorem Form.exists_fields_of_abridges {names : List String}
    (hnames : ∀ n ∈ names, n ∈ l.map Prod.fst)
    (h : (record needed forms).Abridges gaps (.table l) d) (dialect : Dialect) :
    ∃ f, fields? dialect names d = some f ∧ Shows forms gaps l f := by
  obtain ⟨l', rfl, hl'⟩ := h
  refine ⟨fun n => NameMap.lookup n l', ?_, ?_⟩
  · refine if_pos (List.all_eq_true.mpr fun n hn => ?_)
    obtain ⟨e, he, rfl⟩ := List.mem_map.mp (hnames n hn)
    have hfield := hl' e he
    split at hfield
    · rw [hfield]
      rfl
    · obtain ⟨v, hv, -⟩ := hfield
      rw [hv]
      rfl
  · intro e he
    have hfield := hl' e he
    have hlookup := lookup_eq_head?_filter e.1 l'
    split at hfield
    · next hgap =>
      rw [if_pos hgap]
      rw [hfield] at hlookup
      exact hlookup
    · next hgap =>
      obtain ⟨v, hv, habridges⟩ := hfield
      rw [if_neg hgap]
      rw [hv] at hlookup
      exact ⟨v, hlookup, habridges⟩

/-- A record is read if its fields are, however it is abridged. -/
theorem Form.reads_record {names : List String} {read : Fields → Option α} {dialect : Dialect}
    (hnames : ∀ n ∈ names, n ∈ l.map Prod.fst)
    (h : ∀ f, Shows forms gaps l f →
      read f = given (l.any (lacksField needed forms gaps)) a) :
    (record needed forms).Reads gaps (.table l) (fun d => fields? dialect names d >>= read) a := by
  intro d hd
  obtain ⟨f, hf, hshows⟩ := exists_fields_of_abridges hnames hd dialect
  show fields? dialect names d >>= read = _
  rw [hf]
  exact h f hshows

theorem bind_given_any {γ : Type} {p : α → Bool} {x : Option β} {f : β → Option γ} {b : β}
    {c : γ} {e : α} {l : List α} (hx : x = given (p e) b) (hf : f b = given (l.any p) c) :
    x >>= f = given ((e :: l).any p) c := by
  rw [List.any_cons]
  exact bind_given hx hf

namespace Form.Shows

variable {f : Fields} {v : Document} {rest : List (String × Document)} {read : α → Option β} {b : β}

/-- A field with a default is read, and then the rest; if it is left out, it has its default. -/
theorem bind_withDefault (hf : Shows forms gaps l f) (name : String) (default : α)
    (hmem : (name, v) ∈ l) (hneeded : needed.contains name = false)
    (hstep : (forms name).Reads (gaps.below (.name name)) v step a)
    (hread : read (gaps.fill name default a) = given (rest.any (lacksField needed forms gaps)) b) :
    f.withDefault name default step >>= read =
      given (((name, v) :: rest).any (lacksField needed forms gaps)) b := by
  refine bind_given_any ?_ hread
  have hfield := hf _ hmem
  unfold Fields.withDefault lacksField Gaps.fill
  split at hfield
  · next hgap =>
    simp only [hfield, if_pos hgap, hneeded, given_false]
  · next hgap =>
    obtain ⟨v', hv', habridges⟩ := hfield
    simp only [hv', if_neg hgap]
    exact hstep v' habridges

/-- A field that has to be there is read, and then the rest; if it is left out, nothing is. -/
theorem bind_required (hf : Shows forms gaps l f) (name : String) (hmem : (name, v) ∈ l)
    (hneeded : needed.contains name = true)
    (hstep : (forms name).Reads (gaps.below (.name name)) v step a)
    (hread : read a = given (rest.any (lacksField needed forms gaps)) b) :
    f.required name step >>= read =
      given (((name, v) :: rest).any (lacksField needed forms gaps)) b := by
  refine bind_given_any ?_ hread
  have hfield := hf _ hmem
  unfold Fields.required lacksField
  split at hfield
  · next hgap =>
    rw [hfield, if_pos hgap, hneeded]
    rfl
  · next hgap =>
    obtain ⟨v', hv', habridges⟩ := hfield
    rw [hv', if_neg hgap]
    exact hstep v' habridges

end Form.Shows

theorem Form.reads_optional {x : Option β} {write : β → Document} {g : β → α}
    (htable : ∀ b, ∃ l, write b = .table l)
    (h : ∀ b, (record needed forms).Reads gaps (write b) step (g b)) :
    (record needed forms).Reads gaps ((x.map write).getD .null) (optional? step) (x.map g) := by
  intro d hd
  cases x with
  | none =>
      obtain rfl : d = .null := hd
      rfl
  | some b =>
      obtain ⟨l, hl⟩ := htable b
      have hread := h b d hd
      rw [Option.map_some, Option.getD_some, hl] at hd ⊢
      rw [hl] at hread
      obtain ⟨l', rfl, -⟩ := hd
      show (step (.table l')).map some = _
      rw [hread, map_given]
      rfl

/-! ### Reading tables and lists -/

theorem mapIdx_id (l : List α) : l.mapIdx (fun _ a => a) = l := by
  rw [List.mapIdx_eq_zipIdx_map]
  exact List.zipIdx_map_fst 0 l

theorem Form.reads_entries {form : Form} {m : NameMap β} {write : β → Document}
    {g : String → β → α}
    (h : ∀ name b, form.Reads (gaps.below (.name name)) (write b) step (g name b)) :
    (entries form).Reads gaps (.ofMap m write) (map? step) (m.map g) := by
  rintro d ⟨l', rfl, hl'⟩
  have hmapM : l'.mapM (fun e => (step e.2).map (fun v => (e.1, v))) =
      given (m.toList.any (fun e => form.lacks (gaps.below (.name e.1)) (write e.2)))
        (m.map g).toList := by
    refine mapM_given (List.Forall₂.imp ?_ (List.forall₂_map_left_iff.mp hl'))
    rintro ⟨name, b⟩ ⟨name', d⟩ ⟨hname, hd⟩
    obtain rfl : name' = name := hname
    rw [h name' b d hd, map_given]
  show Option.map NameMap.ofList (l'.mapM _) = _
  rw [hmapM, map_given, NameMap.ofList_toList]
  show _ = given (List.any (m.toList.map _) _) _
  rw [List.any_map]
  rfl

theorem Form.reads_items {form : Form} {bs : List β} {write : β → Document} {g : Nat → β → α}
    (h : ∀ i b, form.Reads (gaps.below (.index i)) (write b) step (g i b)) :
    (items form).Reads gaps (.list (bs.map write)) (list? step) (bs.mapIdx g) := by
  rintro d ⟨l', rfl, hl'⟩
  rw [List.zipIdx_map, List.forall₂_map_left_iff] at hl'
  have hmapM : l'.mapM step =
      given (bs.zipIdx.any (fun e => form.lacks (gaps.below (.index e.2)) (write e.1)))
        (bs.zipIdx.map (fun e => g e.2 e.1)) := by
    refine mapM_given (List.Forall₂.imp ?_ hl')
    rintro ⟨b, i⟩ d hd
    exact h i b d hd
  show l'.mapM step = given (List.any (List.zipIdx (bs.map write)) _) _
  rw [hmapM, List.zipIdx_map, List.any_map, List.mapIdx_eq_zipIdx_map]
  rfl

end

end Document
end CredentialServer
