import CredentialServer.Batch.Text
import CredentialServer.Proofs.Json.Values

/-! # Which octets write a batch

A batch is a list of entries, and an entry a record or a list of two (`IsEntry`).  Of the fields of
a record one is the name of the operation and one the body, wherever they stand; the others are
there for nobody.  Readers of lists take any reader of items that finds just the items there are
(`Finds`).  Main statements: `read?_eq_some_iff`, `readStrings?_eq_some_iff`, and `Writes.append`:
behind a batch there may be blanks, and nothing else. -/

namespace CredentialServer
namespace Batch

open Json

variable {α : Type} {b c rest : Bytes}

/-! ### Lists -/

/-- One or more items up to a closing bracket. -/
inductive Items (close : UInt8) (item : Bytes → α → Bytes → Prop) : Bytes → List α → Bytes → Prop
  | last {b e rest : Bytes} {a : α} : item b a e → Blanks e (close :: rest) →
      Items close item b [a] rest
  | more {b e m rest : Bytes} {a : α} {l : List α} : item b a e → Blanks e (0x2c :: m) →
      Items close item m l rest → Items close item b (a :: l) rest

/-- A list in brackets. -/
inductive Bracketed (item : Bytes → α → Bytes → Prop) : Bytes → List α → Bytes → Prop
  | empty {b c rest : Bytes} : Blanks b (0x5b :: c) → Blanks c (0x5d :: rest) →
      Bracketed item b [] rest
  | items {b c rest : Bytes} {l : List α} : Blanks b (0x5b :: c) → Items 0x5d item c l rest →
      Bracketed item b l rest

/-- A list that is all there is. -/
def IsList (item : Bytes → α → Bytes → Prop) (b : Bytes) (l : List α) : Prop :=
  ∃ rest, Bracketed item b l rest ∧ Blanks rest []

/-- A reader finds the items that octets start with.  They are not empty, do not start like the end
of a list, and do not depend on what follows them. -/
structure Finds (read : Bytes → Option (α × Bytes)) (item : Bytes → α → Bytes → Prop) : Prop where
  eq_some_iff : ∀ b a rest, read b = some (a, rest) ↔ item b a rest
  length_lt : ∀ b a rest, item b a rest → rest.length < b.length
  opens : ∀ b a rest, item b a rest → readMark? 0x5d b = none
  append : ∀ b a rest, item b a rest → ∀ q, item (b ++ q) a (rest ++ q)

section lists
variable {read : Bytes → Option (α × Bytes)} {item : Bytes → α → Bytes → Prop} {l : List α}

theorem items_of_readItems? (h : Finds read item) {fuel : Nat} {done found : List α}
    (hread : readItems? read fuel done b = some (found, rest)) :
    ∃ l, found = done.reverse ++ l ∧ Items 0x5d item b l rest := by
  induction fuel generalizing done b with
  | zero => cases hread
  | succ fuel ih =>
      rw [readItems?] at hread
      split at hread
      · cases hread
      · next a e hitem =>
        have hitem := (h.eq_some_iff _ _ _).mp hitem
        split at hread
        · next m hcomma =>
          obtain ⟨l, rfl, hl⟩ := ih hread
          refine ⟨a :: l, ?_, .more hitem (blanks_of_readMark? hcomma) hl⟩
          rw [List.reverse_cons, List.append_assoc]
          rfl
        · split at hread
          · next c hclose =>
            cases hread
            have hclose := blanks_of_readMark? hclose
            exact ⟨[a], List.reverse_cons, .last hitem hclose⟩
          · cases hread

theorem Items.length_lt (hitem : ∀ b a rest, item b a rest → rest.length < b.length)
    {close : UInt8} (h : Items close item b l rest) : rest.length < b.length := by
  induction h with
  | last ha hclose => exact Nat.lt_trans hclose.length_lt (hitem _ _ _ ha)
  | more ha hcomma _ ih => exact Nat.lt_trans ih (Nat.lt_trans hcomma.length_lt (hitem _ _ _ ha))

theorem Items.opens (hitem : ∀ b a rest, item b a rest → readMark? 0x5d b = none)
    {close : UInt8} (h : Items close item b l rest) : readMark? 0x5d b = none := by
  cases h with
  | last ha => exact hitem _ _ _ ha
  | more ha => exact hitem _ _ _ ha

theorem readItems?_of_items (h : Finds read item) (hitems : Items 0x5d item b l rest) {fuel : Nat}
    (hfuel : b.length ≤ fuel) (done : List α) :
    readItems? read fuel done b = some (done.reverse ++ l, rest) := by
  induction hitems generalizing fuel done with
  | @last b e rest a ha hclose =>
      have hlength := h.length_lt _ _ _ ha
      obtain ⟨fuel, rfl⟩ : ∃ k, fuel = k + 1 := ⟨fuel - 1, by omega⟩
      rw [readItems?, (h.eq_some_iff _ _ _).mpr ha]
      simp only
      rw [readMark?_eq_none hclose (by decide) (by decide),
        (readMark?_eq_some_iff (by decide)).mpr hclose]
      simp
  | @more b e m rest a l ha hcomma _ ih =>
      have hlength := h.length_lt _ _ _ ha
      have hlength' := hcomma.length_lt
      obtain ⟨fuel, rfl⟩ : ∃ k, fuel = k + 1 := ⟨fuel - 1, by omega⟩
      rw [readItems?, (h.eq_some_iff _ _ _).mpr ha]
      simp only [(readMark?_eq_some_iff (by decide)).mpr hcomma]
      rw [ih (by omega), List.reverse_cons, List.append_assoc]
      rfl

/-- Reads a list, whatever stands behind it. -/
def readBracketed? (read : Bytes → Option (α × Bytes)) (b : Bytes) : Option (List α × Bytes) :=
  match readMark? 0x5b b with
  | none => none
  | some b =>
    match readMark? 0x5d b with
    | some b => some ([], b)
    | none => readItems? read b.length [] b

theorem readList?_eq (read : Bytes → Option (α × Bytes)) (b : Bytes) : readList? read b =
    (readBracketed? read b).bind (fun r => if dropBlanks r.2 = [] then some r.1 else none) := by
  unfold readList? readBracketed?
  cases readMark? 0x5b b with
  | none => rfl
  | some c =>
      dsimp only
      cases readMark? 0x5d c with
      | some d => rfl
      | none =>
          dsimp only
          cases readItems? read c.length [] c <;> rfl

theorem readBracketed?_eq_some_iff (h : Finds read item) :
    readBracketed? read b = some (l, rest) ↔ Bracketed item b l rest := by
  unfold readBracketed?
  constructor
  · intro hread
    split at hread
    · cases hread
    · next c hopen =>
      have hopen := blanks_of_readMark? hopen
      split at hread
      · next d hclose =>
        cases hread
        exact .empty hopen (blanks_of_readMark? hclose)
      · obtain ⟨l', rfl, hl⟩ := items_of_readItems? h hread
        exact .items hopen hl
  · intro hlist
    cases hlist with
    | empty hopen hclose =>
        rw [(readMark?_eq_some_iff (by decide)).mpr hopen]
        simp only
        rw [(readMark?_eq_some_iff (by decide)).mpr hclose]
    | items hopen hitems =>
        rw [(readMark?_eq_some_iff (by decide)).mpr hopen]
        simp only [hitems.opens h.opens]
        exact readItems?_of_items h hitems (Nat.le_refl _) []

theorem blanks_nil_iff : Blanks b [] ↔ dropBlanks b = [] :=
  ⟨fun h => h.dropBlanks_eq, blanks_of_dropBlanks_eq⟩

theorem readList?_eq_some_iff (h : Finds read item) :
    readList? read b = some l ↔ IsList item b l := by
  rw [readList?_eq, Option.bind_eq_some_iff]
  unfold IsList
  simp only [Prod.exists, readBracketed?_eq_some_iff h, blanks_nil_iff]
  constructor
  · rintro ⟨l', rest, hlist, hend⟩
    split at hend
    · next hrest =>
      cases hend
      exact ⟨rest, hlist, hrest⟩
    · cases hend
  · rintro ⟨rest, hlist, hrest⟩
    exact ⟨l, rest, hlist, if_pos hrest⟩

theorem Items.append (hitem : ∀ b a rest, item b a rest → ∀ q, item (b ++ q) a (rest ++ q))
    {close : UInt8} (h : Items close item b l rest) (q : Bytes) :
    Items close item (b ++ q) l (rest ++ q) := by
  induction h with
  | last ha hclose => exact .last (hitem _ _ _ ha q) (hclose.append q)
  | more ha hcomma _ ih => exact .more (hitem _ _ _ ha q) (hcomma.append q) ih

/-- Behind a list there may be blanks, and nothing else. -/
theorem IsList.append (h : Finds read item) {q : Bytes} {l' : List α} (hl : IsList item b l)
    (hl' : IsList item (b ++ q) l') : Blanks q [] := by
  obtain ⟨rest, hlist, hrest⟩ := hl
  obtain ⟨rest', hlist', hrest'⟩ := hl'
  have hsame : Bracketed item (b ++ q) l (rest ++ q) := by
    cases hlist with
    | empty hopen hclose => exact .empty (hopen.append q) (hclose.append q)
    | items hopen hitems => exact .items (hopen.append q) (hitems.append h.append q)
  have heq := (readBracketed?_eq_some_iff h).mpr hsame
  rw [(readBracketed?_eq_some_iff h).mpr hlist'] at heq
  cases heq
  exact (hrest.append q).nil_of_nil hrest'

end lists

/-! ### Entries -/

/-- A field of a record, as far as anybody looks at it. -/
inductive Field where
  | api (s : String)
  | body (s : String)
  | other

/-- The name of an operation, if a field has one. -/
def Field.api? : Field → Option String
  | .api s => some s
  | _ => none

/-- The body of an operation, if a field has one. -/
def Field.body? : Field → Option String
  | .body s => some s
  | _ => none

/-- Octets that start with a field: its name, a colon and its value. -/
inductive IsField : Bytes → Field → Bytes → Prop
  | api {b c v rest : Bytes} {s : String} : Quotes b "api" c → Blanks c (0x3a :: v) →
      Quotes v s rest → IsField b (.api s) rest
  | body {b c v rest : Bytes} {s : String} : Quotes b "body" c → Blanks c (0x3a :: v) →
      Quotes v s rest → IsField b (.body s) rest
  | other {b c d v rest : Bytes} {name : String} : Quotes b name c → name ≠ "api" →
      name ≠ "body" → Blanks c (0x3a :: d) → Blanks d v → Unread .value v rest →
        IsField b .other rest

/-- Octets that start with an entry. -/
inductive IsEntry : Bytes → Operation → Bytes → Prop
  /-- A record with one name and one body. -/
  | record {b c rest : Bytes} {l : List Field} {o : Operation} : Blanks b (0x7b :: c) →
      Items 0x7d IsField c l rest → l.filterMap Field.api? = [o.api] →
        l.filterMap Field.body? = [o.body] → IsEntry b o rest
  /-- A list of the name and the body. -/
  | pair {b c d e f rest : Bytes} {o : Operation} : Blanks b (0x5b :: c) → Quotes c o.api d →
      Blanks d (0x2c :: e) → Quotes e o.body f → Blanks f (0x5d :: rest) → IsEntry b o rest

def readField? (b : Bytes) : Option (Field × Bytes) :=
  (readString? (dropBlanks b)).bind (fun r => (readMark? 0x3a r.2).bind (fun b =>
    if r.1 = "api" then (readString? (dropBlanks b)).map (fun r => (.api r.1, r.2))
    else if r.1 = "body" then (readString? (dropBlanks b)).map (fun r => (.body r.1, r.2))
    else (skip? b).map (fun b => (.other, b))))

section fields
variable {api body : Option String} {f : Field} {e : Bytes} {o : Operation}

theorem readFields?_succ (fuel : Nat) (api body : Option String) (b : Bytes) :
    readFields? (fuel + 1) api body b = (readField? b).bind (fun r =>
      if (api.isSome ∧ r.1.api?.isSome) ∨ (body.isSome ∧ r.1.body?.isSome) then none
      else match readMark? 0x2c r.2 with
        | some b => readFields? fuel (api.or r.1.api?) (body.or r.1.body?) b
        | none => (readMark? 0x7d r.2).bind (fun b => (api.or r.1.api?).bind (fun api =>
          (body.or r.1.body?).bind (fun body => some (⟨api, body⟩, b))))) := by
  rw [readFields?, readField?]
  cases readString? (dropBlanks b) with
  | none => rfl
  | some named =>
      obtain ⟨name, c⟩ := named
      cases hcolon : readMark? 0x3a c with
      | none => simp [hcolon]
      | some d =>
          simp only [Option.bind_eq_bind, Option.bind_some, hcolon]
          by_cases hname : name = "api"
          · rcases readString? (dropBlanks d) with _ | ⟨s, m⟩
            · simp [hname]
            · cases hmark : readMark? 0x2c m <;> cases api <;>
                simp [hname, hmark, Field.api?, Field.body?]
          · by_cases hname' : name = "body"
            · rcases readString? (dropBlanks d) with _ | ⟨s, m⟩
              · simp [hname']
              · cases hmark : readMark? 0x2c m <;> cases body <;>
                  simp [hname', hmark, Field.api?, Field.body?]
            · rcases skip? d with _ | m
              · simp [hname, hname']
              · cases hmark : readMark? 0x2c m <;>
                  simp [hname, hname', hmark, Field.api?, Field.body?]

theorem isField_of_readField? (h : readField? b = some (f, e)) : IsField b f e := by
  obtain ⟨⟨name, c⟩, hname, hmark⟩ := Option.bind_eq_some_iff.mp h
  obtain ⟨d, hcolon, hvalue⟩ := Option.bind_eq_some_iff.mp hmark
  have hname := readString?_eq_some_iff.mp hname
  have hcolon := blanks_of_readMark? hcolon
  dsimp only at hvalue
  split at hvalue
  · next hapi =>
    obtain ⟨⟨s, e⟩, hs, heq⟩ := Option.map_eq_some_iff.mp hvalue
    cases heq
    rw [hapi] at hname
    exact .api hname hcolon (readString?_eq_some_iff.mp hs)
  · next hapi =>
    split at hvalue
    · next hbody =>
      obtain ⟨⟨s, e⟩, hs, heq⟩ := Option.map_eq_some_iff.mp hvalue
      cases heq
      rw [hbody] at hname
      exact .body hname hcolon (readString?_eq_some_iff.mp hs)
    · next hbody =>
      obtain ⟨e, hskip, heq⟩ := Option.map_eq_some_iff.mp hvalue
      cases heq
      obtain ⟨v, hblanks, hv⟩ := unread_of_skip? hskip
      exact .other hname hapi hbody hcolon hblanks hv

theorem readField?_of_isField (h : IsField b f e) (hend : Ends e) :
    readField? b = some (f, e) := by
  have hcolon : isBlankOctet 0x3a = false := by decide
  rw [readField?]
  cases h with
  | api hname hmark hvalue =>
      simp [readString?_eq_some_iff.mpr hname, (readMark?_eq_some_iff hcolon).mpr hmark,
        readString?_eq_some_iff.mpr hvalue]
  | body hname hmark hvalue =>
      simp [readString?_eq_some_iff.mpr hname, (readMark?_eq_some_iff hcolon).mpr hmark,
        readString?_eq_some_iff.mpr hvalue]
  | other hname hne hne' hmark hblanks hvalue =>
      simp [readString?_eq_some_iff.mpr hname, (readMark?_eq_some_iff hcolon).mpr hmark, hne, hne',
        skip?_of_unread hblanks hvalue hend]

/-- What was found so far stands before what a field adds, unless that makes two. -/
theorem toList_or {found added : Option String} (h : ¬ (found.isSome ∧ added.isSome)) :
    (found.or added).toList = found.toList ++ added.toList := by
  cases found with
  | none => cases added <;> rfl
  | some s =>
      cases added with
      | none => rfl
      | some t => exact absurd ⟨rfl, rfl⟩ h

theorem filterMap_cons_toList {g : Field → Option String} (l : List Field) :
    (f :: l).filterMap g = (g f).toList ++ l.filterMap g := by
  rw [List.filterMap_cons]
  cases g f <;> rfl

theorem fields_of_readFields? {fuel : Nat} (h : readFields? fuel api body b = some (o, rest)) :
    ∃ l, Items 0x7d IsField b l rest ∧ api.toList ++ l.filterMap Field.api? = [o.api] ∧
      body.toList ++ l.filterMap Field.body? = [o.body] := by
  induction fuel generalizing api body b with
  | zero => cases h
  | succ fuel ih =>
      rw [readFields?_succ] at h
      obtain ⟨⟨f, e⟩, hfield, h⟩ := Option.bind_eq_some_iff.mp h
      have hf := isField_of_readField? hfield
      dsimp only at h
      split at h
      · cases h
      next hnew =>
      rw [not_or] at hnew
      split at h
      · next m hcomma =>
        obtain ⟨l, hl, hapis, hbodies⟩ := ih h
        refine ⟨f :: l, .more hf (blanks_of_readMark? hcomma) hl, ?_, ?_⟩
        · rw [filterMap_cons_toList, ← List.append_assoc, ← toList_or hnew.1, hapis]
        · rw [filterMap_cons_toList, ← List.append_assoc, ← toList_or hnew.2, hbodies]
      · obtain ⟨c, hclose, h⟩ := Option.bind_eq_some_iff.mp h
        obtain ⟨s, hapi, h⟩ := Option.bind_eq_some_iff.mp h
        obtain ⟨t, hbody, h⟩ := Option.bind_eq_some_iff.mp h
        cases h
        refine ⟨[f], .last hf (blanks_of_readMark? hclose), ?_, ?_⟩
        · rw [filterMap_cons_toList, ← List.append_assoc, ← toList_or hnew.1, hapi]
          rfl
        · rw [filterMap_cons_toList, ← List.append_assoc, ← toList_or hnew.2, hbody]
          rfl

/-- Where there is one name in all, a field adds none to one that was found. -/
theorem not_both {found added : Option String} {l : List String} {s : String}
    (h : found.toList ++ (added.toList ++ l) = [s]) : ¬ (found.isSome ∧ added.isSome) := by
  cases found with
  | none => simp
  | some t => cases added <;> simp at h ⊢

theorem IsField.length_lt (h : IsField b f rest) : rest.length < b.length := by
  cases h with
  | api hname hcolon hvalue =>
      have hname := hname.length_lt
      have hcolon := hcolon.length_lt
      have hvalue := hvalue.length_lt
      omega
  | body hname hcolon hvalue =>
      have hname := hname.length_lt
      have hcolon := hcolon.length_lt
      have hvalue := hvalue.length_lt
      omega
  | other hname _ _ hcolon hblanks hvalue =>
      have hname := hname.length_lt
      have hcolon := hcolon.length_lt
      have hblanks := hblanks.length_le
      have hvalue := hvalue.length_le
      omega

theorem IsField.append (h : IsField b f rest) (q : Bytes) : IsField (b ++ q) f (rest ++ q) := by
  cases h with
  | api hname hcolon hvalue => exact .api (hname.append q) (hcolon.append q) (hvalue.append q)
  | body hname hcolon hvalue => exact .body (hname.append q) (hcolon.append q) (hvalue.append q)
  | other hname hapi hbody hcolon hblanks hvalue =>
      exact .other (hname.append q) hapi hbody (hcolon.append q) (hblanks.append q)
        (hvalue.append q)

/-- A field is read, and what it adds stands with what was found before it. -/
theorem readFields?_of_isField {l : List Field} (hf : IsField b f e) (hend : Ends e)
    (hapi : api.toList ++ (f :: l).filterMap Field.api? = [o.api])
    (hbody : body.toList ++ (f :: l).filterMap Field.body? = [o.body]) (fuel : Nat) :
    (api.or f.api?).toList ++ l.filterMap Field.api? = [o.api] ∧
      (body.or f.body?).toList ++ l.filterMap Field.body? = [o.body] ∧
      readFields? (fuel + 1) api body b = match readMark? 0x2c e with
        | some b => readFields? fuel (api.or f.api?) (body.or f.body?) b
        | none => (readMark? 0x7d e).bind (fun b => (api.or f.api?).bind (fun api =>
          (body.or f.body?).bind (fun body => some (⟨api, body⟩, b)))) := by
  rw [filterMap_cons_toList] at hapi hbody
  have hapi' := not_both hapi
  have hbody' := not_both hbody
  rw [toList_or hapi', toList_or hbody', List.append_assoc, List.append_assoc]
  refine ⟨hapi, hbody, ?_⟩
  rw [readFields?_succ, readField?_of_isField hf hend, Option.bind_some,
    if_neg (not_or.mpr ⟨hapi', hbody'⟩)]

theorem readFields?_of_fields {l : List Field} (h : Items 0x7d IsField b l rest) {fuel : Nat}
    (hfuel : b.length ≤ fuel) (hapi : api.toList ++ l.filterMap Field.api? = [o.api])
    (hbody : body.toList ++ l.filterMap Field.body? = [o.body]) :
    readFields? fuel api body b = some (o, rest) := by
  induction h generalizing fuel api body with
  | @last b e rest f hf hclose =>
      have hlength := hf.length_lt
      obtain ⟨fuel, rfl⟩ : ∃ k, fuel = k + 1 := ⟨fuel - 1, by omega⟩
      obtain ⟨hapi, hbody, hread⟩ := readFields?_of_isField hf (hclose.ends (by simp)) hapi hbody
        fuel
      rw [List.filterMap_nil, List.append_nil, Option.toList_eq_singleton_iff] at hapi hbody
      rw [hread, readMark?_eq_none hclose (by decide) (by decide)]
      simp [(readMark?_eq_some_iff (by decide)).mpr hclose, hapi, hbody]
  | @more b e m rest f l hf hcomma _ ih =>
      have hlength := hf.length_lt
      have hlength' := hcomma.length_lt
      obtain ⟨fuel, rfl⟩ : ∃ k, fuel = k + 1 := ⟨fuel - 1, by omega⟩
      obtain ⟨hapi, hbody, hread⟩ := readFields?_of_isField hf (hcomma.ends (by simp)) hapi hbody
        fuel
      rw [hread, (readMark?_eq_some_iff (by decide)).mpr hcomma]
      exact ih (by omega) hapi hbody

theorem isEntry_of_readEntry (h : readEntry? b = some (o, rest)) : IsEntry b o rest := by
  unfold readEntry? at h
  cases hopen : dropBlanks b with
  | nil =>
      rw [hopen] at h
      cases h
  | cons x c =>
      have hopen' := blanks_of_dropBlanks_eq hopen
      rw [hopen] at h
      dsimp only at h
      split at h
      · next hx =>
        rw [hx] at hopen'
        obtain ⟨l, hl, hapi, hbody⟩ := fields_of_readFields? h
        exact .record hopen' hl hapi hbody
      split at h
      · next hx =>
        rw [hx] at hopen'
        obtain ⟨⟨api, d⟩, hapi, h⟩ := Option.bind_eq_some_iff.mp h
        obtain ⟨e, hcomma, h⟩ := Option.bind_eq_some_iff.mp h
        obtain ⟨⟨body, f⟩, hbody, h⟩ := Option.bind_eq_some_iff.mp h
        obtain ⟨g, hclose, h⟩ := Option.bind_eq_some_iff.mp h
        cases h
        exact .pair hopen' (readString?_eq_some_iff.mp hapi)
          (blanks_of_readMark? hcomma) (readString?_eq_some_iff.mp hbody)
          (blanks_of_readMark? hclose)
      · cases h

theorem readEntry?_of_isEntry (h : IsEntry b o rest) : readEntry? b = some (o, rest) := by
  unfold readEntry?
  cases h with
  | record hopen hfields hapi hbody =>
      rw [(blanks_cons_iff (by decide)).mp hopen]
      exact readFields?_of_fields hfields (Nat.le_refl _) hapi hbody
  | pair hopen hapi hcomma hbody hclose =>
      rw [(blanks_cons_iff (by decide)).mp hopen]
      simp [readString?_eq_some_iff.mpr hapi, (readMark?_eq_some_iff (by decide)).mpr hcomma,
        readString?_eq_some_iff.mpr hbody, (readMark?_eq_some_iff (by decide)).mpr hclose]

theorem finds_entries : Finds readEntry? IsEntry where
  eq_some_iff _ _ _ := ⟨isEntry_of_readEntry, readEntry?_of_isEntry⟩
  length_lt b o rest h := by
    cases h with
    | record hopen hfields =>
        have hopen := hopen.length_lt
        have hfields := hfields.length_lt fun _ _ _ => IsField.length_lt
        omega
    | pair hopen hapi hcomma hbody hclose =>
        have hopen := hopen.length_lt
        have hapi := hapi.length_lt
        have hcomma := hcomma.length_lt
        have hbody := hbody.length_lt
        have hclose := hclose.length_lt
        omega
  opens b o rest h := by
    cases h with
    | record hopen => exact readMark?_eq_none hopen (by decide) (by decide)
    | pair hopen => exact readMark?_eq_none hopen (by decide) (by decide)
  append b o rest h q := by
    cases h with
    | record hopen hfields hapi hbody =>
        exact .record (hopen.append q) (hfields.append (fun _ _ _ => IsField.append) q) hapi hbody
    | pair hopen hapi hcomma hbody hclose =>
        exact .pair (hopen.append q) (hapi.append q) (hcomma.append q) (hbody.append q)
          (hclose.append q)

theorem finds_strings : Finds (fun b => readString? (dropBlanks b)) Quotes where
  eq_some_iff _ _ _ := readString?_eq_some_iff
  length_lt _ _ _ := Quotes.length_lt
  opens b s rest h := by
    obtain ⟨c, hopen, -⟩ := h
    exact readMark?_eq_none hopen (by decide) (by decide)
  append _ _ _ := Quotes.append

end fields

/-! ### Batches and answers -/

/-- Octets that write a batch. -/
def Writes (b : Bytes) (l : List Operation) : Prop := IsList IsEntry b l

/-- Octets that write an answer. -/
def WritesStrings (b : Bytes) (l : List String) : Prop := IsList Quotes b l

/-- The reader finds the batches that octets write. -/
theorem read?_eq_some_iff {l : List Operation} : read? b = some l ↔ Writes b l :=
  readList?_eq_some_iff finds_entries

example : read? (Bytes.ofText
    "[\x7b\"x\":[-1.5e3,\x7b\x7d],\"body\":\"\\ud83d\\ude00\",\"api\":\"a\"\x7d, [\"b\",\"\"]]") =
      some [⟨"a", "😀"⟩, ⟨"b", ""⟩] := by decide +kernel

theorem readStrings?_eq_some_iff {l : List String} : readStrings? b = some l ↔ WritesStrings b l :=
  readList?_eq_some_iff finds_strings

/-- Octets write one batch at most. -/
theorem Writes.unique {l l' : List Operation} (h : Writes b l) (h' : Writes b l') : l = l' := by
  have heq := read?_eq_some_iff.mpr h
  rw [read?_eq_some_iff.mpr h'] at heq
  exact (Option.some.inj heq).symm

theorem WritesStrings.unique {l l' : List String} (h : WritesStrings b l)
    (h' : WritesStrings b l') : l = l' := by
  have heq := readStrings?_eq_some_iff.mpr h
  rw [readStrings?_eq_some_iff.mpr h'] at heq
  exact (Option.some.inj heq).symm

theorem writes_encode (l : List Operation) : Writes (encode l) l :=
  read?_eq_some_iff.mp (read?_encode l)

theorem writesStrings_encodeStrings (l : List String) : WritesStrings (encodeStrings l) l :=
  readStrings?_eq_some_iff.mp (readStrings?_encodeStrings l)

/-- A batch that something stands behind is none, and neither is one whose end is missing. -/
theorem Writes.append {l l' : List Operation} {q : Bytes} (h : Writes b l)
    (h' : Writes (b ++ q) l') : Blanks q [] :=
  IsList.append finds_entries h h'

end Batch
end CredentialServer
