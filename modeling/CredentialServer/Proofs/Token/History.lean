import CredentialServer.Token.Registry
import Mathlib.Data.Set.Card

/-! # What a registry answers, told from its history

A registry forgets expired tokens only when it grants a new one, so what it holds depends on every
clock that its grants read, and these may go back.  A history has just the successes of a run of
calls, latest first.  `snapshot?` tells from it what a registry holds of a token, and `verdict` what
it answers to a claim: both look at the latest grant of the token and at what came after it.

`Traced.Faithful` is the invariant that ties the two together; one call keeps it (`faithful_step`),
hence a run does (`faithful_run`).  Main statement: `answers_of_run`. -/

namespace CredentialServer
namespace Registry

/-! ### Histories -/

/-- A grant that succeeded, with the clock that it read and the token that it returned. -/
structure Issue where
  clock : Instant
  subject : String
  lifespan : Span
  token : String
  deriving DecidableEq, Repr

/-- The instant from which the token of a grant is no longer accepted. -/
def Issue.expires (g : Issue) : Instant := g.clock + g.lifespan

/-- A success that leaves a mark in a registry. -/
inductive Event where
  | granted (g : Issue)
  | claimed (clock : Instant) (token subject : String)
  deriving DecidableEq, Repr

/-- What happened to a registry, latest first. -/
abbrev History := List Event

namespace Event

/-- The grant, if this is one that returned a given token. -/
def grantOf? (token : String) : Event → Option Issue
  | granted g => if g.token = token then some g else none
  | claimed .. => none

/-- Whether this is a grant that read a clock at or past an instant. -/
def forgets (expires : Instant) : Event → Bool
  | granted g => decide (expires ≤ g.clock)
  | claimed .. => false

/-- Whether this is a claim of a given token. -/
def isClaimOf (token : String) : Event → Bool
  | granted _ => false
  | claimed _ t _ => decide (t = token)

theorem grantOf?_eq_some_iff {token : String} {e : Event} {g : Issue} :
    e.grantOf? token = some g ↔ e = granted g ∧ g.token = token := by
  cases e with
  | granted g' =>
      simp only [grantOf?, granted.injEq, Option.ite_none_right_eq_some, Option.some.injEq]
      constructor
      · rintro ⟨h, rfl⟩
        exact ⟨rfl, h⟩
      · rintro ⟨rfl, h⟩
        exact ⟨h, rfl⟩
  | claimed => simp [grantOf?]

end Event

/-- The latest grant of a token and what happened after it, latest first. -/
def latest? (token : String) : History → Option (Issue × History)
  | [] => none
  | e :: rest =>
    match e.grantOf? token with
    | some g => some (g, [])
    | none => (latest? token rest).map (fun found => (found.1, e :: found.2))

theorem latest?_cons_of_some {token : String} {e : Event} {g : Issue}
    (he : e.grantOf? token = some g) (h : History) : latest? token (e :: h) = some (g, []) := by
  simp only [latest?, he]

theorem latest?_cons_of_none {token : String} {e : Event} (he : e.grantOf? token = none)
    (h : History) :
    latest? token (e :: h) = (latest? token h).map (fun found => (found.1, e :: found.2)) := by
  simp only [latest?, he]

/-- What a registry with this history holds of a token. -/
def snapshot? (h : History) (token : String) : Option TokenEntry :=
  match latest? token h with
  | none => none
  | some (g, later) =>
    if later.any (Event.forgets g.expires) then none
    else some ⟨token, g.subject, g.expires, later.any (Event.isClaimOf token)⟩

/-- What a registry with this history answers to the claim of a token. -/
def verdict (h : History) (token : String) (now : Instant) : Except TokenError String :=
  match latest? token h with
  | none => .error .unrecognized
  | some (g, later) =>
    if later.any (Event.forgets g.expires) then .error .unrecognized
    else if g.expires ≤ now then .error .expired
    else if later.any (Event.isClaimOf token) then .error .alreadyClaimed
    else .ok g.subject

theorem latest?_eq_some_iff {token : String} {h : History} {g : Issue} {later : History} :
    latest? token h = some (g, later) ↔ ∃ earlier, h = later ++ .granted g :: earlier ∧
      g.token = token ∧ ∀ e ∈ later, e.grantOf? token = none := by
  induction h generalizing later with
  | nil => simp [latest?]
  | cons e rest ih =>
      cases he : e.grantOf? token with
      | some g' =>
          rw [latest?_cons_of_some he]
          obtain ⟨rfl, ht⟩ := Event.grantOf?_eq_some_iff.mp he
          constructor
          · intro h
            cases h
            exact ⟨rest, rfl, ht, by simp⟩
          · rintro ⟨earlier, heq, -, hno⟩
            cases later with
            | nil =>
                cases heq
                rfl
            | cons e' later =>
                obtain ⟨rfl, -⟩ := List.cons.inj heq
                have := hno _ List.mem_cons_self
                rw [he] at this
                cases this
      | none =>
          rw [latest?_cons_of_none he]
          simp only [Option.map_eq_some_iff, Prod.exists, Prod.mk.injEq]
          constructor
          · rintro ⟨g', later', hl, rfl, rfl⟩
            obtain ⟨earlier, rfl, ht, hno⟩ := ih.mp hl
            exact ⟨earlier, rfl, ht, List.forall_mem_cons.mpr ⟨he, hno⟩⟩
          · rintro ⟨earlier, heq, ht, hno⟩
            cases later with
            | nil =>
                obtain ⟨rfl, -⟩ := List.cons.inj heq
                have := Event.grantOf?_eq_some_iff.mpr ⟨rfl, ht⟩
                rw [he] at this
                cases this
            | cons e' later =>
                obtain ⟨rfl, hrest⟩ := List.cons.inj heq
                refine ⟨g, later, ih.mpr ⟨earlier, hrest, ht, ?_⟩, rfl, rfl⟩
                exact fun x hx => hno x (List.mem_cons_of_mem _ hx)

/-! ### How one more event changes what is held -/

theorem snapshot?_granted (g : Issue) (h : History) (token : String) :
    snapshot? (.granted g :: h) token =
      if g.token = token then some ⟨token, g.subject, g.expires, false⟩
      else (snapshot? h token).filter (fun e => !e.hasExpired g.clock) := by
  by_cases ht : g.token = token
  · have he : (Event.granted g).grantOf? token = some g := if_pos ht
    rw [if_pos ht, snapshot?, latest?_cons_of_some he]
    rfl
  · have he : (Event.granted g).grantOf? token = none := if_neg ht
    rw [if_neg ht, snapshot?, latest?_cons_of_none he, snapshot?]
    cases latest? token h with
    | none => rfl
    | some found =>
        obtain ⟨g', later⟩ := found
        simp only [Option.map_some, List.any_cons, Event.forgets, Event.isClaimOf, Bool.false_or]
        cases later.any (Event.forgets g'.expires) with
        | true => simp
        | false =>
            by_cases hx : g'.expires ≤ g.clock <;> simp [TokenEntry.hasExpired, Option.filter, hx]

theorem snapshot?_claimed (clock : Instant) (t subject : String) (h : History) (token : String) :
    snapshot? (.claimed clock t subject :: h) token =
      (snapshot? h token).map (fun e => { e with claimed := decide (t = token) || e.claimed }) := by
  have he : (Event.claimed clock t subject).grantOf? token = none := rfl
  rw [snapshot?, latest?_cons_of_none he, snapshot?]
  cases latest? token h with
  | none => rfl
  | some found =>
      obtain ⟨g, later⟩ := found
      simp only [Option.map_some, List.any_cons, Event.forgets, Event.isClaimOf, Bool.false_or]
      cases later.any (Event.forgets g.expires) <;> simp

/-- The verdict on a claim is what the token that is held says. -/
theorem verdict_eq (h : History) (token : String) (now : Instant) :
    verdict h token now =
      match snapshot? h token with
      | none => .error .unrecognized
      | some e =>
        if e.hasExpired now then .error .expired
        else if e.claimed then .error .alreadyClaimed
        else .ok e.subject := by
  unfold verdict snapshot?
  cases latest? token h with
  | none => rfl
  | some found =>
      obtain ⟨g, later⟩ := found
      cases hp : later.any (Event.forgets g.expires) with
      | true => simp [hp]
      | false => simp [hp, TokenEntry.hasExpired]

/-- A claim is granted just if the latest grant of the token has not expired, was not purged and was
not claimed since. -/
theorem verdict_eq_ok_iff {h : History} {token : String} {now : Instant} {subject : String} :
    verdict h token now = .ok subject ↔ ∃ g later, latest? token h = some (g, later) ∧
      later.any (Event.forgets g.expires) = false ∧ now < g.expires ∧
      later.any (Event.isClaimOf token) = false ∧ g.subject = subject := by
  unfold verdict
  cases latest? token h with
  | none => simp
  | some found =>
      obtain ⟨g, later⟩ := found
      have hlt : now < g.expires ↔ ¬ g.expires ≤ now := Int.not_le.symm
      simp only [Option.some.injEq, Prod.mk.injEq, and_assoc, exists_and_left, exists_eq_left']
      cases later.any (Event.forgets g.expires) with
      | true => simp
      | false =>
          by_cases hx : g.expires ≤ now
          · simp [hx, hlt]
          · cases later.any (Event.isClaimOf token) <;> simp [hx, hlt]

/-! ### Runs of calls -/

/-- A call of a registry with what it reads of its surroundings. -/
inductive Call where
  | grant (now : Moment) (subject : String) (lifespan : Span)
  | claim (now : Instant) (token : String)
  | lookup (token : String)

/-- A registry with its history. -/
structure Traced where
  registry : Registry
  history : History

namespace Traced

def start : Traced := ⟨empty, []⟩

/-- One call: a success is noted. -/
def step (s : Traced) : Call → Traced
  | .grant now subject lifespan =>
    match s.registry.grant now subject lifespan with
    | .ok (token, r) => ⟨r, .granted ⟨now.tokenClock, subject, lifespan, token⟩ :: s.history⟩
    | .error _ => s
  | .claim now token =>
    match s.registry.claim now token with
    | .ok (subject, r) => ⟨r, .claimed now token subject :: s.history⟩
    | .error _ => s
  | .lookup _ => s

/-- The calls of a run, one after the other. -/
def run (calls : List Call) : Traced := calls.foldl step start

/-- A registry holds what its history says: every token in it has the form of one, and every claim
that succeeded was the right answer at its time. -/
structure Faithful (s : Traced) : Prop where
  find : ∀ token, s.registry.entries.find? token = snapshot? s.history token
  wellFormed : ∀ token e, s.registry.entries.find? token = some e → Token.isWellFormed token = true
  judged : ∀ later earlier clock token subject,
    s.history = later ++ .claimed clock token subject :: earlier →
      verdict earlier token clock = .ok subject

theorem faithful_start : start.Faithful := by
  refine ⟨fun _ => rfl, ?_, ?_⟩
  · intro token e h
    cases h
  · intro later earlier clock token subject h
    simp [start] at h

theorem Faithful.claim_eq {s : Traced} (h : s.Faithful) (token : String) (now : Instant) :
    (s.registry.claim now token).map Prod.fst = verdict s.history token now := by
  rw [verdict_eq, ← h.find]
  unfold Registry.claim
  cases hf : s.registry.entries.find? token with
  | none => split <;> rfl
  | some e =>
      rw [if_pos (h.wellFormed token e hf)]
      cases hx : e.hasExpired now with
      | true => simp [Except.map, hx]
      | false => cases hc : e.claimed <;> simp [Except.map, hx, hc]

theorem faithful_grant {s : Traced} (h : s.Faithful) {now : Moment} {subject token : String}
    {lifespan : Span} {r : Registry}
    (hg : s.registry.grant now subject lifespan = .ok (token, r)) :
    Faithful ⟨r, .granted ⟨now.tokenClock, subject, lifespan, token⟩ :: s.history⟩ := by
  obtain ⟨-, -, hw, he⟩ := grant_eq_ok hg
  have find : ∀ t, r.entries.find? t = if token = t
      then some ⟨token, subject, now.tokenClock + lifespan, false⟩
      else (s.registry.entries.find? t).filter (fun e => !e.hasExpired now.tokenClock) := by
    intro t
    rw [he, NameMap.find?_insert, find?_purge]
    by_cases ht : t = token
    · rw [if_pos ht, if_pos ht.symm]
    · rw [if_neg ht, if_neg (Ne.symm ht)]
  refine ⟨?_, ?_, ?_⟩
  · intro t
    rw [find, snapshot?_granted, h.find]
    by_cases ht : token = t
    · simp [ht, Issue.expires]
    · simp [ht]
  · intro t e ht
    rw [find] at ht
    by_cases htt : token = t
    · exact htt ▸ hw
    · rw [if_neg htt, Option.filter_eq_some_iff] at ht
      exact h.wellFormed t e ht.1
  · intro later earlier clock t sub heq
    cases later with
    | nil => simp at heq
    | cons e later => exact h.judged later earlier clock t sub (List.cons.inj heq).2

theorem faithful_claim {s : Traced} (h : s.Faithful) {now : Instant} {subject token : String}
    {r : Registry} (hc : s.registry.claim now token = .ok (subject, r)) :
    Faithful ⟨r, .claimed now token subject :: s.history⟩ := by
  have hv := h.claim_eq token now
  rw [hc] at hv
  obtain ⟨hw, e, hf, -, -, -, rfl⟩ := claim_eq_ok_iff.mp hc
  refine ⟨?_, ?_, ?_⟩
  · intro t
    rw [NameMap.find?_insert, snapshot?_claimed, ← h.find]
    by_cases ht : t = token
    · subst ht
      simp [hf]
    · rw [if_neg ht]
      cases s.registry.entries.find? t <;> simp [Ne.symm ht]
  · intro t e' ht
    rw [NameMap.find?_insert] at ht
    by_cases htt : t = token
    · exact htt ▸ hw
    · rw [if_neg htt] at ht
      exact h.wellFormed t e' ht
  · intro later earlier clock t sub heq
    cases later with
    | nil =>
        cases heq
        exact hv.symm
    | cons e' later => exact h.judged later earlier clock t sub (List.cons.inj heq).2

theorem step_grant (s : Traced) (now : Moment) (subject : String) (lifespan : Span) :
    s.step (.grant now subject lifespan) = s ∨ ∃ token r,
      s.registry.grant now subject lifespan = .ok (token, r) ∧
        s.step (.grant now subject lifespan) =
          ⟨r, .granted ⟨now.tokenClock, subject, lifespan, token⟩ :: s.history⟩ := by
  simp only [step]
  cases s.registry.grant now subject lifespan with
  | ok result => exact .inr ⟨_, _, rfl, rfl⟩
  | error => exact .inl rfl

theorem step_claim (s : Traced) (now : Instant) (token : String) :
    s.step (.claim now token) = s ∨ ∃ subject r, s.registry.claim now token = .ok (subject, r) ∧
      s.step (.claim now token) = ⟨r, .claimed now token subject :: s.history⟩ := by
  simp only [step]
  cases s.registry.claim now token with
  | ok result => exact .inr ⟨_, _, rfl, rfl⟩
  | error => exact .inl rfl

theorem faithful_step {s : Traced} (h : s.Faithful) (c : Call) : (s.step c).Faithful := by
  cases c with
  | grant now subject lifespan =>
      rcases s.step_grant now subject lifespan with hs | ⟨token, r, hg, hs⟩
      · rw [hs]
        exact h
      · rw [hs]
        exact faithful_grant h hg
  | claim now token =>
      rcases s.step_claim now token with hs | ⟨subject, r, hc, hs⟩
      · rw [hs]
        exact h
      · rw [hs]
        exact faithful_claim h hc
  | lookup => exact h

theorem faithful_run (calls : List Call) : (run calls).Faithful := by
  unfold run
  suffices ∀ s : Traced, s.Faithful → (calls.foldl step s).Faithful from this _ faithful_start
  induction calls with
  | nil => exact fun s h => h
  | cons c calls ih => exact fun s h => ih _ (faithful_step h c)

/-! ### What a run can and cannot do -/

theorem Faithful.countP_isClaimOf_le_one {s : Traced} (h : s.Faithful) {g : Issue}
    {middle earlier : History} (newer : History) (hno : ∀ e ∈ middle, e.grantOf? g.token = none)
    (heq : s.history = newer ++ (middle ++ .granted g :: earlier)) :
    middle.countP (Event.isClaimOf g.token) ≤ 1 := by
  induction middle generalizing newer with
  | nil => simp
  | cons e middle ih =>
      obtain ⟨-, hno'⟩ := List.forall_mem_cons.mp hno
      cases he : e.isClaimOf g.token with
      | false =>
          rw [List.countP_cons_of_neg (by simp [he])]
          exact ih (newer ++ [e]) hno' (by simpa using heq)
      | true =>
          obtain ⟨clock, subject, rfl⟩ : ∃ c sub, e = .claimed c g.token sub := by
            cases e with
            | granted => cases he
            | claimed c t sub =>
                obtain rfl : t = g.token := by simpa [Event.isClaimOf] using he
                exact ⟨c, sub, rfl⟩
          obtain ⟨g', later, hl, -, -, hc, -⟩ :=
            verdict_eq_ok_iff.mp (h.judged newer (middle ++ .granted g :: earlier) _ _ _ heq)
          have hl' := latest?_eq_some_iff.mpr ⟨earlier, rfl, rfl, hno'⟩
          rw [hl'] at hl
          cases hl
          have hzero : middle.countP (Event.isClaimOf g.token) = 0 := by
            rw [List.countP_eq_zero]
            simpa [List.any_eq_false] using hc
          rw [List.countP_cons_of_pos he, hzero]

end Traced

/-- What came after a grant of a token and before the next grant of it, first things first. -/
def tenure (token : String) (later : History) : List Event :=
  later.reverse.takeWhile (fun e => (e.grantOf? token).isNone)

theorem Traced.Faithful.countP_tenure_le_one {s : Traced} (h : s.Faithful) {g : Issue}
    {later earlier : History} (heq : s.history = later ++ .granted g :: earlier) :
    (tenure g.token later).countP (Event.isClaimOf g.token) ≤ 1 := by
  let p : Event → Bool := fun e => (e.grantOf? g.token).isNone
  have hsplit : later = (later.reverse.dropWhile p).reverse ++
      (later.reverse.takeWhile p).reverse := by
    rw [← List.reverse_append, List.takeWhile_append_dropWhile, List.reverse_reverse]
  have hno : ∀ e ∈ (later.reverse.takeWhile p).reverse, e.grantOf? g.token = none := by
    intro e he
    have hp := List.all_eq_true.mp (List.all_takeWhile (l := later.reverse) (p := p)) e
      (List.mem_reverse.mp he)
    simpa [p] using hp
  unfold tenure
  rw [← List.countP_reverse]
  have heq' : s.history = (later.reverse.dropWhile p).reverse ++
      ((later.reverse.takeWhile p).reverse ++ .granted g :: earlier) := by
    rw [← List.append_assoc, ← hsplit]
    exact heq
  exact h.countP_isClaimOf_le_one _ hno heq'

theorem lookup_eq_ok_iff {r : Registry} {token : String} {e : TokenEntry} :
    r.lookup token = .ok e ↔ r.entries.find? token = some e := by
  unfold lookup
  cases r.entries.find? token <;> simp

/-- A grant leaves alone what has not expired when it is made. -/
theorem lookup_of_grant {r s : Registry} {now : Moment} {subject t : String} {lifespan : Span}
    (h : r.grant now subject lifespan = .ok (t, s)) {token : String} {e : TokenEntry}
    (he : r.lookup token = .ok e) (hx : e.hasExpired now.tokenClock = false) :
    s.lookup token = .ok e := by
  obtain ⟨-, hfree, -, hs⟩ := grant_eq_ok h
  have hf := lookup_eq_ok_iff.mp he
  have hkept : (r.purge now.tokenClock).entries.find? token = some e := by
    rw [find?_purge, hf, Option.filter_some, hx]
    rfl
  have hne : token ≠ t := by
    rintro rfl
    rw [hfree] at hkept
    cases hkept
  rw [lookup_eq_ok_iff, hs, NameMap.find?_insert, if_neg hne, hkept]

theorem size_eq_encard (r : Registry) :
    (r.size : ℕ∞) = {token | ∃ e, r.entries.find? token = some e}.encard := by
  have hset : {token | ∃ e, r.entries.find? token = some e} =
      (r.entries.names.toFinset : Set String) := by
    ext token
    simp [NameMap.mem_names_iff]
  rw [hset, Set.encard_coe_eq_coe_finsetCard, List.toFinset_card_of_nodup r.entries.nodup_names,
    NameMap.names, List.length_map]
  rfl

/-- **The answers of a registry are determined by its history.**  After any run of calls from the
empty registry, whatever clocks they read: a claim is answered by `verdict` and a look-up by
`snapshot?`, and the registry has as many tokens as the history says it holds.  Between a grant and
the next one of its token there is at most one successful claim of it, and a further grant leaves
alone every token that has not expired at its clock. -/
theorem answers_of_run (calls : List Call) :
    (∀ token now, ((Traced.run calls).registry.claim now token).map Prod.fst =
      verdict (Traced.run calls).history token now) ∧
    (∀ token, (Traced.run calls).registry.lookup token =
      match snapshot? (Traced.run calls).history token with
      | some e => .ok e
      | none => .error .unrecognized) ∧
    ((Traced.run calls).registry.size : ℕ∞) =
      {token | ∃ e, snapshot? (Traced.run calls).history token = some e}.encard ∧
    (∀ later g earlier, (Traced.run calls).history = later ++ .granted g :: earlier →
      (tenure g.token later).countP (Event.isClaimOf g.token) ≤ 1) ∧
    (∀ now subject lifespan t r,
      (Traced.run calls).registry.grant now subject lifespan = .ok (t, r) →
      ∀ token e, (Traced.run calls).registry.lookup token = .ok e →
        e.hasExpired now.tokenClock = false → r.lookup token = .ok e) := by
  have h := Traced.faithful_run calls
  refine ⟨h.claim_eq, ?_, ?_, ?_, ?_⟩
  · intro token
    rw [← h.find]
    rfl
  · simp only [← h.find]
    exact size_eq_encard _
  · intro later g earlier heq
    exact h.countP_tenure_le_one heq
  · intro now subject lifespan t r hg token e he hx
    exact lookup_of_grant hg he hx

end Registry
end CredentialServer
