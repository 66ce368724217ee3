import CredentialServer.Proofs.Server.Interleaving
import CredentialServer.Proofs.Server.Mediation

/-! # Where accepted tokens come from

However requests are interleaved, a token that is accepted was granted before, in the same run, by
an operation that asked for it in the name of the principal that it is accepted for.  `Backed` is
the invariant: every token that is held has a grant behind it, and if it is not claimed, then nobody
claimed it since.  One turn keeps it (`backed_succ`), hence a run does (`backed_after`).  Main
statement: `exists_source_of_load`. -/

namespace CredentialServer
namespace World

/-! ### Claims and grants of a run -/

/-- Turn number `k` is the authentication of request `i` by a token, and the claim succeeds. -/
structure Claims (w : World) (requests : List Request) (turns : List Turn) (k i : Nat)
    (q : Request) (now : Moment) (token principal : String) : Prop where
  acts : ActsAt w requests turns k i q now .arrived
  length : q.body.length ≤ longestBatch
  chosen : Method.all.find? (Method.isAttempted q.credentials) = some .token
  shown : ∃ value, q.credentials.tokens.head? = some value ∧ Method.headerText? value = some token
  claimed : ∃ r, (Traffic.after w requests turns k).registry.claim now.tokenClock token =
    .ok (principal, r)

/-- Turn number `k` is operation number `n` of request `j`, it is run under a privilege to have
tokens made, and a token is granted. -/
structure Issues (w : World) (requests : List Request) (turns : List Turn) (k j n : Nat)
    (now : Moment) (acting : Account) (o : Operation) (scope : Group) (lifespan : Span)
    (token : String) : Prop where
  acts : ∃ q l answers, ActsAt w requests turns k j q now (.running acting l answers) ∧
    answers.length = n ∧ l[n]? = some o
  held : w.engine.privilegeOf acting.principal o.api = .ok (.bootstrapAccount scope lifespan)
  inScope : scope.hasMember o.body = true
  granted : ∃ r, (Traffic.after w requests turns k).registry.grant now o.body lifespan =
    .ok (token, r)

theorem authenticate_of_claim {w : World} {r r' : Registry} {q : Request} {now : Moment}
    {value : Bytes} {token principal : String}
    (hchosen : Method.all.find? (Method.isAttempted q.credentials) = some .token)
    (hvalue : q.credentials.tokens.head? = some value)
    (htoken : Method.headerText? value = some token)
    (hclaim : r.claim now.tokenClock token = .ok (principal, r')) :
    authenticate w.directory w.authentication now r q.credentials =
      (openAccount w.directory q.credentials.remote principal, r') := by
  unfold authenticate
  rw [hchosen]
  simp only [Method.verify, hvalue, htoken, hclaim]

/-- A critical section leaves the tokens as they are, or claims one, or grants one. -/
theorem registry_advance (w : World) (now : Moment) (r : Registry) (q : Request) (stage : Stage) :
    (w.advance now r q stage).2 = r ∨
    (stage = .arrived ∧ q.body.length ≤ longestBatch ∧
      Method.all.find? (Method.isAttempted q.credentials) = some .token ∧
      ∃ value token principal, q.credentials.tokens.head? = some value ∧
        Method.headerText? value = some token ∧
        r.claim now.tokenClock token = .ok (principal, (w.advance now r q stage).2)) ∨
    ∃ acting l answers o scope lifespan token, stage = .running acting l answers ∧
      l[answers.length]? = some o ∧
      w.engine.privilegeOf acting.principal o.api = .ok (.bootstrapAccount scope lifespan) ∧
      scope.hasMember o.body = true ∧
      r.grant now o.body lifespan = .ok (token, (w.advance now r q stage).2) := by
  rcases w.advance_cases now r q stage with ⟨outcome, h⟩ | ⟨rfl, hlength, result, r', hauth, h⟩ |
    ⟨acting, l, answers, o, answer, s, rfl, hentry, hinvoke, h⟩
  · left
    rw [h]
  · have hnext : (w.advance now r q .arrived).2 = r' := by
      rcases h with ⟨outcome, h⟩ | ⟨account, l, -, -, h⟩ <;> rw [h]
    have hregistry := registry_authenticate w.directory w.authentication now r q.credentials
    rw [hauth] at hregistry
    rw [hnext]
    rcases hregistry with hsame | hclaim
    · exact .inl hsame
    · exact .inr (.inl ⟨rfl, hlength, hclaim⟩)
  · rw [h]
    obtain ⟨p, hheld, hp⟩ := Engine.invoke_eq_ok_iff.mp hinvoke
    rcases Privilege.registry_invoke hp with hsame | ⟨scope, lifespan, rfl, hin, hgrant⟩
    · exact .inl hsame
    · exact .inr (.inr ⟨acting, l, answers, o, scope, lifespan, answer, rfl, hentry, hheld, hin,
        hgrant⟩)

section
variable {w : World} {requests : List Request} {turns : List Turn} {k i : Nat}
variable {q : Request} {now : Moment} {token principal : String}

theorem Claims.authenticate_eq (h : Claims w requests turns k i q now token principal) :
    ∃ r, (Traffic.after w requests turns k).registry.claim now.tokenClock token =
        .ok (principal, r) ∧
      authenticate w.directory w.authentication now (Traffic.after w requests turns k).registry
        q.credentials = (openAccount w.directory q.credentials.remote principal, r) := by
  obtain ⟨r, hclaim⟩ := h.claimed
  obtain ⟨value, hvalue, htoken⟩ := h.shown
  exact ⟨r, hclaim, authenticate_of_claim h.chosen hvalue htoken hclaim⟩

/-- The registry after a claim is the one that the claim leaves, whatever becomes of the request. -/
theorem Claims.claim_eq (h : Claims w requests turns k i q now token principal) :
    (Traffic.after w requests turns k).registry.claim now.tokenClock token =
      .ok (principal, (Traffic.after w requests turns (k + 1)).registry) := by
  obtain ⟨r, hclaim, hauth⟩ := h.authenticate_eq
  rw [hclaim, h.acts.after_succ]
  simp only [advance, if_neg (Nat.not_lt.mpr h.length), hauth]
  cases openAccount w.directory q.credentials.remote principal with
  | error err => rfl
  | ok account => cases Batch.read? q.body <;> rfl

theorem Claims.exists_claimed (h : Claims w requests turns k i q now token principal) :
    ∃ e, (Traffic.after w requests turns (k + 1)).registry.entries.find? token = some e ∧
      e.claimed = true := by
  obtain ⟨-, e, -, -, -, -, hnext⟩ := Registry.claim_eq_ok_iff.mp h.claim_eq
  refine ⟨{ e with claimed := true }, ?_, rfl⟩
  rw [hnext, NameMap.find?_insert, if_pos rfl]

theorem registry_after_succ (w : World) (requests : List Request) (turns : List Turn) (k : Nat) :
    (Traffic.after w requests turns (k + 1)).registry =
        (Traffic.after w requests turns k).registry ∨
    (∃ i q now token principal, Claims w requests turns k i q now token principal) ∨
    ∃ j n now acting o scope lifespan token,
      Issues w requests turns k j n now acting o scope lifespan token ∧
      (Traffic.after w requests turns k).registry.grant now o.body lifespan =
        .ok (token, (Traffic.after w requests turns (k + 1)).registry) := by
  rcases Nat.lt_or_ge k turns.length with hlt | hge
  · have hturn := List.getElem?_eq_getElem hlt
    cases ha : turns[k] with
    | read i now =>
        rw [ha] at hturn
        left
        rw [Traffic.after_succ hturn]
        simp only [Traffic.turn]
        split <;> rfl
    | act i =>
        rw [ha] at hturn
        by_cases hready : ∃ q now stage, (Traffic.after w requests turns k).exchanges[i]? =
            some ⟨q, some now, stage⟩
        · obtain ⟨q, now, stage, hx⟩ := hready
          have hacts : ActsAt w requests turns k i q now stage := ⟨hturn, hx⟩
          rw [hacts.after_succ]
          rcases registry_advance w now (Traffic.after w requests turns k).registry q stage with
            hsame | ⟨rfl, hlength, hchosen, value, token, principal, hvalue, htoken, hclaim⟩ |
              ⟨acting, l, answers, o, scope, lifespan, token, rfl, hentry, hheld, hin, hgrant⟩
          · exact .inl hsame
          · exact .inr (.inl ⟨i, q, now, token, principal, hacts, hlength, hchosen,
              ⟨value, hvalue, htoken⟩, _, hclaim⟩)
          · exact .inr (.inr ⟨i, answers.length, now, acting, o, scope, lifespan, token,
              ⟨⟨q, l, answers, hacts, rfl, hentry⟩, hheld, hin, _, hgrant⟩, hgrant⟩)
        · left
          rw [Traffic.after_succ hturn]
          simp only [Traffic.turn]
          split
          · next q now stage hx => exact absurd ⟨q, now, stage, hx⟩ hready
          · rfl
  · exact .inl (by rw [Traffic.after_succ_of_length_le hge])

/-! ### Every token has a grant behind it -/

/-- Before turn number `k`, a token was granted as an entry says.  If the entry is not claimed, then
nobody claimed the token since. -/
def IsBacked (w : World) (requests : List Request) (turns : List Turn) (k : Nat) (token : String)
    (e : TokenEntry) : Prop :=
  ∃ k' j n now acting o scope lifespan, k' < k ∧
    Issues w requests turns k' j n now acting o scope lifespan token ∧ e.subject = o.body ∧
    e.expires = now.tokenClock + lifespan ∧
    (e.claimed = false → ∀ m, k' < m → m < k → ∀ i q now principal,
      ¬ Claims w requests turns m i q now token principal)

/-- Every token that is held has a grant behind it. -/
def Backed (w : World) (requests : List Request) (turns : List Turn) (k : Nat) : Prop :=
  ∀ token e, (Traffic.after w requests turns k).registry.entries.find? token = some e →
    IsBacked w requests turns k token e

theorem IsBacked.succ {e : TokenEntry} (h : IsBacked w requests turns k token e)
    (hno : e.claimed = false → ∀ i q now principal,
      ¬ Claims w requests turns k i q now token principal) :
    IsBacked w requests turns (k + 1) token e := by
  obtain ⟨k', j, n, now, acting, o, scope, lifespan, hk, hissues, hsubject, hexpires, hquiet⟩ := h
  refine ⟨k', j, n, now, acting, o, scope, lifespan, by omega, hissues, hsubject, hexpires, ?_⟩
  intro hunclaimed m hm hmk
  rcases Nat.lt_or_ge m k with hlt | hge
  · exact hquiet hunclaimed m hm hlt
  · obtain rfl : m = k := by omega
    exact hno hunclaimed

theorem IsBacked.claim {e : TokenEntry} (h : IsBacked w requests turns k token e) :
    IsBacked w requests turns k token { e with claimed := true } := by
  obtain ⟨k', j, n, now, acting, o, scope, lifespan, hk, hissues, hsubject, hexpires, -⟩ := h
  exact ⟨k', j, n, now, acting, o, scope, lifespan, hk, hissues, hsubject, hexpires,
    fun hfalse => Bool.noConfusion hfalse⟩

theorem backed_zero (w : World) (requests : List Request) (turns : List Turn) :
    Backed w requests turns 0 := by
  intro token e h
  cases h

theorem backed_succ (h : Backed w requests turns k) : Backed w requests turns (k + 1) := by
  intro token e he
  have hno : e.claimed = false → ∀ i q now principal,
      ¬ Claims w requests turns k i q now token principal := by
    intro hunclaimed i q now principal hclaims
    obtain ⟨e', he', hclaimed⟩ := hclaims.exists_claimed
    rw [he] at he'
    cases he'
    rw [hunclaimed] at hclaimed
    cases hclaimed
  rcases registry_after_succ w requests turns k with
    hsame | ⟨i, q, now, t, principal, hclaims⟩ |
      ⟨j, n, now, acting, o, scope, lifespan, t, hissues, hgrant⟩
  · rw [hsame] at he
    exact (h token e he).succ hno
  · obtain ⟨-, e', hfind, -, -, -, hnext⟩ := Registry.claim_eq_ok_iff.mp hclaims.claim_eq
    rw [hnext, NameMap.find?_insert] at he
    by_cases ht : token = t
    · rw [if_pos ht] at he
      cases he
      subst ht
      exact (h token e' hfind).claim.succ hno
    · rw [if_neg ht] at he
      exact (h token e he).succ hno
  · obtain ⟨-, -, -, hnext⟩ := Registry.grant_eq_ok hgrant
    rw [hnext, NameMap.find?_insert] at he
    by_cases ht : token = t
    · rw [if_pos ht] at he
      cases he
      subst ht
      refine ⟨k, j, n, now, acting, o, scope, lifespan, Nat.lt_succ_self k, hissues, rfl, rfl, ?_⟩
      intro _ m hm hmk
      omega
    · rw [if_neg ht, Registry.find?_purge, Option.filter_eq_some_iff] at he
      exact (h token e he.1).succ hno

theorem backed_after (w : World) (requests : List Request) (turns : List Turn) (k : Nat) :
    Backed w requests turns k := by
  induction k with
  | zero => exact backed_zero w requests turns
  | succ k ih => exact backed_succ ih

/-- Every claim that succeeds goes back to a grant, and no other claim of the token succeeds between
the two. -/
theorem Claims.exists_issues (h : Claims w requests turns k i q now token principal) :
    ∃ k' j n now' acting o scope lifespan, k' < k ∧
      Issues w requests turns k' j n now' acting o scope lifespan token ∧ principal = o.body ∧
      now.tokenClock < now'.tokenClock + lifespan ∧
      ∀ m, k' < m → m < k → ∀ i q now principal,
        ¬ Claims w requests turns m i q now token principal := by
  obtain ⟨-, e, hfind, hfresh, hunclaimed, hsubject, -⟩ := Registry.claim_eq_ok_iff.mp h.claim_eq
  obtain ⟨k', j, n, now', acting, o, scope, lifespan, hk, hissues, hbody, hexpires, hquiet⟩ :=
    backed_after w requests turns k token e hfind
  refine ⟨k', j, n, now', acting, o, scope, lifespan, hk, hissues, ?_, ?_, hquiet hunclaimed⟩
  · rw [← hsubject, hbody]
  · rw [← hexpires]
    have : ¬ e.expires ≤ now.tokenClock := by simpa [TokenEntry.hasExpired] using hfresh
    exact Int.not_le.mp this

/-! ### One claim for one grant -/

theorem Claims.unique {k' : Nat} {q' : Request} {now' : Moment} {token' principal' : String}
    (h : Claims w requests turns k i q now token principal)
    (h' : Claims w requests turns k' i q' now' token' principal') :
    k = k' ∧ now = now' ∧ token = token' ∧ principal = principal' := by
  have hfinite : Stage.arrived.position ≠ ⊤ := ENat.natCast_ne_top 0
  obtain rfl := h.acts.unique h'.acts rfl hfinite
  have hx := h.acts.exchange
  rw [h'.acts.exchange] at hx
  cases hx
  obtain ⟨value, hvalue, htoken⟩ := h.shown
  obtain ⟨value', hvalue', htoken'⟩ := h'.shown
  rw [hvalue'] at hvalue
  cases hvalue
  rw [htoken'] at htoken
  cases htoken
  have hclaim := h.claim_eq
  rw [h'.claim_eq] at hclaim
  cases hclaim
  exact ⟨rfl, rfl, rfl, rfl⟩

theorem Issues.unique {k' j n : Nat} {now' : Moment} {acting acting' : Account} {o o' : Operation}
    {scope scope' : Group} {lifespan lifespan' : Span} {token' : String}
    (h : Issues w requests turns k j n now acting o scope lifespan token)
    (h' : Issues w requests turns k' j n now' acting' o' scope' lifespan' token') :
    k = k' ∧ token = token' := by
  obtain ⟨⟨q, l, answers, hacts, hn, hentry⟩, hheld, -, r, hgrant⟩ := h
  obtain ⟨⟨q', l', answers', hacts', hn', hentry'⟩, hheld', -, r', hgrant'⟩ := h'
  have hposition : (Stage.running acting l answers).position =
      (Stage.running acting' l' answers').position := by
    rw [position_running, position_running, hn, hn']
  have hfinite : (Stage.running acting l answers).position ≠ ⊤ := by
    rw [position_running]
    exact ENat.natCast_ne_top _
  obtain rfl := hacts.unique hacts' hposition hfinite
  have hx := hacts.exchange
  rw [hacts'.exchange] at hx
  cases hx
  rw [hentry'] at hentry
  cases hentry
  rw [hheld'] at hheld
  cases hheld
  rw [hgrant'] at hgrant
  cases hgrant
  exact ⟨rfl, rfl⟩

end

/-! ### Everyone is an account of the directory -/

/-- Whoever a request runs operations as is an account of a directory. -/
def Stage.IsKnown (d : Directory) : Stage → Prop
  | .running acting _ _ => d.account acting.principal = .ok acting
  | _ => True

/-- All requests run their operations as accounts of the directory. -/
def Traffic.IsKnown (w : World) (t : Traffic) : Prop :=
  ∀ (i : Nat) (x : Exchange), t.exchanges[i]? = some x → x.stage.IsKnown w.directory

section
variable {files : Files} {c : Config} {w : World}

theorem isKnown_advance (hw : load files c = .ok w) (now : Moment) (r : Registry) (q : Request)
    {stage : Stage} (h : stage.IsKnown w.directory) :
    (w.advance now r q stage).1.IsKnown w.directory := by
  rcases w.advance_cases now r q stage with ⟨outcome, hnext⟩ |
    ⟨rfl, -, result, r', hauth, ⟨outcome, hnext⟩ | ⟨account, l, rfl, -, hnext⟩⟩ |
      ⟨acting, l, answers, o, answer, s, rfl, -, hinvoke, hnext⟩
  · rw [hnext]
    trivial
  · rw [hnext]
    trivial
  · rw [hnext]
    obtain ⟨method, principal, -, -, hopen⟩ := authenticate_eq_ok hauth
    obtain ⟨haccount, -, -⟩ := openAccount_eq_ok_iff.mp hopen
    show w.directory.account account.principal = .ok account
    rw [principal_of_account hw haccount]
    exact haccount
  · rw [hnext]
    show w.directory.account s.acting.principal = .ok s.acting
    obtain ⟨p, -, hp⟩ := Engine.invoke_eq_ok_iff.mp hinvoke
    rcases Privilege.acting_invoke hp with hsame | ⟨scope, -, -, haccount⟩
    · rw [hsame]
      exact h
    · have hbody : s.acting.principal = o.body := principal_of_account hw haccount
      rw [hbody]
      exact haccount

theorem isKnown_set {t : Traffic} (h : t.IsKnown w) {j : Nat} {x : Exchange}
    (hx : x.stage.IsKnown w.directory) (r : Registry) :
    (Traffic.mk (t.exchanges.set j x) r).IsKnown w := by
  intro i y hy
  rw [List.getElem?_set] at hy
  split at hy
  · split at hy
    · cases hy
      exact hx
    · cases hy
  · exact h i y hy

theorem isKnown_turn (hw : load files c = .ok w) {t : Traffic} (h : t.IsKnown w) (a : Turn) :
    (t.turn w a).IsKnown w := by
  cases a with
  | read j now =>
      simp only [Traffic.turn]
      split
      · next x hx =>
        exact isKnown_set (x := { x with reading := some now }) h (h j x hx) t.registry
      · exact h
  | act j =>
      simp only [Traffic.turn]
      split
      · next q now stage hx =>
        exact isKnown_set h (isKnown_advance hw now t.registry q (h j _ hx)) _
      · exact h

theorem isKnown_run (hw : load files c = .ok w) (turns : List Turn) {t : Traffic}
    (h : t.IsKnown w) : (t.run w turns).IsKnown w := by
  induction turns generalizing t with
  | nil => exact h
  | cons a turns ih => exact ih (isKnown_turn hw h a)

theorem isKnown_start (w : World) (requests : List Request) :
    (Traffic.start requests).IsKnown w := by
  intro i x hx
  unfold Traffic.start at hx
  rw [List.getElem?_map, Option.map_eq_some_iff] at hx
  obtain ⟨q, -, rfl⟩ := hx
  trivial

/-! ### Accepted tokens -/

/-- What the configuration says of a token: who may have it made, for whom, and how long it is
accepted. -/
def AllowsToken (c : Config) (api : String) (holder target : Account) (lifespan : Span) : Prop :=
  ∃ g scope text, c.grants.find? api = some g ∧ g.privilege = "bootstrap-account" ∧
    holder.BelongsTo c.groups g.group ∧ g.scope = some scope ∧ target.BelongsTo c.groups scope ∧
    g.lifespan = some text ∧ Lifespan.parse text = .ok lifespan

variable {requests : List Request} {turns : List Turn} {k i j n : Nat} {q : Request}
variable {now : Moment} {token principal : String} {acting : Account} {o : Operation}
variable {scope : Group} {lifespan : Span}

/-- A token is granted for an account that the configuration lets its holder have one made for. -/
theorem Issues.exists_target (hw : load files c = .ok w)
    (h : Issues w requests turns k j n now acting o scope lifespan token) :
    ∃ target, w.directory.account o.body = .ok target ∧
      AllowsToken c o.api acting target lifespan := by
  obtain ⟨q, l, answers, hacts, -, -⟩ := h.acts
  have hknown : w.directory.account acting.principal = .ok acting :=
    isKnown_run hw (turns.take k) (isKnown_start w requests) j _ hacts.exchange
  obtain ⟨g, holder, hgrant, hholder, hbelongs, hbinds⟩ := exists_grant_of_load hw h.held
  rw [hknown] at hholder
  cases hholder
  cases hbinds with
  | @bootstrapAccount name text _ _ hkind hname hscope hlifespan hspan _ =>
      obtain ⟨target, htarget, hin⟩ := (hasMember_scope_iff hw hscope _).mp h.inScope
      exact ⟨target, htarget, g, name, text, hgrant, hkind, hbelongs, hname, hin, hlifespan, hspan⟩

/-- After a successful claim the request is accepted as the account of the token, or that account is
closed to it; there always is such an account. -/
theorem Claims.outcome (h : Claims w requests turns k i q now token principal) {target : Account}
    (htarget : w.directory.account principal = .ok target) :
    (∀ a, (authenticate w.directory w.authentication now
        (Traffic.after w requests turns k).registry q.credentials).1 = .ok a → a = target) ∧
    ∀ e, (authenticate w.directory w.authentication now
      (Traffic.after w requests turns k).registry q.credentials).1 ≠ .error (.directory e) := by
  obtain ⟨r, -, hauth⟩ := h.authenticate_eq
  rw [hauth]
  constructor
  · intro a ha
    obtain ⟨haccount, -, -⟩ := openAccount_eq_ok_iff.mp ha
    rw [htarget] at haccount
    cases haccount
    rfl
  · intro e he
    simp only [openAccount, htarget] at he
    split at he
    · cases he
    · split at he
      · cases he
      · split at he <;> cases he

end

/-- **Provenance of tokens.**  In every loaded world, whatever requests come, however their readings
of the clock and their critical sections are interleaved and whatever the clocks show: every request
whose token is accepted has an operation of its own that granted the token before.  The request is
accepted for the principal that the operation asked for, who is in the scope of the grant; the
operation was run as a member of the group of the grant; and the claim read a clock before the end
that the grant set.  No such request fails for want of an account. -/
theorem exists_source_of_load {files : Files} {c : Config} {w : World}
    (hw : load files c = .ok w) (requests : List Request) (turns : List Turn) :
    ∃ source : Nat → Nat × Nat,
      (∀ k i q now token principal, Claims w requests turns k i q now token principal →
        ∃ k' now' acting o scope lifespan target, k' < k ∧
          Issues w requests turns k' (source i).1 (source i).2 now' acting o scope lifespan token ∧
          principal = o.body ∧ w.directory.account o.body = .ok target ∧
          AllowsToken c o.api acting target lifespan ∧
          now.tokenClock < now'.tokenClock + lifespan ∧
          (∀ a, (authenticate w.directory w.authentication now
            (Traffic.after w requests turns k).registry q.credentials).1 = .ok a → a = target) ∧
          ∀ e, (authenticate w.directory w.authentication now
            (Traffic.after w requests turns k).registry q.credentials).1 ≠ .error (.directory e)) ∧
      ∀ k₁ i₁ q₁ now₁ token₁ principal₁ k₂ i₂ q₂ now₂ token₂ principal₂,
        Claims w requests turns k₁ i₁ q₁ now₁ token₁ principal₁ →
        Claims w requests turns k₂ i₂ q₂ now₂ token₂ principal₂ →
        source i₁ = source i₂ → i₁ = i₂ := by
  -- A request has one claim at most, so the grant behind it can be chosen for the request.
  have hpick : ∀ i, ∃ p : Nat × Nat, ∀ k q now token principal,
      Claims w requests turns k i q now token principal →
      ∃ k' now' acting o scope lifespan, k' < k ∧
        Issues w requests turns k' p.1 p.2 now' acting o scope lifespan token ∧
        principal = o.body ∧ now.tokenClock < now'.tokenClock + lifespan ∧
        ∀ m, k' < m → m < k → ∀ i q now principal,
          ¬ Claims w requests turns m i q now token principal := by
    intro i
    by_cases hany : ∃ k q now token principal, Claims w requests turns k i q now token principal
    · obtain ⟨k, q, now, token, principal, hclaims⟩ := hany
      obtain ⟨k', j, n, now', acting, o, scope, lifespan, hk, hissues, hbody, htime, hquiet⟩ :=
        hclaims.exists_issues
      refine ⟨(j, n), ?_⟩
      intro k₂ q₂ now₂ token₂ principal₂ hclaims₂
      obtain ⟨rfl, rfl, rfl, rfl⟩ := hclaims.unique hclaims₂
      exact ⟨k', now', acting, o, scope, lifespan, hk, hissues, hbody, htime, hquiet⟩
    · refine ⟨(0, 0), ?_⟩
      intro k q now token principal hclaims
      exact absurd ⟨k, q, now, token, principal, hclaims⟩ hany
  choose source hsource using hpick
  refine ⟨source, ?_, ?_⟩
  · intro k i q now token principal hclaims
    obtain ⟨k', now', acting, o, scope, lifespan, hk, hissues, rfl, htime, -⟩ :=
      hsource i k q now token principal hclaims
    obtain ⟨target, htarget, hallowed⟩ := hissues.exists_target hw
    obtain ⟨hright, hknown⟩ := hclaims.outcome htarget
    exact ⟨k', now', acting, o, scope, lifespan, target, hk, hissues, rfl, htarget, hallowed, htime,
      hright, hknown⟩
  · intro k₁ i₁ q₁ now₁ token₁ principal₁ k₂ i₂ q₂ now₂ token₂ principal₂ h₁ h₂ hsame
    obtain ⟨k₁', _, _, _, _, _, hk₁, hissues₁, -, -, hquiet₁⟩ := hsource _ _ _ _ _ _ h₁
    obtain ⟨k₂', _, _, _, _, _, hk₂, hissues₂, -, -, hquiet₂⟩ := hsource _ _ _ _ _ _ h₂
    rw [← hsame] at hissues₂
    obtain ⟨rfl, rfl⟩ := hissues₁.unique hissues₂
    rcases Nat.lt_trichotomy k₁ k₂ with hlt | heq | hgt
    · exact absurd h₁ (hquiet₂ k₁ hk₁ hlt _ _ _ _)
    · have hturn := h₁.acts.turn
      rw [heq, h₂.acts.turn] at hturn
      cases hturn
      rfl
    · exact absurd h₂ (hquiet₁ k₂ hk₂ hgt _ _ _ _)

/-! ### A guest who is invited -/

/-- The operator logs in with a certificate and invites one of the staff. -/
def crewInvitation : Request :=
  let usage : X509.Extension :=
    ⟨Oid.extendedKeyUsage, false, X509.encodeUsages [Oid.clientUsage]⟩
  ⟨"POST", Bytes.ofText "/apirequest", Batch.encode [⟨"invite", "bob"⟩],
    ⟨[], some [(crewCertificate "ann" [usage]).encode], none⟩⟩

/-- The guest comes with the token. -/
def crewArrival : Request :=
  ⟨"POST", Bytes.ofText "/apirequest", Batch.encode [], ⟨[Bytes.ofText crewToken], none, none⟩⟩

/-- The guest reads the clock before the token is made and claims it afterwards. -/
def crewTurns : List Turn :=
  [.read 1 crewMoment, .read 0 crewMoment, .act 0, .read 0 crewMoment, .act 0, .act 1]

/-- The tokens when the guest has one. -/
def crewInvited : Registry :=
  ⟨NameMap.empty.insert crewToken ⟨crewToken, "bob", ⟨1600003600000000000⟩, false⟩⟩

theorem advance_crewInvitation : crew.advance crewMoment .empty crewInvitation .arrived =
    (.running (crewAccount "ann") [⟨"invite", "bob"⟩] [], .empty) := by
  have hlength : ¬ longestBatch < crewInvitation.body.length := by decide +kernel
  have haccount : authenticate crew.directory crew.authentication crewMoment .empty
      crewInvitation.credentials = (.ok (crewAccount "ann"), .empty) := by decide +kernel
  have hbatch : Batch.read? crewInvitation.body = some [⟨"invite", "bob"⟩] :=
    Batch.read?_encode [⟨"invite", "bob"⟩]
  simp only [advance, if_neg hlength, haccount, hbatch]

theorem advance_crewInvitation_running : crew.advance crewMoment .empty crewInvitation
      (.running (crewAccount "ann") [⟨"invite", "bob"⟩] []) =
    (.running (crewAccount "ann") [⟨"invite", "bob"⟩] [crewToken], crewInvited) := by
  have hinvoke : crew.engine.invoke crewMoment ⟨crewAccount "ann", .empty⟩ ⟨"invite", "bob"⟩ =
      .ok (crewToken, ⟨crewAccount "ann", crewInvited⟩) := by decide +kernel
  simp only [advance, List.length_nil, List.getElem?_cons_zero, hinvoke, List.nil_append]

theorem after_crewTurns : Traffic.after crew [crewInvitation, crewArrival] crewTurns 5 =
    ⟨[⟨crewInvitation, none, .running (crewAccount "ann") [⟨"invite", "bob"⟩] [crewToken]⟩,
      ⟨crewArrival, some crewMoment, .arrived⟩], crewInvited⟩ := by
  simp [Traffic.after, Traffic.run, Traffic.start, Traffic.turn, crewTurns, advance_crewInvitation,
    advance_crewInvitation_running]

theorem exists_source_of_crew : ∃ k' j n now' acting o scope lifespan,
    Claims crew [crewInvitation, crewArrival] crewTurns 5 1 crewArrival crewMoment crewToken "bob" ∧
    k' < 5 ∧ o.body = "bob" ∧
    Issues crew [crewInvitation, crewArrival] crewTurns k' j n now' acting o scope lifespan
      crewToken := by
  have hacts : ActsAt crew [crewInvitation, crewArrival] crewTurns 5 1 crewArrival crewMoment
      .arrived := ⟨rfl, by rw [after_crewTurns]; rfl⟩
  have hclaims : Claims crew [crewInvitation, crewArrival] crewTurns 5 1 crewArrival crewMoment
      crewToken "bob" := by
    refine ⟨hacts, by decide +kernel, by decide +kernel, ⟨Bytes.ofText crewToken, rfl, ?_⟩, ?_⟩
    · decide +kernel
    · have hclaim : crewInvited.claim crewMoment.tokenClock crewToken =
          .ok ("bob", ⟨crewInvited.entries.insert crewToken
            ⟨crewToken, "bob", ⟨1600003600000000000⟩, true⟩⟩) := by decide +kernel
      rw [after_crewTurns]
      exact ⟨_, hclaim⟩
  obtain ⟨source, hsource, -⟩ :=
    exists_source_of_load load_crew [crewInvitation, crewArrival] crewTurns
  obtain ⟨k', now', acting, o, scope, lifespan, -, hk, hissues, hbody, -⟩ :=
    hsource _ _ _ _ _ _ hclaims
  exact ⟨k', _, _, now', acting, o, scope, lifespan, hclaims, hk, hbody.symm, hissues⟩

end World
end CredentialServer
