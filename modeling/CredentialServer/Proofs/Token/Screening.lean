import CredentialServer.Proofs.Token.Form
import CredentialServer.Proofs.Token.History

/-! # Texts that are turned away before they are looked up

The claim of a text that does not have the form of a token is refused before the table of tokens is
asked.  `redeem` is a claim that asks the table alone, and `screened` puts any test of the text in
front of it.  A test changes nothing for a registry just if it passes all tokens that are held there
(`run_screened_eq_iff`).  A registry that was reached by calls holds only tokens that were drawn,
each under its own text (`IsKeyed`); hence a test changes nothing for any such registry just if it
passes all that can be drawn (`screens_iff`), and a test that fails one of these keeps a token from
being claimed.  The form of a token is a test that passes them.  Main statement:
`claimsFromTable_of_run`. -/

namespace CredentialServer
namespace Registry

/-! ### Claims with and without a test -/

/-- A call that writes into a registry as it goes, and leaves it behind also when it fails. -/
abbrev InTable := ExceptT TokenError (StateM Registry)

/-- Claims a token from the table, whatever its text looks like. -/
def redeem (now : Instant) (token : String) : InTable String := do
  match (← get).entries.find? token with
  | none => throw .unrecognized
  | some e =>
    if e.hasExpired now then throw .expired
    else if e.claimed then throw .alreadyClaimed
    else
      modify (fun r => ⟨r.entries.insert token { e with claimed := true }⟩)
      return e.subject

/-- Claims a token from the table if its text passes a test. -/
def screened (test : String → Bool) (now : Instant) (token : String) : InTable String :=
  if test token then redeem now token else throw .unrecognized

/-- What a result answers, and the registry that is left: the same one, if it is an error. -/
def settle (r : Registry) :
    Except TokenError (String × Registry) → Except TokenError String × Registry
  | .ok (subject, s) => (.ok subject, s)
  | .error e => (.error e, r)

section
variable {r : Registry} {test : String → Bool} {now : Instant} {token subject : String}

theorem run_redeem (r : Registry) (now : Instant) (token : String) : (redeem now token).run.run r =
    match r.entries.find? token with
    | none => (.error .unrecognized, r)
    | some e =>
      if e.hasExpired now then (.error .expired, r)
      else if e.claimed then (.error .alreadyClaimed, r)
      else (.ok e.subject, ⟨r.entries.insert token { e with claimed := true }⟩) := by
  change (match r.entries.find? token with | none => _ | some e => _ : InTable String).run.run r = _
  cases r.entries.find? token with
  | none => rfl
  | some e =>
      simp only
      cases e.hasExpired now with
      | true => rfl
      | false => cases e.claimed <;> rfl

theorem screened_of_passes (h : test token = true) : screened test now token = redeem now token :=
  if_pos h

theorem run_screened_of_fails (h : ¬ test token = true) :
    (screened test now token).run.run r = (.error .unrecognized, r) := by
  rw [screened, if_neg h]
  rfl

theorem settle_claim (r : Registry) (now : Instant) (token : String) :
    r.settle (r.claim now token) = (screened Token.isWellFormed now token).run.run r := by
  by_cases hform : Token.isWellFormed token = true
  · rw [screened_of_passes hform, run_redeem, claim, if_pos hform]
    cases r.entries.find? token with
    | none => rfl
    | some e => cases hx : e.hasExpired now <;> cases hc : e.claimed <;> simp [settle, hx, hc]
  · rw [run_screened_of_fails hform, claim, if_neg hform]
    rfl

/-- A test changes nothing for a registry just if it passes all tokens that are held there. -/
theorem run_screened_eq_iff :
    (∀ now token, (screened test now token).run.run r = (redeem now token).run.run r) ↔
      ∀ token, r.entries.contains token = true → test token = true := by
  constructor
  · intro h token hheld
    obtain ⟨e, he⟩ := Option.isSome_iff_exists.mp hheld
    by_contra hfails
    have hend : e.hasExpired e.expires = true := decide_eq_true (Int.le_refl _)
    have hsame := congrArg Prod.fst (h e.expires token)
    rw [run_screened_of_fails hfails, run_redeem, he] at hsame
    simp [hend] at hsame
  · intro h now token
    by_cases hpasses : test token = true
    · rw [screened_of_passes hpasses]
    · have hnone : r.entries.find? token = none := by
        rw [← Option.not_isSome_iff_eq_none]
        exact fun hheld => hpasses (h token hheld)
      rw [run_screened_of_fails hpasses, run_redeem, hnone]

/-- A registry that was not reached by calls may hold a text that is no token.  The table would let
it be claimed, and the test of its form turns it away. -/
example :
    let forged : Registry := ⟨.ofList [("forged", ⟨"forged", "ada", ⟨1⟩, false⟩)]⟩
    forged.claim ⟨0⟩ "forged" = .error .unrecognized ∧
      ((redeem ⟨0⟩ "forged").run.run forged).1 = .ok "ada" := by
  decide +kernel

/-! ### What is held -/

/-- Every token is held under its own text, which has the form of one. -/
def IsKeyed (r : Registry) : Prop :=
  ∀ key e, r.entries.find? key = some e → e.token = key ∧ Token.isWellFormed key = true

theorem token_of_snapshot? {h : History} {e : TokenEntry} (he : snapshot? h token = some e) :
    e.token = token := by
  unfold snapshot? at he
  split at he
  · cases he
  · split at he
    · cases he
    · cases he
      rfl

/-- What a history tells of a text is a token with this text, so calls keep every token in its
place. -/
theorem Traced.Faithful.isKeyed {s : Traced} (h : s.Faithful) : s.registry.IsKeyed := by
  intro key e he
  have hsnapshot : snapshot? s.history key = some e := by rw [← h.find, he]
  exact ⟨token_of_snapshot? hsnapshot, h.wellFormed key e he⟩

/-- A claim succeeds just if a look-up shows a token that was not claimed and has not expired. -/
theorem IsKeyed.exists_claim_iff (h : r.IsKeyed) : (∃ s, r.claim now token = .ok (subject, s)) ↔
    ∃ e, r.lookup token = .ok e ∧ e.claimed = false ∧ now < e.expires ∧ e.subject = subject := by
  have hlasts (e : TokenEntry) : e.hasExpired now = false ↔ now < e.expires :=
    decide_eq_false_iff_not.trans Int.not_le
  simp only [claim_eq_ok_iff, lookup_eq_ok_iff, hlasts]
  constructor
  · rintro ⟨s, -, e, he, hx, hc, hs, -⟩
    exact ⟨e, he, hc, hx, hs⟩
  · rintro ⟨e, he, hc, hx, hs⟩
    exact ⟨_, (h token e he).2, e, he, hx, hc, hs, rfl⟩

end

/-! ### What can be drawn -/

theorem purge_empty (now : Instant) : empty.purge now = empty := rfl

/-- Any octets may be drawn for the first token. -/
theorem exists_grant_ofOctets {b : Bytes} (hb : b.length = Token.octetCount) :
    ∃ now subject lifespan r, empty.grant now subject lifespan = .ok (Token.ofOctets b, r) := by
  let now : Moment := ⟨⟨0⟩, ⟨0⟩, fun i => b.getD i 0⟩
  have hdrawn : candidate now 1 0 = b := by
    have hoctets : candidate now 1 0 = now.octets 0 Token.octetCount := rfl
    rw [hoctets]
    apply List.ext_getElem
    · rw [Moment.length_octets, hb]
    · intro i hi hi'
      simp [Moment.octets, now, hi']
  have hfresh : empty.freshToken? now = some (Token.ofOctets b) := by
    have hfirst : empty.freshToken? now = some (Token.ofOctets (candidate now 1 0)) := rfl
    rw [hfirst, hdrawn]
  have hshort : ¬ lastInstant < now.tokenClock + Span.zero := by
    change ¬ lastInstant < (⟨0⟩ : Instant) + Span.zero
    decide
  let entry : TokenEntry := ⟨Token.ofOctets b, "", now.tokenClock + Span.zero, false⟩
  refine ⟨now, "", .zero, ⟨empty.entries.insert (Token.ofOctets b) entry⟩, ?_⟩
  simp only [grant, if_neg hshort, purge_empty, hfresh, entry]

/-- **A test of texts changes nothing, whatever was called before, just if it passes every token
that can be drawn.** -/
theorem screens_iff {test : String → Bool} :
    (∀ calls now token, (screened test now token).run.run (Traced.run calls).registry =
      (redeem now token).run.run (Traced.run calls).registry) ↔
    ∀ b : Bytes, b.length = Token.octetCount → test (Token.ofOctets b) = true := by
  constructor
  · intro h b hb
    obtain ⟨now, subject, lifespan, r, hgrant⟩ := exists_grant_ofOctets hb
    have hrun : (Traced.run [.grant now subject lifespan]).registry = r := by
      simp [Traced.run, Traced.start, Traced.step, hgrant]
    have hpasses := run_screened_eq_iff.mp (h [.grant now subject lifespan])
    apply hpasses
    obtain ⟨-, -, -, hentries⟩ := grant_eq_ok hgrant
    rw [hrun, hentries, NameMap.contains, NameMap.find?_insert, if_pos rfl]
    rfl
  · intro h calls
    apply run_screened_eq_iff.mpr
    intro token hheld
    obtain ⟨e, he⟩ := Option.isSome_iff_exists.mp hheld
    have hform := ((Traced.faithful_run calls).isKeyed token e he).2
    obtain ⟨b, hmade⟩ := Token.exists_isMadeOf hform
    obtain ⟨hb, rfl⟩ := Token.isMadeOf_iff.mp hmade
    exact h b hb

/-- The table of a registry decides claims. -/
structure ClaimsFromTable (r : Registry) : Prop where
  keyed : r.IsKeyed
  /-- A claim answers what the table answers alone, and leaves the same registry. -/
  claim_eq : ∀ now token, r.settle (r.claim now token) = (redeem now token).run.run r
  /-- It succeeds just if a look-up shows a token that was not claimed and has not expired. -/
  claim_iff : ∀ now token subject, (∃ s, r.claim now token = .ok (subject, s)) ↔
    ∃ e, r.lookup token = .ok e ∧ e.claimed = false ∧ now < e.expires ∧ e.subject = subject

/-- **The test of the form never changes what a claim does**, after any calls. -/
theorem claimsFromTable_of_run (calls : List Call) :
    ClaimsFromTable (Traced.run calls).registry := by
  have hkeyed := (Traced.faithful_run calls).isKeyed
  refine ⟨hkeyed, ?_, ?_⟩
  · intro now token
    rw [settle_claim]
    exact screens_iff.mpr (fun _ => Token.isWellFormed_ofOctets) calls now token
  · intro now token subject
    exact hkeyed.exists_claim_iff

end Registry
end CredentialServer
