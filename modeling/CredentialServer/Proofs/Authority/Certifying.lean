import CredentialServer.Authority.Ssh

/-! # When keys are certified

The statements about the keys of a text can be written down before any of them is signed, each with
its own random octets (`statements`).  All of them end at the same second, so the clock is asked
once; only the authority's own key may fail for one statement and not for another.  Main statement:
`exists_issue_iff`. -/

namespace CredentialServer

/-! ### Keys that sign whatever they are given -/

namespace SigningKey

/-- Whether a key is known to sign every message: a modulus must have 2048 bits, counted in whole
octets. -/
def IsSteady : SigningKey → Prop
  | .rsa key => 2048 ≤ 8 * key.toPublic.length
  | .ed25519 .. => True
  | .ecdsa .. | .inert _ => False

theorem IsSteady.exists_sign {k : SigningKey} (h : k.IsSteady) (message : Bytes) :
    ∃ signature, k.sign message = some signature := by
  cases k with
  | rsa key =>
      have hframe : Digest.sha512.frame.length + Digest.sha512.length + 11 ≤ 256 := by decide
      have hroom : Digest.sha512.frame.length + Digest.sha512.length + 11 ≤
          key.toPublic.length := by
        change 2048 ≤ 8 * key.toPublic.length at h
        omega
      obtain ⟨signature, hsign⟩ := key.exists_sign hroom message
      simp only [sign, if_neg (Nat.not_lt.mpr h), hsign, Option.map_some]
      exact ⟨_, rfl⟩
  | ed25519 seed publicKey => exact ⟨_, rfl⟩
  | ecdsa curve secret publicKey => exact h.elim
  | inert publicKey => exact h.elim

end SigningKey

namespace SshAuthority

variable {a : SshAuthority} {subject : Subject} {text : String} {now : Instant}

/-! ### Texts of keys -/

/-- A text starts with a key: its first line that is neither blank nor a comment is one. -/
def StartsWithKey (text : String) : Prop :=
  ∃ k rest, ((pieces '\n' text.toList).map Line.of).filter (fun l => !decide (l = .blank)) =
    .key k :: rest

theorem keysOf_filter (l : List Line) :
    keysOf (l.filter (fun x => !decide (x = .blank))) = keysOf l := by
  induction l with
  | nil => rfl
  | cons x l ih =>
      cases x with
      | blank => exact ih
      | key k => exact congrArg (k :: ·) ih
      | bad => rfl

theorem startsWithKey_iff : StartsWithKey text ↔ leadingKeys text ≠ [] := by
  unfold StartsWithKey leadingKeys
  rw [← keysOf_filter]
  cases h : ((pieces '\n' text.toList).map Line.of).filter (fun l => !decide (l = .blank)) with
  | nil => simp [keysOf]
  | cons x l =>
      cases x with
      | blank =>
          have hmem := List.mem_cons_self (a := Line.blank) (l := l)
          rw [← h, List.mem_filter] at hmem
          cases hmem.2
      | key k => simp [keysOf]
      | bad => simp [keysOf]

/-! ### Statements -/

/-- The statements about some keys, in order: each takes twenty-four random octets. -/
def statements (a : SshAuthority) (subject : Subject) (validAfter : Nat) :
    (Nat → UInt8) → List Ssh.PublicKey → List Ssh.Statement
  | _, [] => []
  | random, key :: rest =>
    a.statement subject validAfter ((List.range 16).map random)
        (Bytes.toNat ((List.range 8).map (fun i => random (16 + i)))) key ::
      a.statements subject validAfter (fun i => random (24 + i)) rest

theorem length_statements (a : SshAuthority) (subject : Subject) (validAfter : Nat)
    (random : Nat → UInt8) (keys : List Ssh.PublicKey) :
    (a.statements subject validAfter random keys).length = keys.length := by
  induction keys generalizing random with
  | nil => rfl
  | cons key keys ih => rw [statements, List.length_cons, ih, List.length_cons]

/-- All statements are about the same principals and the same time. -/
theorem eq_of_mem_statements {validAfter : Nat} {random : Nat → UInt8} {keys : List Ssh.PublicKey}
    {s : Ssh.Statement} (h : s ∈ a.statements subject validAfter random keys) :
    s.principals = subject.principals ∧
      s.validBefore = validAfter + subject.lifespan.seconds := by
  induction keys generalizing random with
  | nil => cases h
  | cons key keys ih =>
      rcases List.mem_cons.mp h with rfl | h
      · exact ⟨rfl, rfl⟩
      · exact ih h

/-! ### Certificates -/

theorem exists_certify_iff {s : Ssh.Statement} : (∃ c, a.certify s = .ok c) ↔
    (s.principals ≠ [] ∧ s.validBefore < UInt64.size / 2) ∧
      ∃ signature, a.key.sign s.signedPart = some signature := by
  unfold certify
  by_cases h : s.principals.isEmpty ∨ UInt64.size / 2 ≤ s.validBefore
  · have hnot : ¬ (s.principals ≠ [] ∧ s.validBefore < UInt64.size / 2) := by
      rintro ⟨hprincipals, hbefore⟩
      rcases h with h | h
      · exact hprincipals (List.isEmpty_iff.mp h)
      · omega
    rw [if_pos h]
    simp [hnot]
  · have hgood : s.principals ≠ [] ∧ s.validBefore < UInt64.size / 2 := by
      rw [not_or, List.isEmpty_iff, Nat.not_le] at h
      exact h
    rw [if_neg h]
    cases hsign : a.key.sign s.signedPart with
    | none => simp
    | some signature => simp [hgood]

theorem exists_certifyAll_iff {validAfter : Nat} {random : Nat → UInt8}
    {keys : List Ssh.PublicKey} :
    (∃ l, a.certifyAll subject validAfter random keys = .ok l) ↔
      ∀ s ∈ a.statements subject validAfter random keys, ∃ c, a.certify s = .ok c := by
  induction keys generalizing random with
  | nil => simp [certifyAll, statements]
  | cons key keys ih =>
      rw [statements, List.forall_mem_cons, ← ih, certifyAll]
      cases a.certify (a.statement subject validAfter ((List.range 16).map random)
        (Bytes.toNat ((List.range 8).map (fun i => random (16 + i)))) key) with
      | error e => simp
      | ok c =>
          cases a.certifyAll subject validAfter (fun i => random (24 + i)) keys <;> simp

/-- What an authority needs besides keys, to certify them for some principals. -/
structure Certifies (a : SshAuthority) (subject : Subject) (now : Instant)
    (random : Nat → UInt8) (keys : List Ssh.PublicKey) : Prop where
  /-- Lifespans are of a second at least. -/
  long : nanosPerSecond ≤ subject.lifespan.toNanos
  /-- Certificates end before 2^63 seconds. -/
  short : now.second.toNat + subject.lifespan.seconds < UInt64.size / 2
  signed : ∀ s ∈ a.statements subject now.second.toNat random keys,
    ∃ signature, a.key.sign s.signedPart = some signature

/-- **When keys are certified**: whoever sends keys and is given principals has certificates made
for them just if the lifespan fits and the authority's key signs all statements. -/
theorem exists_issue_iff {random : Nat → UInt8} (hkeys : leadingKeys text ≠ [])
    (hprincipals : subject.principals ≠ []) (hnow : 0 ≤ now.nanos) :
    (∃ l, a.issue now random text subject = .ok l) ↔
      a.Certifies subject now random (leadingKeys text) := by
  have hsome : (leadingKeys text).isEmpty = false := by
    rw [← Bool.not_eq_true, List.isEmpty_iff]
    exact hkeys
  unfold issue
  simp only [hsome, Bool.false_eq_true, if_false, if_neg (Int.not_lt.mpr hnow)]
  by_cases hlong : subject.lifespan.toNanos < nanosPerSecond
  · rw [if_pos hlong]
    simp only [reduceCtorEq, exists_false, false_iff]
    exact fun h => Nat.not_le.mpr hlong h.long
  rw [if_neg hlong]
  by_cases hrange : UInt64.size ≤ now.second.toNat + subject.lifespan.seconds
  · rw [if_pos hrange]
    simp only [reduceCtorEq, exists_false, false_iff]
    intro h
    have := h.short
    omega
  rw [if_neg hrange, exists_certifyAll_iff]
  simp only [exists_certify_iff]
  constructor
  · intro h
    obtain ⟨s, hs⟩ : ∃ s, s ∈ a.statements subject now.second.toNat random (leadingKeys text) := by
      refine List.exists_mem_of_ne_nil _ ?_
      rw [← List.length_pos_iff, length_statements, List.length_pos_iff]
      exact hkeys
    have hbefore := (h s hs).1.2
    rw [(eq_of_mem_statements hs).2] at hbefore
    exact ⟨Nat.not_lt.mp hlong, hbefore, fun s hs => (h s hs).2⟩
  · intro h s hs
    obtain ⟨hsubject, hbefore⟩ := eq_of_mem_statements hs
    rw [hsubject, hbefore]
    exact ⟨⟨hprincipals, h.short⟩, h.signed s hs⟩

end SshAuthority
end CredentialServer
