import CredentialServer.Proofs.Authority.Certifying
import CredentialServer.Proofs.Server.Identity
import CredentialServer.Proofs.Ssh.Binding

/-! # The leading keys of a text are certified

What a text of keys asks for are the keys of its lines before the first one that is neither empty
nor a comment nor a key (`keysBefore`).  Each of them gets one certificate, in order, and all of
these are alike but for the key, the random octets and the signature.  Main statement:
`certifiesLeading_of_load`. -/

namespace CredentialServer
namespace SshAuthority

open Ssh

variable {a : SshAuthority} {subject : Subject} {now : Instant} {random : Nat → UInt8}
variable {text : String} {validAfter : Nat} {keys : List PublicKey} {cs : List Certificate}

/-! ### Lines -/

/-- A line that is neither empty nor a comment nor a key, without the blanks at its ends. -/
def IsBad (line : List Char) : Prop :=
  trim line ≠ [] ∧ (trim line).head? ≠ some '#' ∧ PublicKey.ofLine? (trim line) = none

instance (line : List Char) : Decidable (IsBad line) :=
  inferInstanceAs (Decidable (_ ∧ _ ∧ _))

/-- The keys of the lines before the first bad one. -/
def keysBefore (lines : List (List Char)) : List PublicKey :=
  (lines.takeWhile (fun line => !decide (IsBad line))).filterMap
    (fun line => PublicKey.ofLine? (trim line))

theorem head?_trimEnd {c : Char} (h : isBlank c = false) (s : List Char) :
    (trimEnd (c :: s)).head? = some c := by
  unfold trimEnd
  rw [List.reverse_cons, List.dropWhile_append]
  split
  · simp [h]
  · simp

theorem ofLine?_comment (s : List Char) : PublicKey.ofLine? ('#' :: s) = none := by
  have hhead := head?_trimEnd (show isBlank '#' = false by decide) s
  cases htrim : trimEnd ('#' :: s) with
  | nil =>
      rw [htrim] at hhead
      cases hhead
  | cons c rest =>
      rw [htrim] at hhead
      cases hhead
      have hsegment : PublicKey.readSegment? ('#' :: rest) = none := by
        unfold PublicKey.readSegment?
        simp [show PublicKey.isSegmentChar '#' = false by decide]
      unfold PublicKey.ofLine?
      rw [htrim, hsegment]
      rfl

theorem lineOf_cases (line : List Char) :
    (Line.of line = .blank ∧ ¬ IsBad line ∧ PublicKey.ofLine? (trim line) = none) ∨
      (∃ k, Line.of line = .key k ∧ ¬ IsBad line ∧ PublicKey.ofLine? (trim line) = some k) ∨
        (Line.of line = .bad ∧ IsBad line) := by
  unfold Line.of IsBad
  dsimp only
  split
  · next hnil =>
    rw [hnil]
    exact .inl ⟨rfl, fun h => h.1 rfl, by decide⟩
  · next s hcomment =>
    rw [hcomment]
    exact .inl ⟨rfl, fun h => h.2.1 rfl, ofLine?_comment s⟩
  · next hne hcomment =>
    cases hk : PublicKey.ofLine? (trim line) with
    | some k => exact .inr (.inl ⟨k, rfl, nofun, rfl⟩)
    | none =>
        refine .inr (.inr ⟨rfl, hne, ?_, rfl⟩)
        intro hhead
        obtain ⟨s, hs⟩ := List.head?_eq_some_iff.mp hhead
        exact hcomment s hs

theorem lineOf_eq_bad_iff {line : List Char} : Line.of line = .bad ↔ IsBad line := by
  rcases lineOf_cases line with ⟨hline, hgood, -⟩ | ⟨k, hline, hgood, -⟩ | ⟨hline, hbad⟩
  · simp [hline, hgood]
  · simp [hline, hgood]
  · exact iff_of_true hline hbad

/-- The loop over the lines stops where the first bad one stands. -/
theorem keysOf_map (l : List (List Char)) : keysOf (l.map Line.of) = keysBefore l := by
  unfold keysBefore
  induction l with
  | nil => rfl
  | cons line l ih =>
      rcases lineOf_cases line with ⟨hline, hgood, hk⟩ | ⟨k, hline, hgood, hk⟩ | ⟨hline, hbad⟩
      · simp only [List.map_cons, hline, keysOf, ih, List.takeWhile_cons, hgood, decide_false,
          Bool.not_false, if_true, List.filterMap_cons, hk]
      · simp only [List.map_cons, hline, keysOf, ih, List.takeWhile_cons, hgood, decide_false,
          Bool.not_false, if_true, List.filterMap_cons, hk]
      · simp only [List.map_cons, hline, keysOf, List.takeWhile_cons, hbad, decide_true,
          Bool.not_true, Bool.false_eq_true, if_false, List.filterMap_nil]

theorem leadingKeys_eq (text : String) :
    leadingKeys text = keysBefore (pieces '\n' text.toList) :=
  keysOf_map _

/-- Whatever follows a bad line does not matter, nor what that line is. -/
theorem keysBefore_append_of_isBad {bad : List Char} (h : IsBad bad)
    (before rest : List (List Char)) : keysBefore (before ++ bad :: rest) = keysBefore before := by
  rw [← keysOf_map, ← keysOf_map, List.map_append, List.map_cons, lineOf_eq_bad_iff.mpr h,
    keysOf_bad]

theorem leadingKeys_append_of_good (h : ∀ line ∈ pieces '\n' text.toList, ¬ IsBad line)
    (rest : String) :
    leadingKeys (text ++ "\n" ++ rest) = leadingKeys text ++ leadingKeys rest := by
  refine leadingKeys_append ?_ rest
  intro hmem
  obtain ⟨line, hline, hbad⟩ := List.mem_map.mp hmem
  exact h line hline (lineOf_eq_bad_iff.mp hbad)

theorem isListed_of_mem_leadingKeys {k : PublicKey} (h : k ∈ leadingKeys text) : k.IsListed := by
  rw [leadingKeys_eq, keysBefore, List.mem_filterMap] at h
  obtain ⟨line, -, hk⟩ := h
  exact PublicKey.isListed_of_ofLine? hk

/-! ### Certificates -/

/-- What the certificates of one call have in common. -/
structure IsIssued (a : SshAuthority) (subject : Subject) (now : Instant) (c : Certificate) :
    Prop where
  isHost : c.statement.isHost = subject.isHost
  keyId : c.statement.keyId = subject.keyId
  principals : c.statement.principals = subject.principals
  criticalOptions : c.statement.criticalOptions = []
  extensions : c.statement.extensions = []
  validAfter : (c.statement.validAfter : Int) = now.second
  validBefore : c.statement.validBefore = c.statement.validAfter + subject.lifespan.seconds
  signatureKey : c.statement.signatureKey = a.key.publicKey
  signed : a.key.sign c.statement.signedPart = some (c.algorithm, c.signature)

theorem exists_of_mem_statements {s : Statement}
    (h : s ∈ a.statements subject validAfter random keys) :
    ∃ nonce serial key, (serial < Bytes.limit 8 ∧ key ∈ keys) ∧
      s = a.statement subject validAfter nonce serial key := by
  induction keys generalizing random with
  | nil => cases h
  | cons key keys ih =>
      rcases List.mem_cons.mp h with rfl | h
      · refine ⟨_, _, _, ⟨?_, List.mem_cons_self⟩, rfl⟩
        refine Nat.lt_of_lt_of_eq (Bytes.toNat_lt _) ?_
        simp
      · obtain ⟨nonce, serial, key', ⟨hserial, hmem⟩, hs⟩ := ih h
        exact ⟨nonce, serial, key', ⟨hserial, List.mem_cons_of_mem _ hmem⟩, hs⟩

theorem certified_of_certifyAll (h : a.certifyAll subject validAfter random keys = .ok cs) :
    ∀ c ∈ cs, c.statement ∈ a.statements subject validAfter random keys ∧
      a.certify c.statement = .ok c := by
  induction keys generalizing random cs with
  | nil =>
      cases h
      nofun
  | cons key keys ih =>
      obtain ⟨c, rest, hc, hrest, rfl⟩ := certifyAll_cons_eq_ok h
      have hstatement := certify_eq_ok hc
      intro c' hc'
      rcases List.mem_cons.mp hc' with rfl | hc'
      · rw [hstatement]
        exact ⟨List.mem_cons_self, hc⟩
      · obtain ⟨hmem, hcertify⟩ := ih hrest c' hc'
        exact ⟨List.mem_cons_of_mem _ hmem, hcertify⟩

theorem signed_of_certify {s : Statement} {c : Certificate} (h : a.certify s = .ok c) :
    s.validBefore < UInt64.size / 2 ∧
      a.key.sign s.signedPart = some (c.algorithm, c.signature) := by
  unfold certify at h
  split at h
  · cases h
  · next hgood =>
    split at h
    · next algorithm signature hsign =>
      cases h
      exact ⟨Nat.not_le.mp (not_or.mp hgood).2, hsign⟩
    · cases h

theorem issue_eq_ok (h : a.issue now random text subject = .ok cs) : 0 ≤ now.nanos ∧
    a.certifyAll subject now.second.toNat random (leadingKeys text) = .ok cs := by
  unfold issue at h
  dsimp only at h
  split at h
  · cases h
  split at h
  · cases h
  split at h
  · cases h
  next hnow =>
  split at h
  · cases h
  · exact ⟨Int.not_lt.mp hnow, h⟩

theorem isListed_of_load {key line : Bytes} (h : load key line = .ok a) :
    a.key.publicKey.IsListed := by
  unfold load at h
  split at h
  · cases h
  · split at h
    · cases h
    · next published hpublished =>
      split at h
      · next heq =>
        cases h
        obtain ⟨text, -, hline⟩ := Option.bind_eq_some_iff.mp hpublished
        rw [← heq]
        exact PublicKey.isListed_of_ofLine? hline
      · cases h

/-! ### The answer -/

theorem isIssued_of_issue (h : a.issue now random text subject = .ok cs) :
    ∀ c ∈ cs, a.IsIssued subject now c := by
  obtain ⟨hnow, hall⟩ := issue_eq_ok h
  intro c hc
  obtain ⟨hmem, hcertify⟩ := certified_of_certifyAll hall c hc
  obtain ⟨nonce, serial, key, -, hs⟩ := exists_of_mem_statements hmem
  have hsecond : (now.second.toNat : Int) = now.second :=
    Int.toNat_of_nonneg (Int.fdiv_nonneg hnow (by decide))
  have hsigned := (signed_of_certify hcertify).2
  constructor
  case signed => exact hsigned
  case validAfter =>
    rw [hs]
    exact hsecond
  all_goals
    rw [hs]
    rfl

theorem isReadable_of_issue (hkey : a.key.publicKey.IsListed)
    (h : a.issue now random text subject = .ok cs) : ∀ c ∈ cs, c.statement.IsReadable := by
  obtain ⟨-, hall⟩ := issue_eq_ok h
  intro c hc
  obtain ⟨hmem, hcertify⟩ := certified_of_certifyAll hall c hc
  obtain ⟨nonce, serial, key, ⟨hserial, -⟩, hs⟩ := exists_of_mem_statements hmem
  have hbefore := (signed_of_certify hcertify).1
  have hlimit : UInt64.size / 2 ≤ Bytes.limit 8 := by decide
  rw [hs] at hbefore ⊢
  have hafter : now.second.toNat ≤ now.second.toNat + subject.lifespan.seconds :=
    Nat.le_add_right _ _
  constructor
  · exact hserial
  · exact Nat.lt_of_le_of_lt hafter (Nat.lt_of_lt_of_le hbefore hlimit)
  · exact Nat.lt_of_lt_of_le hbefore hlimit
  · exact hkey.ofBytes?_encode

theorem isListed_of_issue (h : a.issue now random text subject = .ok cs) :
    ∀ c ∈ cs, c.statement.key.IsListed := by
  intro c hc
  have hkeys := keys_certifyAll (issue_eq_ok h).2
  have hmem : c.statement.key ∈ leadingKeys text := by
    rw [← hkeys]
    exact List.mem_map_of_mem hc
  exact isListed_of_mem_leadingKeys hmem

theorem pieces_lines (h : ∀ c ∈ cs, c.statement.key.IsListed) :
    pieces '\n' (lines cs).toList = cs.map (·.line.toList) ++ [[]] := by
  have hlines : (lines cs).toList = Pem.ended (cs.map (·.line.toList)) := by
    unfold lines
    induction cs with
    | nil => rfl
    | cons c cs ih =>
        rw [List.map_cons, List.map_cons, Pem.ended_cons, ← ih fun c' hc' => h c' (.tail _ hc')]
        simp [String.join_cons]
  rw [hlines]
  refine Pem.pieces_ended ?_
  intro line hline
  obtain ⟨c, hc, rfl⟩ := List.mem_map.mp hline
  exact Certificate.feed_not_mem_line (h c hc).segment

/-- What certificates there are for a text, and what stands in their lines. -/
structure Covers (a : SshAuthority) (text : String) (subject : Subject) (now : Instant)
    (cs : List Certificate) : Prop where
  /-- One certificate for each key, in order. -/
  keys : cs.map (·.statement.key) = leadingKeys text
  issued : ∀ c ∈ cs, a.IsIssued subject now c
  /-- One line for each certificate, all of them ended. -/
  lines : pieces '\n' (lines cs).toList = cs.map (·.line.toList) ++ [[]]
  /-- A line shows the certificate unless its key goes by the name of another kind. -/
  shown_iff : ∀ c ∈ cs, c.encode.length ≤ longest →
    (Certificate.ofLine? c.line.toList = some c ↔ ¬ c.statement.key.IsImpostor)

/-- How an authority answers a text of keys. -/
structure CertifiesLeading (a : SshAuthority) (text : String) : Prop where
  keys : leadingKeys text = keysBefore (pieces '\n' text.toList)
  /-- A text without keys is refused, whatever is asked for. -/
  refused : leadingKeys text = [] → ∀ now random subject,
    a.issue now random text subject = .error .noKeysFound
  /-- There are certificates just if every key gets one. -/
  issued_iff : leadingKeys text ≠ [] → ∀ now random subject, subject.principals ≠ [] →
    0 ≤ now.nanos → ((∃ cs, a.issue now random text subject = .ok cs) ↔
      a.Certifies subject now random (leadingKeys text))
  covered : ∀ now random subject cs, a.issue now random text subject = .ok cs →
    a.Covers text subject now cs
  /-- A bad line and what follows it have no influence. -/
  stops : ∀ before bad rest, IsBad bad → pieces '\n' text.toList = before ++ bad :: rest →
    ∀ other bad' rest', IsBad bad' → pieces '\n' other.toList = before ++ bad' :: rest' →
      ∀ now random subject, a.issue now random other subject = a.issue now random text subject
  /-- The keys of further lines follow, if no line is bad. -/
  goes_on : (∀ line ∈ pieces '\n' text.toList, ¬ IsBad line) → ∀ rest,
    leadingKeys (text ++ "\n" ++ rest) = leadingKeys text ++ leadingKeys rest

theorem issue_eq_of_leadingKeys_eq {other : String} (h : leadingKeys other = leadingKeys text) :
    a.issue now random other subject = a.issue now random text subject := by
  unfold issue
  rw [h]

theorem covers_of_issue (hkey : a.key.publicKey.IsListed)
    (h : a.issue now random text subject = .ok cs) : a.Covers text subject now cs where
  keys := keys_certifyAll (issue_eq_ok h).2
  issued := isIssued_of_issue h
  lines := pieces_lines (isListed_of_issue h)
  shown_iff c hc := Certificate.ofLine?_line_iff (isListed_of_issue h c hc)
    (isReadable_of_issue hkey h c hc)

/-- **The leading keys of a text are certified, each of them once and in order**, or none is; their
lines show them, but for keys of a kind that shares the name of its certificates with another. -/
theorem certifiesLeading_of_load {key line : Bytes} (h : load key line = .ok a) (text : String) :
    a.CertifiesLeading text where
  keys := leadingKeys_eq text
  refused hnone now random subject := by
    unfold issue
    rw [hnone]
    rfl
  issued_iff hkeys now random subject hprincipals hnow := exists_issue_iff hkeys hprincipals hnow
  covered now random subject cs hissue := covers_of_issue (isListed_of_load h) hissue
  stops before bad rest hbad htext other bad' rest' hbad' hother now random subject := by
    refine issue_eq_of_leadingKeys_eq ?_
    rw [leadingKeys_eq, leadingKeys_eq, htext, hother, keysBefore_append_of_isBad hbad,
      keysBefore_append_of_isBad hbad']
  goes_on hgood rest := leadingKeys_append_of_good hgood rest

/-! ### Keys in lines of their own -/

theorem trim_line {k : PublicKey} (h : k.IsListed) : trim k.line.toList = k.line.toList := by
  have htrim := (PublicKey.readSegment?_line h.readable.kind_ne_nil h.segment h.encode_ne_nil).1
  rw [← PublicKey.toList_line] at htrim
  have hstart : k.line.toList.dropWhile isBlank = k.line.toList := by
    rw [PublicKey.toList_line]
    cases hkind : k.kind.toList with
    | nil => exact absurd hkind h.readable.kind_ne_nil
    | cons c rest =>
        have hc := PublicKey.isBlank_of_isSegmentChar (h.segment c (hkind ▸ List.mem_cons_self))
        rw [List.cons_append, List.dropWhile_cons, hc]
        simp
  rw [trim, hstart, htrim]

theorem leadingKeys_line {k : PublicKey} (h : k.IsListed) : leadingKeys k.line = [k] := by
  have hread : PublicKey.ofLine? (trim k.line.toList) = some k := by
    rw [trim_line h, h.ofLine?_line]
  have hgood : ¬ IsBad k.line.toList := by
    rintro ⟨-, -, hnone⟩
    rw [hread] at hnone
    cases hnone
  have hfeed : '\n' ∉ k.line.toList := by
    rw [PublicKey.toList_line]
    exact PublicKey.feed_not_mem_line h.segment _
  rw [leadingKeys_eq, pieces_of_not_mem '\n' hfeed]
  simp [keysBefore, hgood, hread]

theorem loadKey_write {der : Bytes} {k : Rsa.PrivateKey} (h : KeyFile.rsaOfDer? der = some k) :
    loadKey (Bytes.ofText (Pem.write "RSA PRIVATE KEY" der)) = .ok (.rsa k) := by
  have hne : der ≠ [] := by
    rintro rfl
    cases h
  have hwritten := Pem.strict?_write TlsAuthority.isLabel_rsaKey hne
  have hfile : PrivateKey.ofText? (Pem.write "RSA PRIVATE KEY" der) = none := by
    unfold PrivateKey.ofText?
    split
    · next block hblock =>
      have hlabel := Pem.label_eq_of_strict? hblock hwritten
      dsimp only at hlabel
      rw [if_neg]
      rw [hlabel]
      decide
    · rfl
  unfold loadKey
  simp only [Bytes.toText?_ofText, hfile, TlsAuthority.rsa?_write h]

theorem load_write {der : Bytes} {k : Rsa.PrivateKey} (h : KeyFile.rsaOfDer? der = some k)
    (hlisted : (PublicKey.ofRsa k.toPublic).IsListed) :
    load (Bytes.ofText (Pem.write "RSA PRIVATE KEY" der))
        (Bytes.ofText (PublicKey.ofRsa k.toPublic).line) =
      .ok ⟨.rsa k, Bytes.ofText (PublicKey.ofRsa k.toPublic).line⟩ := by
  have hline : PublicKey.ofLine? (trim (PublicKey.ofRsa k.toPublic).line.toList) =
      some (PublicKey.ofRsa k.toPublic) := by
    rw [trim_line hlisted, hlisted.ofLine?_line]
  unfold load
  rw [loadKey_write h]
  simp only [Bytes.toText?_ofText, Option.bind_some, hline]
  exact if_pos rfl

/-! ### A crew's authority -/

def crewSigner : SshAuthority where
  key := .rsa World.crewKey
  line := Bytes.ofText (PublicKey.ofRsa World.crewKey.toPublic).line

theorem isListed_crewKey : (PublicKey.ofRsa World.crewKey.toPublic).IsListed :=
  PublicKey.isListed_ofRsa (by decide +kernel) (by decide +kernel)

theorem load_crewSigner : load (Bytes.ofText (Pem.write "RSA PRIVATE KEY" World.crewKeyDer))
    (Bytes.ofText (PublicKey.ofRsa World.crewKey.toPublic).line) = .ok crewSigner :=
  load_write World.rsaOfDer?_crewKey isListed_crewKey

/-- The nodes of the crew are hosts of two names. -/
def crewSubject : Subject where
  isHost := true
  lifespan := (Span.ofParts? 3600 0).getD .zero
  keyId := "node7"
  principals := ["node7.cluster", "node7"]

theorem exists_issue_crewSigner (hkeys : leadingKeys text ≠ []) :
    ∃ cs, crewSigner.issue World.dawn.signingClock World.dawn.random text crewSubject = .ok cs := by
  have hsteady : crewSigner.key.IsSteady := by
    show 2048 ≤ 8 * World.crewKey.toPublic.length
    decide +kernel
  refine (exists_issue_iff hkeys (by decide) (by decide)).mpr ⟨by decide, by decide, ?_⟩
  intro s _
  exact hsteady.exists_sign s.signedPart

/-- The crew's authority certifies its own key. -/
theorem certifiesLeading_crewKey :
    crewSigner.CertifiesLeading (PublicKey.ofRsa World.crewKey.toPublic).line ∧
    ∃ cs, crewSigner.issue World.dawn.signingClock World.dawn.random
      (PublicKey.ofRsa World.crewKey.toPublic).line crewSubject = .ok cs := by
  have hsome : leadingKeys (PublicKey.ofRsa World.crewKey.toPublic).line ≠ [] := by
    rw [leadingKeys_line isListed_crewKey]
    exact List.cons_ne_nil _ _
  exact ⟨certifiesLeading_of_load load_crewSigner _, exists_issue_crewSigner hsome⟩

/-! ### A key under another name -/

/-- A key of a foreign kind, whose certificates go by the name of those for Edwards keys. -/
def impostor : PublicKey :=
  .other "ssh-ed25519@openssh.com" ((List.range 32).map UInt8.ofNat)

example : impostor.IsImpostor := by decide

theorem isListed_impostor : impostor.IsListed where
  readable := .other (by decide) (by decide) (by decide) (by decide)
  short := by
    show "ssh-ed25519@openssh.com".utf8ByteSize ≤ 48
    decide
  segment := by
    have all : "ssh-ed25519@openssh.com".toList.all PublicKey.isSegmentChar = true := by decide
    exact List.all_eq_true.mp all

theorem length_of_sign {key : Rsa.PrivateKey} {message signature : Bytes} {algorithm : String}
    (h : (SigningKey.rsa key).sign message = some (algorithm, signature)) :
    algorithm = "rsa-sha2-512" ∧ signature.length = key.toPublic.length := by
  simp only [SigningKey.sign] at h
  split at h
  · cases h
  · obtain ⟨s, hs, h⟩ := Option.map_eq_some_iff.mp h
    cases h
    obtain ⟨frame, -, hframe⟩ := Option.map_eq_some_iff.mp hs
    exact ⟨rfl, by rw [← hframe, Bytes.length_ofNat]⟩

theorem length_impostorCertificate {c : Certificate}
    (h : crewSigner.issue World.dawn.signingClock World.dawn.random impostor.line crewSubject =
      .ok [c]) : c.encode.length ≤ longest := by
  obtain ⟨-, hall⟩ := issue_eq_ok h
  obtain ⟨hmem, hcertify⟩ := certified_of_certifyAll hall c List.mem_cons_self
  obtain ⟨halgorithm, hsignature⟩ := length_of_sign (signed_of_certify hcertify).2
  rw [leadingKeys_line isListed_impostor, statements, statements, List.mem_singleton] at hmem
  have hroom : c.statement.signedPart.length + World.crewKey.toPublic.length + 100 ≤ longest := by
    rw [hmem]
    decide +kernel
  have hname : (encodeText "rsa-sha2-512").length = 16 := by decide
  rw [Certificate.encode, List.length_append, length_encodeString, List.length_append,
    length_encodeString, halgorithm, hname, hsignature]
  omega

/-- The line of the certificate for a key shows another key. -/
theorem misread_impostor : ∃ a c c',
    load (Bytes.ofText (Pem.write "RSA PRIVATE KEY" World.crewKeyDer))
      (Bytes.ofText (PublicKey.ofRsa World.crewKey.toPublic).line) = .ok a ∧
    leadingKeys impostor.line = [impostor] ∧
    a.issue World.dawn.signingClock World.dawn.random impostor.line crewSubject = .ok [c] ∧
    c.statement.key = impostor ∧
    Certificate.ofLine? c.line.toList = some c' ∧
    c'.statement.key = .ed25519 ((List.range 32).map UInt8.ofNat) := by
  have hkeys := leadingKeys_line isListed_impostor
  have hsome : leadingKeys impostor.line ≠ [] := by
    rw [hkeys]
    exact List.cons_ne_nil _ _
  obtain ⟨cs, hcs⟩ := exists_issue_crewSigner hsome
  have hone := keys_certifyAll (issue_eq_ok hcs).2
  rw [hkeys, List.map_eq_singleton_iff] at hone
  obtain ⟨c, rfl, hkey⟩ := hone
  have hsigner : crewSigner.key.publicKey.IsListed := isListed_crewKey
  have hreadable := isReadable_of_issue hsigner hcs c List.mem_cons_self
  have hplain : "ssh-ed25519" ∈ plainKinds := by decide
  have hkind : Ssh.keyKind? (certificateKind c.statement.key.kind) = some "ssh-ed25519" := by
    rw [hkey]
    exact (keyKind?_of_plain hplain).2
  have hedwards : PublicKey.IsReadAs "ssh-ed25519" (.ed25519 ((List.range 32).map UInt8.ofNat)) :=
    .ed25519 (by decide)
  have hfields : PublicKey.fields (.ed25519 ((List.range 32).map UInt8.ofNat)) =
      c.statement.key.fields := by
    rw [hkey]
    rfl
  have hread := Certificate.ofBytes?_encode_of_keyKind? hreadable (length_impostorCertificate hcs)
    hkind hedwards hfields
  have hsegment := isListed_impostor.segment
  rw [← hkey] at hsegment
  have hnames : certificateKind "ssh-ed25519" = certificateKind c.statement.key.kind := by
    rw [hkey]
    decide
  have hline := (Certificate.ofLine?_line_eq_some_iff hsegment).mpr ⟨hread, hnames⟩
  exact ⟨crewSigner, c, _, load_crewSigner, hkeys, hcs, hkey, hline, rfl⟩

end SshAuthority
end CredentialServer
