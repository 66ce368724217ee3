import CredentialServer.Proofs.Ssh.Reading
import CredentialServer.Proofs.Text.Armour

/-! # Certificates show the certified key

A certificate is read back from its line as it was written, with one exception: the name of a
certificate is made of the kind of its key, and two kinds may share one name.  The one without a
domain wins, so a key of the other (`IsImpostor`) is read as another key.  Main statement:
`ofLine?_line_iff`. -/

namespace CredentialServer

namespace Ssh

variable {b rest nonce : Bytes} {kind : String} {k : PublicKey} {s : Statement} {c : Certificate}

/-! ### The names of certificates -/

/-- A key of a foreign kind whose certificates go by the name of those for a kind without a
domain. -/
def PublicKey.IsImpostor (k : PublicKey) : Prop :=
  ∃ plain ∈ plainKinds, k.kind = plain ++ "@openssh.com"

instance (k : PublicKey) : Decidable k.IsImpostor := inferInstanceAs (Decidable (∃ _ ∈ _, _))

theorem toList_of_pieces {name domain : List Char} (h : pieces '@' kind.toList = [name, domain]) :
    kind.toList = name ++ '@' :: domain := by
  have htext := intercalate_pieces '@' kind.toList
  rw [h] at htext
  rw [← htext]
  simp [List.intercalate]

/-- A name of two parts is the one with a mark before its domain. -/
theorem pieces_certificateKind {name domain : List Char}
    (h : pieces '@' kind.toList = [name, domain]) :
    pieces '@' (certificateKind kind).toList = [name ++ "-cert-v01".toList, domain] := by
  have hname : '@' ∉ name := not_mem_of_mem_pieces '@' (h ▸ List.mem_cons_self)
  have hdomain : '@' ∉ domain :=
    not_mem_of_mem_pieces '@' (h ▸ List.mem_cons_of_mem _ List.mem_cons_self)
  have hmark : '@' ∉ "-cert-v01".toList := by decide
  have htext : (certificateKind kind).toList = (name ++ "-cert-v01".toList) ++ '@' :: domain := by
    rw [certificateKind, h]
    simp
  have hfirst : '@' ∉ name ++ "-cert-v01".toList := by
    rw [List.mem_append]
    exact not_or.mpr ⟨hname, hmark⟩
  rw [htext, pieces_append_cons, pieces_of_not_mem '@' hfirst, pieces_of_not_mem '@' hdomain]
  rfl

/-- The name of a certificate tells the kind of the key, if that has a domain of its own. -/
theorem keyKind?_of_pieces {name domain : List Char}
    (h : pieces '@' kind.toList = [name, domain])
    (hplain : ¬ ∃ plain ∈ plainKinds, kind = plain ++ "@openssh.com") :
    keyKind? (certificateKind kind) = some kind := by
  have hkind : kind = String.ofList name ++ "@" ++ String.ofList domain := by
    rw [← String.toList_inj, toList_of_pieces h]
    simp
  have hsuffix : "-cert-v01".toList.isSuffixOf (name ++ "-cert-v01".toList) = true := by
    rw [List.isSuffixOf_iff_suffix]
    exact List.suffix_append _ _
  have htake : (name ++ "-cert-v01".toList).take
      ((name ++ "-cert-v01".toList).length - "-cert-v01".toList.length) = name := by
    rw [List.length_append, Nat.add_sub_cancel, List.take_left]
  unfold keyKind?
  rw [pieces_certificateKind h]
  simp only [hsuffix, if_true, htake]
  rw [if_neg, ← hkind]
  rintro ⟨rfl, hmem⟩
  refine hplain ⟨_, hmem, hkind.trans ?_⟩
  rw [String.append_assoc, String.ofList_toList]
  rfl

/-- But if there is a kind of the same name without a domain, that one is told. -/
theorem keyKind?_of_plain {plain : String} (h : plain ∈ plainKinds) :
    keyKind? (certificateKind plain) = some plain ∧
      keyKind? (certificateKind (plain ++ "@openssh.com")) = some plain := by
  have all : ∀ plain ∈ plainKinds, keyKind? (certificateKind plain) = some plain ∧
      keyKind? (certificateKind (plain ++ "@openssh.com")) = some plain := by decide +kernel
  exact all plain h

theorem PublicKey.IsReadAs.keyKind? (h : PublicKey.IsReadAs kind k) (hgenuine : ¬ k.IsImpostor) :
    keyKind? (certificateKind k.kind) = some k.kind := by
  cases h with
  | rsa hkind he hn =>
      have hplain : "ssh-rsa" ∈ plainKinds := by decide
      exact (keyKind?_of_plain hplain).1
  | dsa hp hq hg hy =>
      have hplain : "ssh-dss" ∈ plainKinds := by decide
      exact (keyKind?_of_plain hplain).1
  | @ecdsa curve point hpoint =>
      have hplain : "ecdsa-sha2-" ++ curve.text ∈ plainKinds := by cases curve <;> decide
      exact (keyKind?_of_plain hplain).1
  | ed25519 hkey =>
      have hplain : "ssh-ed25519" ∈ plainKinds := by decide
      exact (keyKind?_of_plain hplain).1
  | tokenEcdsa hpoint happlication =>
      have hpieces : pieces '@' "sk-ecdsa-sha2-nistp256@openssh.com".toList =
          ["sk-ecdsa-sha2-nistp256".toList, "openssh.com".toList] := by decide
      exact keyKind?_of_pieces hpieces hgenuine
  | tokenEd25519 hkey happlication =>
      have hpieces : pieces '@' "sk-ssh-ed25519@openssh.com".toList =
          ["sk-ssh-ed25519".toList, "openssh.com".toList] := by decide
      exact keyKind?_of_pieces hpieces hgenuine
  | other hname hecdsa hed25519 hdata =>
      unfold PublicKey.isForeignName at hname
      simp only at hname
      split at hname
      · next name domain hpieces => exact keyKind?_of_pieces hpieces hgenuine
      · cases hname

/-! ### Statements -/

@[simp] theorem length_encodeString (b : Bytes) : (encodeString b).length = 4 + b.length := by
  rw [encodeString, List.length_append, Bytes.length_ofNat]

namespace Statement

/-- What is stated behind the key. -/
def terms (s : Statement) : Bytes :=
  Bytes.ofNat 8 s.serial ++ (Bytes.ofNat 4 (if s.isHost then 2 else 1) ++ (encodeText s.keyId ++
    (encodeString (s.principals.flatMap encodeText) ++ (Bytes.ofNat 8 s.validAfter ++
      (Bytes.ofNat 8 s.validBefore ++ (encodeString s.criticalOptions ++
        (encodeString s.extensions ++ (encodeString [] ++
          encodeString s.signatureKey.encode))))))))

theorem signedPart_eq (s : Statement) : s.signedPart =
    encodeText (certificateKind s.key.kind) ++
      (encodeString s.nonce ++ (s.key.fields ++ s.terms)) := by
  simp only [signedPart, terms, List.append_assoc]

/-- A statement whose numbers fit, with a key to check it that can be read. -/
structure IsReadable (s : Statement) : Prop where
  serial : s.serial < Bytes.limit 8
  validAfter : s.validAfter < Bytes.limit 8
  validBefore : s.validBefore < Bytes.limit 8
  signatureKey : PublicKey.ofBytes? s.signatureKey.encode = some s.signatureKey

/-- The strings in a statement that is short enough can be read. -/
structure IsShort (s : Statement) : Prop where
  name : IsString (Bytes.ofText (certificateKind s.key.kind))
  nonce : IsString s.nonce
  keyId : IsString (Bytes.ofText s.keyId)
  principals : IsString (s.principals.flatMap encodeText)
  criticalOptions : IsString s.criticalOptions
  extensions : IsString s.extensions
  signatureKey : IsString s.signatureKey.encode

theorem isShort_of_length (h : s.signedPart.length ≤ longest) : s.IsShort := by
  rw [signedPart_eq, terms] at h
  simp only [List.length_append, encodeText, length_encodeString] at h
  constructor <;> unfold IsString <;> omega

theorem IsShort.principal (h : s.IsShort) : ∀ p ∈ s.principals, IsString (Bytes.ofText p) := by
  intro p hp
  obtain ⟨before, after, hl⟩ := List.append_of_mem hp
  have hall : (s.principals.flatMap encodeText).length ≤ longest := h.principals
  rw [hl, List.flatMap_append, List.flatMap_cons, List.length_append, List.length_append,
    encodeText, length_encodeString] at hall
  unfold IsString
  omega

theorem length_le_flatMap (l : List String) : l.length ≤ (l.flatMap encodeText).length := by
  induction l with
  | nil => exact Nat.le_refl 0
  | cons t l ih =>
      rw [List.flatMap_cons, List.length_append, List.length_cons, encodeText,
        length_encodeString]
      omega

/-- What is stated behind the key is read back, whatever key stands there. -/
theorem IsReadable.readStatement?_terms (h : s.IsReadable) (hshort : s.IsShort) (k : PublicKey)
    (rest : Bytes) : Certificate.readStatement? s.nonce k (s.terms ++ rest) =
      some ({ s with key := k }, rest) := by
  have htype : (if s.isHost then 2 else 1) < Bytes.limit 4 := by split <;> decide
  have hkind : (if s.isHost then 2 else 1) = 1 ∨ (if s.isHost then 2 else 1) = 2 := by
    split <;> decide
  have hhost : decide ((if s.isHost then 2 else 1) = 2) = s.isHost := by cases s.isHost <;> rfl
  have hempty : IsString [] := by decide
  unfold Certificate.readStatement? guard
  simp only [terms, List.append_assoc, readNat?_ofNat h.serial, readNat?_ofNat htype,
    readText?_encode hshort.keyId, readString?_encode hshort.principals,
    readTexts?_encode hshort.principal (length_le_flatMap _), readNat?_ofNat h.validAfter,
    readNat?_ofNat h.validBefore, readString?_encode hshort.criticalOptions,
    readString?_encode hshort.extensions, readString?_encode hempty,
    readString?_encode hshort.signatureKey, h.signatureKey, hkind, if_true, hhost,
    Option.bind_eq_bind, Option.bind_some]
  rfl

theorem key_of_readStatement? (h : Certificate.readStatement? nonce k b = some (s, rest)) :
    s.key = k := by
  unfold Certificate.readStatement? at h
  obtain ⟨⟨serial, b⟩, -, h⟩ := Option.bind_eq_some_iff.mp h
  obtain ⟨⟨type, b⟩, -, h⟩ := Option.bind_eq_some_iff.mp h
  obtain ⟨_, -, h⟩ := Option.bind_eq_some_iff.mp h
  obtain ⟨⟨keyId, b⟩, -, h⟩ := Option.bind_eq_some_iff.mp h
  obtain ⟨⟨octets, b⟩, -, h⟩ := Option.bind_eq_some_iff.mp h
  obtain ⟨principals, -, h⟩ := Option.bind_eq_some_iff.mp h
  obtain ⟨⟨validAfter, b⟩, -, h⟩ := Option.bind_eq_some_iff.mp h
  obtain ⟨⟨validBefore, b⟩, -, h⟩ := Option.bind_eq_some_iff.mp h
  obtain ⟨⟨criticalOptions, b⟩, -, h⟩ := Option.bind_eq_some_iff.mp h
  obtain ⟨⟨extensions, b⟩, -, h⟩ := Option.bind_eq_some_iff.mp h
  obtain ⟨⟨reserved, b⟩, -, h⟩ := Option.bind_eq_some_iff.mp h
  obtain ⟨⟨signatureOctets, b⟩, -, h⟩ := Option.bind_eq_some_iff.mp h
  obtain ⟨signatureKey, -, h⟩ := Option.bind_eq_some_iff.mp h
  cases h
  rfl

end Statement

/-! ### Certificates -/

namespace Certificate

theorem length_signedPart_le (c : Certificate) :
    c.statement.signedPart.length ≤ c.encode.length := by
  rw [encode, List.length_append]
  exact Nat.le_add_right _ _

theorem isShort_signature (h : c.encode.length ≤ longest) :
    IsString (Bytes.ofText c.algorithm) ∧ IsString c.signature ∧
      IsString (encodeText c.algorithm ++ encodeString c.signature) := by
  simp only [encode, encodeText, List.length_append, length_encodeString] at h
  simp only [IsString, encodeText, List.length_append, length_encodeString]
  omega

/-- The same certificate for another key. -/
def withKey (c : Certificate) (k : PublicKey) : Certificate :=
  { c with statement := { c.statement with key := k } }

/-- The certified key is read as the kind that the name of the certificate tells. -/
theorem ofBytes?_encode_of_keyKind? (hs : c.statement.IsReadable)
    (hlength : c.encode.length ≤ longest)
    (hkind : Ssh.keyKind? (certificateKind c.statement.key.kind) = some kind)
    (hk : PublicKey.IsReadAs kind k) (hfields : k.fields = c.statement.key.fields) :
    ofBytes? c.encode = some (c.withKey k) := by
  have hshort := Statement.isShort_of_length (Nat.le_trans c.length_signedPart_le hlength)
  obtain ⟨halgorithm, hsignature, hboth⟩ := isShort_signature hlength
  have hlast := readString?_encode hboth []
  have hbytes := readString?_encode hsignature []
  rw [List.append_nil] at hlast hbytes
  unfold ofBytes? guard
  simp only [encode, Statement.signedPart_eq, List.append_assoc, readText?_encode hshort.name,
    readString?_encode hshort.nonce, hkind, ← hfields, hk.readFields?_append,
    hs.readStatement?_terms hshort, hlast, readText?_encode halgorithm, hbytes, if_true,
    Option.bind_eq_bind, Option.bind_some]
  rfl

theorem isReadAs_of_ofBytes? (h : ofBytes? b = some c) :
    ∃ name kind rest, readText? b = some (name, rest) ∧ Ssh.keyKind? name = some kind ∧
      PublicKey.IsReadAs kind c.statement.key := by
  unfold ofBytes? at h
  obtain ⟨⟨name, rest⟩, hname, h⟩ := Option.bind_eq_some_iff.mp h
  obtain ⟨⟨nonce, b⟩, -, h⟩ := Option.bind_eq_some_iff.mp h
  obtain ⟨kind, hkind, h⟩ := Option.bind_eq_some_iff.mp h
  obtain ⟨⟨key, b⟩, hkey, h⟩ := Option.bind_eq_some_iff.mp h
  obtain ⟨⟨statement, b⟩, hstatement, h⟩ := Option.bind_eq_some_iff.mp h
  obtain ⟨⟨both, b⟩, -, h⟩ := Option.bind_eq_some_iff.mp h
  obtain ⟨_, -, h⟩ := Option.bind_eq_some_iff.mp h
  obtain ⟨⟨algorithm, b⟩, -, h⟩ := Option.bind_eq_some_iff.mp h
  obtain ⟨⟨signature, b⟩, -, h⟩ := Option.bind_eq_some_iff.mp h
  obtain ⟨_, -, h⟩ := Option.bind_eq_some_iff.mp h
  cases h
  refine ⟨name, kind, rest, hname, hkind, ?_⟩
  rw [Statement.key_of_readStatement? hstatement]
  exact (PublicKey.readFields?_eq_some_iff.mp hkey).1

theorem not_isImpostor_of_ofBytes? (hlength : c.encode.length ≤ longest)
    (h : ofBytes? c.encode = some c) : ¬ c.statement.key.IsImpostor := by
  rintro ⟨plain, hplain, hkey⟩
  have hshort := Statement.isShort_of_length (Nat.le_trans c.length_signedPart_le hlength)
  obtain ⟨name, kind, rest, hname, hkind, hread⟩ := isReadAs_of_ofBytes? h
  simp only [encode, Statement.signedPart_eq, List.append_assoc, readText?_encode hshort.name,
    Option.some.injEq, Prod.mk.injEq] at hname
  rw [← hname.1, hkey, (keyKind?_of_plain hplain).2, Option.some.injEq] at hkind
  have hapart : ∀ plain ∈ plainKinds, plain ++ "@openssh.com" ≠ plain ∧
      plain ++ "@openssh.com" ≠ "ssh-rsa" := by decide
  have hor := hread.kind_eq_or
  rw [← hkind, hkey] at hor
  rcases hor with heq | heq
  · exact (hapart plain hplain).1 heq
  · exact (hapart plain hplain).2 heq

/-- The octets of a certificate show the certified key, unless that goes by the name of another
kind. -/
theorem ofBytes?_encode_iff (hkey : c.statement.key.IsListed) (hs : c.statement.IsReadable)
    (hlength : c.encode.length ≤ longest) :
    ofBytes? c.encode = some c ↔ ¬ c.statement.key.IsImpostor :=
  ⟨not_isImpostor_of_ofBytes? hlength, fun hgenuine => ofBytes?_encode_of_keyKind? hs hlength
    (hkey.readable.keyKind? hgenuine) hkey.readable rfl⟩

end Certificate

/-! ### Lines -/

theorem isSegmentChar_of_mem_certificateKind
    (h : ∀ c ∈ kind.toList, PublicKey.isSegmentChar c = true) :
    ∀ c ∈ (certificateKind kind).toList, PublicKey.isSegmentChar c = true := by
  have hmark : "-cert-v01@openssh.com".toList.all PublicKey.isSegmentChar = true := by decide
  have hmark' : "-cert-v01@".toList.all PublicKey.isSegmentChar = true := by decide
  rw [List.all_eq_true] at hmark hmark'
  unfold certificateKind
  split
  · next name domain hpieces =>
    rw [toList_of_pieces hpieces, List.forall_mem_append, List.forall_mem_cons] at h
    simp only [String.toList_append, String.toList_ofList, List.forall_mem_append]
    exact ⟨⟨h.1, hmark'⟩, h.2.2⟩
  · rw [String.toList_append, List.forall_mem_append]
    exact ⟨h, hmark⟩

theorem certificateKind_ne_nil (kind : String) : (certificateKind kind).toList ≠ [] := by
  unfold certificateKind
  split <;> simp [String.toList_append]

namespace Certificate

theorem toList_line (c : Certificate) : c.line.toList =
    (certificateKind c.statement.key.kind).toList ++
      ' ' :: Base64.standard.encodePadded c.encode := by
  simp [line, String.toList_append]

theorem encode_ne_nil (c : Certificate) : c.encode ≠ [] := by
  intro h
  have hlength := c.length_signedPart_le
  rw [h, Statement.signedPart_eq, List.length_append, encodeText, length_encodeString] at hlength
  exact absurd hlength (by simp)

/-- A line is read as its octets are, if the name in front fits. -/
theorem ofLine?_line_eq_some_iff {c' : Certificate}
    (h : ∀ x ∈ c.statement.key.kind.toList, PublicKey.isSegmentChar x = true) :
    ofLine? c.line.toList = some c' ↔ ofBytes? c.encode = some c' ∧
      certificateKind c'.statement.key.kind = certificateKind c.statement.key.kind := by
  obtain ⟨htrim, hname, hdigits⟩ := PublicKey.readSegment?_line (certificateKind_ne_nil _)
    (isSegmentChar_of_mem_certificateKind h) c.encode_ne_nil
  unfold ofLine? guard
  rw [toList_line]
  simp only [htrim, hname, hdigits, Base64.decodePadded?_encodePadded, Option.bind_eq_bind,
    Option.bind_some, String.toList_inj]
  constructor
  · intro hread
    obtain ⟨c₁, hc₁, hread⟩ := Option.bind_eq_some_iff.mp hread
    split at hread
    · next hkind =>
      cases hread
      exact ⟨hc₁, hkind⟩
    · cases hread
  · rintro ⟨hread, hkind⟩
    rw [hread, Option.bind_some, if_pos hkind]
    rfl

/-- **The line of a certificate shows the certified key**, unless that goes by the name of another
kind. -/
theorem ofLine?_line_iff (hkey : c.statement.key.IsListed) (hs : c.statement.IsReadable)
    (hlength : c.encode.length ≤ longest) :
    ofLine? c.line.toList = some c ↔ ¬ c.statement.key.IsImpostor := by
  rw [ofLine?_line_eq_some_iff hkey.segment, ← ofBytes?_encode_iff hkey hs hlength]
  exact and_iff_left rfl

theorem feed_not_mem_line
    (h : ∀ x ∈ c.statement.key.kind.toList, PublicKey.isSegmentChar x = true) :
    '\n' ∉ c.line.toList := by
  rw [toList_line]
  exact PublicKey.feed_not_mem_line (isSegmentChar_of_mem_certificateKind h) _

end Certificate

end Ssh
end CredentialServer
