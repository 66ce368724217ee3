import CredentialServer.Proofs.Server.Identity
import Mathlib.Data.List.TakeWhile

/-! # What anybody may know

Public halves and static files are handed out without credentials.  Two servers that publish the same
(`World.AlikeInPublic`) cannot be told apart by asking for them: neither the secrets that they keep
nor their accounts, grants and tokens show.  Every name has a place where it can be asked for
(`Route.targetOf`), since all of its octets can be escaped.  Main statement:
`conceals_of_alikeInPublic`. -/

namespace CredentialServer

/-! ### Names in targets -/

namespace Route

/-- The hexadecimal digit of a number below sixteen. -/
def hexDigit (n : Nat) : UInt8 := if n < 10 then UInt8.ofNat (48 + n) else UInt8.ofNat (55 + n)

/-- An octet in hexadecimal, behind a percent sign. -/
def escapeOctet (x : UInt8) : Bytes := [0x25, hexDigit (x.toNat / 16), hexDigit (x.toNat % 16)]

/-- Octets in hexadecimal, each behind a percent sign. -/
def escape (b : Bytes) : Bytes := b.flatMap escapeOctet

/-- The target of a name in a directory. -/
def targetOf (directory name : String) : Bytes :=
  0x2f :: (Bytes.ofText directory ++ 0x2f :: escape (Bytes.ofText name))

theorem hexDigit?_hexDigit {n : Nat} (h : n < 16) :
    hexDigit? (hexDigit n) = some (UInt8.ofNat n) := by
  have hall : ∀ i : Fin 16, hexDigit? (hexDigit i) = some (UInt8.ofNat i) := by decide
  exact hall ⟨n, h⟩

theorem decodePercent_escapeOctet (x : UInt8) (rest : Bytes) :
    decodePercent (escapeOctet x ++ rest) = x :: decodePercent rest := by
  have hx : x.toNat < 256 := x.toNat_lt
  have hhigh : x.toNat / 16 < 16 := by omega
  have hlow : x.toNat % 16 < 16 := by omega
  have hsum : UInt8.ofNat (x.toNat / 16) * 16 + UInt8.ofNat (x.toNat % 16) = x := by
    apply UInt8.toNat_inj.mp
    simp only [UInt8.toNat_add, UInt8.toNat_mul, UInt8.toNat_ofNat', UInt8.reduceToNat]
    omega
  unfold escapeOctet
  rw [List.cons_append, List.cons_append, List.cons_append, List.nil_append, decodePercent,
    hexDigit?_hexDigit hhigh, hexDigit?_hexDigit hlow]
  simp only [hsum]

theorem decodePercent_escape (b : Bytes) : decodePercent (escape b) = b := by
  induction b with
  | nil => rfl
  | cons x b ih =>
      unfold escape at ih ⊢
      rw [List.flatMap_cons, decodePercent_escapeOctet, ih]

theorem name?_escape (name : String) : name? (escape (Bytes.ofText name)) = some name := by
  unfold name?
  rw [decodePercent_escape, Bytes.toText?_ofText]

theorem not_mem_escape {x : UInt8} (hpercent : x ≠ 0x25) (hdigit : hexDigit? x = none)
    (b : Bytes) : x ∉ escape b := by
  intro h
  obtain ⟨y, -, hy⟩ := List.mem_flatMap.mp h
  have hlt : y.toNat < 256 := y.toNat_lt
  simp only [escapeOctet, List.mem_cons, List.not_mem_nil, or_false] at hy
  rcases hy with rfl | rfl | rfl
  · exact hpercent rfl
  · rw [hexDigit?_hexDigit (by omega)] at hdigit
    cases hdigit
  · rw [hexDigit?_hexDigit (by omega)] at hdigit
    cases hdigit

theorem escape_ofText_ne_nil {name : String} (h : name ≠ "") :
    escape (Bytes.ofText name) ≠ [] := by
  intro hnil
  have hread := name?_escape name
  rw [hnil] at hread
  apply h
  exact (Option.some.inj hread).symm

theorem pathOf_targetOf {directory : String} (name : String)
    (h : ∀ x ∈ Bytes.ofText directory, x ≠ 0x3f ∧ x ≠ 0x23) :
    pathOf (targetOf directory name) = targetOf directory name := by
  unfold pathOf
  rw [List.takeWhile_eq_self_iff]
  intro x hx
  have hne : x ≠ 0x3f ∧ x ≠ 0x23 := by
    unfold targetOf at hx
    rcases List.mem_cons.mp hx with rfl | hx
    · decide
    · rcases List.mem_append.mp hx with hx | hx
      · exact h x hx
      · rcases List.mem_cons.mp hx with rfl | hx
        · decide
        · constructor
          · rintro rfl
            exact not_mem_escape (by decide) (by decide) _ hx
          · rintro rfl
            exact not_mem_escape (by decide) (by decide) _ hx
  simp [hne]

theorem ofTarget_published {name : String} (h : name ≠ "") :
    ofTarget (targetOf "pub" name) = .published (escape (Bytes.ofText name)) := by
  unfold ofTarget
  rw [pathOf_targetOf name (by decide +kernel), ofPath_eq_published_iff]
  exact ⟨rfl, escape_ofText_ne_nil h, not_mem_escape (by decide) (by decide) _⟩

theorem ofTarget_static {name : String} (h : name ≠ "") :
    ofTarget (targetOf "static" name) = .static (escape (Bytes.ofText name)) := by
  unfold ofTarget
  rw [pathOf_targetOf name (by decide +kernel), ofPath_eq_static_iff]
  exact ⟨rfl, escape_ofText_ne_nil h, not_mem_escape (by decide) (by decide) _⟩

theorem ofTarget_targetOf_ne_batch {directory : String} (h : directory ∈ ["pub", "static"])
    (name : String) : ofTarget (targetOf directory name) ≠ .batch := by
  simp only [List.mem_cons, List.not_mem_nil, or_false] at h
  by_cases hname : name = ""
  · subst hname
    rcases h with rfl | rfl <;> decide +kernel
  · rcases h with rfl | rfl
    · rw [ofTarget_published hname]
      exact Route.noConfusion
    · rw [ofTarget_static hname]
      exact Route.noConfusion

end Route

/-! ### Public halves -/

/-- Two authorities of one kind with the same public half. -/
inductive Authority.AlikeInPublic : Authority → Authority → Prop where
  | tls {a a' : TlsAuthority} (h : a.armoured = a'.armoured) : AlikeInPublic (.tls a) (.tls a')
  | ssh {a a' : SshAuthority} (h : a.line = a'.line) : AlikeInPublic (.ssh a) (.ssh a')
  | static {a a' : StaticAuthority} (h : a.published = a'.published) :
      AlikeInPublic (.static a) (.static a')

theorem Authority.AlikeInPublic.publicHalf_eq {a a' : Authority} (h : a.AlikeInPublic a') :
    a.publicHalf = a'.publicHalf := by
  cases h with
  | tls h => exact h
  | ssh h => exact h
  | static h => exact h

theorem SshAuthority.line_of_load {key line : Bytes} {a : SshAuthority}
    (h : load key line = .ok a) : a.line = line := by
  unfold load at h
  split at h
  · cases h
  · split at h
    · cases h
    · split at h
      · cases h
        rfl
      · cases h

theorem StaticAuthority.published_of_load {key cert : Bytes} {a : StaticAuthority}
    (h : load key cert = .ok a) : a.published = cert := by
  unfold load at h
  split at h
  · cases h
  · split at h
    · cases h
    · cases h
      rfl

/-- The public half is what it was loaded from, octet by octet. -/
theorem Authority.publicHalf_of_load {kind : AuthorityKind} {key cert : Bytes} {a : Authority}
    (h : load kind key cert = .ok a) : a.publicHalf = cert := by
  unfold load at h
  cases kind with
  | tls =>
      obtain ⟨b, hb, rfl⟩ := exists_of_map_eq_ok h
      obtain ⟨-, -, -, -, harmoured⟩ := TlsAuthority.load_eq_ok hb
      exact harmoured
  | ssh =>
      obtain ⟨b, hb, rfl⟩ := exists_of_map_eq_ok h
      exact SshAuthority.line_of_load hb
  | static =>
      obtain ⟨b, hb, rfl⟩ := exists_of_map_eq_ok h
      exact StaticAuthority.published_of_load hb

/-! ### Answers to all -/

/-- A request for a name in a directory. -/
def Request.get (directory name : String) (body : Bytes) (credentials : Credentials) : Request :=
  ⟨"GET", Route.targetOf directory name, body, credentials⟩

namespace World

/-- Two worlds publish the same: authorities of the same names and kinds with the same public
halves, and static files of the same names at the same paths. -/
structure AlikeInPublic (w w' : World) : Prop where
  authorities : ∀ name, Option.Rel Authority.AlikeInPublic
    (w.authorities.find? name) (w'.authorities.find? name)
  staticFiles : w.staticFiles = w'.staticFiles

section
variable {w w' : World}

theorem AlikeInPublic.download_eq (h : w.AlikeInPublic w') : w.download = w'.download := by
  funext name
  have hname := h.authorities name
  unfold download
  generalize w.authorities.find? name = found, w'.authorities.find? name = found' at hname ⊢
  cases hname with
  | none => rfl
  | some ha => exact congrArg Except.ok ha.publicHalf_eq

theorem AlikeInPublic.downloadStatic_eq (h : w.AlikeInPublic w') (files : Files) :
    w.downloadStatic files = w'.downloadStatic files := by
  funext name
  unfold downloadStatic
  rw [h.staticFiles]

/-- What is not a batch is answered by what the world publishes, and leaves the tokens alone. -/
theorem AlikeInPublic.respond_eq (h : w.AlikeInPublic w') {q q' : Request}
    (hroute : Route.ofTarget q.target ≠ .batch) (hmethod : q'.method = q.method)
    (htarget : q'.target = q.target) (files : Files) (moments moments' : Nat → Moment)
    (r r' : Registry) : (w.respond files moments r q).1 = (w'.respond files moments' r' q').1 := by
  unfold respond
  rw [htarget, hmethod, h.download_eq, h.downloadStatic_eq files]
  cases hfound : Route.ofTarget q.target with
  | batch => exact absurd hfound hroute
  | published name => rfl
  | static name => rfl
  | nowhere => rfl

theorem respond_get_published {name : String} (hname : name ≠ "") {a : Authority}
    (ha : w.authorities.find? name = some a) (files : Files) (moments : Nat → Moment)
    (r : Registry) (body : Bytes) (credentials : Credentials) :
    w.respond files moments r (.get "pub" name body credentials) =
      (.octets a.publicHalf, r) := by
  unfold respond Request.get
  rw [Route.ofTarget_published hname]
  unfold answerDownload download
  simp only [Route.name?_escape, ha]
  rfl

end

/-- Two worlds cannot be told apart by what needs no credentials. -/
structure Conceals (w w' : World) : Prop where
  /-- Whatever is not a batch gets one answer from both worlds, at any time, with any tokens and
  from anybody, and changes no token. -/
  alike : ∀ files moments moments' r r' q q', Route.ofTarget q.target ≠ .batch →
    q'.method = q.method → q'.target = q.target →
    ∃ answer, w.respond files moments r q = (answer, r) ∧
      w'.respond files moments' r' q' = (answer, r')
  /-- So do the requests for each name. -/
  named : ∀ directory ∈ ["pub", "static"], ∀ name files moments moments' r r' body body'
    credentials credentials',
    ∃ answer, w.respond files moments r (.get directory name body credentials) = (answer, r) ∧
      w'.respond files moments' r' (.get directory name body' credentials') = (answer, r')
  /-- The answer under the name of an authority is what its public half was loaded from. -/
  published : ∀ name, name ≠ "" → ∀ kind key cert a, Authority.load kind key cert = .ok a →
    w.authorities.find? name = some a → ∀ files moments r body credentials,
    w.respond files moments r (.get "pub" name body credentials) = (.octets cert, r)

/-- **Downloads conceal what is not published.** -/
theorem conceals_of_alikeInPublic {w w' : World} (h : w.AlikeInPublic w') : w.Conceals w' := by
  have halike : ∀ files moments moments' r r' q q', Route.ofTarget q.target ≠ .batch →
      q'.method = q.method → q'.target = q.target →
      ∃ answer, w.respond files moments r q = (answer, r) ∧
        w'.respond files moments' r' q' = (answer, r') := by
    intro files moments moments' r r' q q' hroute hmethod htarget
    have hroute' : Route.ofTarget q'.target ≠ .batch := by rwa [htarget]
    refine ⟨(w.respond files moments r q).1, ?_, ?_⟩
    · exact Prod.ext rfl (respond_of_not_batch hroute)
    · rw [h.respond_eq hroute hmethod htarget files moments moments' r r']
      exact Prod.ext rfl (respond_of_not_batch hroute')
  refine ⟨halike, ?_, ?_⟩
  · intro directory hdirectory name files moments moments' r r' body body' credentials credentials'
    exact halike files moments moments' r r' _ _
      (Route.ofTarget_targetOf_ne_batch hdirectory name) rfl rfl
  · intro name hname kind key cert a hload ha files moments r body credentials
    rw [respond_get_published hname ha, Authority.publicHalf_of_load hload]

/-- The crew's world with a secret that is handed out. -/
def crewVault (secret : Bytes) (engine : Engine) : World :=
  { crew with
    engine := engine
    authorities := crew.authorities.insert "vault" (.static ⟨secret, Bytes.ofText "seal"⟩) }

/-- A world does not tell its secret, nor whether it has any account. -/
theorem conceals_crewVault :
    (crewVault [1] crew.engine).AlikeInPublic (crewVault [2] (.denyAll (.ofLists [] []))) ∧
    (crewVault [1] crew.engine).Conceals (crewVault [2] (.denyAll (.ofLists [] []))) := by
  have halike : (crewVault [1] crew.engine).AlikeInPublic
      (crewVault [2] (.denyAll (.ofLists [] []))) := by
    refine ⟨?_, rfl⟩
    intro name
    unfold crewVault
    simp only [NameMap.find?_insert]
    by_cases hname : name = "vault"
    · rw [if_pos hname, if_pos hname]
      exact .some (.static rfl)
    · rw [if_neg hname, if_neg hname]
      cases crew.authorities.find? name with
      | none => exact .none
      | some a => cases a <;> constructor <;> constructor <;> rfl
  exact ⟨halike, conceals_of_alikeInPublic halike⟩

end World
end CredentialServer
