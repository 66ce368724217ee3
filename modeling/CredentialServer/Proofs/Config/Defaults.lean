import CredentialServer.Proofs.Document.Abridging

/-! # What may be left out of a configuration

Every configuration can be written with all of its fields, and is read back.  Of what is written,
any field with a default can be left out at any depth: of the whole, of the identity of the server,
of a group, of an account and of a grant.  That field, and nothing else, then has its default, which
does not depend on what else is left out or added.  Where a field without a default is left out of a
record that is there, the whole cannot be read.  Main statement: `readsBack`. -/

namespace CredentialServer

open Document

/-! ### The forms of records -/

def ServerIdentity.form : Form := .record ["authority", "names"] (fun _ => .value)

def AuthorityFiles.form : Form := .record ["type", "key", "cert"] (fun _ => .value)

/-- Nothing has to be there of a group. -/
def GroupConfig.form : Form := .record [] (fun _ => .value)

def AccountConfig.form : Form := .record ["principal"] (fun _ => .value)

/-- Nothing has to be there of a grant. -/
def Grant.form : Form := .record [] (fun _ => .value)

/-- The forms of the fields of a configuration. -/
def Config.forms : String → Form
  | "server_tls" => ServerIdentity.form
  | "authorities" => .entries AuthorityFiles.form
  | "groups" => .entries GroupConfig.form
  | "accounts" => .items AccountConfig.form
  | "grants" => .entries Grant.form
  | _ => .value

/-- Nothing has to be there of a configuration. -/
def Config.form : Form := .record [] forms

/-! ### Defaults -/

/-- An identity, with its default for what is left out. -/
def ServerIdentity.reset (s : ServerIdentity) (gaps : Gaps) : ServerIdentity :=
  { s with lifespan := gaps.fill "lifespan" defaultLifespan s.lifespan }

def GroupConfig.reset (g : GroupConfig) (gaps : Gaps) : GroupConfig :=
  { g with parent := gaps.fill "subgroup_of" none g.parent }

def AccountConfig.reset (a : AccountConfig) (gaps : Gaps) : AccountConfig :=
  { a with
    group := gaps.fill "group" none a.group
    disableDirectAuth := gaps.fill "disable_direct_auth" false a.disableDirectAuth
    limitAddress := gaps.fill "limit_ip" false a.limitAddress
    metadata := gaps.fill "metadata" ∅ a.metadata }

def Grant.reset (g : Grant) (gaps : Gaps) : Grant where
  group := gaps.fill "group" "" g.group
  privilege := gaps.fill "privilege" "" g.privilege
  scope := gaps.fill "scope" none g.scope
  authority := gaps.fill "authority" none g.authority
  isHost := gaps.fill "is_host" none g.isHost
  lifespan := gaps.fill "lifespan" none g.lifespan
  commonName := gaps.fill "common_name" none g.commonName
  allowedNames := gaps.fill "allowed_names" none g.allowedNames
  contents := gaps.fill "contents" none g.contents

/-- A configuration, with its defaults for what is left out of it and of its records. -/
def Config.reset (c : Config) (gaps : Gaps) : Config where
  listenAddress := gaps.fill "listen_addr" default.listenAddress c.listenAddress
  authorityDir := gaps.fill "authority_dir" default.authorityDir c.authorityDir
  staticDir := gaps.fill "static_dir" default.staticDir c.staticDir
  authenticationAuthority :=
    gaps.fill "authentication_authority" default.authenticationAuthority c.authenticationAuthority
  serverIdentity := gaps.fill "server_tls" none
    (c.serverIdentity.map (fun s => s.reset (gaps.below (.name "server_tls"))))
  staticFiles := gaps.fill "static_files" [] c.staticFiles
  authorities := gaps.fill "authorities" ∅ c.authorities
  groups := gaps.fill "groups" ∅
    (c.groups.map (fun name g => g.reset ((gaps.below (.name "groups")).below (.name name))))
  accounts := gaps.fill "accounts" []
    (c.accounts.mapIdx (fun i a => a.reset ((gaps.below (.name "accounts")).below (.index i))))
  grants := gaps.fill "grants" ∅
    (c.grants.map (fun name g => g.reset ((gaps.below (.name "grants")).below (.name name))))

/-! ### Reading what was written -/

namespace Document

theorem list?_ofTexts (l : List String) : list? text? (ofTexts l) = some l := by
  have hreads : (Form.items .value).Reads .empty (ofTexts l) (list? text?)
      (l.mapIdx fun _ s => s) := Form.reads_items fun _ s => Form.reads_value rfl
  rw [hreads.eq_some (fun _ _ => trivial), mapIdx_id]

variable {gaps : Gaps} {dialect : Dialect}

theorem reads_text (s : String) : Form.value.Reads gaps (.text s) text? s := Form.reads_value rfl

theorem reads_bool (b : Bool) : Form.value.Reads gaps (.bool b) bool? b := Form.reads_value rfl

theorem reads_kind (k : AuthorityKind) :
    Form.value.Reads gaps (.text k.text) (AuthorityKind.ofDocument? dialect) k :=
  Form.reads_value (AuthorityKind.ofText?_text k)

theorem reads_texts (l : List String) : Form.value.Reads gaps (.ofTexts l) (list? text?) l :=
  Form.reads_value (list?_ofTexts l)

/-- The names in metadata are free, so nothing in them is left out. -/
theorem reads_metadata (m : NameMap String) :
    Form.value.Reads gaps (.ofMap m .text) (map? text?) m := by
  refine Form.reads_value ?_
  have hreads : (Form.entries .value).Reads .empty (ofMap m text) (map? text?)
      (m.map fun _ s => s) := Form.reads_entries fun _ s => Form.reads_value rfl
  rw [hreads.eq_some (fun _ _ => trivial), NameMap.map_id]

theorem reads_optionalText (s : Option String) :
    Form.value.Reads gaps (.ofText? s) (optional? text?) s := by
  refine Form.reads_value ?_
  cases s <;> rfl

theorem reads_optionalBool (b : Option Bool) :
    Form.value.Reads gaps ((b.map .bool).getD .null) (optional? bool?) b := by
  refine Form.reads_value ?_
  cases b <;> rfl

theorem reads_optionalTexts (l : Option (List String)) :
    Form.value.Reads gaps ((l.map .ofTexts).getD .null) (optional? (list? text?)) l := by
  refine Form.reads_value ?_
  cases l with
  | none => rfl
  | some l =>
      show (list? text? (ofTexts l)).map some = _
      rw [list?_ofTexts]
      rfl

end Document

/-! ### Reading records, field by field -/

section
variable {gaps : Gaps} {dialect : Dialect}

theorem ServerIdentity.reads (s : ServerIdentity) :
    form.Reads gaps s.toDocument (ofDocument? dialect) (s.reset gaps) := by
  refine Form.reads_record (by simp) (fun f hf => ?_)
  refine hf.bind_required "authority" (by simp) rfl (reads_text s.authority) ?_
  refine hf.bind_required "names" (by simp) rfl (reads_texts s.names) ?_
  refine hf.bind_withDefault "lifespan" defaultLifespan (by simp) rfl (reads_text s.lifespan) ?_
  rfl

theorem AuthorityFiles.reads (a : AuthorityFiles) :
    form.Reads gaps a.toDocument (ofDocument? dialect) a := by
  refine Form.reads_record (by simp) (fun f hf => ?_)
  refine hf.bind_required "type" (by simp) rfl (reads_kind a.kind) ?_
  refine hf.bind_required "key" (by simp) rfl (reads_text a.key) ?_
  refine hf.bind_required "cert" (by simp) rfl (reads_text a.cert) ?_
  rfl

theorem reads_authorities (m : NameMap AuthorityFiles) :
    (Form.entries AuthorityFiles.form).Reads gaps (.ofMap m AuthorityFiles.toDocument)
      (map? (AuthorityFiles.ofDocument? dialect)) m := by
  have hreads : (Form.entries AuthorityFiles.form).Reads gaps
      (.ofMap m AuthorityFiles.toDocument) (map? (AuthorityFiles.ofDocument? dialect))
      (m.map fun _ a => a) := Form.reads_entries fun _ => AuthorityFiles.reads
  rwa [NameMap.map_id] at hreads

theorem GroupConfig.reads (g : GroupConfig) :
    form.Reads gaps g.toDocument (ofDocument? dialect) (g.reset gaps) := by
  refine Form.reads_record (by simp) (fun f hf => ?_)
  refine hf.bind_withDefault "subgroup_of" none (by simp) rfl (reads_optionalText g.parent) ?_
  rfl

theorem AccountConfig.reads (a : AccountConfig) :
    form.Reads gaps a.toDocument (ofDocument? dialect) (a.reset gaps) := by
  refine Form.reads_record (by simp) (fun f hf => ?_)
  refine hf.bind_required "principal" (by simp) rfl (reads_text a.principal) ?_
  refine hf.bind_withDefault "group" none (by simp) rfl (reads_optionalText a.group) ?_
  refine hf.bind_withDefault "disable_direct_auth" false (by simp) rfl
    (reads_bool a.disableDirectAuth) ?_
  refine hf.bind_withDefault "limit_ip" false (by simp) rfl (reads_bool a.limitAddress) ?_
  refine hf.bind_withDefault "metadata" ∅ (by simp) rfl (reads_metadata a.metadata) ?_
  rfl

theorem Grant.reads (g : Grant) :
    form.Reads gaps g.toDocument (ofDocument? dialect) (g.reset gaps) := by
  refine Form.reads_record (by simp [fieldNames]) (fun f hf => ?_)
  refine hf.bind_withDefault "group" "" (by simp) rfl (reads_text g.group) ?_
  refine hf.bind_withDefault "privilege" "" (by simp) rfl (reads_text g.privilege) ?_
  refine hf.bind_withDefault "scope" none (by simp) rfl (reads_optionalText g.scope) ?_
  refine hf.bind_withDefault "authority" none (by simp) rfl (reads_optionalText g.authority) ?_
  refine hf.bind_withDefault "is_host" none (by simp) rfl (reads_optionalBool g.isHost) ?_
  refine hf.bind_withDefault "lifespan" none (by simp) rfl (reads_optionalText g.lifespan) ?_
  refine hf.bind_withDefault "common_name" none (by simp) rfl (reads_optionalText g.commonName) ?_
  refine hf.bind_withDefault "allowed_names" none (by simp) rfl
    (reads_optionalTexts g.allowedNames) ?_
  refine hf.bind_withDefault "contents" none (by simp) rfl (reads_optionalText g.contents) ?_
  rfl

/-- However it is abridged, a configuration is read, with its defaults for what is left out. -/
theorem Config.reads (c : Config) :
    form.Reads gaps c.toDocument (ofDocument? dialect) (c.reset gaps) := by
  refine Form.reads_record (by simp [fieldNames]) (fun f hf => ?_)
  refine hf.bind_withDefault "listen_addr" default.listenAddress (by simp) rfl
    (reads_text c.listenAddress) ?_
  refine hf.bind_withDefault "authority_dir" default.authorityDir (by simp) rfl
    (reads_text c.authorityDir) ?_
  refine hf.bind_withDefault "static_dir" default.staticDir (by simp) rfl
    (reads_text c.staticDir) ?_
  refine hf.bind_withDefault "authentication_authority" default.authenticationAuthority (by simp)
    rfl (reads_text c.authenticationAuthority) ?_
  refine hf.bind_withDefault "server_tls" none (by simp) rfl
    (Form.reads_optional (fun _ => ⟨_, rfl⟩) ServerIdentity.reads) ?_
  refine hf.bind_withDefault "static_files" [] (by simp) rfl (reads_texts c.staticFiles) ?_
  refine hf.bind_withDefault "authorities" ∅ (by simp) rfl (reads_authorities c.authorities) ?_
  refine hf.bind_withDefault "groups" ∅ (by simp) rfl
    (Form.reads_entries fun _ => GroupConfig.reads) ?_
  refine hf.bind_withDefault "accounts" [] (by simp) rfl
    (Form.reads_items fun _ => AccountConfig.reads) ?_
  refine hf.bind_withDefault "grants" ∅ (by simp) rfl
    (Form.reads_entries fun _ => Grant.reads) ?_
  rfl

end

/-! ### Nothing left out -/

theorem ServerIdentity.fits (s : ServerIdentity) : form.Fits s.toDocument :=
  ⟨by simp, fun _ _ => trivial⟩

theorem AuthorityFiles.fits (a : AuthorityFiles) : form.Fits a.toDocument :=
  ⟨by simp, fun _ _ => trivial⟩

theorem GroupConfig.fits (g : GroupConfig) : form.Fits g.toDocument :=
  ⟨by simp, fun _ _ => trivial⟩

theorem AccountConfig.fits (a : AccountConfig) : form.Fits a.toDocument :=
  ⟨by simp, fun _ _ => trivial⟩

theorem Grant.fits (g : Grant) : form.Fits g.toDocument := ⟨by simp, fun _ _ => trivial⟩

theorem Config.fits (c : Config) : form.Fits c.toDocument := by
  refine ⟨by simp, ?_⟩
  simp only [List.forall_mem_cons, List.not_mem_nil, false_imp_iff, implies_true, and_true]
  refine ⟨trivial, trivial, trivial, trivial, ?_, trivial, Form.fits_ofMap AuthorityFiles.fits,
    Form.fits_ofMap GroupConfig.fits, ?_, Form.fits_ofMap Grant.fits⟩
  · cases c.serverIdentity with
    | none => trivial
    | some s => exact s.fits
  · intro d hd
    obtain ⟨a, -, rfl⟩ := List.mem_map.mp hd
    exact a.fits

theorem Config.reset_empty (c : Config) : c.reset .empty = c := by
  have hidentity : c.serverIdentity.map (fun s => s.reset .empty) = c.serverIdentity :=
    Option.map_id'
  have hgroups : c.groups.map (fun _ g => g.reset .empty) = c.groups := c.groups.map_id
  have haccounts : c.accounts.mapIdx (fun _ a => a.reset .empty) = c.accounts :=
    mapIdx_id c.accounts
  have hgrants : c.grants.map (fun _ g => g.reset .empty) = c.grants := c.grants.map_id
  show { c with
    serverIdentity := c.serverIdentity.map (fun s => s.reset .empty)
    groups := c.groups.map (fun _ g => g.reset .empty)
    accounts := c.accounts.mapIdx (fun _ a => a.reset .empty)
    grants := c.grants.map (fun _ g => g.reset .empty) } = c
  rw [hidentity, hgroups, haccounts, hgrants]

namespace Config

/-- What becomes of a configuration that is written and read. -/
structure ReadsBack (c : Config) : Prop where
  /-- It is read back from a document with all of its fields. -/
  whole : ∀ dialect, ofDocument? dialect c.toDocument = some c
  /-- Whatever fields with defaults are left out of its records, and whatever else is added to them,
  it is read with the defaults of just those fields. -/
  abridged : ∀ dialect gaps d, form.Abridges gaps c.toDocument d →
    form.lacks gaps c.toDocument = false → ofDocument? dialect d = some (c.reset gaps)
  /-- It is not read if any record that is there lacks a field without a default. -/
  broken : ∀ dialect gaps d, form.Abridges gaps c.toDocument d →
    form.lacks gaps c.toDocument = true → ofDocument? dialect d = none
  /-- Any set of fields can be left out, and anything added. -/
  edited : ∀ gaps extras, form.Abridges gaps c.toDocument (form.edit gaps extras c.toDocument)

/-- **Every configuration is read back, with its default for every field that is left out.** -/
theorem readsBack (c : Config) : c.ReadsBack where
  whole dialect := by
    have hreads : form.Reads .empty c.toDocument (ofDocument? dialect) (c.reset .empty) := c.reads
    rw [hreads.eq_some c.fits, c.reset_empty]
  abridged dialect gaps d hd hlacks := by
    rw [c.reads d hd, hlacks, given_false]
  broken dialect gaps d hd hlacks := by
    rw [c.reads d hd, hlacks, given_true]
  edited gaps extras := form.abridges_edit c.fits gaps extras

/-- An account may do without its group, but not without its principal. -/
example :
    let document := { default with accounts := [Inhabited.default] : Config }.toDocument
    let without (name : String) : Gaps := fun way => way = [.name "accounts", .index 0, .name name]
    form.lacks (without "group") document = false ∧
      form.lacks (without "principal") document = true := by
  decide

end Config
end CredentialServer
