import CredentialServer.Proofs.Server.Identity
import CredentialServer.Server.CommandLine

/-! # Checking before serving

A configuration can be checked without serving it.  `Config.IsSound` says what is checked, without a
word about the key that a server makes for itself: whether there is an identity to show does not
depend on it (`exists_establish_iff`).  Who checks and serves with the same options reads the same
configuration (`readOptions_eq`), so the check foresees everything that keeps a server from its work
but one thing, the address to listen on, which it does not look at.  Main statement: `foresees`. -/

namespace CredentialServer

/-! ### The identity of a server -/

/-- What it takes for a server to show an identity, whatever its key. -/
structure ServerIdentity.Holds (authorities : Authorities) (authentication : String)
    (now : Instant) (i : ServerIdentity) : Prop where
  /-- There is an authority to sign it. -/
  issuer : ∃ a, Listener.findTls authorities i.authority = .ok a
  /-- The authority of clients has a certificate that others can be checked against. -/
  anchor : ∃ a, Listener.findTls authorities authentication = .ok a ∧
    a.certificate.isAnchor = true
  /-- The certificate can be written. -/
  issues : ∃ lifespan, Lifespan.parse i.lifespan = .ok lifespan ∧
    TlsAuthority.Issues ⟨true, lifespan, Listener.commonName, i.names⟩ now

namespace Listener

theorem find?_of_findTls {authorities : Authorities} {name : String} {a : TlsAuthority}
    (h : findTls authorities name = .ok a) : authorities.find? name = some (.tls a) := by
  unfold findTls at h
  split at h
  · cases h
  · next found hfound =>
    cases h
    exact hfound
  · cases h

theorem exists_certify_iff {issuer : TlsAuthority} (hissuer : issuer.IsLoaded) (now : Moment)
    (i : ServerIdentity) : (∃ c, certify issuer now i = .ok c) ↔
      ∃ lifespan, Lifespan.parse i.lifespan = .ok lifespan ∧
        TlsAuthority.Issues ⟨true, lifespan, commonName, i.names⟩ now.signingClock := by
  unfold certify
  cases hlifespan : Lifespan.parse i.lifespan with
  | error e => simp
  | ok lifespan =>
      have hissue := hissuer.exists_issueFor_iff now.signingClock
        (TlsAuthority.serialOf now.random) (publicKeyOf (secretOf now))
        ⟨true, lifespan, commonName, i.names⟩
      simp only [Except.ok.injEq, exists_eq_left', ← hissue]
      cases issuer.issueFor now.signingClock (TlsAuthority.serialOf now.random)
        (publicKeyOf (secretOf now)) ⟨true, lifespan, commonName, i.names⟩ <;> simp

/-- The identity of a server does not depend on its key. -/
theorem exists_establish_iff {authorities : Authorities}
    (hloaded : ∀ name a, authorities.find? name = some (.tls a) → a.IsLoaded)
    (authentication : String) (now : Moment) (i : ServerIdentity) :
    (∃ l, establish authorities authentication now i = .ok l) ↔
      i.Holds authorities authentication now.signingClock := by
  constructor
  · rintro ⟨l, hl⟩
    obtain ⟨issuer, trusted, hissuer, htrusted, hcertify, hanchor, -⟩ := establish_eq_ok hl
    have hfound := find?_of_findTls hissuer
    refine ⟨⟨issuer, hissuer⟩, ⟨trusted, htrusted, hanchor⟩, ?_⟩
    exact (exists_certify_iff (hloaded _ _ hfound) now i).mp ⟨l.certificate, hcertify⟩
  · rintro ⟨⟨issuer, hissuer⟩, ⟨trusted, htrusted, hanchor⟩, hissues⟩
    have hfound := find?_of_findTls hissuer
    obtain ⟨c, hcertify⟩ := (exists_certify_iff (hloaded _ _ hfound) now i).mpr hissues
    refine ⟨⟨c, secretOf now, trusted.certificate⟩, ?_⟩
    simp only [establish, hissuer, htrusted, bind, Except.bind, hcertify]
    exact if_pos hanchor

end Listener

/-! ### Sound configurations -/

/-- Everything about a configuration is in order, its address left aside. -/
def Config.IsSound (files : Files) (now : Instant) (c : Config) : Prop :=
  ∃ w, World.load files c = .ok w ∧ ∀ i, c.serverIdentity = some i →
    i.Holds w.authorities c.authenticationAuthority now

/-- The configuration was found to be in order. -/
def Outcome.IsChecked : Outcome → Prop
  | .checked _ => True
  | _ => False

def Outcome.IsReady : Outcome → Prop
  | .ready _ _ _ => True
  | _ => False

section
variable {files : Files} {now : Moment} {c : Config} {w : World}

theorem exists_establishAny_iff (hw : World.load files c = .ok w) :
    (∃ l, establishAny w now c = .ok l) ↔ ∀ i, c.serverIdentity = some i →
      i.Holds w.authorities c.authenticationAuthority now.signingClock := by
  unfold establishAny
  cases c.serverIdentity with
  | none => simp
  | some i =>
      have hloaded : ∀ name a, w.authorities.find? name = some (.tls a) → a.IsLoaded := by
        intro name a ha
        exact World.isLoaded_of_find? hw ha
      have hestablish := Listener.exists_establish_iff hloaded c.authenticationAuthority now i
      simp only [Option.some.injEq, forall_eq', ← hestablish]
      cases Listener.establish w.authorities c.authenticationAuthority now i with
      | error e => exact iff_of_false (by rintro ⟨l, hl⟩; cases hl) (by simp)
      | ok l => exact iff_of_true ⟨some l, rfl⟩ ⟨l, rfl⟩

/-- Just the sound configurations pass the check. -/
theorem isChecked_checkConfig_iff :
    (checkConfig files now c).IsChecked ↔ c.IsSound files now.signingClock := by
  unfold checkConfig Config.IsSound
  cases hw : World.load files c with
  | error e => simp [Outcome.IsChecked]
  | ok w =>
      simp only [Except.ok.injEq, exists_eq_left', ← exists_establishAny_iff hw]
      cases establishAny w now c <;> simp [Outcome.IsChecked]

/-- A server listens if its configuration is sound and so is its address. -/
theorem isReady_prepareServer_iff : (prepareServer files now c).IsReady ↔
    c.IsSound files now.signingClock ∧
      ∃ endpoint, Endpoint.parse? c.listenAddress = some endpoint := by
  unfold prepareServer Config.IsSound
  cases hw : World.load files c with
  | error e => simp [Outcome.IsReady]
  | ok w =>
      simp only [Except.ok.injEq, exists_eq_left', ← exists_establishAny_iff hw]
      cases Endpoint.parse? c.listenAddress with
      | none => simp [Outcome.IsReady]
      | some endpoint => cases establishAny w now c <;> simp [Outcome.IsReady]

/-- The address of a sound configuration is the only thing that can be wrong with it. -/
theorem prepareServer_of_isSound (h : c.IsSound files now.signingClock)
    (haddress : Endpoint.parse? c.listenAddress = none) :
    prepareServer files now c = .failed "invalid listen address" := by
  obtain ⟨w, hw, -⟩ := h
  unfold prepareServer
  simp only [hw, haddress]

end

/-! ### The same options for both commands -/

namespace Invocation

/-- The same options for another command. -/
def withCommand (c : Command) : Invocation → Invocation
  | .command _ s => .command c s
  | i => i

/-- Options are read without regard to the command. -/
theorem readOptions_eq (c c' : Command) (environment : NameMap String) (s : Settings)
    (l : List String) :
    readOptions c environment s l = (readOptions c' environment s l).withCommand c := by
  -- The command is looked at where all options are read, and nowhere else.
  fun_induction readOptions c' environment s l
  all_goals rw [readOptions.eq_def c]
  all_goals simp_all +zetaDelta only [dite_eq_ite]
  all_goals rfl

end Invocation

/-- The configuration that options and environment select, or what comes of both commands if they
select none. -/
def selectConfig (files : Files) (environment : NameMap String) (options : List String) :
    Except Outcome Config :=
  match Invocation.readOptions .check environment [] options with
  | .misused => .error .misused
  | .information => .error .information
  | .command _ s =>
    match s.load files with
    | .error e => .error (.failed e.message)
    | .ok c => .ok c

/-- What a command does with a configuration. -/
def Command.act (files : Files) (now : Moment) : Command → Config → Outcome
  | .check => checkConfig files now
  | .serve => prepareServer files now

/-- What comes of a command, by what is done with a configuration. -/
def outcomeOf (act : Config → Outcome) : Except Outcome Config → Outcome
  | .error o => o
  | .ok c => act c

section
variable {files : Files} {environment : NameMap String} {options : List String}

theorem run_of_read (c : Command) (now : Moment) {arguments : List String}
    (h : Invocation.read environment arguments = Invocation.readOptions c environment [] options) :
    run files now environment arguments =
      outcomeOf (c.act files now) (selectConfig files environment options) := by
  unfold run selectConfig
  rw [h, Invocation.readOptions_eq c .check]
  cases Invocation.readOptions .check environment [] options with
  | misused => rfl
  | information => rfl
  | command _ s =>
      simp only [Invocation.withCommand]
      cases s.load files with
      | error e => rfl
      | ok config => cases c <;> rfl

theorem run_check (now : Moment) : run files now environment ("check" :: options) =
    outcomeOf (checkConfig files now) (selectConfig files environment options) :=
  run_of_read .check now rfl

theorem run_serve (now : Moment) : run files now environment ("serve" :: options) =
    outcomeOf (prepareServer files now) (selectConfig files environment options) :=
  run_of_read .serve now rfl

/-- Where no configuration is selected, nothing succeeds. -/
theorem not_of_selectConfig_eq_error {o : Outcome}
    (h : selectConfig files environment options = .error o) : ¬ o.IsChecked ∧ ¬ o.IsReady := by
  unfold selectConfig at h
  split at h
  · cases h
    exact ⟨id, id⟩
  · cases h
    exact ⟨id, id⟩
  · split at h
    · cases h
      exact ⟨id, id⟩
    · cases h

end

/-- What a check foresees of a server that is started with the same options. The key that the server
makes for itself need not be the one that was made for the check. -/
structure Foresees (files : Files) (environment : NameMap String) (options : List String)
    (now : Moment) (random : Nat → UInt8) : Prop where
  /-- If no configuration is selected, both end alike, and neither succeeds. -/
  unselected : ∀ o, selectConfig files environment options = .error o →
    run files now environment ("check" :: options) = o ∧
      run files { now with random } environment ("serve" :: options) = o ∧
      ¬ o.IsChecked ∧ ¬ o.IsReady
  /-- The check passes just the sound configurations. -/
  checked_iff : (run files now environment ("check" :: options)).IsChecked ↔
    ∃ c, selectConfig files environment options = .ok c ∧ c.IsSound files now.signingClock
  /-- A server listens if the check passes and there is an address to listen on. -/
  ready_iff : (run files { now with random } environment ("serve" :: options)).IsReady ↔
    (run files now environment ("check" :: options)).IsChecked ∧
      ∃ c endpoint, selectConfig files environment options = .ok c ∧
        Endpoint.parse? c.listenAddress = some endpoint
  /-- Nothing but the address can go wrong after a check. -/
  gap : (run files now environment ("check" :: options)).IsChecked →
    ¬ (run files { now with random } environment ("serve" :: options)).IsReady →
    run files { now with random } environment ("serve" :: options) =
      .failed "invalid listen address"

/-- **A check foresees whether a server can listen, up to the address.** -/
theorem foresees (files : Files) (environment : NameMap String) (options : List String)
    (now : Moment) (random : Nat → UInt8) : Foresees files environment options now random := by
  constructor
  · intro o ho
    simp only [run_check, run_serve, ho]
    exact ⟨rfl, rfl, not_of_selectConfig_eq_error ho⟩
  · simp only [run_check]
    cases hselect : selectConfig files environment options with
    | error o => simp [outcomeOf, (not_of_selectConfig_eq_error hselect).1]
    | ok c => simp [outcomeOf, isChecked_checkConfig_iff]
  · simp only [run_check, run_serve]
    cases hselect : selectConfig files environment options with
    | error o => simp [outcomeOf, (not_of_selectConfig_eq_error hselect).2]
    | ok c => simp [outcomeOf, isChecked_checkConfig_iff, isReady_prepareServer_iff]
  · simp only [run_check, run_serve]
    cases hselect : selectConfig files environment options with
    | error o =>
        intro hchecked
        exact absurd hchecked (not_of_selectConfig_eq_error hselect).1
    | ok c =>
        intro hchecked hready
        rw [outcomeOf, isChecked_checkConfig_iff] at hchecked
        rw [outcomeOf, isReady_prepareServer_iff] at hready
        rw [outcomeOf]
        refine prepareServer_of_isSound hchecked ?_
        cases haddress : Endpoint.parse? c.listenAddress with
        | none => rfl
        | some endpoint =>
            exact absurd ⟨hchecked, endpoint, haddress⟩ hready

/-- What comes of a sound configuration whose address is none. -/
theorem checked_not_served {files : Files} {environment : NameMap String} {options : List String}
    {now : Moment} {c : Config} (hselect : selectConfig files environment options = .ok c)
    (hsound : c.IsSound files now.signingClock)
    (haddress : Endpoint.parse? c.listenAddress = none) :
    (run files now environment ("check" :: options)).IsChecked ∧
      ¬ (run files now environment ("serve" :: options)).IsReady ∧
      run files now environment ("serve" :: options) = .failed "invalid listen address" := by
  simp only [run_check, run_serve, hselect, outcomeOf]
  have hserve := prepareServer_of_isSound hsound haddress
  refine ⟨isChecked_checkConfig_iff.mpr hsound, ?_, hserve⟩
  rw [hserve]
  exact id

theorem Settings.load_config {files : Files} {path text : String} {c : Config}
    (hfile : files.read? path = some (Bytes.ofText text))
    (hparse : (Toml.parse? text).bind (Config.ofDocument? .toml) = some c) :
    load files [(.config, path)] = .ok c := by
  have hpath : configPath? files [(.config, path)] = some path := rfl
  have hread : readConfig files path = .ok c := by
    unfold readConfig
    rw [hfile, Option.bind_some, Bytes.toText?_ofText]
    simp only [hparse]
  have happly : apply [(.config, path)] c = c := apply_eq_self_iff.mpr ⟨nofun, nofun, nofun⟩
  unfold load
  simp only [hpath, hread, happly]

namespace World

/-- A configuration whose address is none, as it is written. -/
def strayText : String := "listen_addr = \"nowhere\"
authority_dir = \"\"
authentication_authority = \"ca\"
[authorities.ca]
type = \"tls\"
key = \"ca.key\"
cert = \"ca.pem\"
"

/-- The files of an authority and of a configuration. -/
def filesWith (key cert text : Bytes) : Files :=
  ⟨(filesOf key cert).entries.insert "stray.toml" (.file text)⟩

theorem read?_filesWith (key cert text : Bytes) :
    (filesWith key cert text).read? "ca.key" = some key ∧
      (filesWith key cert text).read? "ca.pem" = some cert ∧
      (filesWith key cert text).read? "stray.toml" = some text := by
  refine ⟨Files.read?_of_isName (by decide) ?_, Files.read?_of_isName (by decide) ?_,
    Files.read?_of_isName (by decide) ?_⟩
  all_goals simp [filesWith, filesOf, NameMap.find?_insert]

/-- The files of the crew's authority with this configuration. -/
def strayFiles : Files := filesWith (Bytes.ofText (Pem.write "RSA PRIVATE KEY" crewKeyDer))
  (Bytes.ofText (Pem.write "CERTIFICATE" (crewCertificate "ca" []).encode))
  (Bytes.ofText strayText)

def strayConfig : Config := { configOf ∅ [] ∅ with listenAddress := "nowhere" }

theorem selectConfig_stray :
    selectConfig strayFiles ∅ ["--config", "stray.toml"] = .ok strayConfig := by
  have hflag : Invocation.Argument.of "--config" = .long "config" none := by decide
  have hvalue : Invocation.Argument.of "stray.toml" = .plain := by decide
  have hname : Setting.ofFlag? "config" = some .config := Setting.ofFlag?_flag .config
  have hadd : Invocation.add [] .config "stray.toml" = some [(.config, "stray.toml")] := by
    decide +kernel
  have hrest : Invocation.addVariables ∅ Setting.all [(.config, "stray.toml")] =
      some [(.config, "stray.toml")] := rfl
  have hoptions : Invocation.readOptions .check ∅ [] ["--config", "stray.toml"] =
      .command .check [(.config, "stray.toml")] := by
    rw [Invocation.readOptions]
    simp only [hflag, hname, hvalue, hadd]
    rw [Invocation.readOptions, hrest]
  have hfile : strayFiles.read? "stray.toml" = some (Bytes.ofText strayText) :=
    (read?_filesWith _ _ _).2.2
  have hparse : (Toml.parse? strayText).bind (Config.ofDocument? .toml) = some strayConfig := by
    decide +kernel
  unfold selectConfig
  simp only [hoptions, Settings.load_config hfile hparse]

theorem exists_loadEngine (a : TlsAuthority) :
    ∃ e, loadEngine (authoritiesOf a) (configOf ∅ [] ∅) = .ok e := ⟨_, rfl⟩

theorem isSound_stray (now : Instant) : strayConfig.IsSound strayFiles now := by
  obtain ⟨hkey, hcert, -⟩ := read?_filesWith
    (Bytes.ofText (Pem.write "RSA PRIVATE KEY" crewKeyDer))
    (Bytes.ofText (Pem.write "CERTIFICATE" (crewCertificate "ca" []).encode))
    (Bytes.ofText strayText)
  obtain ⟨e, he⟩ := exists_loadEngine crewAuthority
  refine ⟨_, load_of_read hkey hcert load_crewAuthority he "nowhere", ?_⟩
  intro i hi
  cases hi

/-- The check passes, and the server does not start. -/
theorem stray_checked_not_served :
    (run strayFiles crewMoment ∅ ["check", "--config", "stray.toml"]).IsChecked ∧
    ¬ (run strayFiles crewMoment ∅ ["serve", "--config", "stray.toml"]).IsReady ∧
    run strayFiles crewMoment ∅ ["serve", "--config", "stray.toml"] =
      .failed "invalid listen address" := by
  have haddress : Endpoint.parse? "nowhere" = none := by decide +kernel
  exact checked_not_served selectConfig_stray (isSound_stray _) haddress

end World
end CredentialServer
