import CredentialServer.Proofs.Server.Publication

/-! # Static files stay in their directory

A static file is kept under its name in one directory.  The configured names are looked at when a
server is loaded, the names in requests are not: they may hold anything once they are decoded, and
are looked up among the configured ones.  The first part is about paths, the second about what is
registered and the third about requests.  Main statement: `confinesStatic_of_load`. -/

namespace CredentialServer

namespace Files

/-! ### Children of a directory -/

/-- The names on a path that lead anywhere. -/
def stepsOf (path : String) : List String :=
  (namesOf path).filter (fun name => name ≠ "" ∧ name ≠ ".")

/-- The directory to which a path leads; the empty path stays in the working directory. -/
def place? (f : Files) (path : String) : Option (List String) :=
  (f.follow (start path) (namesOf path)).filter f.isDirectory

/-- A path is that of a child of a directory under a name. -/
structure IsChild (dir name path : String) : Prop where
  /-- The name is one name, and does not lead back. -/
  isName : isName name = true
  /-- Both paths start at the same place. -/
  start : Files.start path = Files.start dir
  /-- The name is the last step, and the others are those to the directory. -/
  steps : stepsOf path = stepsOf dir ++ [name]
  /-- With any files, what the path leads to is what the directory has under that name. -/
  find? : ∀ f : Files, f.find? path = (f.place? dir).bind (fun here => f.at? (name :: here))

theorem isName_iff {name : String} :
    isName name = true ↔ name ≠ "" ∧ name ≠ "." ∧ name ≠ ".." ∧ '/' ∉ name.toList := by
  simp [isName, and_assoc]

theorem follow_append (f : Files) (here a b : List String) :
    f.follow here (a ++ b) = (f.follow here a).bind (fun there => f.follow there b) := by
  induction a generalizing here with
  | nil => rfl
  | cons name a ih =>
      rw [List.cons_append, follow, follow]
      split
      · cases step? here name with
        | none => rfl
        | some there => exact ih there
      · rfl

theorem follow_append_isName (f : Files) (here front : List String) {name : String}
    (h : isName name = true) :
    f.follow here (front ++ [name]) =
      ((f.follow here front).filter f.isDirectory).map (name :: ·) := by
  obtain ⟨hempty, hdot, hdots, -⟩ := isName_iff.mp h
  rw [follow_append]
  cases f.follow here front with
  | none => rfl
  | some there =>
      rw [Option.bind_some, Option.filter_some]
      by_cases hthere : f.isDirectory there = true
      · simp [follow, step?, hempty, hdot, hdots, hthere]
      · simp [follow, hthere]

theorem follow_append_empty (f : Files) (here front : List String) :
    f.follow here (front ++ [""]) = (f.follow here front).filter f.isDirectory := by
  rw [follow_append]
  cases f.follow here front with
  | none => rfl
  | some there => simp [follow, step?, Option.filter_some]

theorem namesOf_append (dir : String) {name : String} (h : '/' ∉ name.toList) :
    namesOf (dir ++ "/" ++ name) = namesOf dir ++ [name] := by
  unfold namesOf
  rw [String.toList_append, String.toList_append, List.append_assoc]
  show (pieces '/' (dir.toList ++ '/' :: name.toList)).map String.ofList = _
  rw [pieces_append_cons, pieces_of_not_mem '/' h]
  simp

theorem start_append {dir : String} (h : dir ≠ "") (rest : String) :
    start (dir ++ rest) = start dir := by
  unfold start
  rw [String.toList_append, List.head?_append,
    Option.or_of_isSome (List.isSome_head?.mpr (mt String.toList_eq_nil_iff.mp h))]

theorem joinPath_isName (dir : String) {name : String} (h : isName name = true) :
    joinPath dir name = if dir = "" then name
      else if dir.toList.getLast? = some '/' then dir ++ name else dir ++ "/" ++ name := by
  obtain ⟨-, -, -, hslash⟩ := isName_iff.mp h
  have hhead : name.toList.head? ≠ some '/' := fun hhead => hslash (List.mem_of_mem_head? hhead)
  unfold joinPath
  by_cases hdir : dir = ""
  · rw [if_pos (.inr hdir), if_pos hdir]
  · rw [if_neg (not_or.mpr ⟨hhead, hdir⟩), if_neg hdir]

theorem start_joinPath (dir : String) {name : String} (h : isName name = true) :
    start (joinPath dir name) = start dir := by
  rw [joinPath_isName dir h]
  split
  · next hdir =>
    subst hdir
    exact start_of_isName h
  · next hdir =>
    split
    · exact start_append hdir name
    · rw [String.append_assoc]
      exact start_append hdir ("/" ++ name)

/-- The names on the path of a child are those to the directory and its own, which takes the place
of an empty name behind the last separator. -/
theorem namesOf_joinPath (dir : String) {name : String} (h : isName name = true) :
    namesOf (joinPath dir name) = namesOf dir ++ [name] ∨
      ∃ front, namesOf dir = front ++ [""] ∧ namesOf (joinPath dir name) = front ++ [name] := by
  obtain ⟨-, -, -, hslash⟩ := isName_iff.mp h
  rw [joinPath_isName dir h]
  split
  · next hdir =>
    subst hdir
    exact .inr ⟨[], rfl, namesOf_of_isName h⟩
  · split
    · next hlast =>
      obtain ⟨front, hfront⟩ := List.getLast?_eq_some_iff.mp hlast
      have hdir : dir = String.ofList front ++ "/" ++ "" := by
        rw [← String.toList_inj, String.toList_append, String.toList_append, String.toList_ofList,
          hfront]
        simp
      refine .inr ⟨namesOf (String.ofList front), ?_, ?_⟩
      · rw [hdir]
        exact namesOf_append _ (by simp)
      · rw [hdir, String.append_empty]
        exact namesOf_append _ hslash
    · exact .inl (namesOf_append dir hslash)

theorem isChild_joinPath (dir : String) {name : String} (h : isName name = true) :
    IsChild dir name (joinPath dir name) := by
  obtain ⟨hempty, hdot, -, -⟩ := isName_iff.mp h
  have hkept : [name].filter (fun name => name ≠ "" ∧ name ≠ ".") = [name] := by
    simp [hempty, hdot]
  have hstart := start_joinPath dir h
  have hnames := namesOf_joinPath dir h
  constructor
  case isName => exact h
  case start => exact hstart
  case steps =>
    unfold stepsOf
    rcases hnames with hnames | ⟨front, hdir, hnames⟩
    · rw [hnames, List.filter_append, hkept]
    · rw [hnames, hdir, List.filter_append, List.filter_append, hkept]
      simp
  case find? =>
    intro f
    have hnonempty : joinPath dir name ≠ "" := by
      intro hnone
      have hlast : (namesOf (joinPath dir name)).getLast? = some name := by
        rcases hnames with hnames | ⟨front, -, hnames⟩
        · rw [hnames, List.getLast?_concat]
        · rw [hnames, List.getLast?_concat]
      have hroot : (namesOf "").getLast? = some "" := rfl
      rw [hnone, hroot] at hlast
      exact hempty (Option.some.inj hlast).symm
    unfold find? place?
    rw [if_neg hnonempty, hstart]
    rcases hnames with hnames | ⟨front, hdir, hnames⟩
    · rw [hnames, follow_append_isName f _ _ h, Option.bind_map]
      rfl
    · rw [hnames, hdir, follow_append_isName f _ _ h, follow_append_empty, Option.bind_map,
        Option.filter_filter]
      simp only [Bool.and_self]
      rfl

end Files

namespace World

/-! ### What is registered -/

section
variable {files : Files} {c : Config} {w : World}

/-- Every configured name is registered, and what was found before stays. -/
theorem find?_findStaticFiles_of_mem {dir : String} {names : List String}
    {found result : NameMap String} (h : findStaticFiles files dir found names = .ok result)
    {name : String} (hname : name ∈ names ∨ found.find? name = some (joinPath dir name)) :
    result.find? name = some (joinPath dir name) := by
  induction names generalizing found with
  | nil =>
      cases h
      exact hname.resolve_left List.not_mem_nil
  | cons other names ih =>
      unfold findStaticFiles at h
      split at h
      · simp only at h
        split at h
        · refine ih h ?_
          rw [NameMap.find?_insert]
          rcases hname with hname | hname
          · rcases List.mem_cons.mp hname with rfl | hname
            · exact .inr (if_pos rfl)
            · exact .inl hname
          · right
            split
            · next heq => rw [heq]
            · exact hname
        · cases h
      · cases h

theorem find?_staticFiles_of_load (h : load files c = .ok w) {name path : String} :
    w.staticFiles.find? name = some path ↔
      name ∈ c.staticFiles ∧ path = joinPath c.staticDir name := by
  constructor
  · intro hfind
    obtain ⟨hmem, -, hpath⟩ := staticFiles_load h hfind
    exact ⟨hmem, hpath⟩
  · rintro ⟨hmem, rfl⟩
    exact find?_findStaticFiles_of_mem (load_eq_ok_iff.mp h).1 (.inl hmem)

end

/-! ### What is answered -/

end World

/-- A request is for a static file: its path is their directory and one part more, which is the
name, perhaps with some of its octets escaped. -/
def Request.AsksFor (q : Request) (name : String) : Prop :=
  ∃ segment, Route.pathOf q.target = 0x2f :: (Bytes.ofText "static" ++ 0x2f :: segment) ∧
    segment ≠ [] ∧ 0x2f ∉ segment ∧ Route.name? segment = some name

theorem Request.asksFor_iff {q : Request} {name : String} : q.AsksFor name ↔
    ∃ segment, Route.ofTarget q.target = .static segment ∧ Route.name? segment = some name := by
  unfold AsksFor Route.ofTarget
  simp only [Route.ofPath_eq_static_iff, and_assoc]

theorem Request.asksFor_get {name : String} (h : name ≠ "") (body : Bytes)
    (credentials : Credentials) : (get "static" name body credentials).AsksFor name :=
  asksFor_iff.mpr ⟨_, Route.ofTarget_static h, Route.name?_escape name⟩

namespace World

section
variable {files : Files} {c : Config} {w : World}

/-- A static file is downloaded just if its name is configured and it can be read. -/
theorem downloadStatic_eq_ok_iff (h : load files c = .ok w) {files : Files} {name : String}
    {content : Bytes} : w.downloadStatic files name = .ok content ↔
      name ∈ c.staticFiles ∧ files.read? (joinPath c.staticDir name) = some content := by
  unfold downloadStatic
  cases hfind : w.staticFiles.find? name with
  | none =>
      simp only [reduceCtorEq, false_iff]
      rintro ⟨hmem, -⟩
      rw [(find?_staticFiles_of_load h).mpr ⟨hmem, rfl⟩] at hfind
      cases hfind
  | some path =>
      obtain ⟨hmem, rfl⟩ := (find?_staticFiles_of_load h).mp hfind
      simp only [hmem, true_and]
      cases files.read? (joinPath c.staticDir name) with
      | none => simp
      | some content => simp

theorem exists_of_downloadStatic_eq_error {name : String} {e : Refusal}
    (h : w.downloadStatic files name = .error e) : ∃ what, e = .notFound what := by
  unfold downloadStatic at h
  split at h
  · cases h
    exact ⟨_, rfl⟩
  · split at h
    · cases h
    · cases h
      exact ⟨_, rfl⟩

/-- Downloads of a file that is not configured do not look at any files. -/
theorem downloadStatic_congr (h : load files c = .ok w) {files files' : Files} {name : String}
    (hread : name ∈ c.staticFiles →
      files.read? (joinPath c.staticDir name) = files'.read? (joinPath c.staticDir name)) :
    w.downloadStatic files name = w.downloadStatic files' name := by
  unfold downloadStatic
  cases hfind : w.staticFiles.find? name with
  | none => rfl
  | some path =>
      obtain ⟨hmem, rfl⟩ := (find?_staticFiles_of_load h).mp hfind
      simp only [hread hmem]

theorem respond_of_static {q : Request} {segment : Bytes}
    (hroute : Route.ofTarget q.target = .static segment) (files : Files)
    (moments : Nat → Moment) (r : Registry) : w.respond files moments r q =
      (onDownload q.method (answerDownload "name" (w.downloadStatic files) segment), r) := by
  unfold respond
  rw [hroute]

/-- The answer to who may download what there is. -/
def answerOf : Except Refusal Bytes → Response
  | .ok content => .octets content
  | .error e => e.response

theorem answerDownload_of_name? {segment : Bytes} {name : String}
    (hname : Route.name? segment = some name) (parameter : String)
    (download : String → Except Refusal Bytes) :
    answerDownload parameter download segment = answerOf (download name) := by
  unfold answerDownload
  simp only [hname]
  cases download name with
  | ok content => rfl
  | error e => rfl

/-- Who asks for a static file gets what can be downloaded under its name. -/
theorem respond_of_asksFor {q : Request} {name : String} (hmethod : q.method = "GET")
    (hname : q.AsksFor name) (files : Files) (moments : Nat → Moment) (r : Registry) :
    w.respond files moments r q = (answerOf (w.downloadStatic files name), r) := by
  obtain ⟨segment, hroute, hname⟩ := Request.asksFor_iff.mp hname
  rw [respond_of_static hroute, answerDownload_of_name? hname, hmethod]
  rfl

end

/-- A world that was loaded from a configuration keeps to the configured static files. -/
structure ConfinesStatic (w : World) (c : Config) : Prop where
  /-- The configured names are registered, and nothing else is. -/
  registered : ∀ name path, w.staticFiles.find? name = some path ↔
    name ∈ c.staticFiles ∧ path = joinPath c.staticDir name
  /-- Whatever is registered is a child of the one directory, under its own name. -/
  children : ∀ name path, w.staticFiles.find? name = some path →
    Files.IsChild c.staticDir name path
  /-- A file is handed out to who asks for its name, just if that is configured and the file can be
  read at that time. -/
  served : ∀ q name, q.method = "GET" → q.AsksFor name → ∀ files moments r content,
    w.respond files moments r q = (.octets content, r) ↔
      name ∈ c.staticFiles ∧ files.read? (joinPath c.staticDir name) = some content
  /-- Otherwise there is nothing under the name. -/
  refused : ∀ q name, q.method = "GET" → q.AsksFor name → ∀ files moments r,
    ¬ (name ∈ c.staticFiles ∧ ∃ content,
      files.read? (joinPath c.staticDir name) = some content) →
    ∃ answer, w.respond files moments r q = (answer, r) ∧ answer.status = 404
  /-- Of all files, no answer depends on any but the configured one that is asked for. -/
  reads : ∀ q files files', (∀ name ∈ c.staticFiles, q.AsksFor name →
      files.read? (joinPath c.staticDir name) = files'.read? (joinPath c.staticDir name)) →
    ∀ moments r, w.respond files moments r q = w.respond files' moments r q

/-- **Static files are confined to their directory and to the configured names**, with any files at
the time of the request. -/
theorem confinesStatic_of_load {files₀ : Files} {c : Config} {w : World}
    (h : load files₀ c = .ok w) : w.ConfinesStatic c := by
  constructor
  case registered => exact fun name path => find?_staticFiles_of_load h
  case children =>
    intro name path hfind
    obtain ⟨-, hname, rfl⟩ := staticFiles_load h hfind
    exact Files.isChild_joinPath c.staticDir hname
  case served =>
    intro q name hmethod hname files moments r content
    rw [← downloadStatic_eq_ok_iff h, respond_of_asksFor hmethod hname]
    cases hdownload : w.downloadStatic files name with
    | ok found => simp [answerOf, Response.octets]
    | error e =>
        obtain ⟨what, rfl⟩ := exists_of_downloadStatic_eq_error hdownload
        simp [answerOf, Refusal.response, Response.text, Response.octets]
  case refused =>
    intro q name hmethod hname files moments r hnot
    rw [respond_of_asksFor hmethod hname]
    cases hdownload : w.downloadStatic files name with
    | ok found =>
        obtain ⟨hmem, hread⟩ := (downloadStatic_eq_ok_iff h).mp hdownload
        exact absurd ⟨hmem, found, hread⟩ hnot
    | error e =>
        obtain ⟨what, rfl⟩ := exists_of_downloadStatic_eq_error hdownload
        exact ⟨_, rfl, rfl⟩
  case reads =>
    intro q files files' hread moments r
    cases hroute : Route.ofTarget q.target with
    | batch | published segment | nowhere =>
        unfold respond
        rw [hroute]
    | static segment =>
        rw [respond_of_static hroute, respond_of_static hroute]
        cases hname : Route.name? segment with
        | none =>
            unfold answerDownload
            rw [hname]
        | some name =>
            have hasks : q.AsksFor name := Request.asksFor_iff.mpr ⟨segment, hroute, hname⟩
            rw [answerDownload_of_name? hname, answerDownload_of_name? hname,
              downloadStatic_congr h (fun hmem => hread name hmem hasks)]

/-! ### A message of the day -/

/-- The crew's files with one that is handed out, in a directory of its own. -/
def crewLibrary : Files :=
  ⟨(crewFiles.entries.insert "static" .directory).insert "static/motd" (.file [0x68, 0x69])⟩

def crewLibraryConfig : Config :=
  { crewConfig with staticDir := "static", staticFiles := ["motd"] }

def crewLibraryWorld : World :=
  { crew with staticFiles := NameMap.empty.insert "motd" "static/motd" }

theorem load_crewLibrary : load crewLibrary crewLibraryConfig = .ok crewLibraryWorld := by
  obtain ⟨-, -, hauthentication, hengine⟩ := load_eq_ok_iff.mp load_crew
  refine load_eq_ok_iff.mpr ⟨?_, ?_, hauthentication, hengine⟩
  · rfl
  · refine NameMap.mapM_singleton (loadAuthority_of_read ?_ ?_ load_crewAuthority)
    · refine Files.read?_of_isName (by decide) ?_
      simp [crewLibrary, crewFiles, filesOf, NameMap.find?_insert]
    · refine Files.read?_of_isName (by decide) ?_
      simp [crewLibrary, crewFiles, filesOf, NameMap.find?_insert]

/-- The message is handed out, and a key next to its directory is not, though a path leads there. -/
theorem confinesStatic_crewLibraryWorld :
    load crewLibrary crewLibraryConfig = .ok crewLibraryWorld ∧
    crewLibraryWorld.ConfinesStatic crewLibraryConfig ∧
    (∀ moments r body credentials,
      crewLibraryWorld.respond crewLibrary moments r (.get "static" "motd" body credentials) =
        (.octets [0x68, 0x69], r)) ∧
    (crewLibrary.canOpen (joinPath "static" "../ca.key") = true ∧
      ∀ moments r body credentials, ∃ answer,
        crewLibraryWorld.respond crewLibrary moments r
          (.get "static" "../ca.key" body credentials) = (answer, r) ∧ answer.status = 404) := by
  have hconfines := confinesStatic_of_load load_crewLibrary
  refine ⟨load_crewLibrary, hconfines, ?_, ?_, ?_⟩
  · intro moments r body credentials
    refine (hconfines.served _ "motd" rfl (Request.asksFor_get (by decide) _ _) _ _ _ _).mpr ?_
    exact ⟨by decide, by decide +kernel⟩
  · decide +kernel
  · intro moments r body credentials
    refine hconfines.refused _ "../ca.key" rfl (Request.asksFor_get (by decide) _ _) _ _ _ ?_
    rintro ⟨hmem, -⟩
    exact absurd hmem (by decide)

end World
end CredentialServer
