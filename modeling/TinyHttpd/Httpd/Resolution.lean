import TinyHttpd.Httpd.Buffers
import TinyHttpd.Httpd.Execution
import TinyHttpd.Httpd.Status

/-!
# From the URL to the file

The main page is put behind a path in two places: behind a backslash before `stat`, and
behind a directory after it.  The second makes a directory mean its main page, as a URL
should.  The first, which the comment in the source wants for a URL that is `/` alone,
makes another file of every URL whose part before the `?` ends in a backslash.
-/

namespace Httpd

open CString

/-! ## Before the query -/

/-- The URL up to its first `?`. -/
def beforeQuery (url : Bytes) : Bytes := url.takeWhile (· ≠ questionMark)

theorem beforeQuery_of_notMem {url : Bytes} (h : questionMark ∉ url) : beforeQuery url = url :=
  List.takeWhile_eq_self_iff.mpr fun _ hc => decide_eq_true fun heq => h (heq ▸ hc)

theorem notMem_beforeQuery (url : Bytes) : questionMark ∉ beforeQuery url := fun h => by
  have hne := List.mem_takeWhile_imp h
  exact of_decide_eq_true hne rfl

theorem splitQuery_fst (url : Bytes) : (splitQuery url).1 = beforeQuery url := by
  induction url with
  | nil => rfl
  | cons c url ih =>
      rw [splitQuery, beforeQuery]
      split
      next hc => simp [hc]
      next hc => simp [hc, ih, beforeQuery]

theorem requestTarget_of_get {input : Bytes} (h : IsGet (requestMethod input)) :
    requestTarget input = beforeQuery (requestUrl input) := by
  rw [← splitQuery_fst]
  exact if_pos h

theorem requestTarget_of_post {input : Bytes} (h : IsPost (requestMethod input)) :
    requestTarget input = requestUrl input :=
  if_neg fun hget => not_isGet_and_isPost hget h

/-! ## The file of a GET -/

/-- `htdocs` and the URL up to its first `?`. -/
def plainPath (input : Bytes) : Bytes := bytes "htdocs" ++ beforeQuery (requestUrl input)

/-- The file a path stands for: the path itself, or the main page in a directory.  None when
the path does not exist. -/
def resolution (env : Env) (path : Bytes) : Option Bytes :=
  (env.stat path).map fun st => if st.isDir then path ++ bytes "/index.html" else path

theorem resolution_eq (env : Env) (path : Bytes) :
    resolution env path = (env.stat path).map fun st => servedPath st path := by
  have hpage : path ++ bytes "/" ++ mainPage = path ++ bytes "/index.html" := by
    rw [List.append_assoc]
    rfl
  rw [resolution, ← hpage]
  rfl

/-- The program that a call of a child becomes. -/
def ChildCall.becomes : ChildCall → List Bytes
  | .execl path true => [path]
  | _ => []

/-- The files that a call opens, and the programs it starts. -/
def Call.serves : Call → List Bytes
  | .openFile path true => [path]
  | .fork (some child) => child.flatMap ChildCall.becomes
  | _ => []

/-- The files that a run opens or executes. -/
def served (calls : List Call) : List Bytes := calls.flatMap Call.serves

theorem fileView_serves : FileView Call.serves :=
  ⟨fun _ _ _ => rfl, fun _ _ => rfl, fun _ _ _ _ => rfl, fun _ _ _ => rfl, rfl, fun _ _ => rfl,
    fun _ _ => rfl, fun _ => rfl, rfl⟩

theorem becomes_exeCgiChild (env : Env) (path method query : Bytes) (n : Int) :
    (exeCgiChild env path method query n).flatMap ChildCall.becomes =
      if env.execl then [path] else [] := by
  cases h : env.execl <;> simp [exeCgiChild, ChildCall.becomes, h]

theorem serves_openFile (path : Bytes) (ok : Bool) :
    Call.serves (.openFile path ok) = if ok then [path] else [] := by
  cases ok <;> rfl

/-- The file of that path can be served: it can be opened or, where a program answers, be
executed. -/
def CanServe (env : Env) (input path : Bytes) : Prop :=
  ∃ st ∈ env.stat path,
    if isProgram input st then env.forks ∧ env.execl = true
    else (env.openFile (servedPath st path)).isSome = true

/-- A GET opens or executes the file of its path, if that can be done, and nothing else. -/
theorem mem_served_iff (env : Env) {input : Bytes} (hget : IsGet (requestMethod input))
    (p : Bytes) : p ∈ served (acceptRequest env input) ↔
      resolution env (buildPath (requestTarget input)) = some p ∧
        CanServe env input (buildPath (requestTarget input)) := by
  rw [served, fileView_serves.acceptRequest, route_of_known (.inl hget), resolution_eq, CanServe]
  cases env.stat (buildPath (requestTarget input)) with
  | none => exact iff_of_false List.not_mem_nil fun h => absurd h.1 nofun
  | some st =>
      simp only [Option.mem_def, Option.some.injEq, exists_eq_left', Option.map_some]
      cases isProgram input st with
      | false =>
          simp only [Bool.false_eq_true, if_false, serves_openFile, List.mem_append,
            List.mem_ite_nil_right, List.mem_singleton]
          exact (or_iff_right List.not_mem_nil).trans (and_comm.trans (and_congr_left' eq_comm))
      | true =>
          have hforks : Forks env .sockClient (requestMethod input) (requestLine input).rest ↔
              env.forks := and_iff_left (.inl hget)
          simp only [if_true, hforks, Call.serves, becomes_exeCgiChild, List.nil_append,
            ← ite_and, List.mem_ite_nil_right, List.mem_singleton]
          exact and_comm.trans (and_congr_left' eq_comm)

/-! ## Right and wrong resolutions -/

/-- A plain path without a file: it does not exist, or is a directory without a main page. -/
def Missing (env : Env) (path : Bytes) : Prop :=
  env.stat path = none ∨ (env.stat path).any Stat.isDir = true ∧
    env.openFile (path ++ bytes "/index.html") = none

/-- The URL stands for the file it should: nothing but that file is opened or executed, it is
where that can be done, and a plain URL without a file is answered with 404. -/
structure Resolves (env : Env) (input : Bytes) : Prop where
  served : ∀ p ∈ served (acceptRequest env input), resolution env (plainPath input) = some p
  reached : CanServe env input (plainPath input) →
    ∀ p ∈ resolution env (plainPath input), p ∈ Httpd.served (acceptRequest env input)
  missing : questionMark ∉ requestUrl input → Missing env (plainPath input) →
    events (acceptRequest env input) = errorEvents (bytes "404")

theorem events_of_stat_none {env : Env} {input : Bytes} (h : Known (requestMethod input))
    (hstat : env.stat (buildPath (requestTarget input)) = none) :
    events (acceptRequest env input) = errorEvents (bytes "404") := by
  rw [events_acceptRequest, route_of_known h, hstat]

/-- A file that no program answers for and that cannot be opened. -/
theorem events_of_open_none {env : Env} {input : Bytes} {st : Stat}
    (h : Known (requestMethod input))
    (hstat : env.stat (buildPath (requestTarget input)) = some st)
    (hprogram : isProgram input st = false)
    (hopen : env.openFile (servedPath st (buildPath (requestTarget input))) = none) :
    events (acceptRequest env input) = errorEvents (bytes "404") := by
  rw [events_acceptRequest, route_of_known h, hstat]
  dsimp only
  rw [hprogram, if_neg Bool.false_ne_true]
  dsimp only
  rw [events_echoHtml, hopen]

/-- A program is answered with a `200`. -/
theorem events_of_program {env : Env} {input : Bytes} {st : Stat}
    (hget : IsGet (requestMethod input))
    (hstat : env.stat (buildPath (requestTarget input)) = some st)
    (hprogram : isProgram input st = true) :
    events (acceptRequest env input) ≠ errorEvents (bytes "404") := by
  rw [events_acceptRequest, route_of_known (.inl hget), hstat]
  dsimp only
  rw [hprogram, if_pos rfl]
  dsimp only
  rw [events_exeCgi, if_pos hget, events_runCgi]
  intro h
  exact absurd (List.cons.inj h).1 (by decide)

/-- A directory is none of a plain GET. -/
theorem isProgram_of_isDir {input : Bytes} {st : Stat} (hget : IsGet (requestMethod input))
    (hplain : questionMark ∉ requestUrl input) (hdir : st.isDir = true) :
    isProgram input st = false := by
  rw [Bool.eq_false_iff, ne_eq, isProgram_iff]
  rintro ((hpost | ⟨-, hmem⟩) | ⟨hfile, -⟩)
  · exact not_isGet_and_isPost hget hpost
  · exact hplain hmem
  · rw [hdir] at hfile
    cases hfile

/-- A plain GET whose path is the one it should be gets a 404 where there is no file. -/
theorem events_of_missing {env : Env} {input : Bytes} (hget : IsGet (requestMethod input))
    (hplain : questionMark ∉ requestUrl input)
    (hmissing : Missing env (buildPath (requestTarget input))) :
    events (acceptRequest env input) = errorEvents (bytes "404") := by
  rcases hmissing with hnone | ⟨hdir, hopen⟩
  · exact events_of_stat_none (.inl hget) hnone
  · obtain ⟨st, hstat, hst⟩ := (Option.any_eq_true _ _).mp hdir
    refine events_of_open_none (.inl hget) hstat (isProgram_of_isDir hget hplain hst) ?_
    rw [servedPath, hst, if_pos rfl, List.append_assoc]
    exact hopen

theorem length_of_mem_resolution {env : Env} {path p : Bytes} (h : p ∈ resolution env path) :
    p.length = path.length ∨ p.length = path.length + 11 := by
  obtain ⟨st, -, rfl⟩ := Option.map_eq_some_iff.mp h
  split
  next => exact .inr List.length_append
  next => exact .inl rfl

/-- Behind a backslash the two resolutions have no file in common. -/
theorem resolution_mainPage_ne {env : Env} {path p : Bytes}
    (h : resolution env (path ++ mainPage) = some p) : resolution env path ≠ some p := by
  intro heq
  have hpage : mainPage.length = 10 := by decide
  have hlong := length_of_mem_resolution h
  have hshort := length_of_mem_resolution heq
  rw [List.length_append] at hlong
  omega

theorem exists_resolution {env : Env} {input path : Bytes} (h : CanServe env input path) :
    ∃ p, resolution env path = some p := by
  obtain ⟨st, hstat, -⟩ := h
  exact ⟨_, congrArg (Option.map _) hstat⟩

/-- The path with the main page behind it is taken for the URL, and that does no harm: nothing
is served of it, nor could be of the path itself, and no program answers where a 404 should. -/
structure Harmless (env : Env) (input path : Bytes) : Prop where
  meant : ¬CanServe env input path
  taken : ¬CanServe env input (path ++ mainPage)
  quiet : questionMark ∉ requestUrl input → Missing env path →
    ∀ st ∈ env.stat (path ++ mainPage), isProgram input st = false

theorem resolves_of_backslash_iff {env : Env} {input : Bytes} (hget : IsGet (requestMethod input))
    (hpath : buildPath (requestTarget input) = plainPath input ++ mainPage) :
    Resolves env input ↔ Harmless env input (plainPath input) := by
  have hserved := mem_served_iff env hget
  rw [hpath] at hserved
  constructor
  · intro h
    have htaken : ¬CanServe env input (plainPath input ++ mainPage) := by
      intro hcan
      obtain ⟨p, hp⟩ := exists_resolution hcan
      exact resolution_mainPage_ne hp (h.served p ((hserved p).mpr ⟨hp, hcan⟩))
    refine ⟨fun hcan => ?_, htaken, fun hplain hmissing st hstat => ?_⟩
    · obtain ⟨p, hp⟩ := exists_resolution hcan
      exact htaken ((hserved p).mp (h.reached hcan p hp)).2
    · rw [← Bool.not_eq_true]
      intro hprogram
      exact events_of_program hget (hpath ▸ hstat) hprogram (h.missing hplain hmissing)
  · intro h
    refine ⟨fun p hp => absurd ((hserved p).mp hp).2 h.taken, fun hcan => absurd hcan h.meant,
      fun hplain hmissing => ?_⟩
    cases hstat : env.stat (plainPath input ++ mainPage) with
    | none => exact events_of_stat_none (.inl hget) (hpath ▸ hstat)
    | some st =>
        have hprogram := h.quiet hplain hmissing st hstat
        refine events_of_open_none (.inl hget) (hpath ▸ hstat) hprogram ?_
        rw [hpath]
        refine Option.not_isSome_iff_eq_none.mp fun hopen => h.taken ⟨st, hstat, ?_⟩
        rwa [hprogram, if_neg Bool.false_ne_true]

/-- For every GET and every file system: the URL stands for the file it should exactly when
its part before the `?` does not end in a backslash, or the main page that is put behind the
path does no harm. -/
theorem resolves_iff {env : Env} {input : Bytes} (hget : IsGet (requestMethod input)) :
    Resolves env input ↔
      (EndsInBackslash (beforeQuery (requestUrl input)) →
        Harmless env input (plainPath input)) := by
  have htarget := requestTarget_of_get hget
  by_cases hback : EndsInBackslash (beforeQuery (requestUrl input))
  · rw [imp_iff_right hback]
    refine resolves_of_backslash_iff hget ?_
    rw [htarget, buildPath_of_backslash hback, plainPath]
  · have hpath : buildPath (requestTarget input) = plainPath input := by
      rw [htarget, buildPath_of_not_backslash hback, plainPath]
    have hserved := mem_served_iff env hget
    rw [hpath] at hserved
    refine iff_of_true ⟨fun p hp => ((hserved p).mp hp).1,
      fun hcan p hp => (hserved p).mpr ⟨hp, hcan⟩, fun hplain hmissing => ?_⟩
      fun h => absurd h hback
    exact events_of_missing hget hplain (hpath ▸ hmissing)

theorem resolves_plain : Resolves .obliging (bytes "GET /a HTTP/1.0\n\n") :=
  (resolves_iff (by decide +kernel)).mpr fun h => absurd h (by decide +kernel)

/-- Where every path exists, `/a\` stands for another file. -/
theorem resolves_wrong :
    IsGet (requestMethod (bytes "GET /a\\ HTTP/1.0\n\n")) ∧
      served (acceptRequest .obliging (bytes "GET /a\\ HTTP/1.0\n\n")) =
        [bytes "htdocs/a\\index.html"] ∧
      resolution .obliging (plainPath (bytes "GET /a\\ HTTP/1.0\n\n")) =
        some (bytes "htdocs/a\\") ∧
      ¬Resolves .obliging (bytes "GET /a\\ HTTP/1.0\n\n") := by
  have hserved : served (acceptRequest .obliging (bytes "GET /a\\ HTTP/1.0\n\n")) =
      [bytes "htdocs/a\\index.html"] := by
    decide +kernel
  have hfile : resolution .obliging (plainPath (bytes "GET /a\\ HTTP/1.0\n\n")) =
      some (bytes "htdocs/a\\") := by
    decide +kernel
  refine ⟨by decide +kernel, hserved, hfile, fun h => ?_⟩
  have hsame := h.served _ (hserved ▸ List.mem_singleton_self _)
  rw [hfile] at hsame
  exact absurd hsame (by decide +kernel)

/-! ## The path of a GET and of a POST -/

/-- The paths that a call looks for. -/
def Call.asks : Call → List Bytes
  | .stat path _ => [path]
  | _ => []

/-- The paths that a run looks for. -/
def asked (calls : List Call) : List Bytes := calls.flatMap Call.asks

theorem fileView_asks : FileView Call.asks :=
  ⟨fun _ _ _ => rfl, fun _ _ => rfl, fun _ _ _ _ => rfl, fun _ _ _ => rfl, rfl, fun _ _ => rfl,
    fun _ _ => rfl, fun _ => rfl, rfl⟩

theorem asked_of_known (env : Env) {input : Bytes} (h : Known (requestMethod input)) :
    asked (acceptRequest env input) = [buildPath (requestTarget input)] := by
  rw [asked, fileView_asks.acceptRequest, route_of_known h]
  cases env.stat (buildPath (requestTarget input)) with
  | none => rfl
  | some st =>
      dsimp only
      cases isProgram input st with
      | false => rfl
      | true => simp [Call.asks]

/-- A path has a `?` where its URL has one. -/
theorem questionMark_mem_buildPath (url : Bytes) :
    questionMark ∈ buildPath url ↔ questionMark ∈ url := by
  have hroot : questionMark ∉ bytes "htdocs" := by decide
  have hpage : questionMark ∉ mainPage := by decide
  by_cases hback : EndsInBackslash url
  · rw [buildPath_of_backslash hback]
    simp [hroot, hpage]
  · rw [buildPath_of_not_backslash hback]
    simp [hroot]

theorem buildPath_beforeQuery_iff (url : Bytes) :
    buildPath (beforeQuery url) = buildPath url ↔ questionMark ∉ url := by
  constructor
  · intro heq hmem
    rw [← questionMark_mem_buildPath, ← heq, questionMark_mem_buildPath] at hmem
    exact notMem_beforeQuery url hmem
  · exact fun h => congrArg buildPath (beforeQuery_of_notMem h)

/-- Two paths exist in the same file systems only when they are one path. -/
theorem forall_isSome_stat_iff (p q : Bytes) :
    (∀ env : Env, (env.stat p).isSome = (env.stat q).isSome) ↔ p = q := by
  constructor
  · intro h
    have hp := h { Env.obliging with
      stat := fun path => if path = p then some ⟨false, false, false, false, 0⟩ else none }
    dsimp only at hp
    rw [if_pos rfl] at hp
    split at hp
    next hqp => exact hqp.symm
    next => cases hp
  · rintro rfl env
    rfl

/-- A GET of a URL looks for the path before the `?`, and a POST for that of the whole URL.
They are the same path, and agree in every file system on whether it exists, exactly when
the URL has no `?`. -/
theorem asked_path_of_method {get post : Bytes} (hget : IsGet (requestMethod get))
    (hpost : IsPost (requestMethod post)) (hurl : requestUrl get = requestUrl post) :
    (∀ env, asked (acceptRequest env get) = [buildPath (beforeQuery (requestUrl get))] ∧
        asked (acceptRequest env post) = [buildPath (requestUrl get)]) ∧
      (buildPath (beforeQuery (requestUrl get)) = buildPath (requestUrl get) ↔
        questionMark ∉ requestUrl get) ∧
      ((∀ env : Env, (env.stat (buildPath (beforeQuery (requestUrl get)))).isSome =
          (env.stat (buildPath (requestUrl get))).isSome) ↔
        questionMark ∉ requestUrl get) := by
  have hpaths := buildPath_beforeQuery_iff (requestUrl get)
  refine ⟨fun env => ⟨?_, ?_⟩, hpaths, (forall_isSome_stat_iff _ _).trans hpaths⟩
  · rw [asked_of_known env (.inl hget), requestTarget_of_get hget]
  · rw [asked_of_known env (.inr hpost), requestTarget_of_post hpost, hurl]

theorem asked_path_of_method_plain :
    asked (acceptRequest .obliging (bytes "GET /x HTTP/1.0\n\n")) =
      asked (acceptRequest .obliging (bytes "POST /x HTTP/1.0\n\n")) := by
  have hget : IsGet (requestMethod (bytes "GET /x HTTP/1.0\n\n")) := by decide +kernel
  have hpost : IsPost (requestMethod (bytes "POST /x HTTP/1.0\n\n")) := by decide +kernel
  have hurl : requestUrl (bytes "GET /x HTTP/1.0\n\n") =
      requestUrl (bytes "POST /x HTTP/1.0\n\n") := by
    decide +kernel
  obtain ⟨hpaths, hsame, -⟩ := asked_path_of_method hget hpost hurl
  rw [(hpaths .obliging).1, (hpaths .obliging).2, hsame.mpr (by decide +kernel)]

/-- A system with the one file `htdocs/x`. -/
def onlyX : Env :=
  { Env.obliging with
    stat := fun path =>
      if path = bytes "htdocs/x" then some ⟨false, true, true, true, 5⟩ else none }

/-- With a `?` the GET finds the file and the POST does not. -/
theorem asked_path_differs :
    IsGet (requestMethod (bytes "GET /x?a HTTP/1.0\n\n")) ∧
      IsPost (requestMethod (bytes "POST /x?a HTTP/1.0\n\n")) ∧
      requestUrl (bytes "GET /x?a HTTP/1.0\n\n") =
        requestUrl (bytes "POST /x?a HTTP/1.0\n\n") ∧
      .stat (bytes "htdocs/x") true ∈ acceptRequest onlyX (bytes "GET /x?a HTTP/1.0\n\n") ∧
      .stat (bytes "htdocs/x?a") false ∈
        acceptRequest onlyX (bytes "POST /x?a HTTP/1.0\n\n") := by
  decide +kernel

end Httpd
