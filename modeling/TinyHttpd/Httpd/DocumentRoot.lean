import TinyHttpd.Httpd.FileView
import TinyHttpd.Lib.LexicalPath

/-!
# The document root

The path of a request is `htdocs` and the URL, with no byte between them and no
component taken out, so the URL alone decides whether a request stays inside the
document root: it is empty or starts with a slash, and none of its prefixes has
more `..` than names.  The main page at the end of a path changes nothing.
-/

namespace Httpd

open CString LexicalPath

/-- `/`. -/
abbrev slash : UInt8 := 47

/-- `.`. -/
abbrev dot : UInt8 := 46

/-- The directory the served files are in. -/
def documentRoot : Bytes := bytes "htdocs"

/-! ## The paths of a handler -/

/-- The path a child executes. -/
def ChildCall.paths : ChildCall → List Bytes
  | .execl path _ => [path]
  | _ => []

/-- The paths a call hands to the file system. -/
def Call.paths : Call → List Bytes
  | .stat path _ => [path]
  | .openFile path _ => [path]
  | .fork (some child) => child.flatMap ChildCall.paths
  | _ => []

/-- The paths of a run. -/
def pathsOf (calls : List Call) : List Bytes := calls.flatMap Call.paths

theorem fileView_paths : FileView Call.paths :=
  ⟨fun _ _ _ => rfl, fun _ _ => rfl, fun _ _ _ _ => rfl, fun _ _ _ => rfl, rfl, fun _ _ => rfl,
    fun _ _ => rfl, fun _ => rfl, rfl⟩

/-- A child executes one path. -/
theorem paths_exeCgiChild (env : Env) (path method query : Bytes) (n : Int) :
    (exeCgiChild env path method query n).flatMap ChildCall.paths = [path] := by
  cases hx : env.execl <;> simp [exeCgiChild, hx, ChildCall.paths]

/-- The paths of a request that is not refused: the one it asks `stat` for, and the one of
its file. -/
theorem mem_pathsOf {env : Env} {input p : Bytes} (hm : Known (requestMethod input))
    (h : p ∈ pathsOf (acceptRequest env input)) :
    p = buildPath (requestTarget input) ∨
      ∃ st, env.stat (buildPath (requestTarget input)) = some st ∧
        p = servedPath st (buildPath (requestTarget input)) := by
  rw [pathsOf, fileView_paths.acceptRequest, route_of_known hm] at h
  cases hstat : env.stat (buildPath (requestTarget input)) with
  | none =>
      rw [hstat] at h
      exact .inl (List.mem_singleton.mp h)
  | some st =>
      rw [hstat] at h
      dsimp only at h
      cases hprogram : isProgram input st with
      | false =>
          simp only [hprogram, Bool.false_eq_true, if_false, Call.paths, List.mem_append,
            List.mem_singleton] at h
          exact h.imp_right fun hfile => ⟨st, rfl, hfile⟩
      | true =>
          simp only [hprogram, if_true, Call.paths, List.mem_append, List.mem_singleton] at h
          refine h.imp_right fun hfile => ⟨st, rfl, ?_⟩
          split at hfile
          next =>
              rw [paths_exeCgiChild] at hfile
              exact List.mem_singleton.mp hfile
          next => cases hfile

/-- A request that is not refused asks `stat` for its path. -/
theorem buildPath_mem_pathsOf (env : Env) {input : Bytes} (hm : Known (requestMethod input)) :
    buildPath (requestTarget input) ∈ pathsOf (acceptRequest env input) := by
  rw [pathsOf, fileView_paths.acceptRequest, route_of_known hm]
  cases env.stat (buildPath (requestTarget input)) with
  | none => exact List.mem_singleton_self _
  | some st =>
      dsimp only
      cases isProgram input st with
      | false => exact List.mem_cons_self ..
      | true => exact List.mem_cons_self ..

/-- What holds of the path of a GET or POST request and of the main page below it
holds of every path of the run. -/
theorem forall_mem_pathsOf (env : Env) (input : Bytes) {P : Bytes → Prop}
    (hm : IsGet (requestMethod input) ∨ IsPost (requestMethod input))
    (hserved : ∀ url, P (buildPath url) → P (buildPath url ++ bytes "/" ++ mainPage)) :
    (∀ p ∈ pathsOf (acceptRequest env input), P p) ↔
      P (buildPath (requestTarget input)) := by
  constructor
  · exact fun h => h _ (buildPath_mem_pathsOf env hm)
  · intro h p hp
    rcases mem_pathsOf hm hp with rfl | ⟨st, -, rfl⟩
    · exact h
    · rw [servedPath]
      split
      next => exact hserved _ h
      next => exact h

/-! ## Confinement -/

/-- The part of a URL behind `htdocs` keeps below it: it is empty, or a slash and
components of which no prefix has more `..` than names. -/
def StaysBelow (url : Bytes) : Prop :=
  url = [] ∨ ∃ components, url = slash :: components ∧
    Balanced 0 ((components.splitOn slash).map (kind dot))

/-- Whether a path that starts with `htdocs` is confined is seen from what
follows. -/
theorem confined_documentRoot_append (url : Bytes) :
    Confined slash dot documentRoot (documentRoot ++ url) ↔ StaysBelow url := by
  have hname (c : Bytes) : kind dot (documentRoot ++ c) = .down :=
    kind_of_mem (List.mem_append_left c (show (104 : UInt8) ∈ documentRoot by decide)) (by decide)
  have hroot : slash ∉ documentRoot := by decide
  obtain ⟨hno, hsplit⟩ | ⟨c, q, hc, rfl, hsplit⟩ := splitOn_cons_cases slash url
  · have hcons : (documentRoot ++ url).splitOn slash = [documentRoot ++ url] :=
      splitOn_of_notMem (by simp [hroot, hno])
    rw [confined_iff hcons (hname url)]
    constructor
    · rintro ⟨heq, -⟩
      exact Or.inl (List.append_right_eq_self.mp heq)
    · rintro (rfl | ⟨rest, rfl, -⟩)
      · exact ⟨List.append_nil _, balanced_nil 0⟩
      · exact absurd (List.mem_cons_self ..) hno
  · have hcons : (documentRoot ++ (c ++ slash :: q)).splitOn slash =
        (documentRoot ++ c) :: q.splitOn slash := by
      rw [← List.append_assoc, splitOn_append_sep,
        splitOn_of_notMem (show slash ∉ documentRoot ++ c by simp [hroot, hc]),
        List.singleton_append]
    rw [confined_iff hcons (hname c)]
    constructor
    · rintro ⟨heq, hbal⟩
      have hnil : c = [] := List.append_right_eq_self.mp heq
      exact Or.inr ⟨q, by rw [hnil, List.nil_append], hbal⟩
    · rintro (hnil | ⟨rest, heq, hbal⟩)
      · simp at hnil
      · cases c with
        | nil =>
            rw [List.nil_append] at heq
            cases heq
            exact ⟨List.append_nil _, hbal⟩
        | cons d c =>
            rw [List.cons_append] at heq
            exact absurd (List.cons.inj heq).1 (fun h => hc (h ▸ List.mem_cons_self ..))

/-- The main page appended behind a backslash is part of a name. -/
theorem staysBelow_append_mainPage {url : Bytes} (h : (documentRoot ++ url).getLast? = some 92) :
    StaysBelow (url ++ mainPage) ↔ StaysBelow url := by
  have hlast : url.getLast? = some 92 := by
    cases url with
    | nil => exact absurd h (by decide)
    | cons c url => simpa [List.getLast?_append] using h
  have hkinds : ∀ {q : Bytes}, q.getLast? = some 92 →
      ((q ++ mainPage).splitOn slash).map (kind dot) = (q.splitOn slash).map (kind dot) :=
    fun {q} hq => kinds_append (by decide) (by decide) (by decide) q.length q le_rfl hq
  cases url with
  | nil => simp at hlast
  | cons c q =>
      cases q with
      | nil =>
          have hc : c = 92 := by simpa using hlast
          subst hc
          have hslash : (92 : UInt8) ≠ slash := by decide
          simp [StaysBelow, hslash]
      | cons d q =>
          have hq : (d :: q).getLast? = some 92 := by simpa using hlast
          rw [StaysBelow, StaysBelow]
          simp only [List.cons_append, List.cons.injEq, reduceCtorEq, false_or, and_assoc]
          constructor
          · rintro ⟨rest, hc, rfl, hbal⟩
            rw [← List.cons_append, hkinds hq] at hbal
            exact ⟨_, hc, rfl, hbal⟩
          · rintro ⟨rest, hc, rfl, hbal⟩
            refine ⟨_, hc, rfl, ?_⟩
            rw [← List.cons_append, hkinds hq]
            exact hbal

/-- The main page of a directory below the root is below it. -/
theorem StaysBelow.append_mainPage {url : Bytes} (h : StaysBelow url) :
    StaysBelow (url ++ slash :: mainPage) := by
  have hname : kind dot mainPage = .down := by decide
  have hsplit : mainPage.splitOn slash = [mainPage] := splitOn_of_notMem (by decide)
  rcases h with rfl | ⟨rest, rfl, hbal⟩
  · refine Or.inr ⟨mainPage, rfl, ?_⟩
    rw [hsplit, List.map_singleton, hname]
    exact (balanced_append_down 0 []).mpr (balanced_nil 0)
  · refine Or.inr ⟨rest ++ slash :: mainPage, rfl, ?_⟩
    rw [splitOn_append_sep, hsplit, List.map_append, List.map_singleton, hname]
    exact (balanced_append_down 0 _).mpr hbal

/-- The path is `htdocs` and a text that stays below it when the URL does. -/
theorem buildPath_eq (url : Bytes) :
    ∃ below, buildPath url = documentRoot ++ below ∧ (StaysBelow below ↔ StaysBelow url) := by
  by_cases h : (documentRoot ++ url).getLast? = some 92
  · exact ⟨url ++ mainPage, by rw [← List.append_assoc]; exact if_pos h,
      staysBelow_append_mainPage h⟩
  · exact ⟨url, if_neg h, Iff.rfl⟩

/-- Every path of a GET or POST request is confined to the document root when the
URL stays below it, and only then. -/
theorem paths_confined_iff (env : Env) (input : Bytes)
    (hm : IsGet (requestMethod input) ∨ IsPost (requestMethod input)) :
    (∀ p ∈ pathsOf (acceptRequest env input), Confined slash dot documentRoot p) ↔
      StaysBelow (requestTarget input) := by
  have hserved (url : Bytes) (h : Confined slash dot documentRoot (buildPath url)) :
      Confined slash dot documentRoot (buildPath url ++ bytes "/" ++ mainPage) := by
    obtain ⟨below, heq, -⟩ := buildPath_eq url
    rw [heq, confined_documentRoot_append] at h
    rw [heq, List.append_assoc, List.append_assoc]
    exact (confined_documentRoot_append _).mpr h.append_mainPage
  obtain ⟨below, heq, hbelow⟩ := buildPath_eq (requestTarget input)
  rw [forall_mem_pathsOf env input hm hserved, heq, confined_documentRoot_append, hbelow]

/-- `..` below a name is balanced. -/
theorem paths_confined_inside :
    StaysBelow (requestTarget (bytes "GET /a/../b HTTP/1.0\n\n")) ∧
      ∀ p ∈ pathsOf (acceptRequest .obliging (bytes "GET /a/../b HTTP/1.0\n\n")),
        Confined slash dot documentRoot p := by
  have hstays : StaysBelow (requestTarget (bytes "GET /a/../b HTTP/1.0\n\n")) := by
    refine Or.inr ⟨bytes "a/../b", by decide, ?_⟩
    have hkinds : ((bytes "a/../b").splitOn slash).map (kind dot) = [.down, .up, .down] := by
      decide
    rw [hkinds, balanced_down, balanced_up, balanced_down]
    exact ⟨by decide, balanced_nil _⟩
  exact ⟨hstays, (paths_confined_iff _ _ (Or.inl (by decide))).mpr hstays⟩

/-- `..` behind the first slash leaves the document root. -/
theorem paths_escape :
    IsGet (requestMethod (bytes "GET /../x HTTP/1.0\n\n")) ∧
      ¬ ∀ p ∈ pathsOf (acceptRequest .obliging (bytes "GET /../x HTTP/1.0\n\n")),
        Confined slash dot documentRoot p := by
  decide

end Httpd
