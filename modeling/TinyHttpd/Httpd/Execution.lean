import TinyHttpd.Httpd.DocumentRoot
import TinyHttpd.Httpd.RequestLine

/-!
# Which files are executed

Three things make a request one for a program: its method, a `?` in its URL, and the mode
bits of the file that `stat` finds.  Each of them is enough, so the first two reach `execl`
with a file of any mode, and with the main page of a directory, which nobody has looked at.
-/

namespace Httpd

open CString

/-- The paths that a call hands to `execl`. -/
def Call.executes : Call → List Bytes
  | .fork (some child) => child.flatMap ChildCall.paths
  | _ => []

/-- The paths that a run hands to `execl`. -/
def executed (calls : List Call) : List Bytes := calls.flatMap Call.executes

theorem fileView_executes : FileView Call.executes :=
  ⟨fun _ _ _ => rfl, fun _ _ => rfl, fun _ _ _ _ => rfl, fun _ _ _ => rfl, rfl, fun _ _ => rfl,
    fun _ _ => rfl, fun _ => rfl, rfl⟩

/-- The request asks for a program, whatever its file is. -/
def AsksForProgram (input : Bytes) : Prop :=
  IsPost (requestMethod input) ∨
    IsGet (requestMethod input) ∧ questionMark ∈ requestUrl input

theorem isSome_splitQuery_iff (url : Bytes) :
    (splitQuery url).2.isSome = true ↔ questionMark ∈ url := by
  by_cases hmem : questionMark ∈ url
  · obtain ⟨before, query, rfl, hbefore⟩ := List.eq_append_cons_of_mem hmem
    rw [splitQuery_append query hbefore]
    exact iff_of_true rfl hmem
  · rw [splitQuery_of_notMem hmem]
    exact iff_of_false nofun hmem

theorem isProgram_iff (input : Bytes) (st : Stat) :
    isProgram input st = true ↔
      AsksForProgram input ∨ st.isDir = false ∧ st.executable = true := by
  rw [isProgram, asksForCgi, AsksForProgram, Bool.or_eq_true, Bool.or_eq_true, Bool.and_eq_true,
    Bool.and_eq_true, decide_eq_true_iff, decide_eq_true_iff, isSome_splitQuery_iff,
    Bool.not_eq_true']

/-- A handler looks for the path of a request that is not refused. -/
theorem stat_mem_acceptRequest {env : Env} {input : Bytes} {st : Stat}
    (hm : Known (requestMethod input))
    (hstat : env.stat (buildPath (requestTarget input)) = some st) :
    .stat (buildPath (requestTarget input)) true ∈ acceptRequest env input := by
  rw [acceptRequest_eq, route_of_known hm, hstat]
  refine List.mem_append_right _ ?_
  dsimp only
  split
  next => simp [answer]
  next => simp [answer]

/-- What a run executes. -/
theorem mem_executed_iff (env : Env) (input p : Bytes) :
    p ∈ executed (acceptRequest env input) ↔
      Known (requestMethod input) ∧
        Forks env .sockClient (requestMethod input) (requestLine input).rest ∧
        ∃ st, env.stat (buildPath (requestTarget input)) = some st ∧
          p = servedPath st (buildPath (requestTarget input)) ∧
          (AsksForProgram input ∨ st.isDir = false ∧ st.executable = true) := by
  rw [executed, fileView_executes.acceptRequest]
  by_cases hknown : Known (requestMethod input)
  · rw [route_of_known hknown, and_iff_right hknown]
    cases env.stat (buildPath (requestTarget input)) with
    | none => simp [Call.executes]
    | some st =>
        have hprogram := isProgram_iff input st
        simp only [Option.some.injEq, exists_eq_left', ← hprogram]
        cases isProgram input st with
        | false => simp [Call.executes]
        | true =>
            by_cases hforks : Forks env .sockClient (requestMethod input) (requestLine input).rest
            · simp [Call.executes, paths_exeCgiChild, hforks]
            · simp [Call.executes, hforks]
  · rw [route_of_not_known hknown]
    exact iff_of_false List.not_mem_nil fun h => hknown h.1

/-- The path has been found in the run as an executable file. -/
def FoundExecutable (env : Env) (calls : List Call) (p : Bytes) : Prop :=
  .stat p true ∈ calls ∧ ∃ st ∈ env.stat p, st.isDir = false ∧ st.executable = true

instance (env : Env) (calls : List Call) (p : Bytes) : Decidable (FoundExecutable env calls p) :=
  inferInstanceAs (Decidable (_ ∧ _))

/-- For every request and every file system: `execl` gets one path, that of the file `stat`
has found in the same run or of the main page of the directory it has found, and it gets it
exactly when there is a child and the request asks for a program or the file is executable.
Where the request does not ask for one, it is the path of an executable file. -/
theorem executed_only (env : Env) (input : Bytes) :
    (∀ p, p ∈ executed (acceptRequest env input) ↔
      Known (requestMethod input) ∧
        Forks env .sockClient (requestMethod input) (requestLine input).rest ∧
        ∃ st, env.stat (buildPath (requestTarget input)) = some st ∧
          p = servedPath st (buildPath (requestTarget input)) ∧
          (AsksForProgram input ∨ st.isDir = false ∧ st.executable = true)) ∧
      (¬AsksForProgram input → ∀ p ∈ executed (acceptRequest env input),
        FoundExecutable env (acceptRequest env input) p) := by
  refine ⟨mem_executed_iff env input, fun hasks p hp => ?_⟩
  obtain ⟨hknown, -, st, hstat, rfl, hfile⟩ := (mem_executed_iff env input p).mp hp
  obtain ⟨hdir, hexecutable⟩ := hfile.resolve_left hasks
  have hpath : servedPath st (buildPath (requestTarget input)) =
      buildPath (requestTarget input) := by
    rw [servedPath, hdir]
    rfl
  rw [hpath]
  exact ⟨stat_mem_acceptRequest hknown hstat, st, hstat, hdir, hexecutable⟩

/-- A POST of a directory, and a GET with a `?` of a file without execute bits. -/
theorem executed_unchecked :
    let dir := { Env.obliging with stat := fun _ => some ⟨true, true, true, true, 4096⟩ }
    (bytes "htdocs//index.html" ∈ executed (acceptRequest dir (bytes "POST / HTTP/1.0\n\n")) ∧
        ¬FoundExecutable dir (acceptRequest dir (bytes "POST / HTTP/1.0\n\n"))
          (bytes "htdocs//index.html")) ∧
      bytes "htdocs/x" ∈ executed (acceptRequest .obliging (bytes "GET /x?a HTTP/1.0\n\n")) ∧
        ¬FoundExecutable .obliging (acceptRequest .obliging (bytes "GET /x?a HTTP/1.0\n\n"))
          (bytes "htdocs/x") := by
  decide +kernel

end Httpd
