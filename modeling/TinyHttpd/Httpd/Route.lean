import TinyHttpd.Httpd.Handler

/-!
# What a request line asks for

`route` says which of its four answers `accept_request` gives to a request line:
a refusal, a missing file, a static file or a CGI program.  It depends on the
line and on one `stat`.  `acceptRequest_eq` takes the calls of a handler apart
along it, and the results about a handler's whole run start from there.
-/

namespace Httpd

open CString

/-- The method is `GET`, in any letter case. -/
def IsGet (method : Bytes) : Prop := strcasecmp method (bytes "GET") = 0

/-- The method is `POST`, in any letter case. -/
def IsPost (method : Bytes) : Prop := strcasecmp method (bytes "POST") = 0

instance (method : Bytes) : Decidable (IsGet method) := inferInstanceAs (Decidable (_ = _))

instance (method : Bytes) : Decidable (IsPost method) := inferInstanceAs (Decidable (_ = _))

/-- The part of the URL the path is built from: before the first `?` for a GET,
all of it for a POST. -/
def target (method url : Bytes) : Bytes := if IsGet method then (splitQuery url).1 else url

/-- The query string handed to `exe_cgi`. -/
def query (method url : Bytes) : Bytes :=
  if IsGet method then (splitQuery url).2.getD [] else url

/-- `cgi` before the file is looked at. -/
def asksForCgi (method url : Bytes) : Bool :=
  decide (IsPost method) || (decide (IsGet method) && (splitQuery url).2.isSome)

/-- `S_IXUSR`, `S_IXGRP` or `S_IXOTH`. -/
def Stat.executable (st : Stat) : Bool := st.ixusr || st.ixgrp || st.ixoth

/-- The path after `stat`: the main page of a directory. -/
def servedPath (st : Stat) (path : Bytes) : Bytes :=
  if st.isDir then path ++ bytes "/" ++ mainPage else path

/-- What a request is answered with.  `path` is the argument of `stat` and `file`
that of `open` or `execl`. -/
inductive Route where
  | refused
  | missing (path : Bytes)
  | static (path file : Bytes) (size : Nat)
  | cgi (path file method query : Bytes)
deriving DecidableEq, Repr

/-- The answer to a request line. -/
def route (env : Env) (line : Bytes) : Route :=
  let method := (scanRequestLine line).1
  let url := (scanRequestLine line).2
  if ¬IsGet method ∧ ¬IsPost method then .refused
  else
    let path := buildPath (target method url)
    match env.stat path with
    | none => .missing path
    | some st =>
        if asksForCgi method url || (!st.isDir && st.executable) then
          .cgi path (servedPath st path) method (query method url)
        else .static path (servedPath st path) st.size

/-- The calls that answer a request, behind those that read its first line. -/
def answer (env : Env) (input : Bytes) : Route → List Call
  | .refused => echoErrorToClient .sockClient 400
  | .missing path =>
      .stat path false :: (clearHeader .sockClient input).calls ++
        echoErrorToClient .sockClient 404
  | .static path file size =>
      .stat path true :: (clearHeader .sockClient input).calls ++
        echoHtml env .sockClient file size ++ [.close .sockClient]
  | .cgi path file method query =>
      .stat path true :: exeCgi env .sockClient file method query input ++ [.close .sockClient]

/-- The first line of a request, as `get_line` leaves it. -/
def requestLine (input : Bytes) : Chunk := getLine .sockClient commSize input

/-- The method `accept_request` extracts. -/
def requestMethod (input : Bytes) : Bytes := (scanRequestLine (requestLine input).line).1

/-- The part of the URL that the path is built from. -/
def requestTarget (input : Bytes) : Bytes :=
  target (requestMethod input) (scanRequestLine (requestLine input).line).2

/-- The URL it extracts. -/
def requestUrl (input : Bytes) : Bytes := (scanRequestLine (requestLine input).line).2

/-- The query string it hands on. -/
def requestQuery (input : Bytes) : Bytes := query (requestMethod input) (requestUrl input)

/-- The method is one that the server knows. -/
def Known (method : Bytes) : Prop := IsGet method ∨ IsPost method

instance (method : Bytes) : Decidable (Known method) := inferInstanceAs (Decidable (_ ∨ _))

/-- A program answers a request whose path is such a file. -/
def isProgram (input : Bytes) (st : Stat) : Bool :=
  asksForCgi (requestMethod input) (requestUrl input) || (!st.isDir && st.executable)

theorem requestLine_onlyRecv (input : Bytes) : OnlyRecv .sockClient (requestLine input).calls :=
  getLine_onlyRecv .sockClient commSize input

/-- The test on the result of `get_line` is dead. -/
theorem length_not_negative (line : Bytes) : ¬ (line.length : Int) < 0 := by
  omega

theorem not_isGet_and_isPost {method : Bytes} (hg : IsGet method) : ¬IsPost method := by
  intro hp
  rw [IsGet, strcasecmp_eq_zero] at hg
  rw [IsPost, strcasecmp_eq_zero, hg] at hp
  exact absurd hp (by decide)

theorem route_of_not_known {env : Env} {input : Bytes} (h : ¬Known (requestMethod input)) :
    route env (requestLine input).line = .refused :=
  if_pos (not_or.mp h)

/-- The route of a request that is not refused. -/
theorem route_of_known {env : Env} {input : Bytes} (h : Known (requestMethod input)) :
    route env (requestLine input).line =
      match env.stat (buildPath (requestTarget input)) with
      | none => .missing (buildPath (requestTarget input))
      | some st =>
          if isProgram input st then
            .cgi (buildPath (requestTarget input)) (servedPath st (buildPath (requestTarget input)))
              (requestMethod input) (requestQuery input)
          else
            .static (buildPath (requestTarget input))
              (servedPath st (buildPath (requestTarget input))) st.size :=
  if_neg fun hunknown => h.elim hunknown.1 hunknown.2

theorem splitTarget_eq (method url : Bytes) :
    splitTarget method url = (target method url, query method url, asksForCgi method url) := by
  unfold splitTarget target query asksForCgi
  cases hs : splitQuery url with
  | mk path q =>
      by_cases hg : IsGet method
      · have hp := not_isGet_and_isPost hg
        rw [if_pos (show strcasecmp method (bytes "GET") = 0 from hg), if_pos hg, if_pos hg]
        cases q with
        | none => simp [hg, hp, show strcasecmp method (bytes "POST") ≠ 0 from hp]
        | some q => simp [hg]
      · rw [if_neg (show ¬ strcasecmp method (bytes "GET") = 0 from hg), if_neg hg, if_neg hg]
        show (url, url, decide (IsPost method)) = _
        simp [hg]

theorem inspect_eq (st : Stat) (path : Bytes) (cgi : Bool) :
    inspect st path cgi = (servedPath st path, cgi || (!st.isDir && st.executable)) := by
  unfold inspect servedPath Stat.executable
  cases st.isDir with
  | true => simp
  | false => cases st.ixusr || st.ixgrp || st.ixoth <;> simp

/-- A handler reads the request line and answers its route. -/
theorem acceptRequest_eq (env : Env) (input : Bytes) :
    acceptRequest env input =
      (requestLine input).calls ++
        answer env (requestLine input).rest (route env (requestLine input).line) := by
  unfold acceptRequest route
  rw [← requestLine]
  generalize requestLine input = first
  rw [if_neg (length_not_negative _)]
  dsimp only
  generalize scanRequestLine first.line = request
  rw [splitTarget_eq]
  by_cases hm : ¬IsGet request.1 ∧ ¬IsPost request.1
  · exact (if_pos hm).trans (by rw [if_pos hm, answer])
  · refine (if_neg hm).trans ?_
    rw [if_neg hm]
    dsimp only
    cases env.stat (buildPath (target request.1 request.2)) with
    | none => simp [answer]
    | some st =>
        dsimp only
        rw [inspect_eq]
        dsimp only
        split
        next => simp [answer]
        next => simp [answer]

end Httpd
