import TinyHttpd.Cgi.PostData
import TinyHttpd.Httpd.Buffers
import TinyHttpd.Httpd.Execution
import TinyHttpd.Lib.Environ

/-!
# What a program learns of its request

The handler tells a program about its request in the environment and on standard input.  Each
`main` looks at the method first, then at the query string or at the length of the body, and
goes to work with what it has found there.

Every program but `debug_cgi` finds what the handler has put there, whatever else is in the
server's own environment (`main_gets_request`).  `debug_cgi` asks for the method by a name
that nobody sets.
-/

namespace Cgi

open CString Httpd

/-! ## The programs -/

/-- The programs in `cgi_bin`. -/
inductive Program where
  | addGodCgi
  | addGodShowCgi
  | addGodTypeCgi
  | changeGodCgi
  | debugCgi
  | delGodCgi
  | findGodCgi
  | godListCgi
  | mathCgi
deriving DecidableEq

/-- What `main` does for a method. -/
inductive Branch where
  /-- `return 1`. -/
  | refuse
  /-- It asks for nothing else. -/
  | page
  /-- It copies the query string. -/
  | query
  /-- It reads a body of the announced length. -/
  | body
deriving DecidableEq

/-- The variable that is copied into `method`. -/
def Program.methodVariable : Program → Bytes
  | .debugCgi => bytes "REUEST_METHOD"
  | _ => bytes "REQUEST_METHOD"

/-- The branch for `GET`. -/
def Program.get : Program → Branch
  | .addGodCgi => .refuse
  | .addGodShowCgi => .page
  | .addGodTypeCgi => .refuse
  | .changeGodCgi => .query
  | .debugCgi => .query
  | .delGodCgi => .query
  | .findGodCgi => .page
  | .godListCgi => .page
  | .mathCgi => .query

/-- The branch for `POST`. -/
def Program.post : Program → Branch
  | .addGodCgi => .body
  | .addGodShowCgi => .refuse
  | .addGodTypeCgi => .body
  | .changeGodCgi => .body
  | .debugCgi => .body
  | .delGodCgi => .refuse
  | .findGodCgi => .refuse
  | .godListCgi => .body
  | .mathCgi => .body

/-- What `main` goes to work with. -/
inductive Input where
  | refused
  | page
  | query (queryString : Bytes)
  | body (contentLength : Int)
deriving DecidableEq

/-- The ways in which `main` has no meaning before that. -/
inductive MainFault where
  | nullPointer
  | overrun
deriving DecidableEq

/-- `strcpy` of a variable into an array of 1024 bytes. -/
def copied (environ : List Bytes) (name : Bytes) : Except MainFault Bytes :=
  match Environ.get environ name with
  | none => .error .nullPointer
  | some value => if value.length < 1024 then .ok value else .error .overrun

/-- `atoi` of a variable. -/
def number (environ : List Bytes) (name : Bytes) : Except MainFault Int :=
  match Environ.get environ name with
  | none => .error .nullPointer
  | some value => .ok (atoi value)

def Branch.read (environ : List Bytes) : Branch → Except MainFault Input
  | .refuse => .ok .refused
  | .page => .ok .page
  | .query => (copied environ (bytes "QUERY_STRING")).map .query
  | .body => (number environ (bytes "CONTENT_LENGTH")).map .body

/-- `main`, up to its work. -/
def Program.main (p : Program) (environ : List Bytes) : Except MainFault Input := do
  let method ← copied environ p.methodVariable
  if strcasecmp (bytes "GET") method = 0 then p.get.read environ
  else if strcasecmp (bytes "POST") method = 0 then p.post.read environ
  else return .refused

/-! ## The programs that are started -/

/-- The paths for which `execl` succeeds in a child. -/
def ChildCall.starts : ChildCall → List Bytes
  | .execl path true => [path]
  | _ => []

def Call.starts : Call → List Bytes
  | .fork (some child) => child.flatMap ChildCall.starts
  | _ => []

/-- The programs that a run starts. -/
def started (calls : List Call) : List Bytes := calls.flatMap Call.starts

theorem fileView_starts : FileView Call.starts :=
  ⟨fun _ _ _ => rfl, fun _ _ => rfl, fun _ _ _ _ => rfl, fun _ _ _ => rfl, rfl, fun _ _ => rfl,
    fun _ _ => rfl, fun _ => rfl, rfl⟩

theorem starts_exeCgiChild (env : Env) (path method query : Bytes) (n : Int) :
    (exeCgiChild env path method query n).flatMap ChildCall.starts =
      if env.execl then [path] else [] := by
  cases hexecl : env.execl with
  | true => simp [exeCgiChild, ChildCall.starts, hexecl]
  | false => simp [exeCgiChild, ChildCall.starts, hexecl]

/-- What is handed to `execl` is started when it succeeds. -/
theorem started_acceptRequest (env : Env) (input : Bytes) :
    started (acceptRequest env input) =
      if env.execl then executed (acceptRequest env input) else [] := by
  rw [started, executed, fileView_starts.acceptRequest, fileView_executes.acceptRequest]
  cases route env (requestLine input).line with
  | cgi found path method query =>
      by_cases hforks : Forks env .sockClient method (requestLine input).rest
      · simp only [if_pos hforks, Call.starts, Call.executes, starts_exeCgiChild,
          paths_exeCgiChild]
        rfl
      · simp only [if_neg hforks, Call.starts, Call.executes, List.append_nil, ite_self]
  | _ => simp only [Call.starts, Call.executes, List.append_nil, ite_self]

/-! ## The environment of the child -/

/-- The environment that the program of a run gets from a server with that environment. -/
def childEnviron (inherited : List Bytes) (calls : List Call) : List Bytes :=
  Environ.putAll inherited (calls.flatMap Call.entries)

/-- The length that a POST announces. -/
def requestLength (input : Bytes) : Int := (postHeader .sockClient (requestLine input).rest).value

theorem entries_exeCgiChild (env : Env) (path method query : Bytes) (n : Int) :
    (exeCgiChild env path method query n).flatMap ChildCall.entry =
      [bytes "REQUEST_METHOD=" ++ method, if IsGet method then bytes "QUERY_STRING=" ++ query
        else bytes "CONTENT_LENGTH=" ++ decimal n] := by
  have hexit : (if env.execl then [] else [ChildCall.exit 1]).flatMap ChildCall.entry = [] := by
    split <;> rfl
  simp [exeCgiChild, ChildCall.entry, hexit, get_strcasecmp_iff]

/-- A run that executes a program has been through `exe_cgi`. -/
theorem route_of_executed {env : Env} {input path : Bytes}
    (h : path ∈ executed (acceptRequest env input)) :
    Forks env .sockClient (requestMethod input) (requestLine input).rest ∧
      ∃ found, route env (requestLine input).line =
        .cgi found path (requestMethod input) (requestQuery input) := by
  obtain ⟨hknown, hforks, st, hstat, rfl, hprogram⟩ := (mem_executed_iff env input path).mp h
  refine ⟨hforks, buildPath (requestTarget input), ?_⟩
  rw [route_of_known hknown, hstat]
  exact if_pos ((isProgram_iff input st).mpr hprogram)

/-- The variables that are set for the program of a run. -/
theorem entries_of_executed {env : Env} {input path : Bytes}
    (h : path ∈ executed (acceptRequest env input)) :
    (acceptRequest env input).flatMap Call.entries =
      [bytes "REQUEST_METHOD=" ++ requestMethod input,
        if IsGet (requestMethod input) then bytes "QUERY_STRING=" ++ requestQuery input
        else bytes "CONTENT_LENGTH=" ++ decimal (requestLength input)] := by
  obtain ⟨hforks, found, hroute⟩ := route_of_executed h
  rw [fileView_entries.acceptRequest, hroute]
  dsimp only
  rw [if_pos hforks]
  show [] ++ (exeCgiChild _ _ _ _ _).flatMap ChildCall.entry = _
  rw [List.nil_append, entries_exeCgiChild, announcedLength, requestLength]
  split
  next => rfl
  next => rfl

/-- What the program finds in its environment. -/
theorem childEnviron_of_executed {env : Env} {input path : Bytes} (inherited : List Bytes)
    (h : path ∈ executed (acceptRequest env input)) :
    Environ.get (childEnviron inherited (acceptRequest env input)) (bytes "REQUEST_METHOD") =
        some (requestMethod input) ∧
      (IsGet (requestMethod input) →
        Environ.get (childEnviron inherited (acceptRequest env input)) (bytes "QUERY_STRING") =
          some (requestQuery input)) ∧
      (IsPost (requestMethod input) →
        Environ.get (childEnviron inherited (acceptRequest env input)) (bytes "CONTENT_LENGTH") =
          some (decimal (requestLength input))) ∧
      Environ.get (childEnviron inherited (acceptRequest env input)) (bytes "REUEST_METHOD") =
        Environ.get inherited (bytes "REUEST_METHOD") := by
  have hplain : Environ.equals ∉ bytes "REQUEST_METHOD" ∧ Environ.equals ∉ bytes "QUERY_STRING" ∧
      Environ.equals ∉ bytes "CONTENT_LENGTH" ∧ Environ.equals ∉ bytes "REUEST_METHOD" := by
    decide
  have hnames : bytes "REQUEST_METHOD" ≠ bytes "QUERY_STRING" ∧
      bytes "REQUEST_METHOD" ≠ bytes "CONTENT_LENGTH" ∧
      bytes "REUEST_METHOD" ≠ bytes "REQUEST_METHOD" ∧
      bytes "REUEST_METHOD" ≠ bytes "QUERY_STRING" ∧
      bytes "REUEST_METHOD" ≠ bytes "CONTENT_LENGTH" := by decide
  have hentries : ∀ v, bytes "REQUEST_METHOD=" ++ v =
      bytes "REQUEST_METHOD" ++ Environ.equals :: v ∧
      bytes "QUERY_STRING=" ++ v = bytes "QUERY_STRING" ++ Environ.equals :: v ∧
      bytes "CONTENT_LENGTH=" ++ v = bytes "CONTENT_LENGTH" ++ Environ.equals :: v :=
    fun v => ⟨rfl, rfl, rfl⟩
  obtain ⟨hmethod, hquery, hlength, hslip⟩ := hplain
  obtain ⟨hmethodQuery, hmethodLength, hslipMethod, hslipQuery, hslipLength⟩ := hnames
  rw [childEnviron, entries_of_executed h, (hentries _).1]
  by_cases hget : IsGet (requestMethod input)
  · rw [if_pos hget, (hentries _).2.1]
    obtain ⟨hfirst, hsecond, hothers⟩ := Environ.get_putAll_pair hmethod hquery hmethodQuery
      (requestMethod input) (requestQuery input) inherited
    exact ⟨hfirst, fun _ => hsecond, fun hpost => absurd hpost (not_isGet_and_isPost hget),
      hothers _ hslip hslipMethod hslipQuery⟩
  · rw [if_neg hget, (hentries _).2.2]
    obtain ⟨hfirst, hsecond, hothers⟩ := Environ.get_putAll_pair hmethod hlength hmethodLength
      (requestMethod input) (decimal (requestLength input)) inherited
    exact ⟨hfirst, fun h => absurd h hget, fun _ => hsecond,
      hothers _ hslip hslipMethod hslipLength⟩

/-! ## The standard input of the child -/

theorem fed_runCgi_of_get {method : Bytes} (hget : IsGet method) (env : Env) (sock : Fd)
    (path query : Bytes) (n : Int) (body : Bytes) :
    fed (runCgi env sock path method query n body) = [] := by
  have hloop : ¬strcasecmp (bytes "POST") method = 0 := by
    rw [IsGet, strcasecmp_eq_zero] at hget
    rw [strcasecmp_eq_zero, hget]
    decide
  rw [runCgi, if_neg hloop]
  cases hin : env.pipeInput with
  | false => simp [echoErrorToClient, serverError, errorPage, Call.feeds]
  | true =>
      cases hout : env.pipeOutput with
      | false => simp [echoErrorToClient, serverError, errorPage, Call.feeds]
      | true =>
          cases hfork : env.fork with
          | false => simp [echoErrorToClient, serverError, errorPage, Call.feeds]
          | true => simp [Call.feeds, fed_relayOutput]

/-- What a run that executes a program writes to it: nothing for a GET, and for a POST the
announced number of bytes. -/
theorem fed_of_executed {env : Env} {input path : Bytes}
    (h : path ∈ executed (acceptRequest env input)) :
    (IsGet (requestMethod input) → fed (acceptRequest env input) = []) ∧
      (IsPost (requestMethod input) → fed (acceptRequest env input) =
        fed (relayBody .sockClient .cgiInput1 (requestLength input).toNat 0
          (postHeader .sockClient (requestLine input).rest).rest)) := by
  obtain ⟨⟨hforks, hvalue⟩, found, hroute⟩ := route_of_executed h
  have hcalls : fed (acceptRequest env input) = fed (exeCgi env .sockClient path
      (requestMethod input) (requestQuery input) (requestLine input).rest) := by
    rw [acceptRequest_eq, hroute, answer]
    simp [(requestLine_onlyRecv input).fed, Call.feeds]
  rw [hcalls]
  constructor
  · intro hget
    rw [exeCgi, if_pos (show strcasecmp (requestMethod input) (bytes "GET") = 0 from hget)]
    dsimp only
    rw [fed_append, (clearHeader_onlyRecv _ _).fed, List.nil_append, fed_runCgi_of_get hget]
  · intro hpost
    have hnotGet : ¬IsGet (requestMethod input) := fun hget => not_isGet_and_isPost hget hpost
    rw [exeCgi, if_neg (show ¬strcasecmp (requestMethod input) (bytes "GET") = 0 from hnotGet)]
    dsimp only
    rw [if_neg (hvalue.resolve_left hnotGet), fed_append, (postHeader_onlyRecv _ _).fed,
      List.nil_append, (fed_runCgi env _ _ _ _ _ _ hpost).1, if_pos hforks, requestLength]

/-! ## What the programs go to work with -/

/-- What a branch gets when the handler has passed on that query string and that length. -/
def Branch.input (queryString : Bytes) (contentLength : Int) : Branch → Input
  | .refuse => .refused
  | .page => .page
  | .query => .query queryString
  | .body => .body contentLength

theorem copied_of_get {environ : List Bytes} {name value : Bytes}
    (h : Environ.get environ name = some value) (hfits : value.length < 1024) :
    copied environ name = .ok value := by
  rw [copied, h]
  exact if_pos hfits

theorem number_of_get {environ : List Bytes} {name : Bytes} {n : Int}
    (h : Environ.get environ name = some (decimal n)) (hn : IsInt n) :
    number environ name = .ok n := by
  rw [number, h]
  exact congrArg Except.ok (atoi_decimal hn)

/-- No program reads a body for a GET, or a query string for a POST. -/
theorem branches (p : Program) : p.get ≠ .body ∧ p.post ≠ .query := by
  cases p <;> decide

/-- Every program but one finds what it asks for. -/
theorem main_of_executed {env : Env} {input path : Bytes}
    (hpath : path ∈ executed (acceptRequest env input)) (hfits : PartsFit env input)
    (inherited : List Bytes) {p : Program} (hp : p ≠ .debugCgi) :
    p.main (childEnviron inherited (acceptRequest env input)) =
      .ok ((if IsGet (requestMethod input) then p.get else p.post).input (requestQuery input)
        (requestLength input)) := by
  obtain ⟨hmethod, hquery, hlength, -⟩ := childEnviron_of_executed inherited hpath
  obtain ⟨hknown, hforks, st, hstat, -, hprogram⟩ := (mem_executed_iff env input path).mp hpath
  have hshort := length_requestMethod_le input
  have hvariable : p.methodVariable = bytes "REQUEST_METHOD" := by
    cases p with
    | debugCgi => exact absurd rfl hp
    | _ => rfl
  rw [Program.main, hvariable, copied_of_get hmethod (by omega)]
  show (if strcasecmp (bytes "GET") (requestMethod input) = 0 then p.get.read _
    else if strcasecmp (bytes "POST") (requestMethod input) = 0 then p.post.read _
    else _) = _
  by_cases hget : IsGet (requestMethod input)
  · rw [if_pos ((get_strcasecmp_iff _).mpr hget), if_pos hget]
    cases hbranch : p.get with
    | refuse => rfl
    | page => rfl
    | query =>
        have hroom : (requestQuery input).length ≤ 1010 := by
          refine hfits.query hget hforks.1 ?_
          rw [hstat, Option.any_some]
          exact (isProgram_iff input st).mpr hprogram
        rw [Branch.read, copied_of_get (hquery hget) (by omega)]
        rfl
    | body => exact absurd hbranch (branches p).1
  · have hpost := hknown.resolve_left hget
    have hloop : strcasecmp (bytes "POST") (requestMethod input) = 0 := by
      rw [IsPost, strcasecmp_eq_zero] at hpost
      rw [strcasecmp_eq_zero, hpost]
    rw [if_neg fun h => hget ((get_strcasecmp_iff _).mp h), if_pos hloop, if_neg hget]
    cases hbranch : p.post with
    | refuse => rfl
    | page => rfl
    | query => exact absurd hbranch (branches p).2
    | body =>
        rw [Branch.read, number_of_get (hlength hpost) (isInt_postHeader _ _)]
        rfl

/-- For every request that starts a program, whatever the server's own environment, every
program but `debug_cgi` finds the variables it asks for, has room for them, and goes to work
with the query string of this request or with its announced length, and then as many bytes are
on its standard input.  `debug_cgi` finds nothing, unless the server has been started with a
variable of that name. -/
theorem main_gets_request {env : Env} {input path : Bytes}
    (hpath : path ∈ executed (acceptRequest env input)) (hfits : PartsFit env input)
    (inherited : List Bytes) :
    (∀ p ≠ Program.debugCgi,
      p.main (childEnviron inherited (acceptRequest env input)) =
        .ok ((if IsGet (requestMethod input) then p.get else p.post).input (requestQuery input)
          (requestLength input))) ∧
      (fed (acceptRequest env input)).length =
        (if IsGet (requestMethod input) then 0 else (requestLength input).toNat) ∧
      (Environ.get inherited (bytes "REUEST_METHOD") = none →
        Program.debugCgi.main (childEnviron inherited (acceptRequest env input)) =
          .error .nullPointer) := by
  refine ⟨fun p hp => main_of_executed hpath hfits inherited hp, ?_, fun hnone => ?_⟩
  · obtain ⟨hknown, -⟩ := (mem_executed_iff env input path).mp hpath
    obtain ⟨hnone, hbody⟩ := fed_of_executed hpath
    by_cases hget : IsGet (requestMethod input)
    · rw [if_pos hget, hnone hget]
      rfl
    · rw [if_neg hget, hbody (hknown.resolve_left hget), fed_relayBody, List.length_append,
        List.length_take, List.length_replicate]
      omega
  · obtain ⟨-, -, -, hslip⟩ := childEnviron_of_executed inherited hpath
    have hmissing : copied (childEnviron inherited (acceptRequest env input))
        (bytes "REUEST_METHOD") = .error .nullPointer := by
      rw [copied, hslip, hnone]
    show (do let method ← copied _ (bytes "REUEST_METHOD"); _) = _
    rw [hmissing]
    rfl

theorem main_gets_request_sum :
    let sum := acceptRequest .obliging (bytes "GET /cgi_bin/math_cgi?data1=1&data2=2 HTTP/1.0\n\n")
    Program.mathCgi.main (childEnviron [bytes "HOME=/root"] sum) =
        .ok (.query (bytes "data1=1&data2=2")) ∧
      Program.addGodCgi.main (childEnviron [bytes "HOME=/root"] sum) = .ok .refused ∧
      fed sum = [] ∧
      Program.debugCgi.main (childEnviron [bytes "HOME=/root"] sum) = .error .nullPointer := by
  have hpath : bytes "htdocs/cgi_bin/math_cgi" ∈ executed (acceptRequest .obliging
      (bytes "GET /cgi_bin/math_cgi?data1=1&data2=2 HTTP/1.0\n\n")) := by decide
  have hfits : PartsFit .obliging
      (bytes "GET /cgi_bin/math_cgi?data1=1&data2=2 HTTP/1.0\n\n") :=
    ⟨fun _ => by decide, fun _ => by decide, fun _ => by decide,
      fun _ => by decide⟩
  have hrequest : IsGet (requestMethod
        (bytes "GET /cgi_bin/math_cgi?data1=1&data2=2 HTTP/1.0\n\n")) ∧
      requestQuery (bytes "GET /cgi_bin/math_cgi?data1=1&data2=2 HTTP/1.0\n\n") =
        bytes "data1=1&data2=2" := by decide
  obtain ⟨hprograms, hfed, hdebug⟩ := main_gets_request hpath hfits [bytes "HOME=/root"]
  rw [if_pos hrequest.1] at hfed
  refine ⟨?_, ?_, List.eq_nil_of_length_eq_zero hfed, hdebug (by decide)⟩
  · rw [hprograms .mathCgi (by decide), if_pos hrequest.1, hrequest.2]
    rfl
  · rw [hprograms .addGodCgi (by decide), if_pos hrequest.1]
    rfl

end Cgi
