import TinyHttpd.Httpd.Route

/-!
# Status lines

`echo_html` and `exe_cgi` send their `200` before the steps that can still fail,
and the branches that notice a failure send a line of their own behind it.  The
run of a handler is looked at through its events, of which every branch has a
short list.
-/

namespace Httpd

open CString

/-! ## Events -/

/-- What a run of a handler shows: a status line, other bytes for the client, a
file opened, a file sent, a program started. -/
inductive Event where
  | status (code : Bytes)
  | data
  | fileOpened
  | fileSent
  | programStarted
deriving DecidableEq, Repr

/-- The bytes are those of a status line. -/
def isStatusLine (data : Bytes) : Bool := (httpVersion ++ bytes " ").isPrefixOf data

/-- The three bytes behind the version. -/
def statusCode (data : Bytes) : Bytes := (data.drop (httpVersion.length + 1)).take 3

/-- The child has executed its program. -/
def ChildCall.starts : ChildCall → Bool
  | .execl _ ok => ok
  | _ => false

/-- The events of a call. -/
def Call.events : Call → List Event
  | .send _ data => if isStatusLine data then [.status (statusCode data)] else [.data]
  | .openFile _ true => [.fileOpened]
  | .sendfile _ _ _ (some _) => [.fileSent]
  | .fork (some child) => if child.any ChildCall.starts then [.programStarted] else []
  | _ => []

/-- The events of a run. -/
def events (calls : List Call) : List Event := calls.flatMap Call.events

@[simp] theorem events_nil : events [] = [] := rfl

@[simp] theorem events_cons (c : Call) (calls : List Call) :
    events (c :: calls) = c.events ++ events calls := rfl

@[simp] theorem events_append (a b : List Call) : events (a ++ b) = events a ++ events b :=
  List.flatMap_append

theorem OnlyRecv.events {sock : Fd} {calls : List Call} (h : OnlyRecv sock calls) :
    events calls = [] :=
  h.flatMap_eq_nil fun _ _ => rfl

/-- The code of a status line. -/
def Event.code : Event → Option Bytes
  | .status code => some code
  | _ => none

/-- The event sends bytes to the client. -/
def Event.sends : Event → Bool
  | .status _ => true
  | .data => true
  | .fileSent => true
  | _ => false

/-- One truthful status line in front of everything else that is sent. -/
structure Truthful (es : List Event) : Prop where
  one : (es.filterMap Event.code).length = 1
  first : ∀ e ∈ es.find? Event.sends, e.code.isSome = true
  honest : bytes "200" ∈ es.filterMap Event.code →
    (.fileOpened ∈ es ∧ .fileSent ∈ es) ∨ .programStarted ∈ es

theorem truthful_iff (es : List Event) :
    Truthful es ↔ (es.filterMap Event.code).length = 1 ∧
      (∀ e ∈ es.find? Event.sends, e.code.isSome = true) ∧
      (bytes "200" ∈ es.filterMap Event.code →
        (.fileOpened ∈ es ∧ .fileSent ∈ es) ∨ .programStarted ∈ es) :=
  ⟨fun h => ⟨h.one, h.first, h.honest⟩, fun h => ⟨h.1, h.2.1, h.2.2⟩⟩

instance (es : List Event) : Decidable (Truthful es) :=
  decidable_of_iff' _ (truthful_iff es)

/-! ## The events of each function -/

/-- The events of an error page. -/
def errorEvents (code : Bytes) : List Event := [.status code, .data, .data, .data]

theorem events_badRequest (sock : Fd) :
    events (echoErrorToClient sock 400) = errorEvents (bytes "400") := rfl

theorem events_notFound (sock : Fd) :
    events (echoErrorToClient sock 404) = errorEvents (bytes "404") := rfl

theorem events_serverError (sock : Fd) :
    events (echoErrorToClient sock 500) = errorEvents (bytes "500") := rfl

theorem events_relayBody (sock pipe : Fd) (n : Nat) (c : UInt8) (input : Bytes) :
    events (relayBody sock pipe n c input) = [] :=
  flatMap_relayBody_eq_nil (fun _ => rfl) (fun _ => rfl) n c input

/-- A program's output goes out byte by byte, so no part of it is a status line. -/
theorem events_relayOutput (pipe sock : Fd) :
    ∀ output : Bytes, events (relayOutput pipe sock output) = List.replicate output.length .data
  | [] => rfl
  | c :: output => by
      -- The version matches at most the one byte there is.
      have hbyte : isStatusLine [c] = false := Bool.and_false (72 == c)
      simp [relayOutput, Call.events, hbyte, events_relayOutput pipe sock output,
        List.replicate_succ]

theorem events_echoHtml (env : Env) (sock : Fd) (path : Bytes) (size : Nat) :
    events (echoHtml env sock path size) =
      match env.openFile path with
      | none => errorEvents (bytes "404")
      | some contents =>
          match env.sendfile contents (size % 2 ^ 32) with
          | none => .fileOpened :: .status (bytes "200") :: errorEvents (bytes "500")
          | some _ => [.fileOpened, .status (bytes "200"), .fileSent] := by
  rw [echoHtml]
  cases env.openFile path with
  | none => rfl
  | some contents =>
      dsimp only
      cases env.sendfile contents (size % 2 ^ 32) with
      | none => rfl
      | some sent => rfl

theorem starts_exeCgiChild (env : Env) (path method query : Bytes) (n : Int) :
    (exeCgiChild env path method query n).any ChildCall.starts = env.execl := by
  cases h : env.execl <;> simp [exeCgiChild, ChildCall.starts, h]

/-- `exe_cgi` behind the header: the `200` first, and then an error page or what
the child prints. -/
theorem events_runCgi (env : Env) (sock : Fd) (path method query : Bytes) (n : Int)
    (input : Bytes) :
    events (runCgi env sock path method query n input) = .status (bytes "200") ::
      if env.pipeInput && env.pipeOutput && env.fork then
        (if env.execl then [.programStarted] else []) ++
          List.replicate env.cgiOutput.length .data
      else errorEvents (bytes "500") := by
  rw [runCgi]
  rw [events_cons, show (Call.send sock (httpVersion ++ bytes " 200 OK\r\n\r\n")).events =
    [.status (bytes "200")] from rfl, List.singleton_append]
  cases env.pipeInput with
  | false => rfl
  | true =>
      cases env.pipeOutput with
      | false => rfl
      | true =>
          cases env.fork with
          | false => rfl
          | true =>
              simp [Call.events, events_relayBody, events_relayOutput, starts_exeCgiChild,
                apply_ite events]

/-- `exe_cgi`: the header shows nothing. -/
theorem events_exeCgi (env : Env) (sock : Fd) (path method query input : Bytes) :
    events (exeCgi env sock path method query input) =
      if IsGet method then
        events (runCgi env sock path method query 0 (clearHeader sock input).rest)
      else if (postHeader sock input).value = -1 then errorEvents (bytes "500")
      else
        events (runCgi env sock path method query (postHeader sock input).value
          (postHeader sock input).rest) := by
  rw [exeCgi]
  by_cases hg : IsGet method
  · rw [if_pos (show strcasecmp method (bytes "GET") = 0 from hg), if_pos hg]
    simp only [events_append, (clearHeader_onlyRecv sock input).events, List.nil_append]
  · rw [if_neg (show ¬ strcasecmp method (bytes "GET") = 0 from hg), if_neg hg]
    dsimp only
    split
    next =>
        rw [events_append, (postHeader_onlyRecv sock input).events, List.nil_append,
          events_serverError]
    next => rw [events_append, (postHeader_onlyRecv sock input).events, List.nil_append]

/-- A handler: what its route shows. -/
theorem events_acceptRequest (env : Env) (input : Bytes) :
    events (acceptRequest env input) =
      match route env (requestLine input).line with
      | .refused => errorEvents (bytes "400")
      | .missing _ => errorEvents (bytes "404")
      | .static _ file size => events (echoHtml env .sockClient file size)
      | .cgi _ file method query =>
          events (exeCgi env .sockClient file method query (requestLine input).rest) := by
  rw [acceptRequest_eq, events_append, (requestLine_onlyRecv input).events, List.nil_append]
  generalize (requestLine input).rest = rest
  have hclear := (clearHeader_onlyRecv .sockClient rest).events
  cases route env (requestLine input).line with
  | refused => rw [answer, events_badRequest]
  | missing path =>
      simp only [answer, List.cons_append, events_cons, events_append, hclear, events_notFound,
        Call.events, List.nil_append]
  | static path file size =>
      simp only [answer, List.cons_append, events_cons, events_append, hclear, events_nil,
        Call.events, List.nil_append, List.append_nil]
  | cgi path file method query =>
      simp only [answer, List.cons_append, events_cons, events_append, events_nil,
        Call.events, List.nil_append, List.append_nil]

/-! ## Truthful runs -/

/-- An error page is truthful. -/
theorem truthful_errorEvents {code : Bytes} (hcode : bytes "200" ≠ code) :
    Truthful (errorEvents code) where
  one := rfl
  first := by
    intro e he
    cases he
    rfl
  honest := fun h => absurd (List.mem_singleton.mp h) hcode

/-- A `200` followed by data is truthful when the program has started. -/
theorem truthful_data_iff (started : Bool) (k : Nat) :
    Truthful (.status (bytes "200") :: ((if started then [.programStarted] else []) ++
      List.replicate k .data)) ↔ started = true := by
  cases started with
  | false =>
      refine iff_of_false (fun h => ?_) (by simp)
      have honest := h.honest (List.mem_cons_self ..)
      simp at honest
  | true =>
      refine iff_of_true ⟨?_, ?_, ?_⟩ rfl
      · simp [Event.code]
      · intro e he
        cases he
        rfl
      · intro _
        exact Or.inr (by simp)

/-- Behind the header a CGI request is truthful when every step that can fail
succeeds, and only then. -/
theorem truthful_runCgi (env : Env) (sock : Fd) (path method query : Bytes) (n : Int)
    (input : Bytes) :
    Truthful (events (runCgi env sock path method query n input)) ↔
      (env.pipeInput && env.pipeOutput && env.fork) = true ∧ env.execl = true := by
  rw [events_runCgi]
  split
  next h => rw [truthful_data_iff, and_iff_right h]
  next h => exact iff_of_false (by decide) (fun hall => h hall.1)

/-- The steps behind a `200` succeed: a file that is opened is sent, and a program, called by
a GET or with an announced length, gets its pipes, its process and its image. -/
def StepsSucceed (env : Env) (input : Bytes) : Prop :=
  Known (requestMethod input) → ∀ st ∈ env.stat (buildPath (requestTarget input)),
    if isProgram input st then
      (IsGet (requestMethod input) ∨
        (postHeader .sockClient (requestLine input).rest).value ≠ -1) →
      (env.pipeInput && env.pipeOutput && env.fork) = true ∧ env.execl = true
    else
      ∀ contents,
        env.openFile (servedPath st (buildPath (requestTarget input))) = some contents →
          (env.sendfile contents (st.size % 2 ^ 32)).isSome

theorem truthful_echoHtml (env : Env) (sock : Fd) (path : Bytes) (size : Nat) :
    Truthful (events (echoHtml env sock path size)) ↔
      ∀ contents, env.openFile path = some contents →
        (env.sendfile contents (size % 2 ^ 32)).isSome := by
  rw [events_echoHtml]
  cases env.openFile path with
  | none => exact iff_of_true (truthful_errorEvents (by decide)) (fun _ h => nomatch h)
  | some contents =>
      have hall : (∀ c, some contents = some c → (env.sendfile c (size % 2 ^ 32)).isSome) ↔
          (env.sendfile contents (size % 2 ^ 32)).isSome :=
        ⟨fun h => h contents rfl, fun h c hc => Option.some.inj hc ▸ h⟩
      rw [hall]
      dsimp only
      cases env.sendfile contents (size % 2 ^ 32) with
      | none =>
          have htwo : ¬Truthful (.fileOpened :: .status (bytes "200") ::
              errorEvents (bytes "500")) := by decide
          exact iff_of_false htwo (fun h => nomatch h)
      | some sent =>
          have hone : Truthful [.fileOpened, .status (bytes "200"), .fileSent] := by decide
          exact iff_of_true hone rfl

theorem truthful_exeCgi (env : Env) (sock : Fd) (path method query input : Bytes) :
    Truthful (events (exeCgi env sock path method query input)) ↔
      ((IsGet method ∨ (postHeader sock input).value ≠ -1) →
        (env.pipeInput && env.pipeOutput && env.fork) = true ∧ env.execl = true) := by
  rw [events_exeCgi]
  by_cases hg : IsGet method
  · rw [if_pos hg, truthful_runCgi]
    simp [hg]
  · rw [if_neg hg]
    split
    next h => exact iff_of_true (truthful_errorEvents (by decide)) (by simp [hg, h])
    next h =>
        rw [truthful_runCgi]
        simp [h]

/-- A handler sends one truthful status line when the steps behind a `200`
succeed, and only then. -/
theorem acceptRequest_truthful_iff (env : Env) (input : Bytes) :
    Truthful (events (acceptRequest env input)) ↔ StepsSucceed env input := by
  rw [events_acceptRequest]
  by_cases hknown : Known (requestMethod input)
  · rw [route_of_known hknown, StepsSucceed, imp_iff_right hknown]
    cases env.stat (buildPath (requestTarget input)) with
    | none => exact iff_of_true (truthful_errorEvents (by decide)) nofun
    | some st =>
        simp only [Option.mem_def, Option.some.injEq, forall_eq']
        cases isProgram input st with
        | true => exact truthful_exeCgi env .sockClient _ _ _ _
        | false => exact truthful_echoHtml env .sockClient _ _
  · rw [route_of_not_known hknown]
    exact iff_of_true (truthful_errorEvents (by decide)) fun h => absurd h hknown

/-- A CGI program that cannot be executed is answered with a `200`. -/
theorem execl_fails_untruthful :
    ¬Truthful (events (acceptRequest { Env.obliging with execl := false }
      (bytes "GET /x?a HTTP/1.0\n\n"))) := by
  decide

end Httpd
