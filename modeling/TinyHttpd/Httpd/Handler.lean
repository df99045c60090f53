import TinyHttpd.Httpd.GetLine

/-!
# The request handler

`accept_request` and the functions it calls, each as the list of system calls it
makes in an environment.  What is printed on the server's own standard output is
left out.
-/

namespace Httpd

open CString

/-! ## Error pages -/

/-- A response of the server itself, line by line, as the four `send` calls of an
error page. -/
def errorPage (client : Fd) (status page : String) : List Call :=
  [.send client (bytes status), .send client (bytes "Content-type: text/html\r\n"),
    .send client (bytes "\r\n"), .send client (bytes page)]

def badRequest (client : Fd) : List Call :=
  errorPage client "HTTP/1.0 400 BAD REQUEST\r\n" "<h>400</h><p>Bad request！</p>"

def notFound (client : Fd) : List Call :=
  errorPage client "HTTP/1.0 404 NOT FOUND\r\n" "<h>404</h><p>Not find you request's file！</p>"

def serverError (client : Fd) : List Call :=
  errorPage client "HTTP/1.0 500 SERVER ERROR\r\n" "<h>500</h><p>Server inner error！</p>"

/-- `echo_error_to_client`.  Whatever it reports, it closes the socket. -/
def echoErrorToClient (client : Fd) (errorCode : Nat) : List Call :=
  (match errorCode with
    | 400 => badRequest client
    | 404 => notFound client
    | 500 => serverError client
    | _ => []) ++ [.close client]

/-! ## Static files -/

/-- `echo_html`.  The parameter `file_size` is an `unsigned int`. -/
def echoHtml (env : Env) (client : Fd) (path : Bytes) (fileSize : Nat) : List Call :=
  let fileSize := fileSize % 2 ^ 32
  match env.openFile path with
  | none => .openFile path false :: echoErrorToClient client 404
  | some contents =>
      let echoLine := httpVersion ++ bytes " 200" ++ bytes " OK" ++ bytes "\r\n\r\n"
      let sent := env.sendfile contents fileSize
      [.openFile path true, .send client echoLine, .sendfile client .inFd fileSize sent,
        .close .inFd] ++ if sent.isNone then echoErrorToClient client 500 else []

/-! ## CGI programs -/

/-- The child of `exe_cgi`, up to the program it executes. -/
def exeCgiChild (env : Env) (path method queryString : Bytes) (contentLength : Int) :
    List ChildCall :=
  let argument :=
    if strcasecmp (bytes "GET") method = 0 then bytes "QUERY_STRING=" ++ queryString
    else bytes "CONTENT_LENGTH=" ++ decimal contentLength
  [.close .cgiInput1, .close .cgiOutput0, .dup2 .cgiInput0 0, .dup2 .cgiOutput1 1,
    .putenv (bytes "REQUEST_METHOD=" ++ method), .putenv argument, .execl path env.execl] ++
    if env.execl then [] else [.exit 1]

/-- The loop that hands the body to the child, with the byte left in `c` by the
round before: a `recv` that fails leaves it there, and it is written again. -/
def relayBody (sock pipe : Fd) : Nat → UInt8 → Bytes → List Call
  | 0, _, _ => []
  | n + 1, c, [] => .recv sock false none :: .write pipe c :: relayBody sock pipe n c []
  | n + 1, _, b :: input =>
      .recv sock false (some b) :: .write pipe b :: relayBody sock pipe n b input

/-- The loop that hands the child's output to the client. -/
def relayOutput (pipe sock : Fd) : Bytes → List Call
  | [] => [.read pipe none]
  | c :: output => .read pipe (some c) :: .send sock [c] :: relayOutput pipe sock output

/-- `exe_cgi` after the header. -/
def runCgi (env : Env) (sock : Fd) (path method queryString : Bytes)
    (contentLength : Int) (input : Bytes) : List Call :=
  .send sock (httpVersion ++ bytes " 200 OK\r\n\r\n") ::
  if !env.pipeInput then
    .pipe .cgiInput0 .cgiInput1 false :: echoErrorToClient sock 500
  else if !env.pipeOutput then
    [.pipe .cgiInput0 .cgiInput1 true, .pipe .cgiOutput0 .cgiOutput1 false] ++
      echoErrorToClient sock 500 ++ [.close .cgiInput0, .close .cgiInput1]
  else if !env.fork then
    [.pipe .cgiInput0 .cgiInput1 true, .pipe .cgiOutput0 .cgiOutput1 true, .fork none,
      .close .cgiInput0, .close .cgiInput1, .close .cgiOutput0, .close .cgiOutput1] ++
      echoErrorToClient sock 500
  else
    let child := exeCgiChild env path method queryString contentLength
    [.pipe .cgiInput0 .cgiInput1 true, .pipe .cgiOutput0 .cgiOutput1 true, .fork (some child),
      .close .cgiInput0, .close .cgiOutput1] ++
      (if strcasecmp (bytes "POST") method = 0 then
        relayBody sock .cgiInput1 contentLength.toNat 0 input else []) ++
      relayOutput .cgiOutput0 sock env.cgiOutput ++
      [.close .cgiInput1, .close .cgiOutput0, .waitpid]

/-- `exe_cgi`. -/
def exeCgi (env : Env) (sock : Fd) (path method queryString : Bytes) (input : Bytes) :
    List Call :=
  if strcasecmp method (bytes "GET") = 0 then
    let header := clearHeader sock input
    header.calls ++ runCgi env sock path method queryString 0 header.rest
  else
    let header := postHeader sock input
    if header.value = -1 then header.calls ++ echoErrorToClient sock 500
    else header.calls ++ runCgi env sock path method queryString header.value header.rest

/-! ## The request line -/

/-- The copying loops of `accept_request`: up to `room` bytes, no white space,
and nothing past the end of the buffer. -/
def copyWord : Nat → Bytes → Bytes × Bytes
  | 0, buffer => ([], buffer)
  | _ + 1, [] => ([], [])
  | room + 1, c :: buffer =>
      if isspace c then ([], c :: buffer)
      else
        let (word, rest) := copyWord room buffer
        (c :: word, rest)

/-- The method and the URL of a request line in the zeroed buffer, as the C
strings the zeroed arrays `method` and `url` end up with. -/
def scanRequestLine (line : Bytes) : Bytes × Bytes :=
  let buffer := line ++ List.replicate (commSize - line.length) 0
  let (method, rest) := copyWord (commSize / 10 - 1) buffer
  let (url, _) := copyWord (commSize - 1) (rest.dropWhile isspace)
  (cstr method, cstr url)

/-- The URL before its first `?`, and what follows the `?` when there is one. -/
def splitQuery : Bytes → Bytes × Option Bytes
  | [] => ([], none)
  | c :: url =>
      if c = 63 then ([], some url)
      else
        let (u, query) := splitQuery url
        (c :: u, query)

/-- The URL, the query string and `cgi`, once the `?` of a GET has been looked
for.  For a POST `query_string` stays at the start of the URL. -/
def splitTarget (method url : Bytes) : Bytes × Bytes × Bool :=
  let cgi := decide (strcasecmp method (bytes "POST") = 0)
  if strcasecmp method (bytes "GET") = 0 then
    match splitQuery url with
    | (url, none) => (url, [], cgi)
    | (url, some query) => (url, query, true)
  else (url, url, cgi)

/-- The path before `stat`.  The main page is appended behind a backslash. -/
def buildPath (url : Bytes) : Bytes :=
  let path := bytes "htdocs" ++ url
  if path.getLast? = some 92 then path ++ mainPage else path

/-- The path and `cgi` once the file has been looked at. -/
def inspect (st : Stat) (path : Bytes) (cgi : Bool) : Bytes × Bool :=
  if st.isDir then (path ++ bytes "/" ++ mainPage, cgi)
  else if st.ixusr || st.ixgrp || st.ixoth then (path, true)
  else (path, cgi)

/-- `accept_request` on a client that sends `input`. -/
def acceptRequest (env : Env) (input : Bytes) : List Call :=
  let first := getLine .sockClient commSize input
  -- `get_line` returns a length, so this test never holds.
  if (first.line.length : Int) < 0 then first.calls ++ echoErrorToClient .sockClient 500
  else
    let request := scanRequestLine first.line
    let method := request.1
    if strcasecmp method (bytes "GET") ≠ 0 ∧ strcasecmp method (bytes "POST") ≠ 0 then
      first.calls ++ echoErrorToClient .sockClient 400
    else
      let target := splitTarget method request.2
      let path := buildPath target.1
      match env.stat path with
      | none =>
          first.calls ++ [.stat path false] ++ (clearHeader .sockClient first.rest).calls ++
            echoErrorToClient .sockClient 404
      | some st =>
          let file := inspect st path target.2.2
          first.calls ++ [.stat path true] ++
            (if file.2 then exeCgi env .sockClient file.1 method target.2.1 first.rest
            else
              (clearHeader .sockClient first.rest).calls ++
                echoHtml env .sockClient file.1 st.size) ++
            [.close .sockClient]

/-! ## The calls of the loops -/

theorem mem_relayBody {sock pipe : Fd} {call : Call} :
    ∀ {n : Nat} {c : UInt8} {input : Bytes}, call ∈ relayBody sock pipe n c input →
      (∃ got, call = .recv sock false got) ∨ ∃ b, call = .write pipe b
  | 0, _, _, h => absurd h List.not_mem_nil
  | n + 1, c, [], h => by
      rcases List.mem_cons.mp h with rfl | h
      · exact .inl ⟨none, rfl⟩
      · rcases List.mem_cons.mp h with rfl | h
        · exact .inr ⟨c, rfl⟩
        · exact mem_relayBody h
  | n + 1, _, b :: input, h => by
      rcases List.mem_cons.mp h with rfl | h
      · exact .inl ⟨some b, rfl⟩
      · rcases List.mem_cons.mp h with rfl | h
        · exact .inr ⟨b, rfl⟩
        · exact mem_relayBody h

theorem mem_relayOutput {pipe sock : Fd} {call : Call} :
    ∀ {output : Bytes}, call ∈ relayOutput pipe sock output →
      (∃ got, call = .read pipe got) ∨ ∃ c, call = .send sock [c]
  | [], h => .inl ⟨none, List.mem_singleton.mp h⟩
  | c :: output, h => by
      rcases List.mem_cons.mp h with rfl | h
      · exact .inl ⟨some c, rfl⟩
      · rcases List.mem_cons.mp h with rfl | h
        · exact .inr ⟨c, rfl⟩
        · exact mem_relayOutput h

/-- A projection that sees no `recv` and no `write` sees nothing of the body loop. -/
theorem flatMap_relayBody_eq_nil {β : Type} {f : Call → List β} {sock pipe : Fd}
    (hrecv : ∀ got, f (.recv sock false got) = []) (hwrite : ∀ b, f (.write pipe b) = [])
    (n : Nat) (c : UInt8) (input : Bytes) : (relayBody sock pipe n c input).flatMap f = [] := by
  refine List.flatMap_eq_nil_iff.mpr fun call hcall => ?_
  rcases mem_relayBody hcall with ⟨got, rfl⟩ | ⟨b, rfl⟩
  · exact hrecv got
  · exact hwrite b

/-- One that sees no `read` and no `send` sees nothing of the output loop. -/
theorem flatMap_relayOutput_eq_nil {β : Type} {f : Call → List β} {pipe sock : Fd}
    (hread : ∀ got, f (.read pipe got) = []) (hsend : ∀ c, f (.send sock [c]) = [])
    (output : Bytes) : (relayOutput pipe sock output).flatMap f = [] := by
  refine List.flatMap_eq_nil_iff.mpr fun call hcall => ?_
  rcases mem_relayOutput hcall with ⟨got, rfl⟩ | ⟨c, rfl⟩
  · exact hread got
  · exact hsend c

end Httpd
