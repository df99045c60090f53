import TinyHttpd.Lib.CString

/-!
# The handler's view of the system

A handler talks to the world through system calls only.  `Env` says how the
calls of one handler turn out: what `stat` and `open` find, and which of
`sendfile`, `pipe`, `fork` and `execl` fail.  The client's bytes are an input of
their own, since the loops of the handler recurse over them; a `recv` past their
end returns 0 or -1, which the code does not tell apart.

A function of the handler is modelled by the list of calls it makes, in order.
Descriptors appear in a call under the name of the variable that holds them, so
the list does not depend on the numbers the kernel hands out.
-/

namespace Httpd

open CString

/-- `_COMM_SIZE_`. -/
def commSize : Nat := 1024

/-- `MAIN_PAGE`. -/
def mainPage : Bytes := bytes "index.html"

/-- `HTTP_VERSION`. -/
def httpVersion : Bytes := bytes "HTTP/1.0"

/-- The variables of a handler that hold descriptors. -/
inductive Fd where
  | sockClient
  | inFd
  | cgiInput0
  | cgiInput1
  | cgiOutput0
  | cgiOutput1
deriving DecidableEq, Repr

/-- The calls the child makes between `fork` and the CGI program. -/
inductive ChildCall where
  | close (fd : Fd)
  | dup2 (fd : Fd) (newFd : Nat)
  | putenv (entry : Bytes)
  | execl (path : Bytes) (ok : Bool)
  | exit (code : Nat)
deriving DecidableEq, Repr

/-- The calls of a handler, each with the result the handler sees. -/
inductive Call where
  | recv (fd : Fd) (peek : Bool) (got : Option UInt8)
  | send (fd : Fd) (data : Bytes)
  | stat (path : Bytes) (found : Bool)
  | openFile (path : Bytes) (ok : Bool)
  | sendfile (out inp : Fd) (count : Nat) (sent : Option Bytes)
  | pipe (read write : Fd) (ok : Bool)
  | fork (child : Option (List ChildCall))
  | write (fd : Fd) (c : UInt8)
  | read (fd : Fd) (got : Option UInt8)
  | close (fd : Fd)
  | waitpid
deriving DecidableEq, Repr

/-- The fields of `struct stat` the handler looks at: `S_ISDIR`, the three
execute bits and `st_size`. -/
structure Stat where
  isDir : Bool
  ixusr : Bool
  ixgrp : Bool
  ixoth : Bool
  size : Nat
deriving DecidableEq, Repr

/-- How the calls of one handler turn out. -/
structure Env where
  /-- `stat`, `none` for -1. -/
  stat : Bytes → Option Stat
  /-- The contents of the file `open` finds, `none` for -1. -/
  openFile : Bytes → Option Bytes
  /-- What `sendfile` transmits of a file for a byte count, `none` for -1. -/
  sendfile : Bytes → Nat → Option Bytes
  /-- Whether `pipe(cgi_input)` succeeds. -/
  pipeInput : Bool
  /-- Whether `pipe(cgi_output)` succeeds. -/
  pipeOutput : Bool
  /-- Whether `fork` succeeds. -/
  fork : Bool
  /-- Whether `execl` succeeds in the child. -/
  execl : Bool
  /-- The bytes read from the CGI program before end of file. -/
  cgiOutput : Bytes

/-- A system on which every call succeeds, every path is the same short file
without execute bits, and a program prints nothing. -/
def Env.obliging : Env where
  stat _ := some ⟨false, false, false, false, 5⟩
  openFile _ := some (bytes "hello")
  sendfile contents count := some (contents.take count)
  pipeInput := true
  pipeOutput := true
  fork := true
  execl := true
  cgiOutput := []

end Httpd
