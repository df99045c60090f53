import TinyHttpd.Httpd.Handler
import TinyHttpd.Lib.Run

/-!
# The handler and its CGI program over two pipes

`exe_cgi` behind its `fork`: the parent hands `content_length` bytes of the body to
the child, then reads the child's output to its end, and only then closes the write
end of the input pipe.  Both pipes hold `capacity` bytes.  The state keeps who has
which end open, since that decides whether an empty pipe is at its end and whether a
write has a reader.

The program is a list of operations on its standard input and output.
-/

namespace Relay

open CString Httpd Machine

/-- An operation of a CGI program: read a byte, read to the end of file, write a
byte. -/
inductive Op where
  | read
  | readAll
  | write (c : UInt8)
deriving DecidableEq, Repr

/-- The bytes a program writes. -/
def outputOf : List Op → Bytes
  | [] => []
  | .read :: ops => outputOf ops
  | .readAll :: ops => outputOf ops
  | .write c :: ops => c :: outputOf ops

/-- The parent's next call.  `left` is what remains of `content_length`, and `c` the
variable of both loops. -/
inductive Parent where
  | closeInput0
  | closeOutput1
  | recvBody (left : Nat) (c : UInt8)
  | writeBody (left : Nat) (c : UInt8)
  | readOutput
  | sendOutput (c : UInt8)
  | closeInput1
  | closeOutput0
  | waitpid
  | returned
  | killed
deriving DecidableEq, Repr

/-- The child's next call: the two closes, the redirection with `execl`, and the
program. -/
inductive Child where
  | closeInput1 (ops : List Op)
  | closeOutput0 (ops : List Op)
  | exec (ops : List Op)
  | running (ops : List Op)
  | exited
deriving DecidableEq, Repr

structure State where
  parent : Parent
  child : Child
  /-- The bytes in the pipe `cgi_input`, oldest first. -/
  input : Bytes
  /-- The bytes in the pipe `cgi_output`, oldest first. -/
  output : Bytes
  /-- What the client still sends. -/
  body : Bytes
  /-- The calls the parent has made. -/
  calls : List Call
deriving DecidableEq

/-- Behind the `fork`. -/
def start (ops : List Op) (body : Bytes) : State :=
  ⟨.closeInput0, .closeInput1 ops, [], [], body, []⟩

/-! ## Who has what open -/

/-- The parent has `cgi_input[1]` open. -/
def Parent.holdsInput1 : Parent → Bool
  | .closeOutput0 | .waitpid | .returned | .killed => false
  | _ => true

/-- The parent has `cgi_output[1]` open. -/
def Parent.holdsOutput1 : Parent → Bool
  | .closeInput0 | .closeOutput1 => true
  | _ => false

/-- The parent has `cgi_output[0]` open. -/
def Parent.holdsOutput0 : Parent → Bool
  | .waitpid | .returned | .killed => false
  | _ => true

/-- The child has `cgi_input[1]` open. -/
def Child.holdsInput1 : Child → Bool
  | .closeInput1 _ => true
  | _ => false

/-- The child has `cgi_output[0]` open. -/
def Child.holdsOutput0 : Child → Bool
  | .closeInput1 _ | .closeOutput0 _ => true
  | _ => false

/-- Somebody can still write into `cgi_input`. -/
def State.inputOpen (s : State) : Bool := s.parent.holdsInput1 || s.child.holdsInput1

/-- Somebody can still write into `cgi_output`. -/
def State.outputOpen (s : State) : Bool := s.parent.holdsOutput1 || s.child != .exited

/-! ## Steps -/

/-- Who makes a call. -/
inductive Side where
  | parent
  | child
deriving DecidableEq, Repr

/-- The next call of the parent, `none` while it has to wait. -/
def stepParent (capacity contentLength : Nat) (s : State) : Option State :=
  match s.parent with
  | .closeInput0 => some { s with parent := .closeOutput1, calls := s.calls ++ [.close .cgiInput0] }
  | .closeOutput1 =>
      some { s with
        parent := .recvBody contentLength 0
        calls := s.calls ++ [.close .cgiOutput1] }
  | .recvBody 0 _ => some { s with parent := .readOutput }
  | .recvBody (left + 1) c =>
      match s.body with
      | [] =>
          some { s with
            parent := .writeBody left c
            calls := s.calls ++ [.recv .sockClient false none] }
      | b :: body =>
          some { s with
            parent := .writeBody left b
            body := body
            calls := s.calls ++ [.recv .sockClient false (some b)] }
  | .writeBody left c =>
      -- The parent has closed its copy of the read end.
      if s.child = .exited then some { s with parent := .killed }
      else if s.input.length < capacity then
        some { s with
          parent := .recvBody left c
          input := s.input ++ [c]
          calls := s.calls ++ [.write .cgiInput1 c] }
      else none
  | .readOutput =>
      match s.output with
      | c :: output =>
          some { s with
            parent := .sendOutput c
            output := output
            calls := s.calls ++ [.read .cgiOutput0 (some c)] }
      | [] =>
          if s.outputOpen then none
          else
            some { s with
              parent := .closeInput1
              calls := s.calls ++ [.read .cgiOutput0 none] }
  | .sendOutput c =>
      some { s with parent := .readOutput, calls := s.calls ++ [.send .sockClient [c]] }
  | .closeInput1 =>
      some { s with parent := .closeOutput0, calls := s.calls ++ [.close .cgiInput1] }
  | .closeOutput0 => some { s with parent := .waitpid, calls := s.calls ++ [.close .cgiOutput0] }
  | .waitpid =>
      if s.child = .exited then some { s with parent := .returned, calls := s.calls ++ [.waitpid] }
      else none
  | .returned => none
  | .killed => none

/-- The next operation of a program. -/
def stepOp (capacity : Nat) (s : State) : List Op → Option State
  | [] => some { s with child := .exited }
  | .read :: ops =>
      match s.input with
      | _ :: input => some { s with child := .running ops, input := input }
      | [] => if s.inputOpen then none else some { s with child := .running ops }
  | .readAll :: ops =>
      match s.input with
      | _ :: input => some { s with input := input }
      | [] => if s.inputOpen then none else some { s with child := .running ops }
  | .write c :: ops =>
      if !(s.parent.holdsOutput0 || s.child.holdsOutput0) then some { s with child := .exited }
      else if s.output.length < capacity then
        some { s with child := .running ops, output := s.output ++ [c] }
      else none

/-- The next call of the child, `none` while it has to wait. -/
def stepChild (capacity : Nat) (s : State) : Option State :=
  match s.child with
  | .closeInput1 ops => some { s with child := .closeOutput0 ops }
  | .closeOutput0 ops => some { s with child := .exec ops }
  | .exec ops => some { s with child := .running ops }
  | .running ops => stepOp capacity s ops
  | .exited => none

def step (capacity contentLength : Nat) (s : State) : Side → Option State
  | .parent => stepParent capacity contentLength s
  | .child => stepChild capacity s

/-! ## What a step can do -/

/-- The calls of the parent, one constructor for each outcome. -/
inductive ParentMoves (capacity contentLength : Nat) (s : State) : State → Prop
  | closeInput0 : s.parent = .closeInput0 →
      ParentMoves capacity contentLength s
        { s with parent := .closeOutput1, calls := s.calls ++ [.close .cgiInput0] }
  | closeOutput1 : s.parent = .closeOutput1 →
      ParentMoves capacity contentLength s
        { s with
          parent := .recvBody contentLength 0
          calls := s.calls ++ [.close .cgiOutput1] }
  | relayed {c : UInt8} : s.parent = .recvBody 0 c →
      ParentMoves capacity contentLength s { s with parent := .readOutput }
  | recvEnd {left : Nat} {c : UInt8} : s.parent = .recvBody (left + 1) c → s.body = [] →
      ParentMoves capacity contentLength s
        { s with
          parent := .writeBody left c
          calls := s.calls ++ [.recv .sockClient false none] }
  | recvByte {left : Nat} {c b : UInt8} {body : Bytes} :
      s.parent = .recvBody (left + 1) c → s.body = b :: body →
      ParentMoves capacity contentLength s
        { s with
          parent := .writeBody left b
          body := body
          calls := s.calls ++ [.recv .sockClient false (some b)] }
  | broken {left : Nat} {c : UInt8} : s.parent = .writeBody left c → s.child = .exited →
      ParentMoves capacity contentLength s { s with parent := .killed }
  | writeBody {left : Nat} {c : UInt8} : s.parent = .writeBody left c → s.child ≠ .exited →
      s.input.length < capacity →
      ParentMoves capacity contentLength s
        { s with
          parent := .recvBody left c
          input := s.input ++ [c]
          calls := s.calls ++ [.write .cgiInput1 c] }
  | readByte {c : UInt8} {output : Bytes} : s.parent = .readOutput → s.output = c :: output →
      ParentMoves capacity contentLength s
        { s with
          parent := .sendOutput c
          output := output
          calls := s.calls ++ [.read .cgiOutput0 (some c)] }
  | readEnd : s.parent = .readOutput → s.output = [] → s.child = .exited →
      ParentMoves capacity contentLength s
        { s with parent := .closeInput1, calls := s.calls ++ [.read .cgiOutput0 none] }
  | sendOutput {c : UInt8} : s.parent = .sendOutput c →
      ParentMoves capacity contentLength s
        { s with parent := .readOutput, calls := s.calls ++ [.send .sockClient [c]] }
  | closeInput1 : s.parent = .closeInput1 →
      ParentMoves capacity contentLength s
        { s with parent := .closeOutput0, calls := s.calls ++ [.close .cgiInput1] }
  | closeOutput0 : s.parent = .closeOutput0 →
      ParentMoves capacity contentLength s
        { s with parent := .waitpid, calls := s.calls ++ [.close .cgiOutput0] }
  | waitpid : s.parent = .waitpid → s.child = .exited →
      ParentMoves capacity contentLength s
        { s with parent := .returned, calls := s.calls ++ [.waitpid] }

/-- The calls of the child. -/
inductive ChildMoves (capacity : Nat) (s : State) : State → Prop
  | closeInput1 {ops : List Op} : s.child = .closeInput1 ops →
      ChildMoves capacity s { s with child := .closeOutput0 ops }
  | closeOutput0 {ops : List Op} : s.child = .closeOutput0 ops →
      ChildMoves capacity s { s with child := .exec ops }
  | exec {ops : List Op} : s.child = .exec ops →
      ChildMoves capacity s { s with child := .running ops }
  | exit : s.child = .running [] → ChildMoves capacity s { s with child := .exited }
  | readByte {ops : List Op} {b : UInt8} {input : Bytes} : s.child = .running (.read :: ops) →
      s.input = b :: input → ChildMoves capacity s { s with child := .running ops, input := input }
  | readAllByte {ops : List Op} {b : UInt8} {input : Bytes} :
      s.child = .running (.readAll :: ops) → s.input = b :: input →
      ChildMoves capacity s { s with input := input }
  | readEnd {op : Op} {ops : List Op} : s.child = .running (op :: ops) →
      op = .read ∨ op = .readAll → s.input = [] → s.inputOpen = false →
      ChildMoves capacity s { s with child := .running ops }
  | broken {c : UInt8} {ops : List Op} : s.child = .running (.write c :: ops) →
      s.parent.holdsOutput0 = false → ChildMoves capacity s { s with child := .exited }
  | write {c : UInt8} {ops : List Op} : s.child = .running (.write c :: ops) →
      s.output.length < capacity →
      ChildMoves capacity s { s with child := .running ops, output := s.output ++ [c] }

theorem parentMoves_of_step {capacity contentLength : Nat} {s s' : State}
    (h : stepParent capacity contentLength s = some s') :
    ParentMoves capacity contentLength s s' := by
  rw [stepParent] at h
  cases hp : s.parent with
  | closeInput0 =>
      simp only [hp] at h
      cases h
      exact .closeInput0 hp
  | closeOutput1 =>
      simp only [hp] at h
      cases h
      exact .closeOutput1 hp
  | recvBody left c =>
      cases left with
      | zero =>
          simp only [hp] at h
          cases h
          exact .relayed hp
      | succ left =>
          simp only [hp] at h
          split at h
          next hbody =>
              cases h
              exact .recvEnd hp hbody
          next b body hbody =>
              cases h
              exact .recvByte hp hbody
  | writeBody left c =>
      simp only [hp] at h
      split at h
      next hexited =>
          cases h
          exact .broken hp hexited
      next hlive =>
          split at h
          next hroom =>
              cases h
              exact .writeBody hp hlive hroom
          next => cases h
  | readOutput =>
      simp only [hp] at h
      split at h
      next c output hout =>
          cases h
          exact .readByte hp hout
      next hout =>
          split at h
          next => cases h
          next hopen =>
              cases h
              rw [State.outputOpen, hp] at hopen
              exact .readEnd hp hout (by simpa [Parent.holdsOutput1] using hopen)
  | sendOutput c =>
      simp only [hp] at h
      cases h
      exact .sendOutput hp
  | closeInput1 =>
      simp only [hp] at h
      cases h
      exact .closeInput1 hp
  | closeOutput0 =>
      simp only [hp] at h
      cases h
      exact .closeOutput0 hp
  | waitpid =>
      simp only [hp] at h
      split at h
      next hexited =>
          cases h
          exact .waitpid hp hexited
      next => cases h
  | returned =>
      simp only [hp] at h
      cases h
  | killed =>
      simp only [hp] at h
      cases h

theorem childMoves_of_stepOp {capacity : Nat} {s s' : State} {ops : List Op}
    (hchild : s.child = .running ops) (h : stepOp capacity s ops = some s') :
    ChildMoves capacity s s' := by
  cases ops with
  | nil =>
      cases h
      exact .exit hchild
  | cons op ops =>
      cases op with
      | read =>
          rw [stepOp] at h
          split at h
          next b input hinput =>
              cases h
              exact .readByte hchild hinput
          next hinput =>
              split at h
              next => cases h
              next hopen =>
                  cases h
                  exact .readEnd hchild (.inl rfl) hinput (by simpa using hopen)
      | readAll =>
          rw [stepOp] at h
          split at h
          next b input hinput =>
              cases h
              exact .readAllByte hchild hinput
          next hinput =>
              split at h
              next => cases h
              next hopen =>
                  cases h
                  exact .readEnd hchild (.inr rfl) hinput (by simpa using hopen)
      | write c =>
          rw [stepOp] at h
          split at h
          next hnobody =>
              cases h
              rw [Bool.not_eq_true', Bool.or_eq_false_iff] at hnobody
              exact .broken hchild hnobody.1
          next =>
              split at h
              next hroom =>
                  cases h
                  exact .write hchild hroom
              next => cases h

theorem childMoves_of_step {capacity : Nat} {s s' : State}
    (h : stepChild capacity s = some s') : ChildMoves capacity s s' := by
  rw [stepChild] at h
  cases hchild : s.child with
  | closeInput1 ops =>
      simp only [hchild] at h
      cases h
      exact .closeInput1 hchild
  | closeOutput0 ops =>
      simp only [hchild] at h
      cases h
      exact .closeOutput0 hchild
  | exec ops =>
      simp only [hchild] at h
      cases h
      exact .exec hchild
  | running ops =>
      simp only [hchild] at h
      exact childMoves_of_stepOp hchild h
  | exited =>
      simp only [hchild] at h
      cases h

theorem childMoves_live {capacity : Nat} {s s' : State} (h : ChildMoves capacity s s') :
    s.child ≠ .exited := by
  intro hexited
  cases h with
  | closeInput1 hc | closeOutput0 hc | exec hc | exit hc | readByte hc _ | readAllByte hc _
  | readEnd hc _ _ _ | broken hc _ | write hc _ =>
      rw [hexited] at hc
      cases hc

/-! ## Deadlock -/

/-- The parent has returned, or a signal has ended the server. -/
def Parent.finished : Parent → Bool
  | .returned | .killed => true
  | _ => false

/-- Both sides are still at work, and neither can make its next call. -/
def Deadlocked (capacity contentLength : Nat) (s : State) : Prop :=
  s.parent.finished = false ∧ s.child ≠ .exited ∧
    ∀ side, step capacity contentLength s side = none

end Relay
