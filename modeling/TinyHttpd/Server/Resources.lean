import TinyHttpd.Server.Discipline
import TinyHttpd.Server.Scripts

/-!
# What the functions of a handler give back

`echo_html` and `exe_cgi` open a file, or two pipes in turn and a child, and every place
where one of these calls fails has a clean-up of its own.  Whatever happens, the calls of
either function follow the discipline of descriptors from the connection to the connection,
or to nothing where an error page has closed it, and a child that is started is waited for.
-/

namespace Server

open CString Httpd Descriptors

/-! ## Children -/

/-- What a run does about children. -/
inductive ChildEvent where
  | forked
  | waited
deriving DecidableEq, Repr

def Call.childEvents : Call → List ChildEvent
  | .fork (some _) => [.forked]
  | .waitpid => [.waited]
  | _ => []

/-- The children that a run starts and waits for, in order. -/
def childEvents (calls : List Call) : List ChildEvent := calls.flatMap Call.childEvents

@[simp] theorem childEvents_nil : childEvents [] = [] := rfl

@[simp] theorem childEvents_cons (c : Call) (calls : List Call) :
    childEvents (c :: calls) = Call.childEvents c ++ childEvents calls := rfl

@[simp] theorem childEvents_append (a b : List Call) :
    childEvents (a ++ b) = childEvents a ++ childEvents b :=
  List.flatMap_append

theorem OnlyRecv.childEvents {sock : Fd} {calls : List Call} (h : OnlyRecv sock calls) :
    childEvents calls = [] :=
  h.flatMap_eq_nil fun _ _ => rfl

@[simp] theorem childEvents_echoErrorToClient (sock : Fd) (code : Nat) :
    childEvents (echoErrorToClient sock code) = [] := by
  unfold echoErrorToClient
  split <;> rfl

theorem childEvents_echoHtml (env : Env) (sock : Fd) (path : Bytes) (size : Nat) :
    childEvents (echoHtml env sock path size) = [] := by
  rw [echoHtml]
  cases env.openFile path with
  | none => simp [Call.childEvents]
  | some contents =>
      dsimp only
      split
      next => simp [Call.childEvents]
      next => simp [Call.childEvents]

/-- One child and one wait for it, in that order, or neither. -/
def Waited (es : List ChildEvent) : Prop := es = [] ∨ es = [.forked, .waited]

theorem waited_runCgi (env : Env) (sock : Fd) (path method query : Bytes) (n : Int)
    (input : Bytes) : Waited (childEvents (runCgi env sock path method query n input)) := by
  have hbody (pipe : Fd) (n : Nat) (c : UInt8) (input : Bytes) :
      childEvents (relayBody sock pipe n c input) = [] :=
    flatMap_relayBody_eq_nil (fun _ => rfl) (fun _ => rfl) n c input
  have houtput (pipe : Fd) (output : Bytes) : childEvents (relayOutput pipe sock output) = [] :=
    flatMap_relayOutput_eq_nil (fun _ => rfl) (fun _ => rfl) output
  rw [runCgi]
  split
  next => exact .inl (by simp [Call.childEvents])
  next =>
      split
      next => exact .inl (by simp [Call.childEvents])
      next =>
          split
          next => exact .inl (by simp [Call.childEvents])
          next => exact .inr (by simp [Call.childEvents, hbody, houtput, apply_ite childEvents])

theorem waited_exeCgi (env : Env) (sock : Fd) (path method query input : Bytes) :
    Waited (childEvents (exeCgi env sock path method query input)) := by
  rw [exeCgi]
  split
  next =>
      rw [childEvents_append, OnlyRecv.childEvents (clearHeader_onlyRecv sock input)]
      exact waited_runCgi env sock path method query 0 _
  next =>
      have hheader := OnlyRecv.childEvents (postHeader_onlyRecv sock input)
      dsimp only
      split
      next => exact .inl (by simp [hheader])
      next =>
          rw [childEvents_append, hheader]
          exact waited_runCgi env sock path method query _ _

/-! ## Descriptors -/

/-- The connection is left open, or an error page has closed it. -/
def Leaves (calls : List Call) : Prop :=
  ∃ held closes, (held = connected ∨ held = disconnected) ∧ Follows connected calls held closes

theorem leaves_connected {calls : List Call} {n : Nat} (h : Follows connected calls connected n) :
    Leaves calls :=
  ⟨connected, n, .inl rfl, h⟩

theorem leaves_disconnected {calls : List Call} {n : Nat}
    (h : Follows connected calls disconnected n) : Leaves calls :=
  ⟨disconnected, n, .inr rfl, h⟩

theorem leaves_echoHtml (env : Env) (path : Bytes) (size : Nat) :
    Leaves (echoHtml env .sockClient path size) := by
  cases hopen : env.openFile path with
  | none =>
      have hfirst : Follows connected [.openFile path false] connected 0 :=
        follows_of_eval trivial (fun _ => rfl) rfl
      rw [echoHtml]
      dsimp only
      rw [hopen]
      exact leaves_disconnected (hfirst.cons (echoErrorToClient_follows 404))
  | some contents =>
      cases hsend : env.sendfile contents (size % 2 ^ 32) with
      | some sent =>
          exact leaves_connected (echoHtml_follows hopen (by rw [hsend]; rfl))
      | none =>
          have hfile (data : Bytes) : Follows connected [.openFile path true,
              .send .sockClient data, .sendfile .sockClient .inFd (size % 2 ^ 32) none,
              .close .inFd] connected 0 :=
            follows_of_eval ⟨rfl, rfl, rfl, rfl, rfl, trivial⟩ (fun x => by cases x <;> rfl) rfl
          rw [echoHtml]
          dsimp only
          rw [hopen]
          dsimp only
          rw [hsend]
          exact leaves_disconnected ((hfile _).append (echoErrorToClient_follows 500))

/-- The connection and the first pipe. -/
def halfPiped (x : Fd) : Bool := x == .sockClient || x == .cgiInput0 || x == .cgiInput1

theorem leaves_runCgi (env : Env) (path method query : Bytes) (n : Int) (input : Bytes) :
    Leaves (runCgi env .sockClient path method query n input) := by
  have hsend : Follows connected [.send .sockClient (httpVersion ++ bytes " 200 OK\r\n\r\n")]
      connected 0 :=
    follows_of_eval ⟨rfl, trivial⟩ (fun _ => rfl) rfl
  have herror := echoErrorToClient_follows 500
  cases hin : env.pipeInput with
  | false =>
      have hpipe : Follows connected [.pipe .cgiInput0 .cgiInput1 false] connected 0 :=
        follows_of_eval trivial (fun _ => rfl) rfl
      rw [runCgi]
      simp only [hin, Bool.not_false, if_true]
      exact leaves_disconnected (hsend.cons (hpipe.cons herror))
  | true =>
      cases hout : env.pipeOutput with
      | false =>
          -- The error page goes out before the first pipe is closed.
          have hpipes : Follows connected
              [.pipe .cgiInput0 .cgiInput1 true, .pipe .cgiOutput0 .cgiOutput1 false]
              halfPiped 0 :=
            follows_of_eval ⟨rfl, rfl, trivial⟩ (fun x => by cases x <;> rfl) rfl
          have hcloses : Follows (hungUp halfPiped) [.close .cgiInput0, .close .cgiInput1]
              disconnected 0 :=
            follows_of_eval ⟨rfl, rfl, trivial⟩ (fun x => by cases x <;> rfl) rfl
          have hpage : Follows halfPiped (echoErrorToClient .sockClient 500) (hungUp halfPiped) 1 :=
            echoErrorToClient_follows_of_held rfl 500
          rw [runCgi]
          simp only [hin, hout, Bool.not_true, Bool.not_false, Bool.false_eq_true, if_false,
            if_true]
          exact leaves_disconnected (hsend.cons ((hpipes.append hpage).append hcloses))
      | true =>
          cases hfork : env.fork with
          | false =>
              have hpipes : Follows connected [.pipe .cgiInput0 .cgiInput1 true,
                  .pipe .cgiOutput0 .cgiOutput1 true, .fork none, .close .cgiInput0,
                  .close .cgiInput1, .close .cgiOutput0, .close .cgiOutput1] connected 0 :=
                follows_of_eval ⟨rfl, rfl, rfl, rfl, rfl, rfl, rfl, rfl, trivial⟩
                  (fun x => by cases x <;> rfl) rfl
              rw [runCgi]
              simp only [hin, hout, hfork, Bool.not_true, Bool.not_false, Bool.false_eq_true,
                if_false, if_true]
              exact leaves_disconnected (hsend.cons (hpipes.append herror))
          | true =>
              exact leaves_connected (runCgi_follows path method query n input hin hout hfork)

theorem leaves_of_onlyRecv {a b : List Call} (ha : OnlyRecv .sockClient a) (hb : Leaves b) :
    Leaves (a ++ b) := by
  obtain ⟨held, closes, hheld, hb⟩ := hb
  exact ⟨held, 0 + closes, hheld, (OnlyRecv.follows ha rfl).append hb⟩

theorem leaves_exeCgi (env : Env) (path method query input : Bytes) :
    Leaves (exeCgi env .sockClient path method query input) := by
  rw [exeCgi]
  split
  next =>
      exact leaves_of_onlyRecv (clearHeader_onlyRecv _ _) (leaves_runCgi env path method query 0 _)
  next =>
      dsimp only
      split
      next =>
          exact leaves_of_onlyRecv (postHeader_onlyRecv _ _)
            (leaves_disconnected (echoErrorToClient_follows 500))
      next =>
          exact leaves_of_onlyRecv (postHeader_onlyRecv _ _)
            (leaves_runCgi env path method query _ _)

/-! ## All of it -/

/-- What a function opens and starts is given back when it returns. -/
structure LocalsReturned (calls : List Call) : Prop where
  /-- In every descriptor table in which the handler has its connection and nothing else,
  every number but the connection's stands for what it stood for. -/
  table : ∀ {p : Pool Fd} {owners k n : Nat}, p.Numbered owners → k < owners →
    p.holds k = connected → n ≠ p.number k .sockClient →
    (p.performAll k (calls.flatMap ops)).table.lookup n = p.table.lookup n
  /-- A descriptor is opened, used, closed once and not used behind that. -/
  once : ∀ x ≠ .sockClient, Returned x (calls.flatMap ops)
  children : Waited (childEvents calls)

theorem localsReturned_of_leaves {calls : List Call} {names : List Fd} (h : Leaves calls)
    (hscript : Script calls names) (hnames : (.sockClient :: names).Nodup)
    (hchildren : Waited (childEvents calls)) : LocalsReturned calls := by
  obtain ⟨held, closes, hheld, hfollows⟩ := h
  obtain ⟨hfresh, hnodup⟩ := List.nodup_cons.mp hnames
  have hbefore : ∀ x ≠ .sockClient, connected x = false := fun x hx => beq_false_of_ne hx
  have hafter : ∀ x ≠ .sockClient, held x = false := by
    rcases hheld with rfl | rfl
    · exact hbefore
    · exact fun _ _ => rfl
  refine ⟨fun {p owners k n} hp hk hconn hn => ?_, fun x hx => ?_, hchildren⟩
  · refine Pool.lookup_performAll hp hk (hconn ▸ hfollows.disciplined) (hconn ▸ hbefore) ?_
      (hscript.acquired ▸ hfresh) hn
    rw [hconn, hfollows.after]
    exact hafter
  · refine returned_of_disciplined hfollows.disciplined (hbefore x hx) ?_
      (hscript.acquired ▸ hnodup)
    rw [hfollows.after]
    exact hafter x hx

/-- Whatever `open`, `sendfile`, the pipes, the fork and the program do, and however long the
body and the output are: when `echo_html` or `exe_cgi` returns, the descriptors are what
they were but for the connection, each one that was opened has been closed once and not used
after that, and a child that was started has been waited for once. -/
theorem locals_returned (env : Env) :
    (∀ path size, LocalsReturned (echoHtml env .sockClient path size)) ∧
      ∀ path method query input, LocalsReturned (exeCgi env .sockClient path method query input) := by
  refine ⟨fun path size => ?_, fun path method query input => ?_⟩
  · obtain ⟨names, hplain, hnodup⟩ := echoHtml_plain env path size
    exact localsReturned_of_leaves (leaves_echoHtml env path size) hplain.script hnodup
      (.inl (childEvents_echoHtml env _ path size))
  · obtain ⟨names, hmem, hscript⟩ := exeCgi_script env path method query input
    have hnodup : ∀ names ∈ pipeNames, (Fd.sockClient :: names).Nodup := by decide
    exact localsReturned_of_leaves (leaves_exeCgi env path method query input) hscript
      (hnodup names hmem) (waited_exeCgi env _ path method query input)

end Server
