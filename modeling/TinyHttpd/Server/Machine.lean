import TinyHttpd.Httpd.Handler
import TinyHttpd.Lib.Descriptors
import TinyHttpd.Lib.Run

/-!
# The server process

`main` accepts connections and starts a thread for each; the threads share one
descriptor table, and a CGI child starts with a copy of it.  A handler is the list
of calls it still has to make, as `acceptRequest` gives it for the outcomes of its
calls, so an interleaving of the handlers is a list of actions that pick who makes
the next call.

A write into a pipe without a reader, or to a client that has reset the
connection, raises SIGPIPE.  The server installs no handler for it and is gone.
-/

namespace Server

open CString Httpd Descriptors Machine

/-! ## State -/

/-- A CGI child: its table, the numbers its copies of the variables hold, the calls
it still makes before the program, and whether it runs the program or is gone. -/
structure Child where
  table : Table (Entry Fd)
  number : Fd → Nat
  todo : List ChildCall
  executed : Bool
  exited : Bool

/-- A connection with its thread. -/
structure Handler where
  todo : List Call
  child : Option Child

/-- The server process, its children and its clients. -/
structure State where
  alive : Bool
  pool : Pool Fd
  handlers : List Handler
  /-- The connections that the client has reset. -/
  gone : List Nat

/-- Standard input, output and error, and the listening socket. -/
def init : State where
  alive := true
  pool := ⟨[some .system, some .system, some .system, some .system], fun _ _ => 0, []⟩
  handlers := []
  gone := []

/-- What a call does to the descriptors of its handler.  A `fork` copies the table;
the pipe ends the child goes on to use are taken from it. -/
def ops : Call → List (Op Fd)
  | .recv fd _ _ => [.use fd]
  | .send fd _ => [.use fd]
  | .stat _ _ => []
  | .openFile _ ok => if ok then [.acquire .inFd] else []
  | .sendfile out inp _ _ => [.use out, .use inp]
  | .pipe read write ok => if ok then [.acquire read, .acquire write] else []
  | .fork none => []
  | .fork (some _) => [.use .cgiInput0, .use .cgiInput1, .use .cgiOutput0, .use .cgiOutput1]
  | .write fd _ => [.use fd]
  | .read fd _ => [.use fd]
  | .close fd => [.release fd]
  | .waitpid => []

/-! ## Pipes and connections -/

/-- Some process has the entry open: the server or a child. -/
def State.someoneHolds (s : State) (e : Entry Fd) : Bool :=
  s.pool.table.contains (some e) ||
    s.handlers.any fun h => h.child.any fun c => c.table.contains (some e)

/-- Sending there raises SIGPIPE: the client has reset the connection. -/
def State.brokenSocket (s : State) : Option (Entry Fd) → Bool
  | some (.own k .sockClient) => s.gone.contains k
  | _ => false

/-- Writing there raises SIGPIPE: the pipe has no reader. -/
def State.brokenPipe (s : State) : Option (Entry Fd) → Bool
  | some (.own k .cgiInput1) => !s.someoneHolds (.own k .cgiInput0)
  | some (.own k .cgiOutput1) => !s.someoneHolds (.own k .cgiOutput0)
  | _ => false

/-- Reading there can end: the pipe has no writer, or there is no pipe. -/
def State.endOfFile (s : State) : Option (Entry Fd) → Bool
  | some (.own k .cgiInput0) => !s.someoneHolds (.own k .cgiInput1)
  | some (.own k .cgiOutput0) => !s.someoneHolds (.own k .cgiOutput1)
  | _ => true

/-- The call of handler `k` raises SIGPIPE.  A `sendfile` that has nothing to send
does not. -/
def State.raises (s : State) (k : Nat) : Call → Bool
  | .send fd _ => s.brokenSocket (s.pool.target k fd)
  | .write fd _ =>
      s.brokenSocket (s.pool.target k fd) || s.brokenPipe (s.pool.target k fd)
  | .sendfile out _ _ sent =>
      sent != some [] &&
        (s.brokenSocket (s.pool.target k out) || s.brokenPipe (s.pool.target k out))
  | _ => false

/-- The call of handler `k` can return now: a read ends only at the end of the
file, and `waitpid` waits for the child. -/
def State.returns (s : State) (k : Nat) (h : Handler) : Call → Bool
  | .read fd none => s.endOfFile (s.pool.target k fd)
  | .waitpid => h.child.any Child.exited
  | _ => true

/-! ## Steps -/

inductive Act where
  /-- A connection, with the outcomes of its handler's calls, what its client sends,
  and whether its thread could be created. -/
  | accept (env : Env) (input : Bytes) (created : Bool)
  /-- The next call of a handler. -/
  | handler (k : Nat)
  /-- The next call of a child. -/
  | child (k : Nat)
  /-- A child is gone, for whatever reason. -/
  | childExit (k : Nat)
  /-- A client resets its connection. -/
  | reset (k : Nat)

/-- The end of a child closes what it has open. -/
def Child.exit (c : Child) : Child := { c with table := [], todo := [], exited := true }

/-- The table of a child behind a call. -/
def Child.tableAfter (c : Child) : ChildCall → Table (Entry Fd)
  | .close fd => c.table.clear (c.number fd)
  | .dup2 fd n =>
      match c.table.lookup (c.number fd) with
      | some e => c.table.put e n
      | none => c.table
  | _ => c.table

/-- A child behind a call. -/
def Child.after (c : Child) (rest : List ChildCall) : ChildCall → Child
  | .exit _ => c.exit
  | .execl path ok =>
      { c with table := c.tableAfter (.execl path ok), todo := rest, executed := ok }
  | d => { c with table := c.tableAfter d, todo := rest }

/-- The next call of a child. -/
def Child.step (c : Child) : Option Child :=
  match c.exited, c.todo with
  | false, d :: rest => some (c.after rest d)
  | _, _ => none

/-- A handler behind a call. -/
def Handler.after (s : State) (k : Nat) (h : Handler) (c : Call) (rest : List Call) : Handler :=
  match c with
  | .fork (some calls) => ⟨rest, some ⟨s.pool.table, s.pool.number k, calls, false, false⟩⟩
  | _ => { h with todo := rest }

/-- The next call of a handler. -/
def State.handle (s : State) (k : Nat) (h : Handler) : Option State :=
  match h.todo with
  | [] => none
  | c :: rest =>
      if !s.returns k h c then none
      else if s.raises k c then some { s with alive := false }
      else some { s with
        pool := s.pool.performAll k (ops c)
        handlers := s.handlers.set k (h.after s k c rest) }

/-- Another state of the child of handler `k`. -/
def State.setChild (s : State) (k : Nat) (h : Handler) (c : Child) : State :=
  { s with handlers := s.handlers.set k { h with child := some c } }

/-- One step of the server, a child or a client. -/
def step (s : State) (a : Act) : Option State :=
  if !s.alive then none
  else
    match a with
    | .accept env input created =>
        some { s with
          pool := s.pool.perform s.handlers.length (.acquire .sockClient)
          handlers := s.handlers ++ [⟨if created then acceptRequest env input else [], none⟩] }
    | .handler k => s.handlers[k]?.bind fun h => s.handle k h
    | .child k =>
        s.handlers[k]?.bind fun h => h.child.bind fun c => c.step.map (s.setChild k h)
    | .childExit k =>
        s.handlers[k]?.bind fun h => h.child.bind fun c =>
          if c.exited then none else some (s.setChild k h c.exit)
    | .reset k => some { s with gone := k :: s.gone }

/-! ## What a step can do -/

/-- The steps of a live server, one constructor for each thing that can happen. -/
inductive Moves (s : State) : Act → State → Prop
  | accept {env : Env} {input : Bytes} {created : Bool} :
      Moves s (.accept env input created)
        { s with
          pool := s.pool.perform s.handlers.length (.acquire .sockClient)
          handlers := s.handlers ++ [⟨if created then acceptRequest env input else [], none⟩] }
  | signal {k : Nat} {h : Handler} {c : Call} {rest : List Call} :
      s.handlers[k]? = some h → h.todo = c :: rest → s.raises k c = true →
      Moves s (.handler k) { s with alive := false }
  | call {k : Nat} {h : Handler} {c : Call} {rest : List Call} :
      s.handlers[k]? = some h → h.todo = c :: rest → s.returns k h c = true →
      s.raises k c = false →
      Moves s (.handler k)
        { s with
          pool := s.pool.performAll k (ops c)
          handlers := s.handlers.set k (h.after s k c rest) }
  | child {k : Nat} {h : Handler} {c c' : Child} :
      s.handlers[k]? = some h → h.child = some c → c.step = some c' →
      Moves s (.child k) (s.setChild k h c')
  | childExit {k : Nat} {h : Handler} {c : Child} :
      s.handlers[k]? = some h → h.child = some c → c.exited = false →
      Moves s (.childExit k) (s.setChild k h c.exit)
  | reset {k : Nat} : Moves s (.reset k) { s with gone := k :: s.gone }

theorem moves_of_handle {s s' : State} {k : Nat} {h : Handler} (hk : s.handlers[k]? = some h)
    (hstep : s.handle k h = some s') : Moves s (.handler k) s' := by
  rw [State.handle] at hstep
  split at hstep
  next => cases hstep
  next c rest htodo =>
      split at hstep
      next => cases hstep
      next hret =>
          split at hstep
          next hraise =>
              cases hstep
              exact .signal hk htodo hraise
          next hraise =>
              cases hstep
              exact .call hk htodo (by simpa using hret) (by simpa using hraise)

theorem moves_of_step {s s' : State} {a : Act} (h : step s a = some s') :
    s.alive = true ∧ Moves s a s' := by
  unfold step at h
  split at h
  next => cases h
  next halive =>
      refine ⟨by simpa using halive, ?_⟩
      cases a with
      | accept env input created =>
          cases h
          exact .accept
      | handler k =>
          obtain ⟨hd, hk, hstep⟩ := Option.bind_eq_some_iff.mp h
          exact moves_of_handle hk hstep
      | child k =>
          obtain ⟨hd, hk, h⟩ := Option.bind_eq_some_iff.mp h
          obtain ⟨c, hc, h⟩ := Option.bind_eq_some_iff.mp h
          obtain ⟨c', hc', rfl⟩ := Option.map_eq_some_iff.mp h
          exact .child hk hc hc'
      | childExit k =>
          obtain ⟨hd, hk, h⟩ := Option.bind_eq_some_iff.mp h
          obtain ⟨c, hc, h⟩ := Option.bind_eq_some_iff.mp h
          split at h
          next => cases h
          next hex =>
              cases h
              exact .childExit hk hc (by simpa using hex)
      | reset k =>
          cases h
          exact .reset

theorem child_step_eq {c c' : Child} (h : c.step = some c') :
    c.exited = false ∧ ∃ d rest, c.todo = d :: rest ∧ c' = c.after rest d := by
  rw [Child.step] at h
  split at h
  next d rest hlive htodo =>
      cases h
      exact ⟨hlive, d, rest, htodo, rfl⟩
  next => cases h

/-- A child either is gone behind a call, or has the table the call leaves. -/
theorem Child.after_cases (c : Child) (rest : List ChildCall) (d : ChildCall) :
    c.after rest d = c.exit ∨
      ((c.after rest d).table = c.tableAfter d ∧ (c.after rest d).number = c.number ∧
        (c.after rest d).todo = rest ∧ (c.after rest d).exited = c.exited) := by
  cases d with
  | exit code => exact Or.inl rfl
  | close fd => exact Or.inr ⟨rfl, rfl, rfl, rfl⟩
  | dup2 fd n => exact Or.inr ⟨rfl, rfl, rfl, rfl⟩
  | putenv entry => exact Or.inr ⟨rfl, rfl, rfl, rfl⟩
  | execl path ok => exact Or.inr ⟨rfl, rfl, rfl, rfl⟩

@[simp] theorem Handler.after_todo (s : State) (k : Nat) (h : Handler) (c : Call)
    (rest : List Call) : (h.after s k c rest).todo = rest := by
  unfold Handler.after
  split <;> rfl

/-- A `fork` gives a handler its child, every other call keeps it. -/
theorem Handler.after_child (s : State) (k : Nat) (h : Handler) (c : Call) (rest : List Call) :
    (∃ calls, c = .fork (some calls) ∧
      (h.after s k c rest).child =
        some ⟨s.pool.table, s.pool.number k, calls, false, false⟩) ∨
      (h.after s k c rest).child = h.child := by
  unfold Handler.after
  split
  next calls => exact Or.inl ⟨calls, rfl, rfl⟩
  next => exact Or.inr rfl

/-! ## All handlers -/

/-- At the start no number belongs to a handler. -/
theorem init_lookup_ne_own (n k : Nat) (x : Fd) :
    init.pool.table.lookup n ≠ some (.own k x) := by
  intro hn
  have hmem := (Table.mem_iff_lookup (Entry.own k x) init.pool.table).mpr ⟨n, hn⟩
  simp [init] at hmem

/-- What holds of every handler holds of them with one replaced. -/
theorem forall_set {P : Nat → Handler → Prop} {l : List Handler} {k : Nat} {h' : Handler}
    (hall : ∀ j h, l[j]? = some h → P j h) (hnew : P k h') :
    ∀ j h, (l.set k h')[j]? = some h → P j h := by
  intro j h hj
  rw [List.getElem?_set] at hj
  split at hj
  next hjk =>
      split at hj
      next =>
          cases hj
          exact hjk ▸ hnew
      next => cases hj
  next => exact hall j h hj

/-- What holds of every handler holds of them with one more. -/
theorem forall_snoc {P : Nat → Handler → Prop} {l : List Handler} {h' : Handler}
    (hall : ∀ j h, l[j]? = some h → P j h) (hnew : P l.length h') :
    ∀ j h, (l ++ [h'])[j]? = some h → P j h := by
  intro j h hj
  rw [List.getElem?_append] at hj
  split at hj
  next => exact hall j h hj
  next hge =>
      obtain ⟨hidx, hget⟩ := List.getElem?_eq_some_iff.mp hj
      rw [List.length_singleton] at hidx
      have hjl : j = l.length := by omega
      subst hjl
      rw [List.getElem_singleton] at hget
      exact hget ▸ hnew

/-! ## Scripts -/

/-- What each handler is still going to do to its descriptors. -/
def scripts (s : State) : List (List (Op Fd)) := s.handlers.map fun h => h.todo.flatMap ops

theorem scripts_getElem? {s : State} {k : Nat} {h : Handler} (hk : s.handlers[k]? = some h) :
    (scripts s)[k]? = some (h.todo.flatMap ops) := by
  rw [scripts, List.getElem?_map, hk, Option.map_some]

theorem scripts_next {s : State} {k : Nat} {h : Handler} {c : Call} {rest : List Call}
    (hk : s.handlers[k]? = some h) (htodo : h.todo = c :: rest) :
    (scripts s)[k]? = some (ops c ++ rest.flatMap ops) := by
  rw [scripts_getElem? hk, htodo, List.flatMap_cons]

/-- A handler that makes no call keeps its script. -/
theorem scripts_setChild {s : State} {k : Nat} {h : Handler} (hk : s.handlers[k]? = some h)
    (c : Child) : scripts (s.setChild k h c) = scripts s := by
  obtain ⟨hlt, rfl⟩ := List.getElem?_eq_some_iff.mp hk
  rw [scripts, State.setChild, List.map_set, scripts]
  apply List.ext_getElem?
  intro j
  rw [List.getElem?_set]
  split
  next hjk =>
      subst hjk
      simp [hlt]
  next => rfl

end Server
