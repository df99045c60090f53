import TinyHttpd.Httpd.Route
import TinyHttpd.Server.Machine

/-!
# The shape of a handler's script

Whatever fails, a handler acquires each descriptor once, sends to its connection,
writes into the input pipe, and forks once at most: behind the fork it opens
nothing and closes its copy of `cgi_output[1]`.  The child it forks closes two pipe
ends and moves two others to 0 and 1.
-/

namespace Server

open CString Httpd Descriptors

/-- The child closes the ends it does not use, and redirects 0 and 1. -/
def ChildAimed : ChildCall → Prop
  | .close fd => fd = .cgiInput1 ∨ fd = .cgiOutput0
  | .dup2 _ n => n < 2
  | _ => True

/-- The calls that can raise a signal, on the descriptors they are meant for. -/
def Aimed : Call → Prop
  | .send fd _ => fd = .sockClient
  | .sendfile out _ _ _ => out = .sockClient
  | .write fd _ => fd = .cgiInput1
  | .fork (some child) => ∀ d ∈ child, ChildAimed d
  | _ => True

/-- Calls without a fork, and the names they acquire. -/
structure Plain (calls : List Call) (names : List Fd) : Prop where
  aimed : ∀ c ∈ calls, Aimed c
  noFork : ∀ child, .fork (some child) ∉ calls
  acquired : acquired (calls.flatMap ops) = names

/-- Behind a fork nothing is opened, and `cgi_output[1]` is closed. -/
def Shaped : List Call → Prop
  | [] => True
  | c :: rest =>
      (∀ child, c = .fork (some child) → Plain rest [] ∧ .close .cgiOutput1 ∈ rest) ∧ Shaped rest

/-- Calls of a handler, and the names they acquire. -/
structure Script (calls : List Call) (names : List Fd) : Prop where
  aimed : ∀ c ∈ calls, Aimed c
  shaped : Shaped calls
  acquired : acquired (calls.flatMap ops) = names

/-! ## Composition -/

theorem plain_nil : Plain [] [] :=
  ⟨fun _ hc => absurd hc List.not_mem_nil, fun _ => List.not_mem_nil, rfl⟩

theorem Plain.append {a b : List Call} {xs ys : List Fd} (ha : Plain a xs) (hb : Plain b ys) :
    Plain (a ++ b) (xs ++ ys) where
  aimed := List.forall_mem_append.mpr ⟨ha.aimed, hb.aimed⟩
  noFork := fun child hmem =>
    (List.mem_append.mp hmem).elim (ha.noFork child) (hb.noFork child)
  acquired := by
    rw [List.flatMap_append, acquired_append, ha.acquired, hb.acquired]

theorem Plain.cons {c : Call} {b : List Call} {xs ys : List Fd} (hc : Plain [c] xs)
    (hb : Plain b ys) : Plain (c :: b) (xs ++ ys) :=
  hc.append hb

theorem Plain.tail {c : Call} {rest : List Call} (h : Plain (c :: rest) []) : Plain rest [] where
  aimed := fun d hd => h.aimed d (List.mem_cons_of_mem _ hd)
  noFork := fun child hmem => h.noFork child (List.mem_cons_of_mem _ hmem)
  acquired := by
    have := h.acquired
    rw [List.flatMap_cons, acquired_append] at this
    exact (List.append_eq_nil_iff.mp this).2

theorem Plain.shaped {calls : List Call} {names : List Fd} (h : Plain calls names) :
    Shaped calls := by
  obtain ⟨-, hfork, -⟩ := h
  induction calls with
  | nil => trivial
  | cons c rest ih =>
      refine ⟨fun child hc => ?_, ih fun child hmem => hfork child (List.mem_cons_of_mem _ hmem)⟩
      exact absurd (hc ▸ List.mem_cons_self ..) (hfork child)

theorem Plain.script {calls : List Call} {names : List Fd} (h : Plain calls names) :
    Script calls names :=
  ⟨h.aimed, h.shaped, h.acquired⟩

theorem Plain.append_script {a b : List Call} {xs ys : List Fd} (ha : Plain a xs)
    (hb : Script b ys) : Script (a ++ b) (xs ++ ys) where
  aimed := List.forall_mem_append.mpr ⟨ha.aimed, hb.aimed⟩
  shaped := by
    obtain ⟨-, hfork, -⟩ := ha
    induction a with
    | nil => exact hb.shaped
    | cons c rest ih =>
        refine ⟨fun child hc => ?_, ih fun child hmem => hfork child (List.mem_cons_of_mem _ hmem)⟩
        exact absurd (hc ▸ List.mem_cons_self ..) (hfork child)
  acquired := by
    rw [List.flatMap_append, acquired_append, ha.acquired, hb.acquired]

theorem Script.append_plain {a b : List Call} {xs : List Fd} (ha : Script a xs)
    (hb : Plain b []) : Script (a ++ b) xs where
  aimed := List.forall_mem_append.mpr ⟨ha.aimed, hb.aimed⟩
  shaped := by
    have hshaped := ha.shaped
    clear ha
    induction a with
    | nil => exact hb.shaped
    | cons c rest ih =>
        refine ⟨fun child hc => ?_, ih hshaped.2⟩
        obtain ⟨hplain, hclose⟩ := hshaped.1 child hc
        exact ⟨hplain.append hb, List.mem_append_left _ hclose⟩
  acquired := by
    rw [List.flatMap_append, acquired_append, ha.acquired, hb.acquired, List.append_nil]

/-- A fork, and the calls behind it. -/
theorem script_fork {child : List ChildCall} {rest : List Call}
    (hchild : ∀ d ∈ child, ChildAimed d) (hrest : Plain rest [])
    (hclose : .close .cgiOutput1 ∈ rest) :
    Script (.fork (some child) :: rest) [] where
  aimed := List.forall_mem_cons.mpr ⟨hchild, hrest.aimed⟩
  shaped := ⟨fun _ _ => ⟨hrest, hclose⟩, hrest.shaped⟩
  acquired := by
    rw [List.flatMap_cons, acquired_append, hrest.acquired]
    rfl

theorem Shaped.tail {c : Call} {rest : List Call} (h : Shaped (c :: rest)) : Shaped rest := h.2

/-! ## The scripts of the handler -/

theorem OnlyRecv.plain {sock : Fd} {calls : List Call} (h : OnlyRecv sock calls) :
    Plain calls [] := by
  refine ⟨fun c hc => ?_, fun child hmem => ?_, ?_⟩
  · obtain ⟨peek, got, rfl⟩ := h c hc
    trivial
  · obtain ⟨peek, got, hc⟩ := h _ hmem
    cases hc
  · induction calls with
    | nil => rfl
    | cons c calls ih =>
        obtain ⟨peek, got, rfl⟩ := h c (List.mem_cons_self ..)
        exact ih fun d hd => h d (List.mem_cons_of_mem _ hd)

/-- A short list of calls, by evaluation. -/
theorem plain_of_eval {calls : List Call} {names : List Fd} (ha : ∀ c ∈ calls, Aimed c)
    (hf : ∀ child, .fork (some child) ∉ calls) (hn : acquired (calls.flatMap ops) = names) :
    Plain calls names :=
  ⟨ha, hf, hn⟩

theorem echoErrorToClient_plain (code : Nat) : Plain (echoErrorToClient .sockClient code) [] := by
  have hclose : Plain [.close .sockClient] [] := plain_of_eval (by simp [Aimed]) (by simp) rfl
  have hpage (status page : String) : Plain (errorPage .sockClient status page) [] :=
    plain_of_eval (by simp [errorPage, Aimed]) (by simp [errorPage]) rfl
  unfold echoErrorToClient
  show Plain _ ([] ++ [])
  refine Plain.append ?_ hclose
  split
  next => exact hpage _ _
  next => exact hpage _ _
  next => exact hpage _ _
  next => exact plain_nil

theorem relayBody_plain : ∀ (n : Nat) (c : UInt8) (input : Bytes),
    Plain (relayBody .sockClient .cgiInput1 n c input) []
  | 0, _, _ => plain_nil
  | n + 1, c, [] =>
      (plain_of_eval (by simp [Aimed]) (by simp) rfl : Plain [_, _] []).append
        (relayBody_plain n c [])
  | n + 1, _, b :: input =>
      (plain_of_eval (by simp [Aimed]) (by simp) rfl : Plain [_, _] []).append
        (relayBody_plain n b input)

theorem relayOutput_plain : ∀ output : Bytes,
    Plain (relayOutput .cgiOutput0 .sockClient output) []
  | [] => plain_of_eval (by simp [relayOutput, Aimed]) (by simp [relayOutput]) rfl
  | c :: output =>
      (plain_of_eval (by simp [Aimed]) (by simp) rfl : Plain [_, _] []).append
        (relayOutput_plain output)

theorem echoHtml_plain (env : Env) (path : Bytes) (size : Nat) :
    ∃ names, Plain (echoHtml env .sockClient path size) names ∧ (.sockClient :: names).Nodup := by
  rw [echoHtml]
  cases env.openFile path with
  | none =>
      have hopen : Plain [.openFile path false] [] := plain_of_eval (by simp [Aimed]) (by simp) rfl
      exact ⟨[], hopen.cons (echoErrorToClient_plain 404), by decide⟩
  | some contents =>
      dsimp only
      generalize env.sendfile contents (size % 2 ^ 32) = sent
      have herror : Plain (if sent.isNone then echoErrorToClient .sockClient 500 else []) [] := by
        split
        next => exact echoErrorToClient_plain 500
        next => exact plain_nil
      refine ⟨[.inFd], Plain.append (plain_of_eval ?_ ?_ rfl) herror, by decide⟩
      · simp [Aimed]
      · simp

theorem exeCgiChild_aimed (env : Env) (path method query : Bytes) (n : Int) :
    ∀ d ∈ exeCgiChild env path method query n, ChildAimed d := by
  rw [exeCgiChild]
  cases env.execl <;> simp [ChildAimed]

/-- The names a CGI request acquires, when that many of its calls succeed. -/
def pipeNames : List (List Fd) :=
  [[], [.cgiInput0, .cgiInput1], [.cgiInput0, .cgiInput1, .cgiOutput0, .cgiOutput1]]

theorem runCgi_script (env : Env) (path method query : Bytes) (n : Int) (input : Bytes) :
    ∃ names ∈ pipeNames, Script (runCgi env .sockClient path method query n input) names := by
  have hsend : Plain [.send .sockClient (httpVersion ++ bytes " 200 OK\r\n\r\n")] [] :=
    plain_of_eval (by simp [Aimed]) (by simp) rfl
  have herror := echoErrorToClient_plain 500
  rw [runCgi]
  split
  next =>
      have hpipe : Plain [.pipe .cgiInput0 .cgiInput1 false] [] :=
        plain_of_eval (by simp [Aimed]) (by simp) rfl
      exact ⟨[], by decide, (hsend.cons (hpipe.cons herror)).script⟩
  next =>
      split
      next =>
          have hpipes : Plain
              [.pipe .cgiInput0 .cgiInput1 true, .pipe .cgiOutput0 .cgiOutput1 false]
              [.cgiInput0, .cgiInput1] :=
            plain_of_eval (by simp [Aimed]) (by simp) rfl
          have hcloses : Plain [.close .cgiInput0, .close .cgiInput1] [] :=
            plain_of_eval (by simp [Aimed]) (by simp) rfl
          exact ⟨_, by decide, (hsend.cons ((hpipes.append herror).append hcloses)).script⟩
      next =>
          have hpipes : Plain [.pipe .cgiInput0 .cgiInput1 true, .pipe .cgiOutput0 .cgiOutput1 true]
              [.cgiInput0, .cgiInput1, .cgiOutput0, .cgiOutput1] :=
            plain_of_eval (by simp [Aimed]) (by simp) rfl
          split
          next =>
              have hcloses : Plain [.fork none, .close .cgiInput0, .close .cgiInput1,
                  .close .cgiOutput0, .close .cgiOutput1] [] :=
                plain_of_eval (by simp [Aimed]) (by simp) rfl
              exact ⟨_, by decide, (hsend.cons ((hpipes.append hcloses).append herror)).script⟩
          next =>
              have hcloses : Plain [.close .cgiInput0, .close .cgiOutput1] [] :=
                plain_of_eval (by simp [Aimed]) (by simp) rfl
              have hbody : Plain (if strcasecmp (bytes "POST") method = 0 then
                  relayBody .sockClient .cgiInput1 n.toNat 0 input else []) [] := by
                split
                next => exact relayBody_plain _ _ _
                next => exact plain_nil
              have hend : Plain [.close .cgiInput1, .close .cgiOutput0, .waitpid] [] :=
                plain_of_eval (by simp [Aimed]) (by simp) rfl
              have hrest := ((hcloses.append hbody).append
                (relayOutput_plain env.cgiOutput)).append hend
              have hfork := script_fork (exeCgiChild_aimed env path method query n) hrest
                (by simp)
              exact ⟨_, by decide, hsend.append_script (hpipes.append_script hfork)⟩

theorem exeCgi_script (env : Env) (path method query input : Bytes) :
    ∃ names ∈ pipeNames, Script (exeCgi env .sockClient path method query input) names := by
  rw [exeCgi]
  split
  next =>
      obtain ⟨names, hmem, hscript⟩ := runCgi_script env path method query 0
        (clearHeader .sockClient input).rest
      exact ⟨names, hmem, (OnlyRecv.plain (clearHeader_onlyRecv _ _)).append_script hscript⟩
  next =>
      have hheader := OnlyRecv.plain (postHeader_onlyRecv .sockClient input)
      dsimp only
      split
      next => exact ⟨[], by decide, (hheader.append (echoErrorToClient_plain 500)).script⟩
      next =>
          obtain ⟨names, hmem, hscript⟩ := runCgi_script env path method query
            (postHeader .sockClient input).value (postHeader .sockClient input).rest
          exact ⟨names, hmem, hheader.append_script hscript⟩

/-- Every handler has a script, which acquires no name twice and none that `main` has
acquired for it. -/
theorem acceptRequest_script (env : Env) (input : Bytes) :
    ∃ names, Script (acceptRequest env input) names ∧ (.sockClient :: names).Nodup := by
  have hline := OnlyRecv.plain (requestLine_onlyRecv input)
  have hclear := OnlyRecv.plain (clearHeader_onlyRecv .sockClient (requestLine input).rest)
  have hstat (path : Bytes) (found : Bool) : Plain [.stat path found] [] :=
    plain_of_eval (by simp [Aimed]) (by simp) rfl
  have hclose : Plain [.close .sockClient] [] := plain_of_eval (by simp [Aimed]) (by simp) rfl
  rw [acceptRequest_eq]
  cases route env (requestLine input).line with
  | refused => exact ⟨[], (hline.append (echoErrorToClient_plain 400)).script, by decide⟩
  | missing path =>
      exact ⟨[], (hline.append (((hstat path false).cons hclear).append
        (echoErrorToClient_plain 404))).script, by decide⟩
  | static path file size =>
      obtain ⟨names, hplain, hnodup⟩ := echoHtml_plain env file size
      exact ⟨names, hline.append_script ((((hstat path true).cons hclear).append
        hplain).script.append_plain hclose), hnodup⟩
  | cgi path file method query =>
      obtain ⟨names, hmem, hscript⟩ := exeCgi_script env file method query (requestLine input).rest
      have hnodup : ∀ names ∈ pipeNames, (Fd.sockClient :: names).Nodup := by decide
      exact ⟨names, hline.append_script (((hstat path true).append_script hscript).append_plain
        hclose), hnodup names hmem⟩

end Server
