import TinyHttpd.Server.Isolation
import TinyHttpd.Server.Response

/-!
# What the server waits for

A handler waits in two places behind the fork: it reads the program's output up to the end of
the file, and it waits for its child.  The read stands behind the close of the handler's own
write end, so that what it waits for is a child that lives, its own or one that has got the
write end by its own fork.  Whether a program ends is its own affair: the steps that are left
are bounded, and once all handlers are through, every answer has been sent and the descriptor
table is as it was at the start.
-/

namespace Server

open CString Httpd Descriptors Machine

/-! ## Calls that wait -/

/-- The call starts a child. -/
def forks : Call → Bool
  | .fork (some _) => true
  | _ => false

/-- What a call needs that has to wait: a child, and for a read that the handler closes no
write end behind it. -/
def MayWait (forked : Bool) (rest : List Call) : Call → Prop
  | .read fd _ => forked = true ∧ fd = .cgiOutput0 ∧ .close .cgiOutput1 ∉ rest
  | .waitpid => forked = true
  | _ => True

/-- A handler with a child, or without one, whose waits all stand behind its fork. -/
def Waits : Bool → List Call → Prop
  | _, [] => True
  | forked, c :: rest => MayWait forked rest c ∧ Waits (forked || forks c) rest

/-- The call does not wait, and starts no child. -/
def Quiet : Call → Prop
  | .read _ _ => False
  | .waitpid => False
  | .fork (some _) => False
  | _ => True

theorem Quiet.not_forks {c : Call} (h : Quiet c) : forks c = false := by
  cases c with
  | fork child =>
      cases child with
      | none => rfl
      | some calls => exact h.elim
  | _ => rfl

theorem Quiet.mayWait {c : Call} (h : Quiet c) (forked : Bool) (rest : List Call) :
    MayWait forked rest c := by
  cases c with
  | read fd got => exact h.elim
  | waitpid => exact h.elim
  | _ => trivial

theorem Quiet.waits {forked : Bool} {c : Call} {rest : List Call} (hc : Quiet c)
    (h : Waits forked rest) : Waits forked (c :: rest) := by
  refine ⟨hc.mayWait forked rest, ?_⟩
  rw [hc.not_forks, Bool.or_false]
  exact h

theorem waits_quiet_append {forked : Bool} {a b : List Call} (ha : ∀ c ∈ a, Quiet c)
    (hb : Waits forked b) : Waits forked (a ++ b) := by
  induction a with
  | nil => exact hb
  | cons c a ih =>
      obtain ⟨hc, ha⟩ := List.forall_mem_cons.mp ha
      exact hc.waits (ih ha)

theorem waits_of_quiet {forked : Bool} {a : List Call} (ha : ∀ c ∈ a, Quiet c) :
    Waits forked a := by
  rw [← List.append_nil a]
  exact waits_quiet_append ha trivial

/-- Calls that come behind and close no write end. -/
theorem Waits.append_quiet {forked : Bool} {a b : List Call} (ha : Waits forked a)
    (hb : ∀ c ∈ b, Quiet c ∧ c ≠ .close .cgiOutput1) : Waits forked (a ++ b) := by
  induction a generalizing forked with
  | nil => exact waits_of_quiet fun c hc => (hb c hc).1
  | cons c a ih =>
      obtain ⟨hc, ha⟩ := ha
      refine ⟨?_, ih ha⟩
      cases c with
      | read fd got =>
          obtain ⟨hforked, hfd, hclose⟩ := hc
          refine ⟨hforked, hfd, fun hmem => ?_⟩
          rcases List.mem_append.mp hmem with hmem | hmem
          · exact hclose hmem
          · exact (hb _ hmem).2 rfl
      | waitpid => exact hc
      | _ => trivial

theorem OnlyRecv.quiet {sock : Fd} {calls : List Call} (h : OnlyRecv sock calls) :
    ∀ c ∈ calls, Quiet c := by
  intro c hc
  obtain ⟨peek, got, rfl⟩ := h c hc
  trivial

theorem echoErrorToClient_quiet (code : Nat) :
    ∀ c ∈ echoErrorToClient .sockClient code, Quiet c ∧ c ≠ .close .cgiOutput1 := by
  intro c hc
  rcases List.mem_append.mp hc with hc | hc
  · have hpage (status page : String) (hmem : c ∈ errorPage .sockClient status page) :
        Quiet c ∧ c ≠ .close .cgiOutput1 := by
      simp only [errorPage, List.mem_cons, List.not_mem_nil, or_false] at hmem
      rcases hmem with rfl | rfl | rfl | rfl <;> exact ⟨trivial, by simp⟩
    split at hc
    next => exact hpage _ _ hc
    next => exact hpage _ _ hc
    next => exact hpage _ _ hc
    next => cases hc
  · cases List.mem_singleton.mp hc
    exact ⟨trivial, by simp⟩

theorem echoHtml_quiet (env : Env) (path : Bytes) (size : Nat) :
    ∀ c ∈ echoHtml env .sockClient path size, Quiet c := by
  have herror (code : Nat) : ∀ c ∈ echoErrorToClient .sockClient code, Quiet c :=
    fun c hc => (echoErrorToClient_quiet code c hc).1
  rw [echoHtml]
  cases env.openFile path with
  | none => exact List.forall_mem_cons.mpr ⟨trivial, herror 404⟩
  | some contents =>
      dsimp only
      rw [List.forall_mem_append]
      refine ⟨fun c hc => ?_, ?_⟩
      · simp only [List.mem_cons, List.not_mem_nil, or_false] at hc
        rcases hc with rfl | rfl | rfl | rfl <;> trivial
      · split
        next => exact herror 500
        next => exact List.forall_mem_nil _

theorem relayBody_quiet (n : Nat) (b : UInt8) (input : Bytes) :
    ∀ c ∈ relayBody .sockClient .cgiInput1 n b input, Quiet c := by
  intro c hc
  rcases mem_relayBody hc with ⟨got, rfl⟩ | ⟨b, rfl⟩ <;> trivial

/-- The loop over the output reads, with calls behind it that close no write end. -/
theorem relayOutput_waits {behind : List Call} (hclose : .close .cgiOutput1 ∉ behind)
    (hbehind : Waits true behind) (output : Bytes) :
    Waits true (relayOutput .cgiOutput0 .sockClient output ++ behind) := by
  have hnot (output : Bytes) :
      .close .cgiOutput1 ∉ relayOutput .cgiOutput0 .sockClient output ++ behind := by
    intro hmem
    rcases List.mem_append.mp hmem with hmem | hmem
    · rcases mem_relayOutput hmem with ⟨got, heq⟩ | ⟨c, heq⟩ <;> cases heq
    · exact hclose hmem
  induction output with
  | nil => exact ⟨⟨rfl, rfl, hclose⟩, hbehind⟩
  | cons c output ih =>
      refine ⟨⟨rfl, rfl, fun hmem => ?_⟩, trivial, ih⟩
      obtain heq | hmem := List.mem_cons.mp hmem
      · cases heq
      · exact hnot output hmem

theorem runCgi_waits (env : Env) (path method query : Bytes) (n : Int) (input : Bytes) :
    Waits false (runCgi env .sockClient path method query n input) := by
  have herror : Waits false (echoErrorToClient .sockClient 500) :=
    waits_of_quiet fun c hc => (echoErrorToClient_quiet 500 c hc).1
  rw [runCgi]
  refine Quiet.waits trivial ?_
  split
  next => exact Quiet.waits trivial herror
  next =>
      split
      next =>
          rw [List.append_assoc]
          refine waits_quiet_append (by simp [Quiet]) ?_
          exact herror.append_quiet (by simp [Quiet])
      next =>
          split
          next => exact waits_quiet_append (by simp [Quiet]) herror
          next =>
              have hbody : ∀ c ∈ (if strcasecmp (bytes "POST") method = 0 then
                  relayBody .sockClient .cgiInput1 n.toNat 0 input else []), Quiet c := by
                split
                next => exact relayBody_quiet n.toNat 0 input
                next => exact List.forall_mem_nil _
              have hend : Waits true [.close .cgiInput1, .close .cgiOutput0, .waitpid] :=
                ⟨trivial, trivial, rfl, trivial⟩
              have hloops := waits_quiet_append hbody
                (relayOutput_waits (by simp) hend env.cgiOutput)
              rw [← List.append_assoc] at hloops
              rw [List.append_assoc, List.append_assoc, ← List.append_assoc _ _ [_, _, _]]
              exact ⟨trivial, trivial, trivial, trivial, trivial, hloops⟩

theorem exeCgi_waits (env : Env) (path method query input : Bytes) :
    Waits false (exeCgi env .sockClient path method query input) := by
  rw [exeCgi]
  split
  next =>
      exact waits_quiet_append (OnlyRecv.quiet (clearHeader_onlyRecv _ _))
        (runCgi_waits env path method query 0 _)
  next =>
      have hheader := OnlyRecv.quiet (postHeader_onlyRecv .sockClient input)
      dsimp only
      split
      next =>
          exact waits_quiet_append hheader
            (waits_of_quiet fun c hc => (echoErrorToClient_quiet 500 c hc).1)
      next => exact waits_quiet_append hheader (runCgi_waits env path method query _ _)

theorem acceptRequest_waits (env : Env) (input : Bytes) : Waits false (acceptRequest env input) := by
  have hclear := OnlyRecv.quiet (clearHeader_onlyRecv .sockClient (requestLine input).rest)
  rw [acceptRequest_eq]
  refine waits_quiet_append (OnlyRecv.quiet (requestLine_onlyRecv input)) ?_
  cases route env (requestLine input).line with
  | refused => exact waits_of_quiet fun c hc => (echoErrorToClient_quiet 400 c hc).1
  | missing path =>
      exact waits_quiet_append (List.forall_mem_cons.mpr ⟨trivial, hclear⟩)
        (waits_of_quiet fun c hc => (echoErrorToClient_quiet 404 c hc).1)
  | static path file size =>
      refine waits_quiet_append ?_ ⟨trivial, trivial⟩
      rw [List.forall_mem_append, List.forall_mem_cons]
      exact ⟨⟨trivial, hclear⟩, echoHtml_quiet env file size⟩
  | cgi path file method query =>
      refine Quiet.waits trivial ((exeCgi_waits env file method query _).append_quiet ?_)
      exact List.forall_mem_singleton.mpr ⟨trivial, by simp⟩

/-! ## What is left to do -/

/-- The steps a call stands for: a fork adds those of the child, and its end. -/
def callWork : Call → Nat
  | .fork (some calls) => calls.length + 2
  | _ => 1

def Child.work (c : Child) : Nat := if c.exited then 0 else c.todo.length + 1

def Handler.work (h : Handler) : Nat :=
  (h.todo.map callWork).sum + (h.child.map Child.work).getD 0

/-- The steps that are left, and the end of the server. -/
def State.work (s : State) : Nat :=
  (s.handlers.map Handler.work).sum + if s.alive then 1 else 0

/-- The step is one of a handler or a child. -/
def Act.serves : Act → Bool
  | .accept _ _ _ => false
  | .reset _ => false
  | _ => true

theorem sum_map_set_lt {α : Type} {f : α → Nat} {l : List α} {k : Nat} {a a' : α}
    (hk : l[k]? = some a) (h : f a' < f a) : ((l.set k a').map f).sum < (l.map f).sum := by
  induction l generalizing k with
  | nil => cases hk
  | cons b l ih =>
      cases k with
      | zero =>
          cases hk
          simpa using h
      | succ k =>
          have hrest := ih (k := k) hk
          simpa using hrest

theorem Child.work_exit (c : Child) : c.exit.work = 0 := rfl

theorem Child.work_step {c c' : Child} (h : c.step = some c') : c'.work < c.work := by
  obtain ⟨hlive, d, rest, htodo, rfl⟩ := child_step_eq h
  have hwork : c.work = rest.length + 2 := by
    rw [Child.work, hlive, htodo]
    rfl
  obtain hexit | ⟨-, -, hrest, hexited⟩ := c.after_cases rest d
  · rw [hexit, Child.work_exit, hwork]
    exact Nat.succ_pos _
  · rw [hwork, Child.work, hexited, hlive, hrest]
    exact Nat.lt_succ_self _

theorem Handler.work_after {s : State} {k : Nat} {h : Handler} {c : Call} {rest : List Call}
    (htodo : h.todo = c :: rest) : (h.after s k c rest).work < h.work := by
  have hwork : h.work = callWork c + (rest.map callWork).sum +
      (h.child.map Child.work).getD 0 := by
    rw [Handler.work, htodo, List.map_cons, List.sum_cons]
  rw [hwork, Handler.work, Handler.after_todo]
  obtain ⟨calls, rfl, hfork⟩ | hkept := h.after_child s k c rest
  · rw [hfork]
    simp only [callWork, Option.map_some, Option.getD_some, Child.work]
    split
    next habsurd => cases habsurd
    next => omega
  · have hpos : 0 < callWork c := by
      unfold callWork
      split <;> omega
    rw [hkept]
    omega

/-- A step of a handler or a child leaves less to do. -/
theorem work_step {s s' : State} {a : Act} (ha : a.serves = true) (h : step s a = some s') :
    s'.work < s.work := by
  obtain ⟨halive, hmoves⟩ := moves_of_step h
  have hset {k : Nat} {h h' : Handler} (pool : Pool Fd) (hk : s.handlers[k]? = some h)
      (hwork : h'.work < h.work) :
      State.work { s with pool := pool, handlers := s.handlers.set k h' } < s.work := by
    rw [State.work, State.work]
    exact Nat.add_lt_add_right (sum_map_set_lt hk hwork) _
  cases hmoves with
  | accept => cases ha
  | reset => cases ha
  | signal =>
      rw [State.work, State.work, halive]
      simp
  | call hk htodo => exact hset _ hk (Handler.work_after htodo)
  | @child k h c c' hk hc hstep =>
      have hless := Child.work_step hstep
      refine hset s.pool hk ?_
      rw [Handler.work, Handler.work, hc]
      simp only [Option.map_some, Option.getD_some]
      omega
  | @childExit k h c hk hc hlive =>
      refine hset s.pool hk ?_
      have hpos : 0 < c.work := by simp [Child.work, hlive]
      rw [Handler.work, Handler.work, hc]
      simp only [Option.map_some, Option.getD_some, Child.work_exit]
      omega

/-! ## What holds of every clean run -/

/-- Handlers wait behind their fork only and give back what they open, and the system has what
it had. -/
structure Draining (s : State) : Prop where
  waits : ∀ (k : Nat) (h : Handler), s.handlers[k]? = some h → Waits h.child.isSome h.todo
  balanced : Balanced s.pool (scripts s)
  system : ∀ n, s.pool.table.lookup n = some .system → n < 4

theorem draining_init : Draining init where
  waits := by
    intro k h hk
    cases hk
  balanced := by
    intro k ops hk
    cases hk
  system n hn := by
    rcases Nat.lt_or_ge n 4 with hlt | hge
    · exact hlt
    · obtain ⟨m, rfl⟩ := Nat.exists_eq_add_of_le' hge
      cases hn

/-- A handler has a child behind a call when it had one or the call starts one. -/
theorem isSome_after (s : State) (k : Nat) (h : Handler) (c : Call) (rest : List Call) :
    (h.after s k c rest).child.isSome = (h.child.isSome || forks c) := by
  cases c with
  | fork child =>
      cases child with
      | none => exact (Bool.or_false _).symm
      | some calls => exact (Bool.or_true _).symm
  | _ => exact (Bool.or_false _).symm

theorem Draining.setChild {s : State} (hs : Draining s) {k : Nat} {h : Handler} {c : Child}
    (hk : s.handlers[k]? = some h) (hc : h.child = some c) (c' : Child) :
    Draining (s.setChild k h c') where
  waits := forall_set hs.waits (by
    have hw := hs.waits k h hk
    rw [hc] at hw
    exact hw)
  balanced := by
    rw [scripts_setChild hk]
    exact hs.balanced
  system := hs.system

theorem Draining.step {s s' : State} {a : Act} (hs : Draining s) (hsettled : Settled s)
    (hclean : Clean s a) (hstep : Server.step s a = some s') : Draining s' := by
  cases (moves_of_step hstep).2 with
  | @accept env input created =>
      obtain ⟨rfl, hunfailing⟩ := hclean
      refine ⟨forall_snoc hs.waits (acceptRequest_waits env input), ?_, fun n hn =>
        hs.system n (Pool.system_of_perform hn)⟩
      have hspawn := hs.balanced.spawn hsettled.owned .sockClient
        (acceptRequest_follows hunfailing).after
      rw [scripts, List.length_map] at hspawn
      rw [scripts, List.map_append]
      exact hspawn
  | signal => exact ⟨hs.waits, hs.balanced, hs.system⟩
  | @call k h c rest hk htodo =>
      have hw := hs.waits k h hk
      rw [htodo] at hw
      refine ⟨forall_set hs.waits ?_, ?_, fun n hn => hs.system n (Pool.system_of_performAll hn)⟩
      · rw [Handler.after_todo, isSome_after]
        exact hw.2
      · have hall := hs.balanced.performAll hsettled.owned (scripts_next hk htodo)
        rw [scripts, List.map_set, Handler.after_todo]
        exact hall
  | child hk hc => exact hs.setChild hk hc _
  | childExit hk hc => exact hs.setChild hk hc _
  | reset => exact ⟨hs.waits, hs.balanced, hs.system⟩

theorem draining_of_run {s : State} {acts : List Act} (hclean : Along step Clean init acts)
    (hrun : run step init acts = some s) : Draining s :=
  (run_invariant_along (P := fun s => Settled s ∧ Draining s)
    (fun _ _ _ hs hq hstep => ⟨hs.1.step hq hstep, hs.2.step hs.1 hq hstep⟩)
    ⟨settled_init, draining_init⟩ hclean hrun).2

/-! ## Waiting -/

/-- A live child that can keep handler `k` waiting: its own, or one that holds the write end of
its output pipe. -/
def Awaits (s : State) (k : Nat) : Prop :=
  ∃ (j : Nat) (h : Handler) (c : Child), s.handlers[j]? = some h ∧ h.child = some c ∧
    c.exited = false ∧ (j = k ∨ some (.own k .cgiOutput1) ∈ c.table)

/-- Handler `k` can be held in the call: in a read while somebody has the write end, whatever it
returns in the end, and in a `waitpid` while the child lives. -/
def State.mayBlock (s : State) (k : Nat) (h : Handler) : Call → Bool
  | .read fd _ => !s.endOfFile (s.pool.target k fd)
  | .waitpid => !h.child.any Child.exited
  | _ => false

/-- A handler with a call to make that makes none is held in it. -/
theorem mayBlock_of_stuck {s : State} (halive : s.alive = true) {k : Nat} {h : Handler} {c : Call}
    {rest : List Call} (hk : s.handlers[k]? = some h) (htodo : h.todo = c :: rest)
    (hstuck : step s (.handler k) = none) : s.mayBlock k h c = true := by
  have hreturns : s.returns k h c = false := by
    rw [step, halive] at hstuck
    simp only [Bool.not_true, Bool.false_eq_true, if_false, hk, Option.bind_some, State.handle,
      htodo] at hstuck
    split at hstuck
    next hret => simpa using hret
    next => split at hstuck <;> cases hstuck
  cases c with
  | read fd got =>
      cases got with
      | none => exact congrArg not hreturns
      | some b => cases hreturns
  | waitpid => exact congrArg not hreturns
  | _ => cases hreturns

/-- Somebody else has the write end that a handler has closed: a child that lives. -/
theorem awaits_of_not_endOfFile {s : State} {acts : List Act} (hrun : run step init acts = some s)
    {k : Nat} (hserver : some (.own k .cgiOutput1) ∉ s.pool.table)
    (hopen : s.endOfFile (some (.own k .cgiOutput0)) = false) : Awaits s k := by
  rw [State.endOfFile, State.someoneHolds, Bool.not_eq_false', Bool.or_eq_true,
    List.contains_iff_mem, or_iff_right hserver, List.any_eq_true] at hopen
  obtain ⟨h, hmem, hholds⟩ := hopen
  obtain ⟨c, hc, hin⟩ := (Option.any_eq_true _ _).mp hholds
  obtain ⟨j, hj⟩ := List.getElem?_of_mem hmem
  rw [List.contains_iff_mem] at hin
  refine ⟨j, h, c, hj, hc, ?_, .inr hin⟩
  rw [← Bool.not_eq_true]
  intro hexited
  rw [exited_holds_nothing hrun j h hj c hc hexited] at hin
  cases hin

/-- Of the calls of a clean run that can be held, each waits for a child. -/
theorem awaits_of_mayBlock {s : State} {acts : List Act} (hclean : Along step Clean init acts)
    (hrun : run step init acts = some s) {k : Nat} {h : Handler} {c : Call} {rest : List Call}
    (hk : s.handlers[k]? = some h) (htodo : h.todo = c :: rest)
    (hblock : s.mayBlock k h c = true) : Awaits s k := by
  have hsettled := settled_of_run hclean hrun
  have hw := (draining_of_run hclean hrun).waits k h hk
  have htidy : Tidy s := run_invariant (fun _ _ _ hs hstep => hs.step hstep) tidy_init hrun
  rw [htodo] at hw
  obtain ⟨hmay, -⟩ := hw
  cases c with
  | read fd got =>
      obtain ⟨hforked, rfl, hclose⟩ := hmay
      have hchild : h.child ≠ none := by
        rintro hnone
        rw [hnone] at hforked
        cases hforked
      have hserver := ((htidy.forked k h hk hchild).2).resolve_left (by
        rw [htodo, List.mem_cons, not_or]
        exact ⟨nofun, hclose⟩)
      have htarget : s.pool.target k .cgiOutput0 = some (.own k .cgiOutput0) :=
        hsettled.owned.target_eq (scripts_next hk htodo) fun _ => nofun
      rw [State.mayBlock, htarget, Bool.not_eq_true'] at hblock
      exact awaits_of_not_endOfFile hrun hserver hblock
  | waitpid =>
      obtain ⟨child, hchild⟩ := Option.isSome_iff_exists.mp hmay
      rw [State.mayBlock, hchild, Option.any_some, Bool.not_eq_true'] at hblock
      exact ⟨k, h, child, hk, hchild, hblock, .inl rfl⟩
  | _ => cases hblock

/-! ## At rest -/

/-- Every client has its answer, and what is open is what was open at the start. -/
structure Drained (acts : List Act) (s : State) : Prop where
  answered : ∀ k env input, (accepted acts)[k]? = some (env, input) →
    arrived (.own k .sockClient) acts = transmitted (acceptRequest env input)
  table : ∀ n, s.pool.table.lookup n = init.pool.table.lookup n

theorem drained_of_finished {s : State} {acts : List Act} (hclean : Along step Clean init acts)
    (hrun : run step init acts = some s) (hend : ∀ h ∈ s.handlers, h.todo = []) :
    Drained acts s := by
  have hintact := intact_of_run hclean hrun
  have hdraining := draining_of_run hclean hrun
  refine ⟨fun k env input hk => ?_, fun n => ?_⟩
  · obtain ⟨h, hh, hsent, -⟩ := (delivered_of_run hclean hrun).handler hintact hk
    rw [hend h (List.mem_of_getElem? hh), transmitted_nil, List.append_nil] at hsent
    exact hsent
  · have hscripts : ∀ ops ∈ scripts s, ops = [] := by
      intro ops hops
      obtain ⟨h, hmem, rfl⟩ := List.mem_map.mp hops
      rw [hend h hmem]
      rfl
    rcases hlook : s.pool.table.lookup n with - | ⟨- | ⟨k, x⟩⟩
    · rcases Nat.lt_or_ge n 4 with hlt | hge
      · rw [hintact.system n hlt] at hlook
        cases hlook
      · obtain ⟨m, rfl⟩ := Nat.exists_eq_add_of_le' hge
        rfl
    · have hlt := hdraining.system n hlook
      exact (intact_init.system n hlt).symm
    · exact absurd hlook
        (hdraining.balanced.lookup_ne_own hintact.settled.owned hscripts n k x)

/-- A program from start to end. -/
def programServed : List Act :=
  cgiRequest :: List.replicate 16 (.handler 0) ++ List.replicate 7 (.child 0) ++ [.childExit 0] ++
    List.replicate 5 (.handler 0)

theorem programServed_clean : Along step Clean init programServed := by
  refine clean_of_accepts fun env input created h => ?_
  simp only [programServed, cgiRequest, List.cons_append, List.mem_cons, List.mem_append,
    List.mem_replicate, reduceCtorEq, List.not_mem_nil, and_false, or_false,
    Act.accept.injEq] at h
  obtain ⟨rfl, rfl, rfl⟩ := h
  exact ⟨rfl, .inl (by decide), rfl, rfl, rfl⟩

end Server
