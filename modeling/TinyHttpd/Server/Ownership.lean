import TinyHttpd.Server.Discipline

/-!
# Who owns a descriptor

In a run in which every thread is created and no handler takes an error path behind
`stat`, every call hits what its own handler has opened, and every connection is
closed once.  A handler that closes its connection twice can close another one's:
the number may have been given away in between.
-/

namespace Server

open CString Httpd Descriptors Machine

/-- The accepted connection gets a thread, whose handler meets no failure from `stat`
on.  Other actions may be anything. -/
def Clean (_ : State) : Act → Prop
  | .accept env input created =>
      created = true ∧ Unfailing env (requestLine input).rest (route env (requestLine input).line)
  | _ => True

/-- The handlers follow the discipline, and the closes of a connection that have
happened and those still to come make one. -/
structure Settled (s : State) : Prop where
  owned : Owned s.pool (scripts s)
  once : ∀ k h, s.handlers[k]? = some h →
    s.pool.released k .sockClient + (h.todo.flatMap ops).count (.release .sockClient) = 1
  unborn : ∀ k, s.handlers.length ≤ k → s.pool.released k .sockClient = 0

theorem settled_init : Settled init where
  owned := by
    refine ⟨?_, ?_, ?_⟩
    · intro n k x hn
      exact absurd hn (init_lookup_ne_own n k x)
    · intro k ops hk
      cases hk
    · intro a ha
      cases ha
  once := by
    intro k h hk
    cases hk
  unborn := by
    intro k _
    rfl

/-- A handler that makes no call is settled as before. -/
theorem Settled.setChild {s : State} (hs : Settled s) {k : Nat} {h : Handler}
    (hk : s.handlers[k]? = some h) (c : Child) : Settled (s.setChild k h c) where
  owned := by
    rw [scripts_setChild hk]
    exact hs.owned
  once := forall_set hs.once (hs.once k h hk)
  unborn := by
    intro j hj
    rw [State.setChild, List.length_set] at hj
    exact hs.unborn j hj

/-- A new connection with a disciplined handler. -/
theorem Settled.accept {s : State} (hs : Settled s) {todo : List Call}
    (hf : Follows connected todo disconnected 1) :
    Settled { s with
      pool := s.pool.perform s.handlers.length (.acquire .sockClient)
      handlers := s.handlers ++ [⟨todo, none⟩] } where
  owned := by
    have hspawn := hs.owned.spawn .sockClient hf.disciplined
    rw [scripts, List.length_map] at hspawn
    rw [scripts, List.map_append]
    exact hspawn
  once := by
    refine forall_snoc hs.once ?_
    rw [hf.closes]
    exact congrArg (· + 1) (hs.unborn _ le_rfl)
  unborn := by
    intro k hk
    rw [List.length_append] at hk
    exact hs.unborn k (Nat.le_of_succ_le hk)

/-- One call of a handler. -/
theorem Settled.call {s : State} (hs : Settled s) {k : Nat} {h : Handler} {c : Call}
    {rest : List Call} (hk : s.handlers[k]? = some h) (htodo : h.todo = c :: rest) :
    Settled { s with
      pool := s.pool.performAll k (ops c)
      handlers := s.handlers.set k (h.after s k c rest) } := by
  have hlt := (List.getElem?_eq_some_iff.mp hk).1
  have hreleased := fun j => hs.owned.released_performAll j .sockClient (scripts_next hk htodo)
  refine ⟨?_, fun j h' hj => ?_, fun j hj => ?_⟩
  · have hall := hs.owned.performAll (scripts_next hk htodo)
    rw [scripts, List.map_set, Handler.after_todo]
    exact hall
  · rw [hreleased]
    by_cases hjk : j = k
    · -- The closes move from the script into the log.
      subst hjk
      rw [List.getElem?_set_self hlt] at hj
      cases hj
      have honce := hs.once j h hk
      rw [htodo, List.flatMap_cons, List.count_append] at honce
      rw [Handler.after_todo, if_pos rfl]
      omega
    · rw [List.getElem?_set_ne (Ne.symm hjk)] at hj
      rw [if_neg hjk]
      exact hs.once j h' hj
  · rw [List.length_set] at hj
    rw [hreleased, if_neg (by omega)]
    exact hs.unborn j hj

theorem Settled.step {s s' : State} {a : Act} (hs : Settled s) (hclean : Clean s a)
    (hstep : Server.step s a = some s') : Settled s' := by
  cases (moves_of_step hstep).2 with
  | accept =>
      obtain ⟨rfl, hunfailing⟩ := hclean
      exact hs.accept (acceptRequest_follows hunfailing)
  | signal => exact ⟨hs.owned, hs.once, hs.unborn⟩
  | call hk htodo => exact hs.call hk htodo
  | child hk => exact hs.setChild hk _
  | childExit hk => exact hs.setChild hk _
  | reset => exact ⟨hs.owned, hs.once, hs.unborn⟩

/-- Every state of a clean run is settled. -/
theorem settled_of_run {s : State} {acts : List Act} (hclean : Along step Clean init acts)
    (hrun : run step init acts = some s) : Settled s :=
  run_invariant_along (fun _ _ _ hs hq hstep => hs.step hq hstep) settled_init hclean hrun

/-- In a clean run every use and every close hits what the handler that makes it has
opened itself, and a connection is closed at most once, and once when its handler
has finished. -/
theorem clean_run_owns {s : State} {acts : List Act} (hclean : Along step Clean init acts)
    (hrun : run step init acts = some s) :
    (∀ a ∈ s.pool.log, a.target = some (.own a.owner a.op.name)) ∧
      ∀ k h, s.handlers[k]? = some h → s.pool.released k .sockClient ≤ 1 ∧
        (h.todo = [] → s.pool.released k .sockClient = 1) := by
  have hs := settled_of_run hclean hrun
  refine ⟨hs.owned.hits, fun k h hk => ?_⟩
  have honce := hs.once k h hk
  refine ⟨by omega, fun hdone => ?_⟩
  rw [hdone] at honce
  exact honce

/-- Three connections whose handlers take turns: a body for a program, another program, and a
file.  The file is sent, the client of the second request resets its connection behind the
head of the answer, and the program of the first is gone when one byte of the body has been
written. -/
def crossed : List Act :=
  [.accept .obliging (bytes "POST /x\nContent-Length: 2\n\nab") true,
    .accept .obliging (bytes "GET /y?\n\n") true, .accept .obliging (bytes "GET /z\n\n") true] ++
  (List.replicate 14 [.handler 2, .handler 1, .handler 0]).flatten ++
  (List.replicate 2 [.handler 1, .handler 0]).flatten ++ [.child 1, .reset 1] ++
  List.replicate 20 (.handler 0) ++ [.childExit 0]

/-- A list of actions is clean when its connections are. -/
theorem clean_of_accepts {acts : List Act}
    (h : ∀ env input created, .accept env input created ∈ acts → created = true ∧
      Unfailing env (requestLine input).rest (route env (requestLine input).line)) :
    Along step Clean init acts := by
  refine along_of_forall (fun s a ha => ?_) init
  cases a with
  | accept env input created => exact h env input created ha
  | _ => trivial

theorem crossed_clean : Along step Clean init crossed := by
  refine clean_of_accepts fun env input created h => ?_
  simp only [crossed, List.cons_append, List.nil_append, List.mem_cons, List.mem_append,
    List.mem_flatten, List.mem_replicate, ne_eq, not_false_eq_true, true_and,
    exists_eq_left, reduceCtorEq, List.not_mem_nil, and_false, or_false, Act.accept.injEq] at h
  obtain ⟨rfl, rfl, rfl⟩ | ⟨rfl, rfl, rfl⟩ | ⟨rfl, rfl, rfl⟩ := h
  · exact ⟨rfl, .inr (by decide), rfl, rfl, rfl⟩
  · exact ⟨rfl, .inl (by decide), rfl, rfl, rfl⟩
  · exact ⟨rfl, bytes "hello", rfl, rfl⟩

theorem crossed_runs : ∃ s, run step init crossed = some s :=
  Option.isSome_iff_exists.mp (by decide)

theorem crossed_owns : ∃ s, run step init crossed = some s ∧
    (∀ a ∈ s.pool.log, a.target = some (.own a.owner a.op.name)) ∧
      ∀ k h, s.handlers[k]? = some h → s.pool.released k .sockClient ≤ 1 ∧
        (h.todo = [] → s.pool.released k .sockClient = 1) := by
  obtain ⟨s, hs⟩ := crossed_runs
  exact ⟨s, hs, clean_run_owns crossed_clean hs⟩

/-- Two connections, the first for a file that cannot be opened.  The second is
accepted between the two closes of the first. -/
def doubleClose : List Act :=
  .accept { Env.obliging with openFile := fun _ => none } (bytes "GET /x\n\n") true ::
    List.replicate 15 (.handler 0) ++
    [.accept .obliging (bytes "GET /x\n\n") true, .handler 0]

/-- The second close of the first handler closes the other connection. -/
theorem doubleClose_hits_other : ∃ s, run step init doubleClose = some s ∧
    ⟨0, .release .sockClient, some (.own 1 .sockClient)⟩ ∈ s.pool.log ∧
      s.pool.released 1 .sockClient = 1 ∧ ∃ h, s.handlers[1]? = some h ∧ h.todo ≠ [] := by
  have hrun : ((run step init doubleClose).any fun s =>
      s.pool.log.contains ⟨0, .release .sockClient, some (.own 1 .sockClient)⟩ &&
        s.pool.released 1 .sockClient == 1 &&
          s.handlers[1]?.any fun h => !h.todo.isEmpty) = true := by
    decide
  obtain ⟨s, hs, h⟩ := (Option.any_eq_true _ _).mp hrun
  simp only [Bool.and_eq_true, List.contains_iff_mem, beq_iff_eq] at h
  obtain ⟨hd, hk, hne⟩ := (Option.any_eq_true _ _).mp h.2
  exact ⟨s, hs, h.1.1, h.1.2, hd, hk, by simpa using hne⟩

end Server
