import TinyHttpd.Server.Scripts

/-!
# What a CGI child inherits

A child gets the server's whole table and closes the two ends of its own request, so
it keeps what other requests had open at its `fork`: that, and nothing that was
opened later.  A write end that outlives the handler's close is in such a child.
-/

namespace Server

open CString Httpd Descriptors Machine

/-- What holds in every state of every run, whatever fails. -/
structure Tidy (s : State) : Prop where
  fresh : Fresh s.pool (scripts s)
  shaped : ∀ (k : Nat) (h : Handler), s.handlers[k]? = some h → Shaped h.todo
  forked : ∀ (k : Nat) (h : Handler), s.handlers[k]? = some h → h.child ≠ none →
    Plain h.todo [] ∧
      (.close .cgiOutput1 ∈ h.todo ∨ some (.own k .cgiOutput1) ∉ s.pool.table)

theorem tidy_init : Tidy init where
  fresh := by
    refine ⟨?_, ?_⟩
    · intro n k x hn
      exact absurd hn (init_lookup_ne_own n k x)
    · intro k ops hk
      cases hk
  shaped := by
    intro k h hk
    cases hk
  forked := by
    intro k h hk
    cases hk

theorem Tidy.setChild {s : State} (hs : Tidy s) {k : Nat} {h : Handler} {c : Child}
    (hk : s.handlers[k]? = some h) (hc : h.child = some c) (c' : Child) :
    Tidy (s.setChild k h c') where
  fresh := by
    rw [scripts_setChild hk]
    exact hs.fresh
  shaped := forall_set hs.shaped (hs.shaped k h hk)
  forked := forall_set hs.forked fun _ => hs.forked k h hk (by rw [hc]; exact nofun)

theorem Tidy.accept {s : State} (hs : Tidy s) {todo : List Call} {names : List Fd}
    (hscript : Script todo names) (hnodup : (.sockClient :: names).Nodup) :
    Tidy { s with
      pool := s.pool.perform s.handlers.length (.acquire .sockClient)
      handlers := s.handlers ++ [⟨todo, none⟩] } where
  fresh := by
    have hnames : (Fd.sockClient :: acquired (todo.flatMap ops)).Nodup := by
      rw [hscript.acquired]
      exact hnodup
    have hspawn := hs.fresh.spawn .sockClient hnames
    rw [scripts, List.length_map] at hspawn
    rw [scripts, List.map_append]
    exact hspawn
  shaped := forall_snoc hs.shaped hscript.shaped
  forked := by
    refine forall_snoc (fun j h hj hchild => ?_) (fun hchild => absurd rfl hchild)
    obtain ⟨hplain, hclosed⟩ := hs.forked j h hj hchild
    refine ⟨hplain, hclosed.imp_right fun hnot hmem => ?_⟩
    obtain hin | ⟨x, hx, heq⟩ := Pool.mem_perform hmem
    · exact hnot hin
    · cases hx
      cases heq

/-- The close of `cgi_output[1]` takes it out of the table. -/
theorem Pool.Numbered.not_mem_release {p : Pool Fd} {owners k : Nat} (h : p.Numbered owners)
    (x : Fd) : some (.own k x) ∉ (p.perform k (.release x)).table := by
  intro hmem
  obtain ⟨n, hn⟩ := (Table.mem_iff_lookup _ _).mp hmem
  rw [Pool.perform, Table.lookup_clear] at hn
  split at hn
  next => cases hn
  next hne => exact hne (h n k x hn).1.symm

theorem Tidy.call {s : State} (hs : Tidy s) {k : Nat} {h : Handler} {c : Call} {rest : List Call}
    (hk : s.handlers[k]? = some h) (htodo : h.todo = c :: rest) :
    Tidy { s with
      pool := s.pool.performAll k (ops c)
      handlers := s.handlers.set k (h.after s k c rest) } := by
  have hshaped := hs.shaped k h hk
  rw [htodo] at hshaped
  -- A handler that has forked acquires nothing, and nobody acquires for another.
  have hstays : ∀ (j : Nat) (h' : Handler), s.handlers[j]? = some h' → h'.child ≠ none →
      some (.own j .cgiOutput1) ∉ s.pool.table →
        some (.own j .cgiOutput1) ∉ (s.pool.performAll k (ops c)).table := by
    intro j h' hj hchild hnot hmem
    obtain hin | ⟨x, hx, heq⟩ := Pool.mem_performAll hmem
    · exact hnot hin
    · cases heq
      rw [hk] at hj
      cases hj
      have hnone := (hs.forked k h hk hchild).1.acquired
      rw [htodo, List.flatMap_cons, acquired_append] at hnone
      rw [(List.append_eq_nil_iff.mp hnone).1] at hx
      cases hx
  refine ⟨?_, forall_set hs.shaped ?_, forall_set (fun j h' hj hchild => ?_) fun hchild => ?_⟩
  · have hall := hs.fresh.performAll (scripts_next hk htodo)
    rw [scripts, List.map_set, Handler.after_todo]
    exact hall
  · rw [Handler.after_todo]
    exact hshaped.tail
  · obtain ⟨hplain, hclosed⟩ := hs.forked j h' hj hchild
    exact ⟨hplain, hclosed.imp_right (hstays j h' hj hchild)⟩
  · rw [Handler.after_todo]
    obtain ⟨calls, hfork, -⟩ | hkept := h.after_child s k c rest
    · obtain ⟨hplain, hclose⟩ := hshaped.1 calls hfork
      exact ⟨hplain, Or.inl hclose⟩
    · rw [hkept] at hchild
      obtain ⟨hplain, hclosed⟩ := hs.forked k h hk hchild
      rw [htodo] at hplain hclosed
      refine ⟨hplain.tail, ?_⟩
      obtain hclose | hnot := hclosed
      · obtain heq | hrest := List.mem_cons.mp hclose
        · rw [← heq]
          exact Or.inr (Pool.Numbered.not_mem_release hs.fresh.numbered _)
        · exact Or.inl hrest
      · exact Or.inr (hstays k h hk hchild hnot)

theorem Tidy.step {s s' : State} {a : Act} (hs : Tidy s) (hstep : Server.step s a = some s') :
    Tidy s' := by
  cases (moves_of_step hstep).2 with
  | @accept env input created =>
      cases created with
      | false => exact hs.accept plain_nil.script (by decide)
      | true =>
          obtain ⟨names, hscript, hnodup⟩ := acceptRequest_script env input
          exact hs.accept hscript hnodup
  | signal => exact ⟨hs.fresh, hs.shaped, hs.forked⟩
  | call hk htodo => exact hs.call hk htodo
  | child hk hc => exact hs.setChild hk hc _
  | childExit hk hc => exact hs.setChild hk hc _
  | reset => exact ⟨hs.fresh, hs.shaped, hs.forked⟩

/-! ## Descent -/

/-- The child of handler `k` was forked, in the run, while the server's table had the
entry. -/
def ForkedWith (acts : List Act) (k : Nat) (e : Entry Fd) : Prop :=
  ∃ (before after : List Act) (s : State) (h : Handler) (calls : List ChildCall)
    (rest : List Call), acts = before ++ .handler k :: after ∧ run step init before = some s ∧
      s.handlers[k]? = some h ∧ h.todo = .fork (some calls) :: rest ∧ some e ∈ s.pool.table

theorem ForkedWith.append {acts : List Act} {k : Nat} {e : Entry Fd} (h : ForkedWith acts k e)
    (a : Act) : ForkedWith (acts ++ [a]) k e := by
  obtain ⟨before, after, s, hd, calls, rest, rfl, hrest⟩ := h
  exact ⟨before, after ++ [a], s, hd, calls, rest, by simp, hrest⟩

/-- A child's call adds no entry to its table. -/
theorem mem_tableAfter {c : Child} {d : ChildCall} {e : Entry Fd}
    (he : some e ∈ c.tableAfter d) : some e ∈ c.table := by
  cases d with
  | close fd =>
      obtain ⟨n, hn⟩ := (Table.mem_iff_lookup _ _).mp he
      rw [Child.tableAfter, Table.lookup_clear] at hn
      split at hn
      next => cases hn
      next => exact (Table.mem_iff_lookup _ _).mpr ⟨n, hn⟩
  | dup2 fd m =>
      rw [Child.tableAfter] at he
      cases hfd : c.table.lookup (c.number fd) with
      | none =>
          rw [hfd] at he
          exact he
      | some e' =>
          rw [hfd] at he
          obtain ⟨n, hn⟩ := (Table.mem_iff_lookup _ _).mp he
          rw [Table.lookup_put] at hn
          split at hn
          next =>
              cases hn
              exact (Table.mem_iff_lookup _ _).mpr ⟨_, hfd⟩
          next => exact (Table.mem_iff_lookup _ _).mpr ⟨n, hn⟩
  | putenv entry => exact he
  | execl path ok => exact he
  | exit code => exact he

theorem mem_table_of_step {c c' : Child} (hstep : c.step = some c') {e : Entry Fd}
    (he : some e ∈ c'.table) : some e ∈ c.table := by
  obtain ⟨-, d, rest, -, rfl⟩ := child_step_eq hstep
  obtain hexit | ⟨htable, -⟩ := c.after_cases rest d
  · rw [hexit] at he
    cases he
  · rw [htable] at he
    exact mem_tableAfter he

/-- Every entry a child has comes from the server's table at its `fork`. -/
theorem forkedWith_of_mem {s : State} {acts : List Act} (hrun : run step init acts = some s) :
    ∀ (k : Nat) (h : Handler), s.handlers[k]? = some h → ∀ c, h.child = some c →
      ∀ e, some e ∈ c.table → ForkedWith acts k e := by
  refine run_history (P := fun acts s => ∀ (k : Nat) (h : Handler), s.handlers[k]? = some h →
    ∀ c, h.child = some c → ∀ e, some e ∈ c.table → ForkedWith acts k e) ?_ ?_ hrun
  · intro k h hk
    cases hk
  · intro acts s a s' hrun hall hstep
    have hall' : ∀ (k : Nat) (h : Handler), s.handlers[k]? = some h → ∀ c, h.child = some c →
        ∀ e, some e ∈ c.table → ForkedWith (acts ++ [a]) k e :=
      fun k h hk c hc e he => (hall k h hk c hc e he).append a
    cases (moves_of_step hstep).2 with
    | accept => exact forall_snoc hall' (fun c hc => by cases hc)
    | signal => exact hall'
    | @call k h c rest hk htodo =>
        refine forall_set hall' fun d hd e he => ?_
        obtain ⟨calls, rfl, hfork⟩ | hkept := h.after_child s k c rest
        · rw [hfork] at hd
          cases hd
          exact ⟨acts, [], s, h, calls, rest, rfl, hrun, hk, htodo, he⟩
        · rw [hkept] at hd
          exact hall' k h hk d hd e he
    | @child k h c c' hk hc hcall =>
        refine forall_set hall' fun d hd e he => ?_
        cases hd
        exact hall' k h hk c hc e (mem_table_of_step hcall he)
    | childExit hk hc =>
        refine forall_set hall' fun d hd e he => ?_
        cases hd
        cases he
    | reset => exact hall'

/-- A child of another handler that holds an entry. -/
def HeldByOther (s : State) (k : Nat) (e : Entry Fd) : Prop :=
  ∃ (j : Nat) (h : Handler) (c : Child), j ≠ k ∧ s.handlers[j]? = some h ∧ h.child = some c ∧
    some e ∈ c.table

/-- The children that are gone hold nothing. -/
theorem exited_holds_nothing {s : State} {acts : List Act} (hrun : run step init acts = some s) :
    ∀ (k : Nat) (h : Handler), s.handlers[k]? = some h → ∀ c, h.child = some c →
      c.exited = true → c.table = [] := by
  refine run_invariant (P := fun s => ∀ (k : Nat) (h : Handler), s.handlers[k]? = some h →
    ∀ c, h.child = some c → c.exited = true → c.table = []) (fun s a s' hall hstep => ?_) ?_ hrun
  · cases (moves_of_step hstep).2 with
    | accept => exact forall_snoc hall (fun c hc => by cases hc)
    | signal => exact hall
    | @call k h c rest hk htodo =>
        refine forall_set hall fun d hd hexited => ?_
        obtain ⟨calls, rfl, hfork⟩ | hkept := h.after_child s k c rest
        · rw [hfork] at hd
          cases hd
          cases hexited
        · rw [hkept] at hd
          exact hall k h hk d hd hexited
    | @child k h c c' hk hc hcall =>
        refine forall_set hall fun d hd hexited => ?_
        cases hd
        obtain ⟨hlive, e, rest, -, rfl⟩ := child_step_eq hcall
        obtain hexit | ⟨-, -, -, hsame⟩ := c.after_cases rest e
        · rw [hexit]
          rfl
        · rw [hsame, hlive] at hexited
          cases hexited
    | childExit hk hc =>
        refine forall_set hall fun d hd _ => ?_
        cases hd
        rfl
    | reset => exact hall
  · intro k h hk
    cases hk

/-- A child holds what another request had open at its own `fork` and nothing else of
another request.  When a handler has closed its copy of `cgi_output[1]` and its
child is gone, the write end is left in children of other requests that were forked
while the server had it, and the read end sees the end of file once they are gone. -/
theorem child_holds_only_inherited {s : State} {acts : List Act}
    (hrun : run step init acts = some s) :
    (∀ k h c j fd, s.handlers[k]? = some h → h.child = some c → j ≠ k →
      some (.own j fd) ∈ c.table → ForkedWith acts k (.own j fd)) ∧
    ∀ k h c, s.handlers[k]? = some h → h.child = some c → c.exited = true →
      .close .cgiOutput1 ∉ h.todo →
        some (.own k .cgiOutput1) ∉ s.pool.table ∧
        some (.own k .cgiOutput1) ∉ c.table ∧
        (¬HeldByOther s k (.own k .cgiOutput1) →
          s.endOfFile (some (.own k .cgiOutput0)) = true) := by
  have htidy : Tidy s := run_invariant (fun _ _ _ hs hstep => hs.step hstep) tidy_init hrun
  refine ⟨fun k h c j fd hk hc _ he => forkedWith_of_mem hrun k h hk c hc _ he,
    fun k h c hk hc hexited hclosed => ?_⟩
  have hserver := ((htidy.forked k h hk (by rw [hc]; exact nofun)).2).resolve_left hclosed
  have hempty := exited_holds_nothing hrun k h hk c hc hexited
  refine ⟨hserver, by rw [hempty]; exact List.not_mem_nil, fun hother => ?_⟩
  rw [State.endOfFile, State.someoneHolds, Bool.not_eq_true', Bool.or_eq_false_iff]
  refine ⟨?_, ?_⟩
  · rw [← Bool.not_eq_true, List.contains_iff_mem]
    exact hserver
  · rw [List.any_eq_false]
    intro h' hmem hholds
    obtain ⟨c', hc', hin⟩ := (Option.any_eq_true _ _).mp hholds
    obtain ⟨j, hj⟩ := List.getElem?_of_mem hmem
    have hin' := List.contains_iff_mem.mp hin
    by_cases hjk : j = k
    · subst hjk
      rw [hk] at hj
      cases hj
      rw [hc] at hc'
      cases hc'
      rw [hempty] at hin'
      cases hin'
    · exact hother ⟨j, h', c', hjk, hj, hc', hin'⟩

/-- A request for a CGI program. -/
def cgiRequest : Act := .accept .obliging (bytes "GET /x?\n\n") true

/-- Two requests.  The second forks its child between the pipes and the closes of the
first, and the child of the first comes and goes. -/
def interleaved : List Act :=
  [cgiRequest, cgiRequest] ++ List.replicate 13 (.handler 0) ++ List.replicate 14 (.handler 1) ++
    List.replicate 7 (.child 1) ++ List.replicate 3 (.handler 0) ++ [.childExit 0]

/-- The second child runs its program with the connection and the pipes of the first
request, whose read end does not come to an end. -/
theorem interleaved_shares : ∃ s, run step init interleaved = some s ∧
    (∃ h c, s.handlers[1]? = some h ∧ h.child = some c ∧ c.executed = true ∧
      some (.own 0 .sockClient) ∈ c.table ∧ some (.own 0 .cgiOutput1) ∈ c.table) ∧
    (∃ h c, s.handlers[0]? = some h ∧ h.child = some c ∧ c.exited = true ∧
      .close .cgiOutput1 ∉ h.todo) ∧
    s.endOfFile (some (.own 0 .cgiOutput0)) = false := by
  have hrun : ((run step init interleaved).any fun s =>
      ((s.handlers[1]?.any fun h => h.child.any fun c => c.executed &&
        c.table.contains (some (.own 0 .sockClient)) &&
          c.table.contains (some (.own 0 .cgiOutput1))) &&
      (s.handlers[0]?.any fun h => h.child.any Child.exited &&
        !h.todo.contains (.close .cgiOutput1))) &&
      !s.endOfFile (some (.own 0 .cgiOutput0))) = true := by
    decide +kernel
  obtain ⟨s, hs, h⟩ := (Option.any_eq_true _ _).mp hrun
  obtain ⟨h01, heof⟩ := Bool.and_eq_true_iff.mp h
  obtain ⟨h1, h0⟩ := Bool.and_eq_true_iff.mp h01
  obtain ⟨hd1, hk1, h1⟩ := (Option.any_eq_true _ _).mp h1
  obtain ⟨c1, hc1, h1⟩ := (Option.any_eq_true _ _).mp h1
  obtain ⟨hd0, hk0, h0⟩ := (Option.any_eq_true _ _).mp h0
  obtain ⟨h0, hclosed⟩ := Bool.and_eq_true_iff.mp h0
  obtain ⟨c0, hc0, h0⟩ := (Option.any_eq_true _ _).mp h0
  simp only [Bool.and_eq_true, List.contains_iff_mem] at h1
  refine ⟨s, hs, ⟨hd1, c1, hk1, hc1, h1.1.1, h1.1.2, h1.2⟩, ⟨hd0, c0, hk0, hc0, h0, ?_⟩, ?_⟩
  · simpa using hclosed
  · simpa using heof

theorem interleaved_inherits : ∃ s, run step init interleaved = some s ∧
    ∀ k h c j fd, s.handlers[k]? = some h → h.child = some c → j ≠ k →
      some (.own j fd) ∈ c.table → ForkedWith interleaved k (.own j fd) := by
  have hrun : (run step init interleaved).isSome = true := by
    decide +kernel
  obtain ⟨s, hs⟩ := Option.isSome_iff_exists.mp hrun
  exact ⟨s, hs, (child_holds_only_inherited hs).1⟩

end Server
