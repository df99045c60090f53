import TinyHttpd.Server.Ownership
import TinyHttpd.Server.Scripts

/-!
# When a signal ends the server

The server dies of the first send to a client that has reset its connection, and of
the first write of a body byte that no process is left to read.  In a clean run
these are the handler's own client and its own pipe, and the child keeps the read
end of that pipe until it is gone.
-/

namespace Server

open CString Httpd Descriptors Machine

/-- A live child of handler `k`: it has the read end of its input pipe under a number
that none of its calls touches. -/
structure ChildFit (k : Nat) (c : Child) : Prop where
  reader : c.table.lookup (c.number .cgiInput0) = some (.own k .cgiInput0)
  input : c.number .cgiInput0 ≠ c.number .cgiInput1
  output : c.number .cgiInput0 ≠ c.number .cgiOutput0
  above : 2 ≤ c.number .cgiInput0
  aimed : ∀ d ∈ c.todo, ChildAimed d

/-- No call of a child touches its read end. -/
theorem ChildFit.lookup_tableAfter {k : Nat} {c : Child} (h : ChildFit k c) {d : ChildCall}
    (hd : ChildAimed d) :
    (c.tableAfter d).lookup (c.number .cgiInput0) = some (.own k .cgiInput0) := by
  cases d with
  | close fd =>
      rw [Child.tableAfter, Table.lookup_clear, if_neg, h.reader]
      obtain rfl | rfl := hd
      · exact h.input
      · exact h.output
  | dup2 fd n =>
      have hne : c.number .cgiInput0 ≠ n := Nat.ne_of_gt (Nat.lt_of_lt_of_le hd h.above)
      rw [Child.tableAfter]
      cases c.table.lookup (c.number fd) with
      | none => exact h.reader
      | some e =>
          dsimp only
          rw [Table.lookup_put, if_neg hne, h.reader]
  | putenv entry => exact h.reader
  | execl path ok => exact h.reader
  | exit code => exact h.reader

theorem ChildFit.step {k : Nat} {c c' : Child} (h : ChildFit k c) (hstep : c.step = some c')
    (hlive : c'.exited = false) : ChildFit k c' := by
  obtain ⟨-, d, rest, htodo, rfl⟩ := child_step_eq hstep
  have haimed := h.aimed
  rw [htodo, List.forall_mem_cons] at haimed
  obtain hexit | ⟨htable, hnumber, hrest, -⟩ := c.after_cases rest d
  · rw [hexit] at hlive
    cases hlive
  · refine ⟨?_, ?_, ?_, ?_, ?_⟩
    · rw [htable, hnumber]
      exact h.lookup_tableAfter haimed.1
    · rw [hnumber]
      exact h.input
    · rw [hnumber]
      exact h.output
    · rw [hnumber]
      exact h.above
    · rw [hrest]
      exact haimed.2

/-- What holds in every state of a clean run, of the server's table, the handlers and
the children. -/
structure Intact (s : State) : Prop where
  settled : Settled s
  system : ∀ n, n < 4 → s.pool.table.lookup n = some .system
  aimed : ∀ (k : Nat) (h : Handler), s.handlers[k]? = some h → ∀ c ∈ h.todo, Aimed c
  fit : ∀ (k : Nat) (h : Handler), s.handlers[k]? = some h → ∀ c, h.child = some c →
    c.exited = false → ChildFit k c

theorem intact_init : Intact init where
  settled := settled_init
  system := by decide
  aimed := by
    intro k h hk
    cases hk
  fit := by
    intro k h hk
    cases hk

/-- The child a `fork` starts is fit: the handler holds the four ends then. -/
theorem Intact.fork_fit {s : State} (hs : Intact s) {k : Nat} {h : Handler}
    {calls : List ChildCall} {rest : List Call} (hk : s.handlers[k]? = some h)
    (htodo : h.todo = .fork (some calls) :: rest) :
    ChildFit k ⟨s.pool.table, s.pool.number k, calls, false, false⟩ := by
  obtain ⟨hin0, hin1, hout0, -⟩ := hs.settled.owned.disciplined (scripts_next hk htodo)
  have h0 : s.pool.table.lookup (s.pool.number k .cgiInput0) = some (.own k .cgiInput0) :=
    of_decide_eq_true hin0
  have h1 : s.pool.table.lookup (s.pool.number k .cgiInput1) = some (.own k .cgiInput1) :=
    of_decide_eq_true hin1
  have h2 : s.pool.table.lookup (s.pool.number k .cgiOutput0) = some (.own k .cgiOutput0) :=
    of_decide_eq_true hout0
  refine ⟨h0, fun heq => ?_, fun heq => ?_, ?_, ?_⟩
  · dsimp only at heq
    rw [heq, h1] at h0
    cases h0
  · dsimp only at heq
    rw [heq, h2] at h0
    cases h0
  · refine Nat.le_of_not_lt fun hlt => ?_
    dsimp only at hlt
    rw [hs.system _ (Nat.lt_of_lt_of_le hlt (by decide))] at h0
    cases h0
  · exact hs.aimed k h hk _ (htodo ▸ List.mem_cons_self ..)

theorem Intact.step {s s' : State} {a : Act} (hs : Intact s) (hclean : Clean s a)
    (hstep : Server.step s a = some s') : Intact s' := by
  have hsettled := hs.settled.step hclean hstep
  cases (moves_of_step hstep).2 with
  | @accept env input created =>
      refine ⟨hsettled, fun n hn => ?_, forall_snoc hs.aimed ?_, forall_snoc hs.fit ?_⟩
      · exact Pool.system_stays (fun _ => nofun) (hs.system n hn)
      · obtain ⟨names, hscript, -⟩ := acceptRequest_script env input
        rw [if_pos hclean.1]
        exact hscript.aimed
      · intro c hc
        cases hc
  | signal => exact ⟨hsettled, hs.system, hs.aimed, hs.fit⟩
  | @call k h c rest hk htodo =>
      refine ⟨hsettled, fun n hn => ?_, forall_set hs.aimed ?_, forall_set hs.fit ?_⟩
      · exact hs.settled.owned.system_stays (scripts_next hk htodo) (hs.system n hn)
      · rw [Handler.after_todo]
        exact fun d hd => hs.aimed k h hk d (htodo ▸ List.mem_cons_of_mem _ hd)
      · intro d hd hlive
        obtain ⟨calls, rfl, hfork⟩ | hkept := h.after_child s k c rest
        · rw [hfork] at hd
          cases hd
          exact hs.fork_fit hk htodo
        · rw [hkept] at hd
          exact hs.fit k h hk d hd hlive
  | @child k h c c' hk hc hcall =>
      refine ⟨hsettled, hs.system, forall_set hs.aimed (hs.aimed k h hk), forall_set hs.fit ?_⟩
      intro d hd hlive
      cases hd
      exact (hs.fit k h hk c hc (child_step_eq hcall).1).step hcall hlive
  | @childExit k h c hk hc =>
      refine ⟨hsettled, hs.system, forall_set hs.aimed (hs.aimed k h hk), forall_set hs.fit ?_⟩
      intro d hd hlive
      cases hd
      cases hlive
  | reset => exact ⟨hsettled, hs.system, hs.aimed, hs.fit⟩

/-! ## The signal -/

/-- A call of handler `k` is heard: when it sends, its client is there, and when it
writes a body byte there is a reader. -/
def HeardCall (s : State) (k : Nat) : Call → Prop
  | .send _ _ => k ∉ s.gone
  | .sendfile _ _ _ sent => sent ≠ some [] → k ∉ s.gone
  | .write _ _ => s.someoneHolds (.own k .cgiInput0) = true
  | _ => True

/-- The next call is heard. -/
def Heard (s : State) : Act → Prop
  | .handler k => ∀ (h : Handler) (c : Call) (rest : List Call), s.handlers[k]? = some h →
      h.todo = c :: rest → HeardCall s k c
  | _ => True

theorem heard_iff {s : State} {k : Nat} {h : Handler} {c : Call} {rest : List Call}
    (hk : s.handlers[k]? = some h) (htodo : h.todo = c :: rest) :
    Heard s (.handler k) ↔ HeardCall s k c := by
  constructor
  · intro hall
    exact hall h c rest hk htodo
  · intro hc h' c' rest' hk' htodo'
    rw [hk] at hk'
    cases hk'
    rw [htodo] at htodo'
    cases htodo'
    exact hc

/-- In a clean run the signal is raised by a handler's own client or its own pipe. -/
theorem Intact.raises_iff {s : State} (hs : Intact s) {k : Nat} {h : Handler} {c : Call}
    {rest : List Call} (hk : s.handlers[k]? = some h) (htodo : h.todo = c :: rest) :
    s.raises k c = false ↔ HeardCall s k c := by
  have haimed := hs.aimed k h hk c (htodo ▸ List.mem_cons_self ..)
  have hscript := scripts_next hk htodo
  cases c with
  | send fd data =>
      obtain rfl : fd = .sockClient := haimed
      have htarget := hs.settled.owned.target_eq hscript fun x hx => by cases hx
      rw [State.raises, show s.pool.target k .sockClient = _ from htarget]
      simp [State.brokenSocket, Op.name, HeardCall]
  | write fd b =>
      obtain rfl : fd = .cgiInput1 := haimed
      have htarget := hs.settled.owned.target_eq hscript fun x hx => by cases hx
      rw [State.raises, show s.pool.target k .cgiInput1 = _ from htarget]
      simp [State.brokenSocket, State.brokenPipe, Op.name, HeardCall]
  | sendfile out inp count sent =>
      obtain rfl : out = .sockClient := haimed
      have htarget := hs.settled.owned.target_eq hscript fun x hx => by cases hx
      rw [State.raises, show s.pool.target k .sockClient = _ from htarget]
      by_cases hsent : sent = some []
      · simp [hsent, HeardCall]
      · simp [State.brokenSocket, State.brokenPipe, Op.name, hsent, HeardCall]
  | _ => exact iff_of_true rfl trivial

/-- A step keeps the server alive when it is heard, and only then. -/
theorem Intact.alive_iff {s s' : State} {a : Act} (hs : Intact s)
    (hstep : Server.step s a = some s') :
    s'.alive = true ↔ Heard s a := by
  obtain ⟨halive, hmoves⟩ := moves_of_step hstep
  cases hmoves with
  | accept => exact iff_of_true halive trivial
  | signal hk htodo hraises =>
      rw [heard_iff hk htodo, ← hs.raises_iff hk htodo, hraises]
      exact iff_of_false nofun nofun
  | call hk htodo _ hraises =>
      rw [heard_iff hk htodo, ← hs.raises_iff hk htodo]
      exact iff_of_true halive hraises
  | child => exact iff_of_true halive trivial
  | childExit => exact iff_of_true halive trivial
  | reset => exact iff_of_true halive trivial

/-- A server that is gone makes no step. -/
theorem run_of_dead {s t : State} {acts : List Act} (hdead : s.alive = false)
    (hrun : run step s acts = some t) : t = s := by
  cases acts with
  | nil => exact (Option.some.inj hrun).symm
  | cons a acts =>
      obtain ⟨s', hstep, -⟩ := run_cons.mp hrun
      rw [(moves_of_step hstep).1] at hdead
      cases hdead

/-- A clean run keeps the server alive when all its steps are heard, and only then. -/
theorem Intact.run_alive_iff {acts : List Act} : ∀ {s t : State}, Intact s → s.alive = true →
    Along Server.step Clean s acts → run Server.step s acts = some t →
      (t.alive = true ↔ Along Server.step Heard s acts) := by
  induction acts with
  | nil =>
      intro s t _ halive _ hrun
      cases hrun
      exact iff_of_true halive trivial
  | cons a acts ih =>
      intro s t hs halive hclean hrun
      obtain ⟨s', hstep, hrest⟩ := run_cons.mp hrun
      have hone := hs.alive_iff hstep
      cases hlive : s'.alive with
      | true =>
          have htail := ih (hs.step hclean.1 hstep) hlive (hclean.2 s' hstep) hrest
          rw [htail]
          constructor
          · intro hall
            refine ⟨hone.mp hlive, fun s'' hs'' => ?_⟩
            rw [hstep] at hs''
            cases hs''
            exact hall
          · intro hall
            exact hall.2 s' hstep
      | false =>
          rw [run_of_dead hlive hrest, hlive]
          refine iff_of_false nofun (fun hall => ?_)
          rw [hone.mpr hall.1] at hlive
          cases hlive

/-- The child of a handler keeps the reader of its pipe until it is gone. -/
theorem Intact.child_holds {s : State} (hs : Intact s) {k : Nat} {h : Handler} {c : Child}
    (hk : s.handlers[k]? = some h) (hc : h.child = some c) (hlive : c.exited = false) :
    s.someoneHolds (.own k .cgiInput0) = true := by
  have hreader := (hs.fit k h hk c hc hlive).reader
  have hmem := (Table.mem_iff_lookup _ _).mpr ⟨_, hreader⟩
  rw [State.someoneHolds, Bool.or_eq_true, List.any_eq_true]
  refine Or.inr ⟨h, List.mem_of_getElem? hk, ?_⟩
  rw [hc, Option.any_some]
  exact List.contains_iff_mem.mpr hmem

/-- In a clean run the server is alive as long as handlers send to clients that have
not reset and write body bytes that somebody can read.  Until it is gone the
handler's own child can. -/
theorem server_alive_iff {s : State} {acts : List Act} (hclean : Along step Clean init acts)
    (hrun : run step init acts = some s) :
    (s.alive = true ↔ Along step Heard init acts) ∧
      ∀ k h c, s.handlers[k]? = some h → h.child = some c → c.exited = false →
        s.someoneHolds (.own k .cgiInput0) = true := by
  have hs : Intact s := run_invariant_along (fun _ _ _ hs hq hstep => hs.step hq hstep) intact_init
    hclean hrun
  exact ⟨intact_init.run_alive_iff rfl hclean hrun, fun k h c hk hc hlive =>
    hs.child_holds hk hc hlive⟩

/-- The server lives on without the first program and the second client, and dies of the next
byte of the body. -/
theorem crossed_alive : ∃ s t, run step init crossed = some s ∧
    run step init (crossed ++ [.handler 0, .handler 0]) = some t ∧
    ((s.alive = true ↔ Along step Heard init crossed) ∧
      ∀ k h c, s.handlers[k]? = some h → h.child = some c → c.exited = false →
        s.someoneHolds (.own k .cgiInput0) = true) ∧
    (t.alive = true ↔ Along step Heard init (crossed ++ [.handler 0, .handler 0])) ∧
    s.alive = true ∧ t.alive = false := by
  have hrun : ((run step init crossed).any fun s =>
      (run step s [.handler 0, .handler 0]).any fun t => s.alive && !t.alive) = true := by
    decide
  obtain ⟨s, hs, h⟩ := (Option.any_eq_true _ _).mp hrun
  obtain ⟨t, ht, h⟩ := (Option.any_eq_true _ _).mp h
  obtain ⟨hlive, hdead⟩ := Bool.and_eq_true_iff.mp h
  have hbehind := run_append.mpr ⟨s, hs, ht⟩
  have hclean : Along step Clean init (crossed ++ [.handler 0, .handler 0]) :=
    along_append.mpr ⟨crossed_clean, fun _ _ => ⟨trivial, fun _ _ => ⟨trivial, fun _ _ => trivial⟩⟩⟩
  exact ⟨s, t, hs, hbehind, server_alive_iff crossed_clean hs,
    (server_alive_iff hclean hbehind).1, hlive, by simpa using hdead⟩

/-- A client that resets its connection before the answer. -/
def earlyReset : List Act :=
  [.accept .obliging (bytes "X\n") true, .reset 0, .handler 0, .handler 0, .handler 0]

/-- The first line of the answer ends the server. -/
theorem earlyReset_kills : ∃ s, run step init earlyReset = some s ∧ s.alive = false := by
  have hrun : ((run step init earlyReset).any fun s => !s.alive) = true := by
    decide +kernel
  obtain ⟨s, hs, h⟩ := (Option.any_eq_true _ _).mp hrun
  exact ⟨s, hs, by simpa using h⟩

end Server
