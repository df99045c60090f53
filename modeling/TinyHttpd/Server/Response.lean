import TinyHttpd.Httpd.BodyRelay
import TinyHttpd.Httpd.StaticContent
import TinyHttpd.Server.Sigpipe

/-!
# Whose bytes arrive where

The handlers share one descriptor table and take turns in any order.  In a clean run
what arrives at a connection, whoever sends it there, is what its own handler has sent so
far, and what arrives in the input pipe of a request is what its own handler has written.
Nothing of another request gets in between, and nothing gets lost.
-/

namespace Server

open CString Httpd Descriptors Machine

/-! ## What calls put where -/

/-- The descriptor that a call puts bytes into, and the bytes. -/
def emits : Call → Option (Fd × Bytes)
  | .send fd data => some (fd, data)
  | .sendfile out _ _ sent => some (out, sent.getD [])
  | .write fd c => some (fd, [c])
  | _ => none

/-- The bytes that a call puts under a name. -/
def emitsInto (x : Fd) (c : Call) : Bytes :=
  match emits c with
  | some (fd, data) => if fd = x then data else []
  | none => []

/-- The bytes that a step puts into what an entry stands for.  A call that raises a signal
puts in none. -/
def State.puts (e : Entry Fd) (s : State) : Act → Bytes
  | .handler k =>
      match s.handlers[k]? with
      | some h =>
          match h.todo with
          | c :: _ =>
              if s.raises k c then []
              else
                match emits c with
                | some (fd, data) => if s.pool.target k fd = some e then data else []
                | none => []
          | [] => []
      | none => []
  | _ => []

/-- What has arrived there, in the order of arrival. -/
def arrived (e : Entry Fd) (acts : List Act) : Bytes := outputs step (State.puts e) init acts

/-- What the calls put under a name. -/
def putInto (x : Fd) (calls : List Call) : Bytes := calls.flatMap (emitsInto x)

/-- The connections that have been accepted: what each handler's calls will meet, and what
its client sends. -/
def accepted (acts : List Act) : List (Env × Bytes) :=
  acts.filterMap fun
    | .accept env input _ => some (env, input)
    | _ => none

theorem accepted_snoc (acts : List Act) (a : Act) :
    accepted (acts ++ [a]) = accepted acts ++ accepted [a] :=
  List.filterMap_append

/-- A call that puts bytes somewhere uses the descriptor first. -/
theorem ops_of_emits {c : Call} {fd : Fd} {data : Bytes} (h : emits c = some (fd, data)) :
    ∃ later, ops c = .use fd :: later := by
  cases c with
  | send fd data =>
      cases h
      exact ⟨[], rfl⟩
  | sendfile out inp count sent =>
      cases h
      exact ⟨[.use inp], rfl⟩
  | write fd c =>
      cases h
      exact ⟨[], rfl⟩
  | _ => cases h

/-- In a disciplined state a call of handler `k` puts bytes into what `k` has opened. -/
theorem Settled.puts_handler {s : State} (hs : Settled s) {k : Nat} {h : Handler} {c : Call}
    {rest : List Call} (hk : s.handlers[k]? = some h) (htodo : h.todo = c :: rest)
    (hraises : s.raises k c = false) (j : Nat) (x : Fd) :
    s.puts (.own j x) (.handler k) = if j = k then emitsInto x c else [] := by
  rw [State.puts, hk]
  dsimp only
  rw [htodo]
  dsimp only
  rw [hraises, if_neg Bool.false_ne_true, emitsInto]
  cases hemits : emits c with
  | none => simp
  | some target =>
      obtain ⟨fd, data⟩ := target
      obtain ⟨later, hops⟩ := ops_of_emits hemits
      have hscript := scripts_next hk htodo
      rw [hops, List.cons_append] at hscript
      have htarget : s.pool.target k fd = some (.own k fd) :=
        hs.owned.target_eq hscript fun _ => nofun
      dsimp only
      rw [htarget]
      by_cases hj : j = k
      · subst hj
        rw [if_pos rfl]
        simp only [Option.some.injEq, Entry.own.injEq, true_and]
      · rw [if_neg hj, if_neg]
        intro heq
        cases heq
        exact hj rfl

/-! ## Whole runs -/

/-- What has been put under each name of each handler, and what its calls will still put
there, is what its script puts there. -/
structure Delivered (acts : List Act) (s : State) : Prop where
  count : (accepted acts).length = s.handlers.length
  unborn : ∀ k x, s.handlers.length ≤ k → arrived (.own k x) acts = []
  adds : ∀ k h, s.handlers[k]? = some h → ∃ env input, (accepted acts)[k]? = some (env, input) ∧
    ∀ x, arrived (.own k x) acts ++ putInto x h.todo = putInto x (acceptRequest env input)

theorem delivered_init : Delivered [] init where
  count := rfl
  unborn _ _ _ := rfl
  adds := by
    intro k h hk
    cases hk

/-- A step that puts nothing anywhere and keeps the scripts. -/
theorem Delivered.of_silent {acts : List Act} {s s' : State} {a : Act} (h : Delivered acts s)
    (hrun : run step init acts = some s) (ha : step s a = some s')
    (hsilent : ∀ e, s.puts e a = []) (hnone : accepted [a] = [])
    (hlength : s'.handlers.length = s.handlers.length)
    (htodo : ∀ (k : Nat) (h' : Handler), s'.handlers[k]? = some h' →
      ∃ h : Handler, s.handlers[k]? = some h ∧ h.todo = h'.todo) :
    Delivered (acts ++ [a]) s' := by
  have harrived : ∀ e, arrived e (acts ++ [a]) = arrived e acts := fun e => by
    rw [arrived, outputs_snoc hrun ha, hsilent, List.append_nil, arrived]
  have haccepted : accepted (acts ++ [a]) = accepted acts := by
    rw [accepted_snoc, hnone, List.append_nil]
  refine ⟨?_, fun k x hk => ?_, fun k h' hk => ?_⟩
  · rw [haccepted, hlength]
    exact h.count
  · rw [harrived]
    exact h.unborn k x (hlength ▸ hk)
  · obtain ⟨h₀, hk₀, htodo₀⟩ := htodo k h' hk
    obtain ⟨env, input, henv, hadds⟩ := h.adds k h₀ hk₀
    refine ⟨env, input, by rw [haccepted]; exact henv, fun x => ?_⟩
    rw [harrived, ← htodo₀]
    exact hadds x

/-- A new connection. -/
theorem Delivered.accept {acts : List Act} {s s' : State} {env : Env} {input : Bytes}
    (h : Delivered acts s) (hrun : run step init acts = some s)
    (ha : step s (.accept env input true) = some s')
    (hhandlers : s'.handlers = s.handlers ++ [⟨acceptRequest env input, none⟩]) :
    Delivered (acts ++ [.accept env input true]) s' := by
  have harrived : ∀ e, arrived e (acts ++ [.accept env input true]) = arrived e acts := fun e => by
    rw [arrived, outputs_snoc hrun ha]
    exact List.append_nil _
  have haccepted : accepted (acts ++ [.accept env input true]) =
      accepted acts ++ [(env, input)] := accepted_snoc acts _
  refine ⟨?_, fun k x hk => ?_, ?_⟩
  · rw [haccepted, hhandlers, List.length_append, List.length_append, h.count]
    rfl
  · rw [harrived]
    refine h.unborn k x ?_
    rw [hhandlers, List.length_append] at hk
    exact Nat.le_of_succ_le hk
  · rw [hhandlers]
    refine forall_snoc (fun k h' hk => ?_) ?_
    · obtain ⟨env', input', henv, hadds⟩ := h.adds k h' hk
      have hlt := (List.getElem?_eq_some_iff.mp henv).1
      refine ⟨env', input', ?_, fun x => by rw [harrived]; exact hadds x⟩
      rw [haccepted, List.getElem?_append_left hlt, henv]
    · refine ⟨env, input, ?_, fun x => ?_⟩
      · rw [haccepted, ← h.count, List.getElem?_concat_length]
      · rw [harrived, h.unborn _ x le_rfl]
        rfl

/-- One call of a handler. -/
theorem Delivered.call {acts : List Act} {s s' : State} (h : Delivered acts s) (hs : Settled s)
    (hrun : run step init acts = some s) {k : Nat} {hd : Handler} {c : Call} {rest : List Call}
    (ha : step s (.handler k) = some s') (hk : s.handlers[k]? = some hd)
    (htodo : hd.todo = c :: rest) (hraises : s.raises k c = false)
    (hhandlers : s'.handlers = s.handlers.set k (hd.after s k c rest)) :
    Delivered (acts ++ [.handler k]) s' := by
  have harrived : ∀ j x, arrived (.own j x) (acts ++ [.handler k]) =
      arrived (.own j x) acts ++ if j = k then emitsInto x c else [] := fun j x => by
    rw [arrived, outputs_snoc hrun ha, hs.puts_handler hk htodo hraises, arrived]
  have haccepted : accepted (acts ++ [.handler k]) = accepted acts := by
    rw [accepted_snoc]
    exact List.append_nil _
  have hlt := (List.getElem?_eq_some_iff.mp hk).1
  refine ⟨?_, fun j x hj => ?_, fun j h' hj => ?_⟩
  · rw [haccepted, hhandlers, List.length_set]
    exact h.count
  · rw [hhandlers, List.length_set] at hj
    rw [harrived, if_neg (by omega), List.append_nil]
    exact h.unborn j x hj
  · rw [hhandlers] at hj
    by_cases hjk : j = k
    · -- The bytes of the call move from the script to what has arrived.
      subst hjk
      rw [List.getElem?_set_self hlt] at hj
      cases hj
      obtain ⟨env, input, henv, hadds⟩ := h.adds j hd hk
      refine ⟨env, input, by rw [haccepted]; exact henv, fun x => ?_⟩
      rw [harrived, if_pos rfl, Handler.after_todo, ← hadds x, htodo, putInto, putInto,
        List.flatMap_cons, List.append_assoc]
    · rw [List.getElem?_set_ne (Ne.symm hjk)] at hj
      obtain ⟨env, input, henv, hadds⟩ := h.adds j h' hj
      refine ⟨env, input, by rw [haccepted]; exact henv, fun x => ?_⟩
      rw [harrived, if_neg hjk, List.append_nil]
      exact hadds x

theorem todo_of_setChild {s : State} {k : Nat} {h : Handler} (hk : s.handlers[k]? = some h)
    (c : Child) : ∀ (j : Nat) (h' : Handler), (s.setChild k h c).handlers[j]? = some h' →
      ∃ h : Handler, s.handlers[j]? = some h ∧ h.todo = h'.todo :=
  forall_set (fun _ h' hj => ⟨h', hj, rfl⟩) ⟨h, hk, rfl⟩

theorem delivered_of_run {s : State} {acts : List Act} (hclean : Along step Clean init acts)
    (hrun : run step init acts = some s) : Delivered acts s := by
  refine run_history_along delivered_init ?_ hclean hrun
  intro acts s a s' hclean hrun hdel ha hstep
  have hs := settled_of_run hclean hrun
  have hmoves := (moves_of_step hstep).2
  cases hmoves with
  | accept =>
      obtain ⟨rfl, -⟩ := ha
      exact hdel.accept hrun hstep rfl
  | signal hk htodo hraises =>
      refine hdel.of_silent hrun hstep (fun e => ?_) rfl rfl fun j h' hj => ⟨h', hj, rfl⟩
      rw [State.puts, hk]
      dsimp only
      rw [htodo]
      exact if_pos hraises
  | call hk htodo _ hraises => exact hdel.call hs hrun hstep hk htodo hraises rfl
  | child hk =>
      exact hdel.of_silent hrun hstep (fun _ => rfl) rfl List.length_set (todo_of_setChild hk _)
  | childExit hk =>
      exact hdel.of_silent hrun hstep (fun _ => rfl) rfl List.length_set (todo_of_setChild hk _)
  | reset =>
      exact hdel.of_silent hrun hstep (fun _ => rfl) rfl rfl fun j h' hj => ⟨h', hj, rfl⟩

/-! ## The connection and the pipe -/

/-- An aimed call puts into the connection what it transmits, and into the input pipe what it
feeds the program. -/
theorem emitsInto_of_aimed {c : Call} (h : Aimed c) :
    emitsInto .sockClient c = c.transmits ∧ emitsInto .cgiInput1 c = c.feeds := by
  cases c with
  | send fd data =>
      obtain rfl : fd = .sockClient := h
      exact ⟨rfl, rfl⟩
  | sendfile out inp count sent =>
      obtain rfl : out = .sockClient := h
      cases sent <;> exact ⟨rfl, rfl⟩
  | write fd b =>
      obtain rfl : fd = .cgiInput1 := h
      exact ⟨rfl, rfl⟩
  | _ => exact ⟨rfl, rfl⟩

theorem putInto_of_aimed {calls : List Call} (h : ∀ c ∈ calls, Aimed c) :
    putInto .sockClient calls = transmitted calls ∧ putInto .cgiInput1 calls = fed calls :=
  ⟨List.flatMap_congr fun c hc => (emitsInto_of_aimed (h c hc)).1,
    List.flatMap_congr fun c hc => (emitsInto_of_aimed (h c hc)).2⟩

theorem intact_of_run {s : State} {acts : List Act} (hclean : Along step Clean init acts)
    (hrun : run step init acts = some s) : Intact s :=
  run_invariant_along (fun _ _ _ hs hq hstep => hs.step hq hstep) intact_init hclean hrun

/-- The handler of a connection. -/
theorem Delivered.handler {s : State} {acts : List Act} (h : Delivered acts s) (hs : Intact s)
    {k : Nat} {env : Env} {input : Bytes} (hk : (accepted acts)[k]? = some (env, input)) :
    ∃ hd, s.handlers[k]? = some hd ∧
      arrived (.own k .sockClient) acts ++ transmitted hd.todo =
        transmitted (acceptRequest env input) ∧
      arrived (.own k .cgiInput1) acts ++ fed hd.todo = fed (acceptRequest env input) := by
  have hlt := (List.getElem?_eq_some_iff.mp hk).1
  rw [h.count] at hlt
  have hh : s.handlers[k]? = some s.handlers[k] := List.getElem?_eq_getElem hlt
  obtain ⟨env', input', henv, hadds⟩ := h.adds k _ hh
  rw [hk] at henv
  cases henv
  obtain ⟨names, hscript, -⟩ := acceptRequest_script env input
  have haimed := hs.aimed k _ hh
  refine ⟨_, hh, ?_, ?_⟩
  · rw [← (putInto_of_aimed haimed).1, ← (putInto_of_aimed hscript.aimed).1]
    exact hadds .sockClient
  · rw [← (putInto_of_aimed haimed).2, ← (putInto_of_aimed hscript.aimed).2]
    exact hadds .cgiInput1

/-- In every clean run, in whatever order the handlers, the children and the clients take
their turns: each accepted connection has its handler, and what has arrived at the
connection, with what this handler is still going to send, is the answer to its own request;
the same holds of its input pipe and the body. -/
theorem responses_isolated {s : State} {acts : List Act} (hclean : Along step Clean init acts)
    (hrun : run step init acts = some s) {k : Nat} {env : Env} {input : Bytes}
    (hk : (accepted acts)[k]? = some (env, input)) : ∃ h, s.handlers[k]? = some h ∧
      arrived (.own k .sockClient) acts ++ transmitted h.todo =
        transmitted (acceptRequest env input) ∧
      arrived (.own k .cgiInput1) acts ++ fed h.todo = fed (acceptRequest env input) :=
  (delivered_of_run hclean hrun).handler (intact_of_run hclean hrun) hk

/-- The program that has got one byte of its body, among the other two. -/
theorem responses_isolated_crossed : ∃ s h, run step init crossed = some s ∧
    s.handlers[0]? = some h ∧
      arrived (.own 0 .sockClient) crossed ++ transmitted h.todo =
        transmitted (acceptRequest .obliging (bytes "POST /x\nContent-Length: 2\n\nab")) ∧
      arrived (.own 0 .cgiInput1) crossed ++ fed h.todo =
        fed (acceptRequest .obliging (bytes "POST /x\nContent-Length: 2\n\nab")) := by
  obtain ⟨s, hs⟩ := crossed_runs
  obtain ⟨h, hk, hsent⟩ := responses_isolated crossed_clean hs (k := 0) rfl
  exact ⟨s, h, hs, hk, hsent⟩

end Server
