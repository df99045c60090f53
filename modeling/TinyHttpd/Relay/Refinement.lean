import TinyHttpd.Relay.Deadlock

/-!
# The relay makes the calls of `exe_cgi`

In every run the calls the parent has made, and those it still has to make for what is
in the pipes and what the program will write, are those of `exe_cgi` behind its `fork`.
-/

namespace Relay

open CString Httpd Machine

/-- What the client will get of the program from here on. -/
def State.outstanding (s : State) : Bytes := s.output ++ outputOf s.child.ops

/-- The calls behind the program's output. -/
def lastCalls : List Call := [.close .cgiInput1, .close .cgiOutput0, .waitpid]

/-- The calls of the parent for an output. -/
def behindFork (contentLength : Nat) (body output : Bytes) : List Call :=
  [.close .cgiInput0, .close .cgiOutput1] ++
    relayBody .sockClient .cgiInput1 contentLength 0 body ++
    relayOutput .cgiOutput0 .sockClient output ++ lastCalls

/-- The calls that are left to the parent. -/
def State.pending (contentLength : Nat) (s : State) : List Call :=
  let relay := relayOutput .cgiOutput0 .sockClient s.outstanding ++ lastCalls
  match s.parent with
  | .closeInput0 =>
      .close .cgiInput0 :: .close .cgiOutput1 ::
        (relayBody .sockClient .cgiInput1 contentLength 0 s.body ++ relay)
  | .closeOutput1 =>
      .close .cgiOutput1 :: (relayBody .sockClient .cgiInput1 contentLength 0 s.body ++ relay)
  | .recvBody left c => relayBody .sockClient .cgiInput1 left c s.body ++ relay
  | .writeBody left c =>
      .write .cgiInput1 c :: (relayBody .sockClient .cgiInput1 left c s.body ++ relay)
  | .readOutput => relay
  | .sendOutput c => .send .sockClient [c] :: relay
  | .closeInput1 => lastCalls
  | .closeOutput0 => [.close .cgiOutput0, .waitpid]
  | .waitpid => [.waitpid]
  | .returned => []
  | .killed => []

section Steps

variable {capacity contentLength : Nat} {s s' : State}

/-- A call of the parent is the next one pending. -/
theorem parentMoves_pending (h : ParentMoves capacity contentLength s s')
    (hlive : s'.parent ≠ .killed) :
    s'.calls ++ s'.pending contentLength = s.calls ++ s.pending contentLength := by
  cases h with
  | closeInput0 hp | closeOutput1 hp | writeBody hp _ _ | sendOutput hp | closeOutput0 hp
  | waitpid hp _ => simp [State.pending, State.outstanding, hp]
  | relayed hp => simp [State.pending, State.outstanding, hp, relayBody]
  | recvEnd hp hbody => simp [State.pending, State.outstanding, hp, hbody, relayBody]
  | recvByte hp hbody => simp [State.pending, State.outstanding, hp, hbody, relayBody]
  | broken hp hexited => exact absurd rfl hlive
  | readByte hp hout => simp [State.pending, State.outstanding, hp, hout, relayOutput]
  | readEnd hp hout hexited =>
      simp [State.pending, State.outstanding, hp, hout, hexited, Child.ops, outputOf, relayOutput]
  | closeInput1 hp => simp [State.pending, hp, lastCalls]

/-- A call of the child leaves the parent and the whole output as they are, as long as
somebody reads it. -/
theorem childMoves_outstanding (h : ChildMoves capacity s s')
    (hreader : s.parent.holdsOutput0 = true) :
    s'.parent = s.parent ∧ s'.body = s.body ∧ s'.calls = s.calls ∧
      s'.outstanding = s.outstanding := by
  cases h with
  | closeInput1 hc | closeOutput0 hc | exec hc | exit hc =>
      simp [State.outstanding, hc, Child.ops, outputOf]
  | readByte hc hinput => simp [State.outstanding, hc, Child.ops, outputOf]
  | readAllByte hc hinput => simp [State.outstanding]
  | readEnd hc hop hinput hclosed =>
      rcases hop with rfl | rfl
      · simp [State.outstanding, hc, Child.ops, outputOf]
      · simp [State.outstanding, hc, Child.ops, outputOf]
  | broken hc hnobody =>
      rw [hreader] at hnobody
      cases hnobody
  | write hc hroom => simp [State.outstanding, hc, Child.ops, outputOf]

theorem pending_congr (hparent : s'.parent = s.parent) (hbody : s'.body = s.body)
    (hout : s'.outstanding = s.outstanding) :
    s'.pending contentLength = s.pending contentLength := by
  simp only [State.pending, hparent, hbody, hout]

end Steps

theorem killed_stays {capacity contentLength : Nat} {s s' : State} {side : Side}
    (h : step capacity contentLength s side = some s') (hkilled : s.parent = .killed)
    (hexited : s.child = .exited) : s'.parent = .killed := by
  cases side with
  | parent =>
      cases parentMoves_of_step h with
      | broken hp hexited => rfl
      | closeInput0 hp | closeOutput1 hp | relayed hp | recvEnd hp _ | recvByte hp _
      | writeBody hp _ _ | readByte hp _ | readEnd hp _ _ | sendOutput hp | closeInput1 hp
      | closeOutput0 hp | waitpid hp _ =>
          rw [hkilled] at hp
          cases hp
  | child => exact absurd hexited (childMoves_live (childMoves_of_step h))

/-- What a run has done and what it has left is what `exe_cgi` does. -/
theorem run_pending {capacity contentLength : Nat} {ops : List Op} {body : Bytes} {s : State}
    {sides : List Side}
    (hrun : run (step capacity contentLength) (start ops body) sides = some s) :
    s.parent = .killed ∨
      s.calls ++ s.pending contentLength = behindFork contentLength body (outputOf ops) := by
  refine (run_history (P := fun _ s => s.parent = .killed ∨
    s.calls ++ s.pending contentLength = behindFork contentLength body (outputOf ops))
    (.inr ?_) ?_ hrun)
  · simp [State.pending, State.outstanding, start, behindFork, Child.ops]
  · intro sides s₁ side s₂ hrun₁ hs hstep
    obtain ⟨reads, writes, taken, hinv⟩ := run_inv hrun₁
    by_cases hkilled : s₁.parent = .killed
    · exact .inl (killed_stays hstep hkilled (hinv.bereft (by rw [hkilled]; rfl)))
    · have hcalls := hs.resolve_left hkilled
      cases side with
      | parent =>
          by_cases hkilled' : s₂.parent = .killed
          · exact .inl hkilled'
          · exact .inr ((parentMoves_pending (parentMoves_of_step hstep) hkilled').trans hcalls)
      | child =>
          have hmoves : ChildMoves capacity s₁ s₂ := childMoves_of_step hstep
          have hreader := (hinv.open_of_live (childMoves_live hmoves)).2
          obtain ⟨hparent, hbody, hsame, hout⟩ := childMoves_outstanding hmoves hreader
          rw [hsame, pending_congr hparent hbody hout]
          exact .inr hcalls

/-- A parent that returns has made the calls of `exe_cgi`, with the program's output as
the output. -/
theorem returned_refines {capacity : Nat} {ops : List Op} {body : Bytes} {s : State}
    {sides : List Side} {env : Env} {path method queryString : Bytes} {contentLength : Nat}
    (hpipes : env.pipeInput = true ∧ env.pipeOutput = true) (hfork : env.fork = true)
    (houtput : env.cgiOutput = outputOf ops)
    (hlength : strcasecmp (bytes "POST") method = 0 ∨ contentLength = 0)
    (hrun : run (step capacity contentLength) (start ops body) sides = some s)
    (hreturned : s.parent = .returned) :
    runCgi env .sockClient path method queryString contentLength body =
      [.send .sockClient (httpVersion ++ bytes " 200 OK\r\n\r\n"),
        .pipe .cgiInput0 .cgiInput1 true, .pipe .cgiOutput0 .cgiOutput1 true,
        .fork (some (exeCgiChild env path method queryString contentLength))] ++ s.calls := by
  have hcalls : s.calls = behindFork contentLength body (outputOf ops) := by
    rcases run_pending hrun with hkilled | hcalls
    · rw [hreturned] at hkilled
      cases hkilled
    · simpa [State.pending, hreturned] using hcalls
  have hbody : (if strcasecmp (bytes "POST") method = 0 then
      relayBody .sockClient .cgiInput1 contentLength 0 body else []) =
        relayBody .sockClient .cgiInput1 contentLength 0 body := by
    rcases hlength with hpost | rfl
    · rw [if_pos hpost]
    · simp [relayBody]
  simp only [runCgi, hpipes.1, hpipes.2, hfork, houtput, Bool.not_true, Bool.false_eq_true,
    if_false, Int.toNat_natCast, hbody, hcalls, behindFork, lastCalls, List.append_assoc,
    List.cons_append, List.nil_append]

/-- A program that fits is served to the end: where no side can go on, the parent has
returned or was killed by a write to nobody, and the child is gone. -/
theorem fitting_served {capacity contentLength : Nat} (hcap : 1 ≤ capacity) {ops : List Op}
    {body : Bytes} (hfits : Fits capacity contentLength 0 0 ops) {s : State} {sides : List Side}
    (hrun : run (step capacity contentLength) (start ops body) sides = some s)
    (hstuck : ∀ side, step capacity contentLength s side = none) :
    s.parent.finished = true ∧ s.child = .exited := by
  obtain ⟨reads, writes, taken, hinv⟩ := run_inv hrun
  have hexited : s.child = .exited := by
    by_contra hlive
    have hgoing : s.parent.finished ≠ false :=
      fun hgoing => hinv.not_deadlocked hcap hfits ⟨hgoing, hlive, hstuck⟩
    refine hlive (hinv.bereft ?_)
    cases hp : s.parent <;> rw [hp] at hgoing <;> first | rfl | exact absurd rfl hgoing
  refine ⟨?_, hexited⟩
  -- With the child gone, only a parent that is done has no next call.
  by_contra hgoing
  rcases blocked_parent (Bool.eq_false_iff.mpr hgoing) (hstuck .parent) with
    ⟨left, c, hp, -⟩ | ⟨hp, hempty⟩ | hp
  · have hnone := hstuck .parent
    simp only [step, stepParent, hp, hexited, if_true] at hnone
    cases hnone
  · have hnone := hstuck .parent
    simp only [step, stepParent, hp, hempty, State.outputOpen, hexited, Parent.holdsOutput1,
      Bool.false_or, bne_self_eq_false, Bool.false_eq_true, if_false] at hnone
    cases hnone
  · have hnone := hstuck .parent
    simp only [step, stepParent, hp, hexited, if_true] at hnone
    cases hnone

end Relay
