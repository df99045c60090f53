import TinyHttpd.Httpd.BodyRelay
import TinyHttpd.Httpd.StaticContent
import TinyHttpd.Relay.Refinement

/-!
# What the two pipes carry

The relay under an ignored `SIGPIPE`: a write into the input pipe without a reader fails,
its byte is gone, and the parent goes on.  A trace keeps what the child has read and
written beside the state.

The parent's side of the account is the refinement: its calls so far and its calls to come
are those of `exe_cgi`.  The child's side is that each pipe holds what one end has put in
and the other has not taken out.
-/

namespace Relay

open CString Httpd Machine

/-! ## The machine -/

/-- The next call of a parent that ignores `SIGPIPE`. -/
def stepParentIgnoring (capacity contentLength : Nat) (s : State) : Option State :=
  match s.parent with
  | .writeBody left c =>
      if s.child = .exited then
        some { s with parent := .recvBody left c, calls := s.calls ++ [.write .cgiInput1 c] }
      else stepParent capacity contentLength s
  | _ => stepParent capacity contentLength s

/-- A state, with the bytes the child has read and written. -/
structure Traced where
  state : State
  got : Bytes
  wrote : Bytes
deriving DecidableEq

def Traced.start (ops : List Op) (body : Bytes) : Traced := ⟨Relay.start ops body, [], []⟩

/-- A call of the child takes bytes from the front of its input and puts bytes at the end
of its output. -/
def Traced.childTo (t : Traced) (s : State) : Traced where
  state := s
  got := t.got ++ t.state.input.take (t.state.input.length - s.input.length)
  wrote := t.wrote ++ s.output.drop t.state.output.length

def stepTraced (capacity contentLength : Nat) (t : Traced) : Side → Option Traced
  | .parent =>
      (stepParentIgnoring capacity contentLength t.state).map fun s => { t with state := s }
  | .child => (stepChild capacity t.state).map t.childTo

/-- Such a parent makes the calls of the other, and drops a byte where that one is
killed. -/
inductive IgnoringMoves (capacity contentLength : Nat) (s : State) : State → Prop
  | moved {s' : State} : ParentMoves capacity contentLength s s' → s'.parent ≠ .killed →
      IgnoringMoves capacity contentLength s s'
  | dropped {left : Nat} {c : UInt8} : s.parent = .writeBody left c → s.child = .exited →
      IgnoringMoves capacity contentLength s
        { s with parent := .recvBody left c, calls := s.calls ++ [.write .cgiInput1 c] }

theorem ignoringMoves_of_step {capacity contentLength : Nat} {s s' : State}
    (h : stepParentIgnoring capacity contentLength s = some s') :
    IgnoringMoves capacity contentLength s s' := by
  have hmoved : stepParent capacity contentLength s = some s' →
      (∀ left c, s.parent = .writeBody left c → s.child ≠ .exited) →
      IgnoringMoves capacity contentLength s s' := by
    intro hstep hreader
    have hmoves := parentMoves_of_step hstep
    refine .moved hmoves fun hkilled => ?_
    cases hmoves with
    | broken hp hexited => exact hreader _ _ hp hexited
    | closeInput0 hp | closeOutput1 hp | relayed hp | recvEnd hp _ | recvByte hp _
    | writeBody hp _ _ | readByte hp _ | readEnd hp _ _ | sendOutput hp | closeInput1 hp
    | closeOutput0 hp | waitpid hp _ => cases hkilled
  rw [stepParentIgnoring] at h
  split at h
  next left c hp =>
      split at h
      next hexited =>
          cases h
          exact .dropped hp hexited
      next hlive => exact hmoved h fun _ _ _ => hlive
  next hother => exact hmoved h fun left c hp => absurd hp (hother left c)

/-! ## One call of the child -/

theorem outputOf_append (a b : List Op) : outputOf (a ++ b) = outputOf a ++ outputOf b := by
  induction a with
  | nil => rfl
  | cons op a ih => cases op <;> simp [outputOf, ih]

/-- With both pipes open at the parent's ends, a call of the child does what its program
says: a `read` takes a byte, and what is written is the program's output. -/
theorem childMoves_program {capacity : Nat} {s s' : State} (h : ChildMoves capacity s s')
    (hopen : s.inputOpen = true) (hreader : s.parent.holdsOutput0 = true) :
    ∃ taken put done, s.input = taken ++ s'.input ∧ s'.output = s.output ++ put ∧
      s.child.ops = done ++ s'.child.ops ∧ put = outputOf done ∧
      done.count .read ≤ taken.length := by
  cases h with
  | closeInput1 hc | closeOutput0 hc | exec hc | exit hc =>
      exact ⟨[], [], [], by simp, by simp, by rw [hc]; rfl, rfl, le_rfl⟩
  | @readByte ops b input hc hinput =>
      exact ⟨[b], [], [.read], hinput, by simp, by rw [hc]; rfl, rfl, le_rfl⟩
  | @readAllByte ops b input hc hinput =>
      exact ⟨[b], [], [], hinput, by simp, rfl, rfl, Nat.zero_le _⟩
  | readEnd hc hop hinput hclosed =>
      rw [hopen] at hclosed
      cases hclosed
  | broken hc hnobody =>
      rw [hreader] at hnobody
      cases hnobody
  | @write c ops hc hroom =>
      exact ⟨[], [c], [.write c], rfl, rfl, by rw [hc]; rfl, rfl, le_rfl⟩

theorem childTo_got {t : Traced} {s : State} {taken : Bytes}
    (h : t.state.input = taken ++ s.input) : (t.childTo s).got = t.got ++ taken := by
  simp [Traced.childTo, h]

theorem childTo_wrote {t : Traced} {s : State} {put : Bytes}
    (h : s.output = t.state.output ++ put) : (t.childTo s).wrote = t.wrote ++ put := by
  simp [Traced.childTo, h]

/-! ## The invariant -/

/-- The byte the parent has read and not yet sent. -/
def Parent.inFlight : Parent → Bytes
  | .sendOutput c => [c]
  | _ => []

/-- The parent has made and will make the calls of `exe_cgi`; what it has fed to the
input pipe has been read, is in the pipe, or was dropped behind the child's exit; what the
child has written has been sent, is in the parent's hands, or is in the pipe. -/
structure Accounted (contentLength : Nat) (ops : List Op) (body : Bytes) (t : Traced) : Prop where
  calls : t.state.calls ++ t.state.pending contentLength =
    behindFork contentLength body (outputOf ops)
  input : ∃ dropped, fed t.state.calls = t.got ++ t.state.input ++ dropped ∧
    (t.state.child ≠ .exited → dropped = [])
  output : t.wrote = transmitted t.state.calls ++ t.state.parent.inFlight ++ t.state.output
  program : ∃ done, ops = done ++ t.state.child.ops ∧ t.wrote = outputOf done ∧
    done.count .read ≤ t.got.length
  bereft : t.state.parent.bereft = true → t.state.child = .exited

theorem accounted_start (contentLength : Nat) (ops : List Op) (body : Bytes) :
    Accounted contentLength ops body (Traced.start ops body) where
  calls := by
    simp [State.pending, State.outstanding, Traced.start, start, behindFork, Child.ops]
  input := ⟨[], rfl, fun _ => rfl⟩
  output := rfl
  program := ⟨[], rfl, rfl, le_rfl⟩
  bereft := nofun

section Steps

variable {capacity contentLength : Nat} {ops : List Op} {body : Bytes} {t : Traced}

/-- A call of the parent moves at most one byte: into the input pipe, out of the output
pipe, or to the client. -/
theorem parentMoves_bytes {s s' : State} (h : ParentMoves capacity contentLength s s')
    (hlive : s'.parent ≠ .killed) :
    s'.child = s.child ∧
      (∃ put, fed s'.calls = fed s.calls ++ put ∧ s'.input = s.input ++ put ∧
        (s.child = .exited → put = [])) ∧
      transmitted s'.calls ++ s'.parent.inFlight ++ s'.output =
        transmitted s.calls ++ s.parent.inFlight ++ s.output := by
  cases h with
  | closeInput0 hp | closeOutput1 hp | recvEnd hp _ | recvByte hp _ | closeInput1 hp
  | closeOutput0 hp | waitpid hp _ | relayed hp =>
      exact ⟨rfl, ⟨[], by simp [Call.feeds], by simp, fun _ => rfl⟩,
        by simp [hp, Parent.inFlight, Call.transmits]⟩
  | broken hp hexited => exact absurd rfl hlive
  | @writeBody left c hp hreader hroom =>
      exact ⟨rfl, ⟨[c], by simp [Call.feeds], rfl, fun hexited => absurd hexited hreader⟩,
        by simp [hp, Parent.inFlight, Call.transmits]⟩
  | readByte hp hout | readEnd hp hout hexited =>
      exact ⟨rfl, ⟨[], by simp [Call.feeds], by simp, fun _ => rfl⟩,
        by simp [hp, hout, Parent.inFlight, Call.transmits]⟩
  | sendOutput hp =>
      exact ⟨rfl, ⟨[], by simp [Call.feeds], by simp, fun _ => rfl⟩,
        by simp [hp, Parent.inFlight, Call.transmits]⟩

/-- The parent leaves its read loop at the end of the child's output only. -/
theorem parentMoves_bereft {s s' : State} (h : ParentMoves capacity contentLength s s')
    (hbereft : s.parent.bereft = true → s.child = .exited) (hs' : s'.parent.bereft = true) :
    s'.child = .exited := by
  cases h with
  | closeInput0 hp | closeOutput1 hp | recvEnd hp _ | recvByte hp _ | relayed hp
  | writeBody hp _ _ | readByte hp _ | sendOutput hp => cases hs'
  | broken hp hexited | readEnd hp _ hexited | waitpid hp hexited => exact hexited
  | closeInput1 hp | closeOutput0 hp => exact hbereft (by rw [hp]; rfl)

/-- One call of the parent. -/
theorem Accounted.parent (h : Accounted contentLength ops body t) {s : State}
    (hmoves : IgnoringMoves capacity contentLength t.state s) :
    Accounted contentLength ops body { t with state := s } := by
  obtain ⟨dropped, hfed, hlive⟩ := h.input
  cases hmoves with
  | moved hmoves hkilled =>
      obtain ⟨hchild, ⟨put, hput, hinput, hexited⟩, hout⟩ := parentMoves_bytes hmoves hkilled
      refine ⟨(parentMoves_pending hmoves hkilled).trans h.calls, ⟨dropped, ?_, ?_⟩,
        h.output.trans hout.symm, ?_, parentMoves_bereft hmoves h.bereft⟩
      · -- A byte that goes into the pipe goes behind nothing that was dropped.
        by_cases hgone : t.state.child = .exited
        · rw [hput, hfed, hinput, hexited hgone]
          simp
        · rw [hput, hfed, hinput, hlive hgone]
          simp
      · rw [hchild]
        exact hlive
      · rw [hchild]
        exact h.program
  | @dropped left c hp hexited =>
      refine ⟨?_, ⟨dropped ++ [c], ?_, fun hne => absurd hexited hne⟩, ?_, h.program, nofun⟩
      · have hcalls := h.calls
        simp only [State.pending, State.outstanding, hp] at hcalls ⊢
        rw [← hcalls]
        simp
      · simp [hfed, Call.feeds]
      · have hout := h.output
        rw [hp] at hout
        simpa [Parent.inFlight, Call.transmits] using hout

/-- One call of the child. -/
theorem Accounted.child (h : Accounted contentLength ops body t) {s : State}
    (hmoves : ChildMoves capacity t.state s) :
    Accounted contentLength ops body (t.childTo s) := by
  have hlive := childMoves_live hmoves
  obtain ⟨hopen, hreader⟩ :=
    holds_of_not_bereft (Bool.eq_false_iff.mpr fun hb => hlive (h.bereft hb))
  obtain ⟨taken, put, did, hinput, houtput, hops, hput, hreads⟩ :=
    childMoves_program hmoves (by rw [State.inputOpen, hopen]; rfl) hreader
  obtain ⟨hparent, hbody, hcalls, hout⟩ := childMoves_outstanding hmoves hreader
  obtain ⟨dropped, hfed, hnone⟩ := h.input
  obtain ⟨done, hdone, hwrote, hcount⟩ := h.program
  have hgot := childTo_got hinput
  have hwrote' := childTo_wrote houtput
  refine ⟨?_, ⟨[], ?_, fun _ => rfl⟩, ?_, ⟨done ++ did, ?_, ?_, ?_⟩, fun hb => ?_⟩
  · show s.calls ++ s.pending contentLength = _
    rw [hcalls, pending_congr hparent hbody hout]
    exact h.calls
  · show fed s.calls = (t.childTo s).got ++ s.input ++ []
    rw [hcalls, hfed, hnone hlive, hgot, hinput]
    simp
  · show (t.childTo s).wrote = transmitted s.calls ++ s.parent.inFlight ++ s.output
    rw [hwrote', hcalls, hparent, houtput, h.output]
    simp
  · show ops = done ++ did ++ s.child.ops
    rw [hdone, hops, List.append_assoc]
  · rw [hwrote', hwrote, hput, outputOf_append]
  · rw [hgot, List.count_append, List.length_append]
    exact Nat.add_le_add hcount hreads
  · have hb' : s.parent.bereft = true := hb
    rw [hparent] at hb'
    exact absurd (h.bereft hb') hlive

theorem Accounted.step (h : Accounted contentLength ops body t) {side : Side} {t' : Traced}
    (hstep : stepTraced capacity contentLength t side = some t') :
    Accounted contentLength ops body t' := by
  cases side with
  | parent =>
      obtain ⟨s, hs, rfl⟩ := Option.map_eq_some_iff.mp hstep
      exact h.parent (ignoringMoves_of_step hs)
  | child =>
      obtain ⟨s, hs, rfl⟩ := Option.map_eq_some_iff.mp hstep
      exact h.child (childMoves_of_step hs)

end Steps

theorem run_accounted {capacity contentLength : Nat} {ops : List Op} {body : Bytes} {t : Traced}
    {sides : List Side}
    (hrun : run (stepTraced capacity contentLength) (Traced.start ops body) sides = some t) :
    Accounted contentLength ops body t :=
  run_invariant (fun _ _ _ h hstep => h.step hstep) (accounted_start contentLength ops body) hrun

/-! ## What the account says -/

theorem transmitted_relayBody (sock pipe : Fd) (n : Nat) (c : UInt8) (body : Bytes) :
    transmitted (relayBody sock pipe n c body) = [] :=
  flatMap_relayBody_eq_nil (fun _ => rfl) (fun _ => rfl) n c body

theorem transmitted_relayOutput (pipe sock : Fd) :
    ∀ output : Bytes, transmitted (relayOutput pipe sock output) = output
  | [] => rfl
  | c :: output => by
      simp [relayOutput, Call.transmits, transmitted_relayOutput pipe sock output]

theorem fed_behindFork {contentLength : Nat} {body : Bytes} (output : Bytes)
    (hbody : contentLength ≤ body.length) :
    fed (behindFork contentLength body output) = body.take contentLength := by
  simp [behindFork, lastCalls, fed_relayBody, fed_relayOutput, Call.feeds,
    Nat.sub_eq_zero_of_le hbody]

theorem transmitted_behindFork (contentLength : Nat) (body output : Bytes) :
    transmitted (behindFork contentLength body output) = output := by
  simp [behindFork, lastCalls, transmitted_relayBody, transmitted_relayOutput, Call.transmits]

/-- Behind the body loop no call feeds the program. -/
theorem fed_pending {s : State} (contentLength : Nat) (h : s.parent.relayed = true) :
    fed (s.pending contentLength) = [] := by
  cases hp : s.parent with
  | closeInput0 | closeOutput1 | recvBody left c | writeBody left c =>
      rw [hp] at h
      cases h
  | readOutput | sendOutput c | closeInput1 | closeOutput0 | waitpid | returned | killed =>
      simp [State.pending, hp, lastCalls, fed_relayOutput, Call.feeds]

/-- Behind the read loop no call sends anything. -/
theorem transmitted_pending {s : State} (contentLength : Nat) (h : s.parent.bereft = true) :
    transmitted (s.pending contentLength) = [] := by
  cases hp : s.parent with
  | closeInput0 | closeOutput1 | recvBody left c | writeBody left c | readOutput
  | sendOutput c =>
      rw [hp] at h
      cases h
  | closeInput1 | closeOutput0 | waitpid | returned | killed =>
      simp [State.pending, hp, lastCalls, Call.transmits]

section Account

variable {contentLength : Nat} {ops : List Op} {body : Bytes} {t : Traced}

/-- What has been fed is the front of the body. -/
theorem Accounted.fed_prefix (h : Accounted contentLength ops body t)
    (hbody : contentLength ≤ body.length) :
    fed t.state.calls ++ fed (t.state.pending contentLength) = body.take contentLength := by
  rw [← fed_append, h.calls, fed_behindFork _ hbody]

/-- The program has read the front of what has been fed. -/
theorem Accounted.got_prefix (h : Accounted contentLength ops body t)
    (hbody : contentLength ≤ body.length) : t.got <+: body.take contentLength := by
  obtain ⟨dropped, hfed, -⟩ := h.input
  rw [← h.fed_prefix hbody, hfed]
  exact ⟨t.state.input ++ dropped ++ fed (t.state.pending contentLength), by simp⟩

/-- A program that has made as many reads as the body has bytes has the body. -/
theorem Accounted.got_body (h : Accounted contentLength ops body t)
    (hbody : contentLength ≤ body.length) {done : List Op}
    (hops : ops = done ++ t.state.child.ops) (hreads : contentLength ≤ done.count .read) :
    t.got = body.take contentLength := by
  obtain ⟨done', hdone, -, hcount⟩ := h.program
  have hsame : done' = done := List.append_cancel_right (hdone.symm.trans hops)
  rw [hsame] at hcount
  refine (h.got_prefix hbody).eq_of_length_le ?_
  rw [List.length_take]
  omega

/-- At the end of the output everything the program writes has been sent. -/
theorem Accounted.sent (h : Accounted contentLength ops body t)
    (hbereft : t.state.parent.bereft = true) :
    transmitted t.state.calls = t.wrote ∧ t.wrote = outputOf ops := by
  obtain ⟨done, hdone, hwrote, -⟩ := h.program
  rw [h.bereft hbereft, Child.ops, List.append_nil] at hdone
  have hsent : transmitted t.state.calls = outputOf ops := by
    have hall := congrArg transmitted h.calls
    rwa [transmitted_append, transmitted_pending contentLength hbereft, List.append_nil,
      transmitted_behindFork] at hall
  rw [hsent, hwrote, hdone]
  exact ⟨rfl, rfl⟩

end Account

/-- The relay is exact in every reachable state: what the program has read is a prefix of
the body, what the client has got is a prefix of what the program has written, a parent
behind its body loop has fed as many bytes as the `CONTENT_LENGTH` of its child says, a
program behind that many reads has the body, and a parent behind its read loop has sent
the whole output. -/
theorem relay_exact {capacity contentLength : Nat} {ops : List Op} {body : Bytes} {t : Traced}
    {sides : List Side} (hbody : contentLength ≤ body.length)
    (hrun : run (stepTraced capacity contentLength) (Traced.start ops body) sides = some t) :
    t.got <+: body.take contentLength ∧
      transmitted t.state.calls <+: t.wrote ∧
      (t.state.parent.relayed = true → (fed t.state.calls).length = contentLength ∧
        ∀ (env : Env) (path method query : Bytes), ¬strcasecmp (bytes "GET") method = 0 →
          .putenv (bytes "CONTENT_LENGTH=" ++ decimal contentLength) ∈
            exeCgiChild env path method query contentLength) ∧
      (∀ done, ops = done ++ t.state.child.ops → contentLength ≤ done.count .read →
        t.got = body.take contentLength) ∧
      (t.state.parent.bereft = true →
        transmitted t.state.calls = t.wrote ∧ t.wrote = outputOf ops) := by
  have h := run_accounted hrun
  refine ⟨h.got_prefix hbody, ?_, fun hrelayed => ⟨?_, ?_⟩, fun done hops hreads =>
    h.got_body hbody hops hreads, h.sent⟩
  · rw [h.output, List.append_assoc]
    exact List.prefix_append _ _
  · have hfed := h.fed_prefix hbody
    rw [fed_pending contentLength hrelayed, List.append_nil] at hfed
    rw [hfed, List.length_take, Nat.min_eq_left hbody]
  · intro env path method query hget
    simp [exeCgiChild, hget]

/-- A program that reads the two bytes of its body and answers with three. -/
def answering : List Op := [.read, .read, .write 79, .write 75, .write 10]

/-- The parent relays the body, the program runs, the parent relays the answer. -/
def answered : List Side :=
  [.parent, .parent, .child, .child, .child, .parent, .parent, .child, .parent, .parent, .child,
    .parent, .child, .parent, .parent, .child, .parent, .parent, .child, .child, .parent, .parent,
    .parent]

theorem relay_exact_answer :
    ∃ t, run (stepTraced 1 2) (Traced.start answering (bytes "hi!")) answered = some t ∧
      t.got = bytes "hi" ∧ transmitted t.state.calls = bytes "OK\n" := by
  have hend : (run (stepTraced 1 2) (Traced.start answering (bytes "hi!")) answered).any
      (fun t => t.state.parent.bereft && t.state.child == .exited) = true := by
    decide +kernel
  obtain ⟨t, hrun, ht⟩ := (Option.any_eq_true _ _).mp hend
  obtain ⟨hbereft, hexited⟩ := Bool.and_eq_true_iff.mp ht
  have hchild : t.state.child = .exited := eq_of_beq hexited
  obtain ⟨-, -, -, hgot, hsent⟩ := relay_exact (by decide +kernel) hrun
  refine ⟨t, hrun, hgot answering ?_ (by decide), (hsent hbereft).1.trans (hsent hbereft).2⟩
  rw [hchild, Child.ops, List.append_nil]

end Relay
