import TinyHttpd.Relay.Machine

/-!
# When the handler and its program block each other

The parent reads no output before it has written the whole body, and the input pipe
has a writer until the output is at its end.  `Fits` says which programs live with
that; the others block in every run that is long enough.
-/

namespace Relay

open CString Httpd Machine

/-- A program that gets along with the parent, from that many reads and writes on: it
never waits for an end of file, reads no more than the body, and writes more than a
pipe holds only when the rest of the body fits into the other pipe. -/
def Fits (capacity contentLength : Nat) : Nat → Nat → List Op → Prop
  | _, _, [] => True
  | reads, writes, .read :: ops =>
      reads < contentLength ∧ Fits capacity contentLength (reads + 1) writes ops
  | _, _, .readAll :: _ => False
  | reads, writes, .write _ :: ops =>
      (capacity ≤ writes → contentLength ≤ reads + capacity) ∧
        Fits capacity contentLength reads (writes + 1) ops

instance decidableFits (capacity contentLength : Nat) :
    ∀ (reads writes : Nat) (ops : List Op), Decidable (Fits capacity contentLength reads writes ops)
  | _, _, [] => isTrue trivial
  | reads, writes, .read :: ops =>
      have := decidableFits capacity contentLength (reads + 1) writes ops
      inferInstanceAs (Decidable (_ ∧ _))
  | _, _, .readAll :: _ => isFalse id
  | reads, writes, .write _ :: ops =>
      have := decidableFits capacity contentLength reads (writes + 1) ops
      inferInstanceAs (Decidable (_ ∧ _))

/-! ## The invariant -/

/-- What is left of the program. -/
def Child.ops : Child → List Op
  | .closeInput1 ops => ops
  | .closeOutput0 ops => ops
  | .exec ops => ops
  | .running ops => ops
  | .exited => []

/-- How much of the body the parent has written. -/
def Parent.written (contentLength : Nat) : Parent → Nat
  | .closeInput0 => 0
  | .closeOutput1 => 0
  | .recvBody left _ => contentLength - left
  | .writeBody left _ => contentLength - (left + 1)
  | _ => contentLength

/-- What is left of the body is part of it. -/
def Parent.Sound (contentLength : Nat) : Parent → Prop
  | .recvBody left _ => left ≤ contentLength
  | .writeBody left _ => left + 1 ≤ contentLength
  | _ => True

/-- The parent has the whole body behind it. -/
def Parent.relayed : Parent → Bool
  | .closeInput0 | .closeOutput1 | .recvBody .. | .writeBody .. => false
  | _ => true

/-- The parent has seen the end of the output, or died of writing to nobody. -/
def Parent.bereft : Parent → Bool
  | .closeInput1 | .closeOutput0 | .waitpid | .returned | .killed => true
  | _ => false

/-- After `reads` and `writes` of the program, of whose bytes the parent has taken
`taken`, the pipes hold the differences. -/
structure Counts (capacity contentLength : Nat) (s : State) (reads writes taken : Nat) : Prop where
  input : s.input.length + reads = s.parent.written contentLength
  output : s.output.length + taken = writes
  room : s.input.length ≤ capacity
  late : 0 < taken → s.parent.relayed = true

/-- What the program has done so far was fitting; while it runs the counts are right,
and the parent gets past the output only when it is gone. -/
structure Inv (capacity contentLength : Nat) (ops : List Op) (s : State)
    (reads writes taken : Nat) : Prop where
  fits : Fits capacity contentLength 0 0 ops ↔
    Fits capacity contentLength reads writes s.child.ops
  counts : s.child ≠ .exited → Counts capacity contentLength s reads writes taken
  sound : s.parent.Sound contentLength
  bereft : s.parent.bereft = true → s.child = .exited

theorem inv_start (capacity contentLength : Nat) (ops : List Op) (body : Bytes) :
    Inv capacity contentLength ops (start ops body) 0 0 0 where
  fits := Iff.rfl
  counts := fun _ => ⟨rfl, rfl, Nat.zero_le _, fun h => absurd h (Nat.lt_irrefl 0)⟩
  sound := trivial
  bereft := nofun

theorem written_le (contentLength : Nat) (p : Parent) :
    p.written contentLength ≤ contentLength := by
  cases p <;> simp [Parent.written]

theorem written_of_relayed {contentLength : Nat} {p : Parent} (h : p.relayed = true) :
    p.written contentLength = contentLength := by
  cases p <;> first | rfl | cases h

/-- Short of the end of the output, the parent has its ends of both pipes open. -/
theorem holds_of_not_bereft {p : Parent} (h : p.bereft = false) :
    p.holdsInput1 = true ∧ p.holdsOutput0 = true := by
  cases p <;> first | exact ⟨rfl, rfl⟩ | cases h

section Invariant

variable {capacity contentLength reads writes taken : Nat} {ops : List Op} {s s' : State}

/-- A program that has input has read less than the body. -/
theorem Counts.reads_lt (h : Counts capacity contentLength s reads writes taken) {b : UInt8}
    {input : Bytes} (hinput : s.input = b :: input) : reads < contentLength := by
  have hin := h.input
  have hle := written_le contentLength s.parent
  rw [hinput, List.length_cons] at hin
  omega

/-- A program that has room for its output after a full pipe has the rest of the body
in the other pipe. -/
theorem Counts.fits_write (h : Counts capacity contentLength s reads writes taken)
    (hroom : s.output.length < capacity) (hwrites : capacity ≤ writes) :
    contentLength ≤ reads + capacity := by
  have hout := h.output
  have hin := h.input
  have hcap := h.room
  rw [written_of_relayed (h.late (by omega))] at hin
  omega

/-- While the child lives, its input has a writer and its output a reader. -/
theorem Inv.open_of_live (h : Inv capacity contentLength ops s reads writes taken)
    (hlive : s.child ≠ .exited) : s.inputOpen = true ∧ s.parent.holdsOutput0 = true := by
  obtain ⟨hinput, houtput⟩ :=
    holds_of_not_bereft (Bool.eq_false_iff.mpr fun hb => hlive (h.bereft hb))
  rw [State.inputOpen, hinput]
  exact ⟨rfl, houtput⟩

/-- A call of the parent that moves no byte between the pipes. -/
theorem Inv.parent_moves (h : Inv capacity contentLength ops s reads writes taken) {p : Parent}
    {body : Bytes} {calls : List Call}
    (hwritten : p.written contentLength = s.parent.written contentLength)
    (hsound : p.Sound contentLength) (hrelayed : s.parent.relayed = true → p.relayed = true)
    (hbereft : p.bereft = true → s.child = .exited) :
    Inv capacity contentLength ops { s with parent := p, body := body, calls := calls }
      reads writes taken where
  fits := h.fits
  counts := fun hlive =>
    have hc := h.counts hlive
    ⟨hc.input.trans hwritten.symm, hc.output, hc.room, fun ht => hrelayed (hc.late ht)⟩
  sound := hsound
  bereft := hbereft

/-- A parent without a child. -/
theorem Inv.parent_bereft (h : Inv capacity contentLength ops s reads writes taken)
    (hexited : s.child = .exited) {p : Parent} {calls : List Call}
    (hsound : p.Sound contentLength) :
    Inv capacity contentLength ops { s with parent := p, calls := calls } reads writes taken where
  fits := h.fits
  counts := fun hlive => absurd hexited hlive
  sound := hsound
  bereft := fun _ => hexited

/-- One call of the parent. -/
theorem Inv.parentMoves (h : Inv capacity contentLength ops s reads writes taken)
    (hmoves : ParentMoves capacity contentLength s s') :
    ∃ taken', Inv capacity contentLength ops s' reads writes taken' := by
  have hsound := h.sound
  have hbereft := h.bereft
  cases hmoves with
  | closeInput0 hp =>
      exact ⟨taken, h.parent_moves (by rw [hp]; rfl) trivial (by rw [hp]; exact nofun) nofun⟩
  | closeOutput1 hp =>
      exact ⟨taken, h.parent_moves (by rw [hp]; exact Nat.sub_self _) le_rfl
        (by rw [hp]; exact nofun) nofun⟩
  | relayed hp => exact ⟨taken, h.parent_moves (by rw [hp]; rfl) trivial (fun _ => rfl) nofun⟩
  | recvEnd hp hbody =>
      rw [hp] at hsound
      exact ⟨taken, h.parent_moves (by rw [hp]; rfl) hsound (by rw [hp]; exact nofun) nofun⟩
  | recvByte hp hbody =>
      rw [hp] at hsound
      exact ⟨taken, h.parent_moves (by rw [hp]; rfl) hsound (by rw [hp]; exact nofun) nofun⟩
  | broken hp hexited => exact ⟨taken, h.parent_bereft hexited trivial⟩
  | @writeBody left c hp hlive hroom =>
      have hc := h.counts hlive
      rw [hp] at hsound
      refine ⟨taken, h.fits, fun _ => ⟨?_, hc.output, ?_, ?_⟩, Nat.le_of_succ_le hsound, nofun⟩
      · -- One byte more is written, and in the pipe.
        have hin := hc.input
        rw [hp] at hin
        have hle : left + 1 ≤ contentLength := hsound
        simp only [Parent.written, List.length_append, List.length_singleton] at hin ⊢
        omega
      · rw [List.length_append]
        exact hroom
      · intro ht
        have hlate := hc.late ht
        rw [hp] at hlate
        cases hlate
  | readByte hp hout =>
      refine ⟨taken + 1, h.fits, fun hlive => ?_, trivial, nofun⟩
      have hc := h.counts hlive
      refine ⟨?_, ?_, hc.room, fun _ => rfl⟩
      · have hin := hc.input
        rw [hp] at hin
        exact hin
      · have hlen := hc.output
        rw [hout, List.length_cons] at hlen
        dsimp only
        omega
  | readEnd hp hout hexited => exact ⟨taken, h.parent_bereft hexited trivial⟩
  | sendOutput hp =>
      exact ⟨taken, h.parent_moves (by rw [hp]; rfl) trivial (fun _ => rfl) nofun⟩
  | closeInput1 hp => exact ⟨taken, h.parent_bereft (hbereft (by rw [hp]; rfl)) trivial⟩
  | closeOutput0 hp => exact ⟨taken, h.parent_bereft (hbereft (by rw [hp]; rfl)) trivial⟩
  | waitpid hp hexited => exact ⟨taken, h.parent_bereft hexited trivial⟩

/-- A call of the child before its program. -/
theorem Inv.child_starts (h : Inv capacity contentLength ops s reads writes taken) {c : Child}
    (hlive : s.child ≠ .exited) (hops : c.ops = s.child.ops) :
    Inv capacity contentLength ops { s with child := c } reads writes taken where
  fits := h.fits.trans (by rw [hops])
  counts := fun _ =>
    have hc := h.counts hlive
    ⟨hc.input, hc.output, hc.room, hc.late⟩
  sound := h.sound
  bereft := fun hb => absurd (h.bereft hb) hlive

/-- The program reads a byte. -/
theorem Counts.read (h : Counts capacity contentLength s reads writes taken) {b : UInt8}
    {input : Bytes} (hinput : s.input = b :: input) (c : Child) :
    Counts capacity contentLength { s with child := c, input := input } (reads + 1) writes
      taken where
  input := by
    have hin := h.input
    rw [hinput, List.length_cons] at hin
    dsimp only
    omega
  output := h.output
  room := by
    have hroom := h.room
    rw [hinput, List.length_cons] at hroom
    exact Nat.le_of_succ_le hroom
  late := h.late

/-- One call of the child. -/
theorem Inv.childMoves (h : Inv capacity contentLength ops s reads writes taken)
    (hmoves : ChildMoves capacity s s') :
    ∃ reads' writes', Inv capacity contentLength ops s' reads' writes' taken := by
  have hlive := childMoves_live hmoves
  have hc := h.counts hlive
  obtain ⟨hopen, hreader⟩ := h.open_of_live hlive
  have hbereft : ∀ {x : Child}, s.parent.bereft = true → x = .exited :=
    fun hb => absurd (h.bereft hb) hlive
  have hfits := h.fits
  cases hmoves with
  | closeInput1 hchild =>
      exact ⟨reads, writes, h.child_starts hlive (by rw [hchild]; rfl)⟩
  | closeOutput0 hchild =>
      exact ⟨reads, writes, h.child_starts hlive (by rw [hchild]; rfl)⟩
  | exec hchild => exact ⟨reads, writes, h.child_starts hlive (by rw [hchild]; rfl)⟩
  | exit hchild =>
      rw [hchild] at hfits
      exact ⟨reads, writes, hfits, fun hne => absurd rfl hne, h.sound, fun _ => rfl⟩
  | readByte hchild hinput =>
      rw [hchild] at hfits
      exact ⟨reads + 1, writes, hfits.trans (and_iff_right (hc.reads_lt hinput)),
        fun _ => hc.read hinput _, h.sound, hbereft⟩
  | readAllByte hchild hinput =>
      rw [hchild] at hfits
      exact ⟨reads + 1, writes, by rw [hchild]; exact hfits, fun _ => hc.read hinput _, h.sound,
        hbereft⟩
  | readEnd hchild hop hinput hclosed =>
      rw [hopen] at hclosed
      cases hclosed
  | broken hchild hnobody =>
      rw [hreader] at hnobody
      cases hnobody
  | write hchild hroom =>
      rw [hchild] at hfits
      refine ⟨reads, writes + 1, hfits.trans (and_iff_right (hc.fits_write hroom)),
        fun _ => ⟨hc.input, ?_, hc.room, hc.late⟩, h.sound, hbereft⟩
      have hout := hc.output
      rw [List.length_append, List.length_singleton]
      omega

/-- One step of either side. -/
theorem Inv.step {side : Side} (h : Inv capacity contentLength ops s reads writes taken)
    (hstep : step capacity contentLength s side = some s') :
    ∃ reads' writes' taken', Inv capacity contentLength ops s' reads' writes' taken' := by
  cases side with
  | parent =>
      obtain ⟨taken', h'⟩ := h.parentMoves (parentMoves_of_step hstep)
      exact ⟨reads, writes, taken', h'⟩
  | child =>
      obtain ⟨reads', writes', h'⟩ := h.childMoves (childMoves_of_step hstep)
      exact ⟨reads', writes', taken, h'⟩

end Invariant

/-! ## Who can be blocked -/

/-- The program waits in its next operation. -/
def Blocked (capacity : Nat) (s : State) : List Op → Prop
  | [] => False
  | .read :: _ => s.input = []
  | .readAll :: _ => s.input = []
  | .write _ :: _ => capacity ≤ s.output.length

theorem blocked_of_stepOp {capacity : Nat} {s : State} {ops : List Op}
    (h : stepOp capacity s ops = none) : Blocked capacity s ops := by
  cases ops with
  | nil => cases h
  | cons op ops =>
      cases op with
      | read =>
          simp only [stepOp] at h
          split at h
          next => cases h
          next hinput => exact hinput
      | readAll =>
          simp only [stepOp] at h
          split at h
          next => cases h
          next hinput => exact hinput
      | write c =>
          simp only [stepOp] at h
          split at h
          next => cases h
          next =>
              split at h
              next => cases h
              next hroom => exact Nat.le_of_not_lt hroom

/-- A blocked child is in its program. -/
theorem blocked_child {capacity : Nat} {s : State} (hlive : s.child ≠ .exited)
    (h : stepChild capacity s = none) :
    ∃ ops, s.child = .running ops ∧ Blocked capacity s ops := by
  rw [stepChild] at h
  cases hchild : s.child with
  | closeInput1 ops =>
      simp only [hchild] at h
      cases h
  | closeOutput0 ops =>
      simp only [hchild] at h
      cases h
  | exec ops =>
      simp only [hchild] at h
      cases h
  | running ops =>
      simp only [hchild] at h
      exact ⟨ops, rfl, blocked_of_stepOp h⟩
  | exited => exact absurd hchild hlive

/-- A blocked parent has a full pipe before it, or an empty one, or waits for the
child to end. -/
theorem blocked_parent {capacity contentLength : Nat} {s : State}
    (hgoing : s.parent.finished = false) (h : stepParent capacity contentLength s = none) :
    (∃ left c, s.parent = .writeBody left c ∧ capacity ≤ s.input.length) ∨
      (s.parent = .readOutput ∧ s.output = []) ∨ s.parent = .waitpid := by
  rw [stepParent] at h
  cases hp : s.parent with
  | closeInput0 =>
      simp only [hp] at h
      cases h
  | closeOutput1 =>
      simp only [hp] at h
      cases h
  | recvBody left c =>
      cases left with
      | zero =>
          simp only [hp] at h
          cases h
      | succ left =>
          simp only [hp] at h
          split at h
          next => cases h
          next => cases h
  | writeBody left c =>
      simp only [hp] at h
      split at h
      next => cases h
      next =>
          split at h
          next => cases h
          next hroom => exact .inl ⟨left, c, rfl, Nat.le_of_not_lt hroom⟩
  | readOutput =>
      simp only [hp] at h
      split at h
      next => cases h
      next hout => exact .inr (.inl ⟨rfl, hout⟩)
  | sendOutput c =>
      simp only [hp] at h
      cases h
  | closeInput1 =>
      simp only [hp] at h
      cases h
  | closeOutput0 =>
      simp only [hp] at h
      cases h
  | waitpid => exact .inr (.inr rfl)
  | returned =>
      rw [hp] at hgoing
      cases hgoing
  | killed =>
      rw [hp] at hgoing
      cases hgoing

section Invariant

variable {capacity contentLength reads writes taken : Nat} {ops : List Op} {s : State}

/-- Against a parent that cannot write, the program waits for the parent to read, with
a pipe's worth of the body still unread. -/
theorem Counts.not_fits_of_writeBody (h : Counts capacity contentLength s reads writes taken)
    (hcap : 1 ≤ capacity) {left : Nat} {c : UInt8} (hp : s.parent = .writeBody left c)
    (hsound : s.parent.Sound contentLength) (hfull : capacity ≤ s.input.length)
    {rest : List Op} (hblocked : Blocked capacity s rest) :
    ¬ Fits capacity contentLength reads writes rest := by
  intro hfits
  cases rest with
  | nil => exact hblocked
  | cons op rest =>
      cases op with
      | read =>
          have hempty : s.input = [] := hblocked
          rw [hempty, List.length_nil] at hfull
          omega
      | readAll => exact hfits
      | write c =>
          have hroom : capacity ≤ s.output.length := hblocked
          have hin := h.input
          have hout := h.output
          have hrest := hfits.1 (by omega)
          rw [hp] at hin hsound
          have hleft : left + 1 ≤ contentLength := hsound
          simp only [Parent.written] at hin
          omega

/-- Against a parent that waits for output, the program has read the whole body and
waits for more. -/
theorem Counts.not_fits_of_readOutput (h : Counts capacity contentLength s reads writes taken)
    (hcap : 1 ≤ capacity) (hp : s.parent = .readOutput) (hempty : s.output = []) {rest : List Op}
    (hblocked : Blocked capacity s rest) : ¬ Fits capacity contentLength reads writes rest := by
  intro hfits
  cases rest with
  | nil => exact hblocked
  | cons op rest =>
      cases op with
      | read =>
          have hinput : s.input = [] := hblocked
          have hin := h.input
          rw [hp, hinput] at hin
          have hlt := hfits.1
          simp only [Parent.written, List.length_nil] at hin
          omega
      | readAll => exact hfits
      | write c =>
          have hroom : capacity ≤ s.output.length := hblocked
          rw [hempty, List.length_nil] at hroom
          omega

/-- A program that fits is in no deadlock. -/
theorem Inv.not_deadlocked (h : Inv capacity contentLength ops s reads writes taken)
    (hcap : 1 ≤ capacity) (hfits : Fits capacity contentLength 0 0 ops) :
    ¬ Deadlocked capacity contentLength s := by
  rintro ⟨hgoing, hlive, hstuck⟩
  obtain ⟨rest, hchild, hblocked⟩ := blocked_child hlive (hstuck .child)
  have hrest := h.fits.mp hfits
  rw [hchild] at hrest
  rcases blocked_parent hgoing (hstuck .parent) with ⟨left, c, hp, hfull⟩ | ⟨hp, hempty⟩ | hp
  · exact (h.counts hlive).not_fits_of_writeBody hcap hp h.sound hfull hblocked hrest
  · exact (h.counts hlive).not_fits_of_readOutput hcap hp hempty hblocked hrest
  · exact hlive (h.bereft (by rw [hp]; rfl))

/-- Where neither side can go on, a program that does not fit is in a deadlock. -/
theorem Inv.deadlocked_of_stuck (h : Inv capacity contentLength ops s reads writes taken)
    (hfits : ¬ Fits capacity contentLength 0 0 ops)
    (hstuck : ∀ side, Relay.step capacity contentLength s side = none) :
    Deadlocked capacity contentLength s := by
  have hlive : s.child ≠ .exited := by
    intro hexited
    refine hfits (h.fits.mpr ?_)
    rw [hexited]
    trivial
  refine ⟨Bool.eq_false_iff.mpr fun hfinished => hlive (h.bereft ?_), hlive, hstuck⟩
  cases hp : s.parent <;> rw [hp] at hfinished <;> first | rfl | cases hfinished

end Invariant

/-! ## Every run ends -/

/-- The calls the parent can still make, output apart. -/
def Parent.rank (contentLength : Nat) : Parent → Nat
  | .closeInput0 => 3 * contentLength + 8
  | .closeOutput1 => 3 * contentLength + 7
  | .recvBody left _ => 3 * left + 6
  | .writeBody left _ => 3 * left + 8
  | .readOutput => 4
  | .sendOutput _ => 5
  | .closeInput1 => 3
  | .closeOutput0 => 2
  | .waitpid => 1
  | .returned => 0
  | .killed => 0

/-- The same of the child, with an operation worth the calls that move its byte. -/
def Child.rank : Child → Nat
  | .closeInput1 ops => 3 * ops.length + 4
  | .closeOutput0 ops => 3 * ops.length + 3
  | .exec ops => 3 * ops.length + 2
  | .running ops => 3 * ops.length + 1
  | .exited => 0

def State.rank (contentLength : Nat) (s : State) : Nat :=
  s.parent.rank contentLength + s.child.rank + s.input.length + 2 * s.output.length

section Rank

variable {capacity contentLength : Nat} {s s' : State}

theorem parentMoves_rank (h : ParentMoves capacity contentLength s s') :
    s'.rank contentLength < s.rank contentLength := by
  cases h with
  | closeInput0 hp | closeOutput1 hp | relayed hp | recvEnd hp _ | recvByte hp _ | broken hp _
  | readEnd hp _ _ | sendOutput hp | closeInput1 hp | closeOutput0 hp | waitpid hp _ =>
      simp only [State.rank, hp, Parent.rank]
      omega
  | writeBody hp hlive hroom =>
      simp only [State.rank, hp, Parent.rank, List.length_append, List.length_singleton]
      omega
  | readByte hp hout =>
      simp only [State.rank, hp, hout, Parent.rank, List.length_cons]
      omega

theorem childMoves_rank (h : ChildMoves capacity s s') :
    s'.rank contentLength < s.rank contentLength := by
  cases h with
  | closeInput1 hc | closeOutput0 hc | exec hc | exit hc =>
      simp only [State.rank, hc, Child.rank]
      omega
  | readByte hc hinput | readAllByte hc hinput =>
      simp only [State.rank, hc, hinput, Child.rank, List.length_cons]
      omega
  | readEnd hc hop hinput hclosed =>
      simp only [State.rank, hc, Child.rank, List.length_cons]
      omega
  | broken hc hnobody =>
      simp only [State.rank, hc, Child.rank]
      omega
  | write hc hroom =>
      simp only [State.rank, hc, Child.rank, List.length_append, List.length_cons,
        List.length_nil]
      omega

/-- Every step leaves fewer to come. -/
theorem step_rank (s : State) (side : Side) (s' : State)
    (h : step capacity contentLength s side = some s') :
    s'.rank contentLength < s.rank contentLength := by
  cases side with
  | parent => exact parentMoves_rank (parentMoves_of_step h)
  | child => exact childMoves_rank (childMoves_of_step h)

end Rank

/-! ## Deadlock freedom -/

/-- What the invariant says of a whole run. -/
theorem run_inv {capacity contentLength : Nat} {ops : List Op} {body : Bytes} {s : State}
    {sides : List Side}
    (hrun : run (step capacity contentLength) (start ops body) sides = some s) :
    ∃ reads writes taken, Inv capacity contentLength ops s reads writes taken := by
  refine run_invariant (P := fun s => ∃ reads writes taken,
    Inv capacity contentLength ops s reads writes taken) ?_
    ⟨0, 0, 0, inv_start capacity contentLength ops body⟩ hrun
  rintro s side s' ⟨reads, writes, taken, hinv⟩ hstep
  exact hinv.step hstep

/-- No run comes to a deadlock exactly when the program fits: it never reads to the
end of file, no further than the body, and fills the output pipe only once the rest
of the body fits into the input pipe. -/
theorem deadlock_free_iff {capacity : Nat} (hcap : 1 ≤ capacity) (contentLength : Nat)
    (ops : List Op) (body : Bytes) :
    (∀ sides s, run (step capacity contentLength) (start ops body) sides = some s →
      ¬ Deadlocked capacity contentLength s) ↔ Fits capacity contentLength 0 0 ops := by
  constructor
  · intro hfree
    by_contra hfits
    -- Run both sides as far as they go.
    have hrank : ∀ s side s', step capacity contentLength s side = some s' →
        s'.rank contentLength < s.rank contentLength := step_rank
    obtain ⟨sides, s, hrun, hstuck⟩ := run_until_stuck hrank (start ops body)
    obtain ⟨reads, writes, taken, hinv⟩ := run_inv hrun
    exact hfree sides s hrun (hinv.deadlocked_of_stuck hfits hstuck)
  · intro hfits sides s hrun
    obtain ⟨reads, writes, taken, hinv⟩ := run_inv hrun
    exact hinv.not_deadlocked hcap hfits

/-- A program that answers after it has read its body. -/
theorem deadlock_free_answer : (1 : Nat) ≤ 65536 ∧ ∀ sides s,
    run (step 65536 2) (start [.read, .read, .write 111] (bytes "ab")) sides = some s →
      ¬ Deadlocked 65536 2 s :=
  ⟨by decide, (deadlock_free_iff (by decide) 2 _ _).mpr (by decide)⟩

/-- A program that reads to the end of file gets stuck without any body, and one that
writes two bytes before it reads gets stuck on a pipe of one. -/
theorem deadlock_reached :
    (¬ ∀ sides s, run (step 1 0) (start [.readAll] []) sides = some s → ¬ Deadlocked 1 0 s) ∧
      ¬ ∀ sides s,
        run (step 1 2) (start [.write 97, .write 98, .read, .read] (bytes "ab")) sides = some s →
          ¬ Deadlocked 1 2 s := by
  constructor
  · intro h
    refine h [.parent, .parent, .parent, .child, .child, .child] _ rfl ⟨rfl, nofun, ?_⟩
    rintro (_ | _) <;> rfl
  · intro h
    refine h [.parent, .parent, .parent, .parent, .parent, .child, .child, .child, .child] _ rfl
      ⟨rfl, nofun, ?_⟩
    rintro (_ | _) <;> rfl

end Relay
