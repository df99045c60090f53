import Mathlib.Data.List.Count

/-!
# Handles and the variable that holds them

A handle is acquired, used and released; a log keeps these events.  `Kept` says that every
handle of a log is released once and not used behind that.

A slot is a variable for one handle.  It can be assigned over, released and left as it is,
or closed, which is a release that clears it.  A slot goes wrong in two ways: an assignment
over a handle that is not released yet loses it, and a release of one that is released
already repeats it.  `Sound` is what holds of a slot as long as neither has happened, and
`Broken` what holds ever after.
-/

namespace Lifetime

inductive Event where
  | acquire (handle : Nat)
  /-- `none` for a use of the null handle. -/
  | use (handle : Option Nat)
  | release (handle : Nat)
deriving DecidableEq, Repr

/-- The handle is released once, and not used behind that. -/
structure Once (log : List Event) (a : Nat) : Prop where
  released : log.count (.release a) = 1
  unused : ∀ before after, log = before ++ .release a :: after → .use (some a) ∉ after

/-- Every handle of the log is released once, and not used behind that. -/
def Kept (log : List Event) : Prop := ∀ a, .acquire a ∈ log → Once log a

/-! ## Logs that grow -/

/-- An event that neither uses nor releases the handle. -/
def Event.Spares (a : Nat) (e : Event) : Prop := e ≠ .release a ∧ e ≠ .use (some a)

/-- Events behind the release that spare the handle. -/
theorem Once.append {log es : List Event} {a : Nat} (h : Once log a)
    (hes : ∀ e ∈ es, e.Spares a) : Once (log ++ es) a where
  released := by
    rw [List.count_append, h.released, List.count_eq_zero.mpr fun hmem => (hes _ hmem).1 rfl]
  unused := by
    intro before after heq
    rcases List.append_eq_append_iff.mp heq with ⟨c, rfl, hc⟩ | ⟨c, hlog, hc⟩
    · -- The release would be among the new events.
      exact absurd rfl (hes (.release a) (by rw [hc]; simp)).1
    · cases c with
      | nil =>
          have hmem : .release a ∈ es := by
            rw [List.nil_append] at hc
            rw [← hc]
            exact List.mem_cons_self ..
          exact absurd rfl (hes _ hmem).1
      | cons e c =>
          obtain ⟨rfl, rfl⟩ := List.cons.inj hc
          show .use (some a) ∉ c ++ es
          rw [List.mem_append, not_or]
          exact ⟨h.unused before c hlog, fun hmem => (hes _ hmem).2 rfl⟩

/-- The first release of a handle. -/
theorem once_release {log : List Event} {a : Nat} (h : .release a ∉ log) :
    Once (log ++ [.release a]) a where
  released := by
    rw [List.count_append, List.count_eq_zero.mpr h, List.count_singleton_self]
  unused := by
    intro before after heq
    rcases List.append_eq_append_iff.mp heq with ⟨c, hbefore, hc⟩ | ⟨c, hlog, hc⟩
    · cases c with
      | nil =>
          obtain ⟨-, rfl⟩ := List.cons.inj hc
          exact List.not_mem_nil
      | cons e c => cases c <;> cases hc
    · cases c with
      | nil =>
          obtain ⟨-, rfl⟩ := List.cons.inj hc
          exact List.not_mem_nil
      | cons e c =>
          obtain ⟨rfl, -⟩ := List.cons.inj hc
          exact absurd (by rw [hlog]; simp) h

/-! ## Slots -/

/-- A variable for a handle, the number of handles handed out, and the log. -/
structure Slot where
  held : Option Nat
  issued : Nat
  log : List Event
deriving DecidableEq

def Slot.empty : Slot := ⟨none, 0, []⟩

/-- The variable gets a new handle, or the null handle. -/
def Slot.assign (s : Slot) (new : Bool) : Slot :=
  if new then ⟨some s.issued, s.issued + 1, s.log ++ [.acquire s.issued]⟩
  else { s with held := none }

/-- What the variable holds is used. -/
def Slot.use (s : Slot) : Slot := { s with log := s.log ++ [.use s.held] }

/-- That many uses. -/
def Slot.useTimes (s : Slot) : Nat → Slot
  | 0 => s
  | n + 1 => (s.useTimes n).use

/-- What the variable holds is released, and stays in it. -/
def Slot.release (s : Slot) : Slot :=
  match s.held with
  | none => s
  | some a => { s with log := s.log ++ [.release a] }

/-- What the variable holds is released, and the variable cleared. -/
def Slot.close (s : Slot) : Slot := s.release.assign false

/-- What the variable holds: nothing, a handle, a handle that is released. -/
inductive Phase where
  | clear
  | live
  | stale
deriving DecidableEq, Repr

def Slot.phase (s : Slot) : Phase :=
  match s.held with
  | none => .clear
  | some a => if .release a ∈ s.log then .stale else .live

/-- Every handle is released once, but for one that is in the variable. -/
structure Sound (s : Slot) : Prop where
  acquired : ∀ a, .acquire a ∈ s.log ↔ a < s.issued
  spared : ∀ a, s.issued ≤ a → ∀ e ∈ s.log, e.Spares a
  held : ∀ a, s.held = some a → a < s.issued
  settled : ∀ a < s.issued, Once s.log a ∨ (s.held = some a ∧ .release a ∉ s.log)

/-- A handle is lost, or released twice. -/
def Broken (s : Slot) : Prop :=
  ∃ a < s.issued, .acquire a ∈ s.log ∧
    ((s.held ≠ some a ∧ .release a ∉ s.log) ∨ 2 ≤ s.log.count (.release a))

theorem Once.mem {log : List Event} {a : Nat} (h : Once log a) : .release a ∈ log :=
  List.count_pos_iff.mp (by rw [h.released]; exact Nat.one_pos)

section Phases

variable {s : Slot}

theorem phase_live_iff : s.phase = .live ↔ ∃ a, s.held = some a ∧ .release a ∉ s.log := by
  cases hheld : s.held with
  | none => simp [Slot.phase, hheld]
  | some a => by_cases hmem : .release a ∈ s.log <;> simp [Slot.phase, hheld, hmem]

theorem phase_stale_iff : s.phase = .stale ↔ ∃ a, s.held = some a ∧ .release a ∈ s.log := by
  cases hheld : s.held with
  | none => simp [Slot.phase, hheld]
  | some a => by_cases hmem : .release a ∈ s.log <;> simp [Slot.phase, hheld, hmem]

theorem Sound.once_of_not_live (h : Sound s) (hphase : s.phase ≠ .live) {a : Nat}
    (ha : a < s.issued) : Once s.log a :=
  (h.settled a ha).resolve_right fun hlive => hphase (phase_live_iff.mpr ⟨a, hlive⟩)

end Phases

/-! ## A sound slot -/

theorem sound_empty : Sound Slot.empty where
  acquired := by simp [Slot.empty]
  spared := nofun
  held := nofun
  settled := nofun

section Sound

variable {s : Slot}

/-- An assignment loses nothing unless the variable holds a handle that is not released. -/
theorem Sound.assign (h : Sound s) (hphase : s.phase ≠ .live) (new : Bool) :
    Sound (s.assign new) ∧ (s.assign new).phase = if new then .live else .clear := by
  cases new with
  | false =>
      exact ⟨⟨h.acquired, h.spared, nofun, fun a ha => .inl (h.once_of_not_live hphase ha)⟩, rfl⟩
  | true =>
      have hfresh : .release s.issued ∉ s.log ++ [.acquire s.issued] := by
        rw [List.mem_append, not_or]
        exact ⟨fun hmem => (h.spared s.issued (Nat.le_refl _) _ hmem).1 rfl, by simp⟩
      refine ⟨⟨fun a => ?_, fun a ha e he => ?_, fun a ha => ?_, fun a ha => ?_⟩, ?_⟩
      · have hold := h.acquired a
        simp only [Slot.assign, if_true, List.mem_append, List.mem_singleton, hold,
          Event.acquire.injEq]
        omega
      · rcases List.mem_append.mp he with he | he
        · exact h.spared a (Nat.le_of_succ_le ha) e he
        · rw [List.mem_singleton.mp he]
          exact ⟨nofun, nofun⟩
      · cases ha
        exact Nat.lt_succ_self _
      · rcases Nat.lt_succ_iff_lt_or_eq.mp ha with ha | rfl
        · refine .inl ((h.once_of_not_live hphase ha).append fun e he => ?_)
          rw [List.mem_singleton.mp he]
          exact ⟨nofun, nofun⟩
        · exact .inr ⟨rfl, hfresh⟩
      · exact phase_live_iff.mpr ⟨s.issued, rfl, hfresh⟩

/-- A use spares everything unless the variable holds a handle that is released. -/
theorem Sound.use (h : Sound s) (hphase : s.phase ≠ .stale) :
    Sound s.use ∧ s.use.phase = s.phase := by
  have hrelease : ∀ a, .release a ∈ s.log ++ [.use s.held] ↔ .release a ∈ s.log := by simp
  refine ⟨⟨fun a => ?_, fun a ha e he => ?_, h.held, fun a ha => ?_⟩, ?_⟩
  · show .acquire a ∈ s.log ++ [.use s.held] ↔ a < s.issued
    rw [← h.acquired a]
    simp
  · rcases List.mem_append.mp he with he | he
    · exact h.spared a ha e he
    · rw [List.mem_singleton.mp he]
      refine ⟨nofun, fun heq => ?_⟩
      exact absurd (h.held a (Event.use.inj heq)) (Nat.not_lt.mpr ha)
  · rcases h.settled a ha with honce | hlive
    · refine .inl (honce.append fun e he => ?_)
      rw [List.mem_singleton.mp he]
      exact ⟨nofun, fun heq =>
        hphase (phase_stale_iff.mpr ⟨a, Event.use.inj heq, honce.mem⟩)⟩
    · exact .inr ⟨hlive.1, fun hmem => hlive.2 ((hrelease a).mp hmem)⟩
  · cases hheld : s.held with
    | none => simp [Slot.phase, Slot.use, hheld]
    | some a => simp [Slot.phase, Slot.use, hheld]

theorem Sound.useTimes (h : Sound s) (hphase : s.phase ≠ .stale) :
    ∀ n, Sound (s.useTimes n) ∧ (s.useTimes n).phase = s.phase
  | 0 => ⟨h, rfl⟩
  | n + 1 => by
      obtain ⟨hn, hsame⟩ := h.useTimes hphase n
      obtain ⟨hused, hafter⟩ := hn.use (by rwa [hsame])
      exact ⟨hused, hafter.trans hsame⟩

/-- A release repeats nothing unless the variable holds a handle that is released. -/
theorem Sound.release (h : Sound s) (hphase : s.phase ≠ .stale) :
    Sound s.release ∧ s.release.phase = if s.phase = .live then .stale else .clear := by
  cases hheld : s.held with
  | none =>
      have hclear : s.phase = .clear := by simp [Slot.phase, hheld]
      have hsame : s.release = s := by simp [Slot.release, hheld]
      rw [hsame, hclear]
      exact ⟨h, rfl⟩
  | some b =>
      have hnew : .release b ∉ s.log := fun hmem => hphase (phase_stale_iff.mpr ⟨b, hheld, hmem⟩)
      have hlive : s.phase = .live := phase_live_iff.mpr ⟨b, hheld, hnew⟩
      have hrel : s.release = { s with log := s.log ++ [.release b] } := by
        simp [Slot.release, hheld]
      rw [hrel, hlive, if_pos rfl]
      refine ⟨⟨fun a => ?_, fun a ha e he => ?_, h.held, fun a ha => ?_⟩, ?_⟩
      · rw [← h.acquired a]
        simp
      · rcases List.mem_append.mp he with he | he
        · exact h.spared a ha e he
        · rw [List.mem_singleton.mp he]
          refine ⟨fun heq => ?_, nofun⟩
          rw [← Event.release.inj heq] at ha
          exact absurd (h.held b hheld) (Nat.not_lt.mpr ha)
      · rcases h.settled a ha with honce | hlive
        · refine .inl (honce.append fun e he => ?_)
          rw [List.mem_singleton.mp he]
          refine ⟨fun heq => ?_, nofun⟩
          cases heq
          exact hnew honce.mem
        · have hab : a = b := Option.some.inj (hlive.1.symm.trans hheld)
          subst hab
          exact .inl (once_release hnew)
      · exact phase_stale_iff.mpr ⟨b, hheld, by simp⟩

theorem Sound.close (h : Sound s) (hphase : s.phase ≠ .stale) :
    Sound s.close ∧ s.close.phase = .clear := by
  obtain ⟨hreleased, hafter⟩ := h.release hphase
  refine hreleased.assign ?_ false
  rw [hafter]
  split <;> nofun

/-- A slot that holds no handle in need of a release has kept all of them. -/
theorem Sound.kept (h : Sound s) (hphase : s.phase ≠ .live) : Kept s.log :=
  fun a ha => h.once_of_not_live hphase ((h.acquired a).mp ha)

/-! ## A broken slot -/

/-- An assignment over a handle that is not released loses it. -/
theorem Sound.broken_assign (h : Sound s) (hphase : s.phase = .live) (new : Bool) :
    Broken (s.assign new) := by
  obtain ⟨a, hheld, hmem⟩ := phase_live_iff.mp hphase
  have ha := h.held a hheld
  cases new with
  | false => exact ⟨a, ha, (h.acquired a).mpr ha, .inl ⟨nofun, hmem⟩⟩
  | true =>
      refine ⟨a, Nat.lt_succ_of_lt ha, List.mem_append_left _ ((h.acquired a).mpr ha),
        .inl ⟨fun heq => ?_, by simpa [Slot.assign] using hmem⟩⟩
      exact absurd (Option.some.inj heq) (Nat.ne_of_gt ha)

/-- A second release. -/
theorem Sound.broken_release (h : Sound s) (hphase : s.phase = .stale) : Broken s.release := by
  obtain ⟨a, hheld, hmem⟩ := phase_stale_iff.mp hphase
  have hpos := List.count_pos_iff.mpr hmem
  have ha := h.held a hheld
  have hrel : s.release = { s with log := s.log ++ [.release a] } := by
    simp [Slot.release, hheld]
  rw [hrel]
  refine ⟨a, ha, List.mem_append_left _ ((h.acquired a).mpr ha), .inr ?_⟩
  rw [List.count_append, List.count_singleton_self]
  exact Nat.succ_le_succ hpos

theorem Broken.assign (h : Broken s) (new : Bool) : Broken (s.assign new) := by
  obtain ⟨a, ha, hacquired, hbroken⟩ := h
  cases new with
  | false => exact ⟨a, ha, hacquired, hbroken.imp_left fun h => ⟨nofun, h.2⟩⟩
  | true =>
      refine ⟨a, Nat.lt_succ_of_lt ha, List.mem_append_left _ hacquired, ?_⟩
      rcases hbroken with ⟨-, hlost⟩ | htwice
      · exact .inl ⟨fun heq => absurd (Option.some.inj heq) (Nat.ne_of_gt ha),
          by simpa [Slot.assign] using hlost⟩
      · exact .inr (by simpa [Slot.assign] using htwice)

theorem Broken.use (h : Broken s) : Broken s.use := by
  obtain ⟨a, ha, hacquired, hbroken⟩ := h
  refine ⟨a, ha, List.mem_append_left _ hacquired, ?_⟩
  rcases hbroken with ⟨hheld, hlost⟩ | htwice
  · exact .inl ⟨hheld, by simpa [Slot.use] using hlost⟩
  · exact .inr (by simpa [Slot.use] using htwice)

theorem Broken.useTimes (h : Broken s) : ∀ n, Broken (s.useTimes n)
  | 0 => h
  | n + 1 => (h.useTimes n).use

theorem Broken.release (h : Broken s) : Broken s.release := by
  cases hheld : s.held with
  | none => rwa [show s.release = s by simp [Slot.release, hheld]]
  | some b =>
      obtain ⟨a, ha, hacquired, hbroken⟩ := h
      rw [show s.release = { s with log := s.log ++ [.release b] } by simp [Slot.release, hheld]]
      refine ⟨a, ha, List.mem_append_left _ hacquired, ?_⟩
      rcases hbroken with ⟨hother, hlost⟩ | htwice
      · refine .inl ⟨hother, ?_⟩
        rw [List.mem_append, not_or]
        refine ⟨hlost, fun hmem => hother ?_⟩
        cases List.mem_singleton.mp hmem
        exact hheld
      · exact .inr (Nat.le_trans htwice (by rw [List.count_append]; exact Nat.le_add_right ..))

theorem Broken.close (h : Broken s) : Broken s.close := h.release.assign false

theorem Broken.not_kept (h : Broken s) : ¬Kept s.log := by
  obtain ⟨a, -, hacquired, hbroken⟩ := h
  intro hkept
  have hone := (hkept a hacquired).released
  rcases hbroken with ⟨-, hlost⟩ | htwice
  · rw [List.count_eq_zero.mpr hlost] at hone
    cases hone
  · omega

end Sound

end Lifetime
