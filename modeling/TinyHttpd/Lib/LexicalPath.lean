import Mathlib.Data.List.Basic
import Mathlib.Data.List.Count

/-!
# Lexical resolution of path names

A path is a list over an alphabet with a separator and a dot.  It is resolved
component by component from a start directory: an empty component and `.` stay,
`..` goes to the parent, any other component is a name that goes down.  Without
symbolic links this is where the path leads.

`Confined root p` says that the walk of `p` is inside the directory `root` of the
start directory at every step.  `confined_iff` reads it off the components: the
first one is `root`, and further on no prefix has more `..` than names.
-/

namespace LexicalPath

variable {α : Type} [DecidableEq α]

/-- What a component does to the position. -/
inductive Kind where
  | stay
  | up
  | down
deriving DecidableEq, Repr

/-- The kind of a component. -/
def kind (dot : α) (c : List α) : Kind :=
  if c = [] ∨ c = [dot] then .stay
  else if c = [dot, dot] then .up
  else .down

/-- A position: how many parents above the start directory, and the names below
that, innermost first. -/
structure Pos (α : Type) where
  above : Nat
  names : List (List α)
deriving DecidableEq

/-- One component. -/
def Pos.enter (dot : α) (pos : Pos α) (c : List α) : Pos α :=
  match kind dot c, pos.names with
  | .stay, _ => pos
  | .up, [] => ⟨pos.above + 1, []⟩
  | .up, _ :: names => ⟨pos.above, names⟩
  | .down, names => ⟨pos.above, c :: names⟩

/-- The positions behind each component. -/
def visits (dot : α) : Pos α → List (List α) → List (Pos α)
  | _, [] => []
  | pos, c :: cs => pos.enter dot c :: visits dot (pos.enter dot c) cs

/-- The position is the directory `root` of the start directory, or below it. -/
def Pos.Inside (root : List α) (pos : Pos α) : Prop :=
  pos.above = 0 ∧ pos.names.getLast? = some root

instance (root : List α) (pos : Pos α) : Decidable (pos.Inside root) :=
  inferInstanceAs (Decidable (_ ∧ _))

/-- The whole walk of a path is inside `root`. -/
def Confined (sep dot : α) (root path : List α) : Prop :=
  ∀ pos ∈ visits dot ⟨0, []⟩ (path.splitOn sep), pos.Inside root

instance (sep dot : α) (root path : List α) : Decidable (Confined sep dot root path) :=
  inferInstanceAs (Decidable (∀ pos ∈ _, _))

/-- From `d` levels deep, no prefix goes up more often than down. -/
def Balanced (d : Nat) (ks : List Kind) : Prop :=
  ∀ n, (ks.take n).count .up ≤ d + (ks.take n).count .down

/-! ## Balance -/

theorem balanced_nil (d : Nat) : Balanced d [] := by
  intro n
  simp

theorem balanced_stay (d : Nat) (ks : List Kind) :
    Balanced d (.stay :: ks) ↔ Balanced d ks := by
  constructor
  · intro h n
    simpa using h (n + 1)
  · intro h n
    cases n with
    | zero => simp
    | succ n => simpa using h n

theorem balanced_down (d : Nat) (ks : List Kind) :
    Balanced d (.down :: ks) ↔ Balanced (d + 1) ks := by
  constructor
  · intro h n
    have := h (n + 1)
    simp only [List.take_succ_cons, ne_eq, reduceCtorEq, not_false_eq_true,
      List.count_cons_of_ne, List.count_cons_self] at this
    omega
  · intro h n
    cases n with
    | zero => simp
    | succ n =>
        have := h n
        simp only [List.take_succ_cons, ne_eq, reduceCtorEq, not_false_eq_true,
          List.count_cons_of_ne, List.count_cons_self]
        omega

theorem balanced_up (d : Nat) (ks : List Kind) :
    Balanced d (.up :: ks) ↔ 0 < d ∧ Balanced (d - 1) ks := by
  constructor
  · intro h
    have h1 := h 1
    simp only [List.take_succ_cons, List.take_zero, List.count_singleton_self, ne_eq, reduceCtorEq,
      not_false_eq_true, List.count_cons_of_ne, List.count_nil] at h1
    refine ⟨by omega, fun n => ?_⟩
    have := h (n + 1)
    simp only [List.take_succ_cons, ne_eq, reduceCtorEq, not_false_eq_true,
      List.count_cons_of_ne, List.count_cons_self] at this
    omega
  · rintro ⟨hd, h⟩ n
    cases n with
    | zero => simp
    | succ n =>
        have := h n
        simp only [List.take_succ_cons, ne_eq, reduceCtorEq, not_false_eq_true,
          List.count_cons_of_ne, List.count_cons_self]
        omega

/-- A name at the end changes nothing. -/
theorem balanced_append_down (d : Nat) (ks : List Kind) :
    Balanced d (ks ++ [.down]) ↔ Balanced d ks := by
  induction ks generalizing d with
  | nil => simp [balanced_down, balanced_nil]
  | cons k ks ih =>
      cases k with
      | stay => simp [balanced_stay, ih]
      | down => simp [balanced_down, ih]
      | up => simp [balanced_up, ih]

/-! ## Walks -/

/-- A walk that starts inside a directory stays there when its components are
balanced, and only then. -/
theorem visits_inside_iff (dot : α) (root : List α) :
    ∀ (cs names : List (List α)),
      (∀ pos ∈ visits dot ⟨0, names ++ [root]⟩ cs, pos.Inside root) ↔
        Balanced names.length (cs.map (kind dot))
  | [], names => by simp [visits, balanced_nil]
  | c :: cs, names => by
      rw [visits, List.forall_mem_cons, List.map_cons]
      cases hk : kind dot c with
      | stay =>
          have he : (⟨0, names ++ [root]⟩ : Pos α).enter dot c = ⟨0, names ++ [root]⟩ := by
            simp [Pos.enter, hk]
          rw [he, balanced_stay, visits_inside_iff dot root cs names]
          exact and_iff_right ⟨rfl, List.getLast?_concat ..⟩
      | down =>
          have he : (⟨0, names ++ [root]⟩ : Pos α).enter dot c = ⟨0, (c :: names) ++ [root]⟩ := by
            simp [Pos.enter, hk]
          rw [he, balanced_down, visits_inside_iff dot root cs (c :: names), List.length_cons]
          exact and_iff_right ⟨rfl, List.getLast?_concat ..⟩
      | up =>
          cases names with
          | nil =>
              have he : (⟨0, [] ++ [root]⟩ : Pos α).enter dot c = ⟨0, []⟩ := by
                simp [Pos.enter, hk]
              rw [he, balanced_up]
              refine iff_of_false ?_ ?_
              · rintro ⟨h, -⟩
                simp [Pos.Inside] at h
              · rintro ⟨h, -⟩
                simp at h
          | cons name names =>
              have he : (⟨0, (name :: names) ++ [root]⟩ : Pos α).enter dot c =
                  ⟨0, names ++ [root]⟩ := by
                simp [Pos.enter, hk]
              rw [he, balanced_up, visits_inside_iff dot root cs names]
              simp [Pos.Inside]

/-- A path is confined when its first component is the root and the others are
balanced, and only then. -/
theorem confined_iff {sep dot : α} {root path c : List α} {cs : List (List α)}
    (hsplit : path.splitOn sep = c :: cs) (hc : kind dot c = .down) :
    Confined sep dot root path ↔ c = root ∧ Balanced 0 (cs.map (kind dot)) := by
  have he : (⟨0, []⟩ : Pos α).enter dot c = ⟨0, [] ++ [c]⟩ := by
    simp [Pos.enter, hc]
  rw [Confined, hsplit, visits, List.forall_mem_cons, he]
  constructor
  · rintro ⟨hin, hrest⟩
    have hroot : c = root := by simpa [Pos.Inside] using hin
    rw [hroot] at hrest
    exact ⟨hroot, (visits_inside_iff dot root cs []).mp hrest⟩
  · rintro ⟨rfl, hbal⟩
    exact ⟨⟨rfl, by simp⟩, (visits_inside_iff dot c cs []).mpr hbal⟩

/-! ## Components -/

theorem splitOn_append_sep (sep : α) (p q : List α) :
    (p ++ sep :: q).splitOn sep = p.splitOn sep ++ q.splitOn sep := by
  rw [List.splitOn, List.splitOnP_append_cons _ _ (by simp)]
  rfl

theorem splitOn_of_notMem {sep : α} {p : List α} (h : sep ∉ p) : p.splitOn sep = [p] := by
  rw [List.splitOn]
  apply List.splitOnP_eq_singleton
  intro c hc
  have hne : c ≠ sep := fun heq => h (heq ▸ hc)
  simpa using hne

/-- A path is what stands before its first separator, and the components behind
it. -/
theorem splitOn_cons_cases (sep : α) (p : List α) :
    (sep ∉ p ∧ p.splitOn sep = [p]) ∨
      ∃ c q, sep ∉ c ∧ p = c ++ sep :: q ∧ p.splitOn sep = c :: q.splitOn sep := by
  by_cases h : sep ∈ p
  · obtain ⟨c, q, rfl, hc⟩ := List.eq_append_cons_of_mem h
    refine Or.inr ⟨c, q, hc, rfl, ?_⟩
    rw [splitOn_append_sep, splitOn_of_notMem hc, List.singleton_append]
  · exact Or.inl ⟨h, splitOn_of_notMem h⟩

/-- A component with something else than a dot in it is a name. -/
theorem kind_of_mem {dot x : α} {c : List α} (hx : x ∈ c) (hne : x ≠ dot) :
    kind dot c = .down := by
  have hstay : ¬(c = [] ∨ c = [dot]) := by
    rintro (rfl | rfl)
    · exact absurd hx List.not_mem_nil
    · exact hne (List.mem_singleton.mp hx)
  have hup : c ≠ [dot, dot] := by
    rintro rfl
    simp [hne] at hx
  rw [kind, if_neg hstay, if_neg hup]

/-- Text glued to the end of a path that ends in a name leaves its kinds as they
were. -/
theorem kinds_append {sep dot x : α} (hsep : x ≠ sep) (hdot : x ≠ dot) {m : List α} (hm : sep ∉ m) :
    ∀ (n : Nat) (p : List α), p.length ≤ n → p.getLast? = some x →
      ((p ++ m).splitOn sep).map (kind dot) = (p.splitOn sep).map (kind dot)
  | 0, p, hn, hlast => by
      have hp : p = [] := List.length_eq_zero_iff.mp (Nat.le_zero.mp hn)
      simp [hp] at hlast
  | n + 1, p, hn, hlast => by
      have hx : x ∈ p := List.mem_of_getLast? hlast
      obtain ⟨hp, hsplit⟩ | ⟨c, q, hc, rfl, hsplit⟩ := splitOn_cons_cases sep p
      · have hpm : sep ∉ p ++ m := by simp [hp, hm]
        rw [hsplit, splitOn_of_notMem hpm, List.map_singleton, List.map_singleton,
          kind_of_mem hx hdot, kind_of_mem (List.mem_append_left m hx) hdot]
      · cases q with
        | nil =>
            rw [List.getLast?_concat] at hlast
            exact absurd (Option.some.inj hlast).symm hsep
        | cons d q =>
            have hq : (d :: q).getLast? = some x := by
              simpa [List.getLast?_append, List.getLast?_cons_cons] using hlast
            have hlen : (d :: q).length ≤ n := by
              simp only [List.length_append, List.length_cons] at hn ⊢
              omega
            have ih := kinds_append hsep hdot hm n (d :: q) hlen hq
            rw [List.append_assoc, List.cons_append, splitOn_append_sep, splitOn_append_sep,
              List.map_append, List.map_append, ih]

end LexicalPath
