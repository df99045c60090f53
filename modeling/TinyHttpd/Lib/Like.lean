import Mathlib.Data.List.Forall2
import Mathlib.Data.List.Infix

/-!
# Patterns with wildcards

In a pattern of `LIKE` one element stands for any text and one for any element; each of the
others stands for the elements that a comparison does not tell from it.  A text between two
wildcards of the first kind is a pattern for the texts that contain it (`like_contains`).
-/

namespace Like

variable {α : Type} [DecidableEq α]

/-- The two elements that do not stand for themselves. -/
structure Wildcards (α : Type) where
  many : α
  one : α

/-- The text fits the pattern. -/
def like (w : Wildcards α) (same : α → α → Bool) : List α → List α → Bool
  | [], text => text.isEmpty
  | p :: pattern, text =>
      if p = w.many then text.tails.any (like w same pattern)
      else match text with
        | [] => false
        | c :: text => (p == w.one || same p c) && like w same pattern text

theorem like_many (w : Wildcards α) (same : α → α → Bool) (pattern text : List α) :
    like w same (w.many :: pattern) text = text.tails.any (like w same pattern) := by
  rw [like.eq_def]
  exact if_pos rfl

theorem like_cons {w : Wildcards α} {p : α} (hp : p ≠ w.many) (same : α → α → Bool)
    (pattern text : List α) : like w same (p :: pattern) text = match text with
      | [] => false
      | c :: text => (p == w.one || same p c) && like w same pattern text := by
  rw [like.eq_def]
  exact if_neg hp

/-- The text starts with the part, up to the comparison. -/
def startsWith (same : α → α → Bool) : List α → List α → Bool
  | [], _ => true
  | _ :: _, [] => false
  | p :: part, c :: text => same p c && startsWith same part text

/-- Some piece of the text is the part, element by element. -/
def Contains (same : α → α → Bool) (part text : List α) : Prop :=
  ∃ front mid back, text = front ++ mid ++ back ∧ List.Forall₂ (same · ·) part mid

omit [DecidableEq α] in
theorem startsWith_iff {same : α → α → Bool} {part text : List α} :
    startsWith same part text = true ↔
      ∃ mid back, text = mid ++ back ∧ List.Forall₂ (same · ·) part mid := by
  induction part generalizing text with
  | nil => exact iff_of_true rfl ⟨[], text, rfl, .nil⟩
  | cons p part ih =>
      cases text with
      | nil =>
          refine iff_of_false nofun ?_
          rintro ⟨mid, back, htext, hmid⟩
          cases hmid with
          | cons _ _ => cases htext
      | cons c text =>
          rw [startsWith, Bool.and_eq_true, ih]
          constructor
          · rintro ⟨hc, mid, back, rfl, hmid⟩
            exact ⟨c :: mid, back, rfl, .cons hc hmid⟩
          · rintro ⟨_, back, htext, hmid⟩
            cases hmid with
            | cons hd hmid =>
                obtain ⟨rfl, rfl⟩ := List.cons.inj htext
                exact ⟨hd, _, back, rfl, hmid⟩

omit [DecidableEq α] in
/-- The part is looked for at every place of the text. -/
theorem contains_iff {same : α → α → Bool} {part text : List α} :
    Contains same part text ↔ text.tails.any (startsWith same part) = true := by
  rw [Contains, List.any_eq_true, iff_comm]
  constructor
  · rintro ⟨rest, hrest, hstart⟩
    obtain ⟨front, rfl⟩ := (List.mem_tails _ _).mp hrest
    obtain ⟨mid, back, rfl, hmid⟩ := startsWith_iff.mp hstart
    exact ⟨front, mid, back, (List.append_assoc ..).symm, hmid⟩
  · rintro ⟨front, mid, back, rfl, hmid⟩
    rw [List.append_assoc]
    exact ⟨mid ++ back, (List.mem_tails _ _).mpr (List.suffix_append ..),
      startsWith_iff.mpr ⟨mid, back, rfl, hmid⟩⟩

instance (same : α → α → Bool) (part text : List α) : Decidable (Contains same part text) :=
  decidable_of_iff _ contains_iff.symm

/-- The part has no wildcard. -/
def Plain (w : Wildcards α) (part : List α) : Prop := ∀ p ∈ part, p ≠ w.many ∧ p ≠ w.one

theorem like_many_nil (w : Wildcards α) (same : α → α → Bool) (text : List α) :
    like w same [w.many] text = true := by
  rw [like_many, List.any_eq_true]
  exact ⟨[], (List.mem_tails _ _).mpr List.nil_suffix, rfl⟩

/-- A part and any text behind it. -/
theorem like_append_many {w : Wildcards α} {part : List α} (h : Plain w part)
    (same : α → α → Bool) (text : List α) :
    like w same (part ++ [w.many]) text = startsWith same part text := by
  induction part generalizing text with
  | nil => exact like_many_nil w same text
  | cons p part ih =>
      obtain ⟨⟨hmany, hone⟩, hpart⟩ := List.forall_mem_cons.mp h
      rw [List.cons_append, like_cons hmany]
      cases text with
      | nil => rfl
      | cons c text =>
          dsimp only
          rw [ih hpart, beq_false_of_ne hone, Bool.false_or, startsWith]

/-- A part with any text around it. -/
theorem like_contains {w : Wildcards α} {part : List α} (h : Plain w part)
    (same : α → α → Bool) (text : List α) :
    like w same (w.many :: (part ++ [w.many])) text = true ↔ Contains same part text := by
  have hpart : like w same (part ++ [w.many]) = startsWith same part :=
    funext (like_append_many h same)
  rw [like_many, hpart, contains_iff]

end Like
