import Mathlib.Data.List.TakeWhile

/-!
# Words

A test on the elements of a list tells its separators.  The words of the list are the
longest pieces without a separator, where there is anything between two of them.
-/

namespace Words

variable {α β : Type} {p : α → Bool}

/-- The words of a list. -/
def words (p : α → Bool) (l : List α) : List (List α) := (l.splitOnP p).filter (!·.isEmpty)

@[simp] theorem words_nil : words p [] = [] := rfl

/-- No word goes over a separator. -/
theorem words_append_sep {c : α} (hc : p c = true) (a b : List α) :
    words p (a ++ c :: b) = words p a ++ words p b := by
  rw [words, List.splitOnP_append_cons a b hc, List.filter_append]
  rfl

theorem words_cons_sep {c : α} (hc : p c = true) (l : List α) : words p (c :: l) = words p l :=
  words_append_sep hc [] l

/-- Without separators there is one word, or nothing at all. -/
theorem words_of_no_sep {l : List α} (h : ∀ c ∈ l, p c = false) :
    words p l = [l].filter (!·.isEmpty) := by
  rw [words, List.splitOnP_eq_singleton h]

theorem words_dropWhile (l : List α) : words p (l.dropWhile p) = words p l := by
  induction l with
  | nil => rfl
  | cons c l ih =>
      cases hc : p c with
      | true => rw [List.dropWhile_cons_of_pos hc, ih, words_cons_sep hc]
      | false => rw [List.dropWhile_cons_of_neg (ne_true_of_eq_false hc)]

/-- In front of the next separator is the first word. -/
theorem words_cons_of_not_sep {c : α} (hc : p c = false) (l : List α) :
    words p (c :: l) = (c :: l).takeWhile (!p ·) :: words p ((c :: l).dropWhile (!p ·)) := by
  have hfirst : ∀ d ∈ (c :: l).takeWhile (!p ·), p d = false := by
    intro d hd
    have hnot := List.mem_takeWhile_imp hd
    rwa [Bool.not_eq_true'] at hnot
  have hone : words p ((c :: l).takeWhile (!p ·)) = [(c :: l).takeWhile (!p ·)] := by
    rw [words_of_no_sep hfirst, List.takeWhile_cons_of_pos (by rw [hc]; rfl)]
    rfl
  have hsplit := List.takeWhile_append_dropWhile (p := (!p ·)) (l := c :: l)
  cases hrest : (c :: l).dropWhile (!p ·) with
  | nil =>
      rw [hrest, List.append_nil] at hsplit
      rw [words_nil, ← hone, hsplit]
  | cons d rest =>
      have hd : p d = true := by
        have hhead := List.head?_dropWhile_not (!p ·) (c :: l)
        rw [hrest] at hhead
        simpa using hhead
      calc words p (c :: l)
          = words p ((c :: l).takeWhile (!p ·) ++ d :: rest) := by rw [← hrest, hsplit]
        _ = (c :: l).takeWhile (!p ·) :: words p rest := by
            rw [words_append_sep hd, hone, List.singleton_append]
        _ = (c :: l).takeWhile (!p ·) :: words p (d :: rest) := by rw [words_cons_sep hd]

/-- No piece has a separator. -/
theorem not_sep_of_mem_splitOnP {l piece : List α} (h : piece ∈ l.splitOnP p) :
    ∀ c ∈ piece, p c = false := by
  induction l generalizing piece with
  | nil =>
      cases List.mem_singleton.mp h
      exact nofun
  | cons c l ih =>
      rw [List.splitOnP_cons_eq_if_modifyHead] at h
      cases hc : p c with
      | true =>
          rw [if_pos hc] at h
          rcases List.mem_cons.mp h with rfl | h
          · exact nofun
          · exact ih h
      | false =>
          rw [if_neg (ne_true_of_eq_false hc)] at h
          cases hl : l.splitOnP p with
          | nil => exact absurd hl (List.splitOnP_ne_nil p l)
          | cons first rest =>
              rw [hl] at h ih
              rcases List.mem_cons.mp h with rfl | h
              · exact List.forall_mem_cons.mpr ⟨hc, ih (List.mem_cons_self ..)⟩
              · exact ih (List.mem_cons_of_mem _ h)

/-- A word is not empty, and has no separator. -/
theorem of_mem_words {l word : List α} (h : word ∈ words p l) :
    word ≠ [] ∧ ∀ c ∈ word, p c = false := by
  obtain ⟨hpiece, hne⟩ := List.mem_filter.mp h
  refine ⟨?_, not_sep_of_mem_splitOnP hpiece⟩
  rintro rfl
  cases hne

/-- The words of an image are the images of the words. -/
theorem words_map {q : β → Bool} (f : α → β) (hf : ∀ c, q (f c) = p c) (l : List α) :
    words q (l.map f) = (words p l).map (List.map f) := by
  have hsplit : (l.map f).splitOnP q = (l.splitOnP p).map (List.map f) := by
    induction l with
    | nil => rfl
    | cons c l ih =>
        rw [List.map_cons, List.splitOnP_cons_eq_if_modifyHead, hf, ih,
          List.splitOnP_cons_eq_if_modifyHead]
        split
        next => rfl
        next => cases l.splitOnP p <;> rfl
  have hempty : ((!·.isEmpty) ∘ List.map f) = (!·.isEmpty : List α → Bool) := by
    funext word
    cases word <;> rfl
  rw [words, hsplit, List.filter_map, hempty, words]

/-! ## Every second -/

/-- The second element, the fourth, and so on. -/
def seconds : List α → List α
  | _ :: b :: l => b :: seconds l
  | _ => []

theorem mem_of_mem_seconds {a : α} : ∀ {l : List α}, a ∈ seconds l → a ∈ l
  | _ :: b :: l, h => by
      rcases List.mem_cons.mp h with rfl | h
      · exact List.mem_cons_of_mem _ (List.mem_cons_self ..)
      · exact List.mem_cons_of_mem _ (List.mem_cons_of_mem _ (mem_of_mem_seconds h))
  | [], h | [_], h => by cases h

end Words
