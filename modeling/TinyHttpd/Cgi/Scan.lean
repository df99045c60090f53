import TinyHttpd.Lib.CString
import TinyHttpd.Lib.Words

/-!
# How the CGI programs take a request apart

`sscanf` with `%s` and `%*s`, on a string whose `&` and `=` have been made blanks or with
a literal in front.  A conversion that finds no word ends the scan, and the variables
behind it keep what they held.
-/

namespace Cgi

open CString Words

/-- The loop that makes every `&` and `=` a blank. -/
def blankSeparators (dataString : Bytes) : Bytes :=
  dataString.map fun c => if c = 38 || c = 61 then 32 else c

/-- `%s`: the next word, and what is behind it. -/
def scanWord (input : Bytes) : Option (Bytes × Bytes) :=
  match input.dropWhile isspace with
  | [] => none
  | c :: rest => some ((c :: rest).takeWhile (!isspace ·), (c :: rest).dropWhile (!isspace ·))

/-- `%*s%s` that many times: the words that are stored. -/
def scanPairs : Nat → Bytes → List Bytes
  | 0, _ => []
  | n + 1, input =>
      match scanWord input with
      | none => []
      | some (_, input) =>
          match scanWord input with
          | none => []
          | some (word, input) => word :: scanPairs n input

/-- A literal and `%s`: the word that is stored. -/
def scanAfter (literal : String) (input : Bytes) : Option Bytes :=
  (input.dropPrefix? (bytes literal)).bind fun rest => (scanWord rest).map Prod.fst

/-- The word a conversion has stored in a buffer of that size, or what the buffer held
before.  `none` when the word does not fit: the store runs over the end of the buffer. -/
def stored (size : Nat) (held : Bytes) : Option Bytes → Option Bytes
  | none => some held
  | some word => if word.length < size then some word else none

/-! ## Words between blanks -/

/-- A word: not empty, and without white space. -/
def IsWord (word : Bytes) : Prop := word ≠ [] ∧ ∀ c ∈ word, isspace c = false

/-- The string is at its end, or goes on with white space. -/
def EndsWord (rest : Bytes) : Prop := ∀ c ∈ rest.head?, isspace c = true

theorem scanWord_blank (c : UInt8) (input : Bytes) (hc : isspace c = true) :
    scanWord (c :: input) = scanWord input := by
  rw [scanWord, scanWord, List.dropWhile_cons_of_pos hc]

/-- A word is read as it is. -/
theorem scanWord_append {word rest : Bytes} (hword : IsWord word) (hrest : EndsWord rest) :
    scanWord (word ++ rest) = some (word, rest) := by
  obtain ⟨hne, hword⟩ := hword
  have hall : ∀ c ∈ word, (!isspace c) = true := fun c hc => by rw [hword c hc]; rfl
  cases word with
  | nil => exact absurd rfl hne
  | cons c word =>
      have hc : ¬isspace c = true := by rw [hword c (List.mem_cons_self ..)]; nofun
      have hhead : ∀ d ∈ rest.head?, (!isspace d) = false := fun d hd => by rw [hrest d hd]; rfl
      have htake : rest.takeWhile (!isspace ·) = [] := by
        cases rest with
        | nil => rfl
        | cons d rest => exact List.takeWhile_cons_of_neg (by rw [hhead d rfl]; nofun)
      have hdrop : rest.dropWhile (!isspace ·) = rest := by
        cases rest with
        | nil => rfl
        | cons d rest => exact List.dropWhile_cons_of_neg (by rw [hhead d rfl]; nofun)
      rw [scanWord, List.cons_append, List.dropWhile_cons_of_neg hc]
      dsimp only
      rw [← List.cons_append, List.takeWhile_append_of_pos hall, List.dropWhile_append_of_pos hall,
        htake, hdrop, List.append_nil]

/-- Names and values with a blank between them. -/
def spaced : List (Bytes × Bytes) → Bytes
  | [] => []
  | [(name, value)] => name ++ 32 :: value
  | (name, value) :: fields => name ++ 32 :: value ++ 32 :: spaced fields

theorem endsWord_blank (input : Bytes) : EndsWord (32 :: input) := by
  intro c hc
  cases hc
  rfl

theorem scanPairs_blank (n : Nat) (input : Bytes) :
    scanPairs n (32 :: input) = scanPairs n input := by
  cases n with
  | zero => rfl
  | succ n => rw [scanPairs, scanPairs, scanWord_blank 32 input rfl]

/-- Of a pair of words the second is stored. -/
theorem scanPairs_pair {name value : Bytes} (n : Nat) (rest : Bytes) (hname : IsWord name)
    (hvalue : IsWord value) (hrest : EndsWord rest) :
    scanPairs (n + 1) (name ++ 32 :: (value ++ rest)) = value :: scanPairs n rest := by
  rw [scanPairs, scanWord_append hname (endsWord_blank _)]
  dsimp only
  rw [scanWord_blank 32 _ rfl, scanWord_append hvalue hrest]

/-- Of names and values that are words, the values are stored. -/
theorem scanPairs_spaced {fields : List (Bytes × Bytes)}
    (h : ∀ f ∈ fields, IsWord f.1 ∧ IsWord f.2) :
    scanPairs fields.length (spaced fields) = fields.map Prod.snd := by
  induction fields with
  | nil => rfl
  | cons f fields ih =>
      obtain ⟨hname, hvalue⟩ := h f (List.mem_cons_self ..)
      have ih := ih fun g hg => h g (List.mem_cons_of_mem _ hg)
      cases fields with
      | nil =>
          have hone := scanPairs_pair 0 [] hname hvalue nofun
          rw [List.append_nil] at hone
          exact hone
      | cons g fields =>
          have hspaced : spaced (f :: g :: fields) =
              f.1 ++ 32 :: (f.2 ++ 32 :: spaced (g :: fields)) := by
            simp [spaced]
          rw [hspaced, List.length_cons, scanPairs_pair _ _ hname hvalue (endsWord_blank _),
            scanPairs_blank, ih]
          rfl

/-! ## The words of a request -/

/-- `%s` takes the first word. -/
theorem words_eq_scanWord (input : Bytes) :
    words isspace input = match scanWord input with
      | none => []
      | some (word, rest) => word :: words isspace rest := by
  rw [← words_dropWhile, scanWord]
  cases htail : input.dropWhile isspace with
  | nil => rfl
  | cons c rest =>
      have hc : isspace c = false := by
        have hhead := List.head?_dropWhile_not isspace input
        rw [htail] at hhead
        exact hhead
      exact words_cons_of_not_sep hc rest

/-- `%*s%s` takes every second word. -/
theorem scanPairs_eq (n : Nat) (input : Bytes) :
    scanPairs n input = (seconds (words isspace input)).take n := by
  induction n generalizing input with
  | zero => rfl
  | succ n ih =>
      rw [scanPairs, words_eq_scanWord]
      cases scanWord input with
      | none => rfl
      | some first =>
          dsimp only
          rw [words_eq_scanWord]
          cases scanWord first.2 with
          | none => rfl
          | some second => exact congrArg (second.1 :: ·) (ih second.2)

/-- White space, or one of the separators of a form. -/
def isSeparator (c : UInt8) : Bool := isspace c || c == 38 || c == 61

/-- With blanks for the separators, a scan takes every second word between white space and
separators. -/
theorem scanPairs_blankSeparators (n : Nat) (b : Bytes) :
    scanPairs n (blankSeparators b) = (seconds (words isSeparator b)).take n := by
  have hsep : ∀ c, isspace (if c = 38 || c = 61 then 32 else c) = isSeparator c := by
    intro c
    rw [isSeparator]
    split
    next h =>
        have hor : (c == 38 || c == 61) = true := by simpa using h
        rw [Bool.or_assoc, hor, Bool.or_true]
        rfl
    next h =>
        have hnot : (c == 38) = false ∧ (c == 61) = false := by simpa using h
        rw [hnot.1, hnot.2, Bool.or_false, Bool.or_false]
  have hword : ∀ word ∈ words isSeparator b,
      word.map (fun c => if c = 38 || c = 61 then 32 else c) = word := by
    intro word hmem
    refine (List.map_congr_left fun c hc => ?_).trans (List.map_id word)
    have hplain := (of_mem_words hmem).2 c hc
    simp [isSeparator] at hplain
    simp [hplain]
  rw [scanPairs_eq, blankSeparators, words_map _ hsep, List.map_congr_left hword, List.map_id']

end Cgi
