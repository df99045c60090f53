import TinyHttpd.Cgi.EmptyFields
import TinyHttpd.Cgi.PostData

/-!
# The stores of `sscanf`

A `%s` stores the word it finds and a NUL behind it, and none of the conversions has a
width.  The fields have arrays of 40 bytes, the single words behind a literal arrays of 40
or 100.
-/

namespace Cgi

open CString Words

/-! ## Conversions -/

/-- The stores of a `%s` that finds that word. -/
def wordStores (word : Bytes) : List Store := strcatStores 0 word

/-- The conversions of one `sscanf`: the size of the array, and what is stored. -/
abbrev Conversions := List (Nat × List Store)

/-- Every store is into its array. -/
def Bounded (conversions : Conversions) : Prop := ∀ c ∈ conversions, InArray c.1 c.2

instance (conversions : Conversions) : Decidable (Bounded conversions) :=
  inferInstanceAs (Decidable (∀ c ∈ conversions, _))

/-- Words into arrays of one size. -/
def wordsInto (size : Nat) (words : List Bytes) : Conversions :=
  words.map fun word => (size, wordStores word)

/-- A word and its NUL fit when the word is shorter than the array. -/
theorem bounded_wordsInto_iff (size : Nat) (words : List Bytes) :
    Bounded (wordsInto size words) ↔ ∀ word ∈ words, word.length < size := by
  have hword : ∀ word, InArray size (wordStores word) ↔ word.length < size := by
    intro word
    rw [wordStores, inArray_strcatStores_iff, Nat.zero_add]
  simp only [Bounded, wordsInto, List.forall_mem_map, hword]

/-! ## The programs -/

/-- `add_goods`. -/
def addGoodsStores (dataString : Bytes) : Conversions :=
  wordsInto 40 (scanPairs 4 (blankSeparators (cstr dataString)))

/-- `change_god`. -/
def changeGodStores (dataString : Bytes) : Conversions :=
  wordsInto 40 (scanPairs 5 (blankSeparators (cstr dataString)))

/-- `get_select_sql`. -/
def getSelectSqlStores (dataString : Bytes) : Conversions :=
  wordsInto 40 (scanPairs 6 (blankSeparators (cstr dataString)))

/-- `add_type`. -/
def addTypeStores (dataString : Bytes) : Conversions :=
  wordsInto 100 (scanAfter "type_name=" (cstr dataString)).toList

/-- `del_goods`. -/
def delGoodsStores (dataString : Bytes) : Conversions :=
  wordsInto 100 (scanAfter "god_id=" (cstr dataString)).toList

/-- The GET branch of `change_god_cgi`. -/
def changeFormStores (queryString : Bytes) : Conversions :=
  wordsInto 40 (scanAfter "god_id=" (cstr queryString)).toList

/-! ## The fields of a scan -/

theorem stored_isSome_iff (size : Nat) (held : Bytes) (word : Option Bytes) :
    (stored size held word).isSome ↔ Bounded (wordsInto size word.toList) := by
  rw [bounded_wordsInto_iff]
  cases word with
  | none => exact iff_of_true rfl (List.forall_mem_nil _)
  | some word =>
      rw [Option.toList_some, List.forall_mem_singleton, stored]
      split
      next hfits => exact iff_of_true rfl hfits
      next hlong => exact iff_of_false Bool.false_ne_true hlong

theorem not_overruns_iff (words : List Bytes) :
    ¬Overruns words ↔ Bounded (wordsInto 40 words) := by
  rw [bounded_wordsInto_iff, Overruns]
  simp only [not_exists, not_and, Nat.not_le]

/-- A scan has a result exactly when its stores are into their arrays. -/
theorem scan_isSome_iff (dataString : Bytes) :
    (∀ held, (AddGoods.scan held dataString).isSome ↔ Bounded (addGoodsStores dataString)) ∧
      (∀ held, (ChangeGod.scan held dataString).isSome ↔ Bounded (changeGodStores dataString)) ∧
      ((Filters.scan dataString).isSome ↔ Bounded (getSelectSqlStores dataString)) ∧
      (∀ held, (AddType.scan held dataString).isSome ↔ Bounded (addTypeStores dataString)) ∧
      (∀ held, (DelGoods.scan held dataString).isSome ↔ Bounded (delGoodsStores dataString)) ∧
      ((ChangeForm.scan dataString).isSome ↔ Bounded (changeFormStores dataString)) := by
  have hite : ∀ {α : Type} (words : List Bytes) (a : α),
      (if Overruns words then none else some a).isSome ↔ Bounded (wordsInto 40 words) := by
    intro α words a
    rw [← not_overruns_iff]
    split
    next hover => exact iff_of_false Bool.false_ne_true (not_not_intro hover)
    next hfits => exact iff_of_true rfl hfits
  refine ⟨fun held => ?_, fun held => ?_, ?_, fun held => ?_, fun held => ?_, ?_⟩
  · rw [AddGoods.scan_eq]
    exact hite _ _
  · rw [ChangeGod.scan_eq]
    exact hite _ _
  · rw [Filters.scan_eq]
    exact hite _ _
  · rw [AddType.scan, Option.isSome_map]
    exact stored_isSome_iff _ _ _
  · rw [DelGoods.scan, Option.isSome_map]
    exact stored_isSome_iff _ _ _
  · rw [ChangeForm.scan, Option.isSome_map]
    exact stored_isSome_iff _ _ _

/-! ## What the data string has to be -/

/-- Of the words between white space, `&` and `=`, every second is short, up to that many
of them. -/
def ShortFields (size n : Nat) (dataString : Bytes) : Prop :=
  ∀ word ∈ (seconds (words isSeparator (cstr dataString))).take n, word.length < size

/-- If the string starts with the literal, the first word behind it is short. -/
def ShortBehind (size : Nat) (literal : String) (dataString : Bytes) : Prop :=
  ∀ rest, cstr dataString = bytes literal ++ rest →
    ∀ word ∈ (words isspace rest).head?, word.length < size

theorem bounded_scanPairs_iff (size n : Nat) (dataString : Bytes) :
    Bounded (wordsInto size (scanPairs n (blankSeparators (cstr dataString)))) ↔
      ShortFields size n dataString := by
  rw [bounded_wordsInto_iff, scanPairs_blankSeparators, ShortFields]

theorem scanWord_eq_head (input : Bytes) :
    (scanWord input).map Prod.fst = (words isspace input).head? := by
  rw [words_eq_scanWord]
  cases scanWord input <;> rfl

theorem bounded_scanAfter_iff (size : Nat) (literal : String) (dataString : Bytes) :
    Bounded (wordsInto size (scanAfter literal (cstr dataString)).toList) ↔
      ShortBehind size literal dataString := by
  rw [bounded_wordsInto_iff, scanAfter]
  simp only [scanWord_eq_head, Option.mem_toList, Option.bind_eq_some_iff]
  constructor
  · intro h rest hrest word hword
    refine h word ⟨rest, ?_, hword⟩
    exact List.dropPrefix?_eq_some_iff.mpr ⟨bytes literal, hrest, beq_self_eq_true _⟩
  · rintro h word ⟨rest, hrest, hword⟩
    obtain ⟨front, heq, hfront⟩ := List.dropPrefix?_eq_some_iff.mp hrest
    rw [beq_iff_eq] at hfront
    exact h rest (hfront ▸ heq) word hword

/-! ## The buffers -/

/-- For every data string, the stores of the six are inside their arrays exactly when the
words they take from it are shorter than these. -/
theorem field_buffers_iff (dataString : Bytes) :
    (Bounded (addGoodsStores dataString) ↔ ShortFields 40 4 dataString) ∧
      (Bounded (changeGodStores dataString) ↔ ShortFields 40 5 dataString) ∧
      (Bounded (getSelectSqlStores dataString) ↔ ShortFields 40 6 dataString) ∧
      (Bounded (addTypeStores dataString) ↔ ShortBehind 100 "type_name=" dataString) ∧
      (Bounded (delGoodsStores dataString) ↔ ShortBehind 100 "god_id=" dataString) ∧
      (Bounded (changeFormStores dataString) ↔ ShortBehind 40 "god_id=" dataString) :=
  ⟨bounded_scanPairs_iff 40 4 dataString, bounded_scanPairs_iff 40 5 dataString,
    bounded_scanPairs_iff 40 6 dataString, bounded_scanAfter_iff 100 "type_name=" dataString,
    bounded_scanAfter_iff 100 "god_id=" dataString, bounded_scanAfter_iff 40 "god_id=" dataString⟩

/-- A name of 40 letters. -/
def longName : Bytes := bytes "god_name=" ++ List.replicate 40 97

/-- An id of 40 digits. -/
def longId : Bytes := bytes "god_id=" ++ List.replicate 40 49

/-- The NUL behind them is stored over the end. -/
theorem field_buffers_overrun :
    longName.length ≤ 1023 ∧ ¬Bounded (addGoodsStores longName) ∧
      longId.length ≤ 1023 ∧ ¬Bounded (changeFormStores longId) := by
  decide +kernel

end Cgi
