import TinyHttpd.Cgi.Statements

/-!
# What the field buffers held before

`add_goods`, `add_type`, `change_god` and `del_goods` read all their field buffers, and
`sscanf` writes those it finds a word for.  A statement depends on the request alone
exactly when there is a word for every buffer, and each of them fits; otherwise what the
buffer held before goes into it, or the function goes on behind a store over its end.
-/

namespace Cgi

open CString

/-- The words of a request with blanks for its separators. -/
def wordsOf (n : Nat) (dataString : Bytes) : List Bytes :=
  scanPairs n (blankSeparators (cstr dataString))

/-- A word runs over the end of its buffer. -/
def Overruns (words : List Bytes) : Prop := ∃ word ∈ words, 40 ≤ word.length

instance (words : List Bytes) : Decidable (Overruns words) :=
  inferInstanceAs (Decidable (∃ word ∈ words, _))

theorem length_scanPairs_le (n : Nat) (input : Bytes) : (scanPairs n input).length ≤ n := by
  induction n generalizing input with
  | zero => exact le_rfl
  | succ n ih =>
      rw [scanPairs]
      split
      next => exact Nat.zero_le _
      next =>
          split
          next => exact Nat.zero_le _
          next => exact Nat.succ_le_succ (ih _)

/-- A buffer whose word fits holds the word, or what it held. -/
theorem stored_of_fits {size : Nat} {held : Bytes} {word : Option Bytes}
    (h : ∀ w ∈ word, w.length < size) : stored size held word = some (word.getD held) := by
  cases word with
  | none => rfl
  | some w => exact if_pos (h w rfl)

/-- Words that fit, index by index. -/
theorem fits_getElem? {words : List Bytes} (h : ¬Overruns words) (i : Nat) :
    ∀ w ∈ words[i]?, w.length < 40 :=
  fun w hw => Nat.lt_of_not_le fun hlong => h ⟨w, List.mem_of_getElem? hw, hlong⟩

/-- Where a word does not fit, one of the buffers cannot be read. -/
theorem exists_stored_none {words : List Bytes} {n : Nat} (hlength : words.length ≤ n)
    (h : Overruns words) : ∃ i < n, ∀ held, stored 40 held words[i]? = none := by
  obtain ⟨word, hmem, hlong⟩ := h
  obtain ⟨i, hi⟩ := List.getElem?_of_mem hmem
  have hlt : i < words.length := (List.getElem?_eq_some_iff.mp hi).1
  exact ⟨i, hlt.trans_le hlength, fun held => by rw [hi]; exact if_neg (Nat.not_lt.mpr hlong)⟩

/-! ## What is sent -/

/-- What one of the four functions hands to `exe_update`: nothing, where there is no request;
a statement; or what cannot be told, where a word has been stored over the end of its buffer
and the function goes on all the same. -/
inductive Sent
  | nothing
  | statement (sql : Bytes)
  | overrun
deriving DecidableEq

/-- What is sent by a function that scans its fields and puts them into a text. -/
def sentBy {α : Type} (scan : Bytes → Option α) (sql : α → Bytes) : Option Bytes → Sent
  | none => .nothing
  | some dataString => (scan dataString).elim .overrun fun fields => .statement (sql fields)

theorem sentBy_eq_statement_iff {α : Type} {scan : Bytes → Option α} {sql : α → Bytes}
    {dataString : Option Bytes} {text : Bytes} :
    sentBy scan sql dataString = .statement text ↔
      (dataString.bind fun dataString => (scan dataString).map sql) = some text := by
  cases dataString with
  | none => exact iff_of_false nofun nofun
  | some dataString =>
      rw [sentBy, Option.bind_some]
      cases scan dataString with
      | none => exact iff_of_false nofun nofun
      | some fields => exact ⟨fun h => congrArg some (Sent.statement.inj h),
          fun h => congrArg Sent.statement (Option.some.inj h)⟩

def AddGoods.sends (held : AddGoods) : Option Bytes → Sent :=
  sentBy (AddGoods.scan held) AddGoods.sql

def AddType.sends (held : AddType) : Option Bytes → Sent := sentBy (AddType.scan held) AddType.sql

def ChangeGod.sends (held : ChangeGod) : Option Bytes → Sent :=
  sentBy (ChangeGod.scan held) ChangeGod.sql

def DelGoods.sends (held : DelGoods) : Option Bytes → Sent :=
  sentBy (DelGoods.scan held) DelGoods.sql

/-- Whatever the buffers held, the same statement is sent, or none; and no word has been
stored over the end of its buffer. -/
def Independent {α : Type} (sent : α → Sent) : Prop :=
  ∀ held held', sent held = sent held' ∧ sent held ≠ .overrun

/-! ## Four and five fields -/

/-- Several words in their buffers, and what is made of them: with a word for each buffer
none of them is read as it was, and without one the last of them is. -/
theorem filled_independent_iff {α : Type} {words : List Bytes} {n : Nat} {statement : α → Bytes}
    (held₀ : α) (hlength : words.length ≤ n + 1)
    (hfull : words.length = n + 1 → ∀ held held', statement held = statement held')
    (hlast : words[n]? = none → ∃ held held', statement held ≠ statement held') :
    (Independent fun held => if Overruns words then .overrun else .statement (statement held)) ↔
      words.length = n + 1 ∧ ¬Overruns words := by
  by_cases hover : Overruns words
  · simp only [hover, if_true, not_true, and_false, iff_false]
    exact fun h => (h held₀ held₀).2 rfl
  · simp only [hover, if_false, not_false_eq_true, and_true]
    constructor
    · intro h
      by_contra hshort
      obtain ⟨held, held', hne⟩ := hlast (List.getElem?_eq_none (by omega))
      exact hne (Sent.statement.inj (h held held').1)
    · exact fun h held held' => ⟨congrArg Sent.statement (hfull h held held'), nofun⟩

/-- The fields of `add_goods`. -/
def AddGoods.fill (held : AddGoods) (words : List Bytes) : AddGoods :=
  ⟨words[0]?.getD held.goodsName, words[1]?.getD held.goodsType, words[2]?.getD held.goodsPrice,
    words[3]?.getD held.goodsSize⟩

theorem AddGoods.scan_eq (held : AddGoods) (dataString : Bytes) :
    AddGoods.scan held dataString =
      if Overruns (wordsOf 4 dataString) then none
      else some (held.fill (wordsOf 4 dataString)) := by
  have hlength : (wordsOf 4 dataString).length ≤ 4 := length_scanPairs_le _ _
  rw [AddGoods.scan, ← wordsOf]
  generalize wordsOf 4 dataString = words at hlength ⊢
  split
  next hover =>
      obtain ⟨i, hi, hnone⟩ := exists_stored_none hlength hover
      match i, hi with
      | 0, _ | 1, _ | 2, _ | 3, _ => simp [hnone]
  next hfits =>
      have hword := fits_getElem? hfits
      simp only [stored_of_fits (hword _)]
      rfl

theorem AddGoods.sql_goodsSize_inj {name type price size size' : Bytes}
    (h : AddGoods.sql ⟨name, type, price, size⟩ = AddGoods.sql ⟨name, type, price, size'⟩) :
    size = size' := by
  rw [AddGoods.sql, AddGoods.sql] at h
  exact List.append_cancel_left (List.append_cancel_right h)

theorem AddGoods.sent_eq (held : AddGoods) (dataString : Bytes) :
    held.sends (some dataString) =
      if Overruns (wordsOf 4 dataString) then .overrun
      else .statement (AddGoods.sql (held.fill (wordsOf 4 dataString))) := by
  rw [AddGoods.sends, sentBy, AddGoods.scan_eq]
  split <;> rfl

/-- `add_goods` sends what the request says exactly when the request has a word for each
field, and each of them fits. -/
theorem addGoods_independent_iff (dataString : Bytes) :
    (Independent fun held : AddGoods => held.sends (some dataString)) ↔
      (wordsOf 4 dataString).length = 4 ∧ ¬Overruns (wordsOf 4 dataString) := by
  simp only [AddGoods.sent_eq]
  have hlength : (wordsOf 4 dataString).length ≤ 4 := length_scanPairs_le _ _
  generalize wordsOf 4 dataString = words at hlength ⊢
  refine filled_independent_iff ⟨[], [], [], []⟩ hlength (fun hfull held held' => ?_) fun hlast =>
    ⟨⟨[], [], [], []⟩, ⟨[], [], [], [65]⟩, fun hsame => ?_⟩
  · match words, hfull with
    | [name, type, price, size], _ => rfl
  · rw [AddGoods.fill, AddGoods.fill, hlast] at hsame
    exact absurd (AddGoods.sql_goodsSize_inj hsame) (by decide)

/-- The fields of `change_god`. -/
def ChangeGod.fill (held : ChangeGod) (words : List Bytes) : ChangeGod :=
  ⟨words[0]?.getD held.goodsId, words[1]?.getD held.goodsName, words[2]?.getD held.goodsType,
    words[3]?.getD held.goodsPrice, words[4]?.getD held.goodsSize⟩

theorem ChangeGod.scan_eq (held : ChangeGod) (dataString : Bytes) :
    ChangeGod.scan held dataString =
      if Overruns (wordsOf 5 dataString) then none
      else some (held.fill (wordsOf 5 dataString)) := by
  have hlength : (wordsOf 5 dataString).length ≤ 5 := length_scanPairs_le _ _
  rw [ChangeGod.scan, ← wordsOf]
  generalize wordsOf 5 dataString = words at hlength ⊢
  split
  next hover =>
      obtain ⟨i, hi, hnone⟩ := exists_stored_none hlength hover
      match i, hi with
      | 0, _ | 1, _ | 2, _ | 3, _ | 4, _ => simp [hnone]
  next hfits =>
      have hword := fits_getElem? hfits
      simp only [stored_of_fits (hword _)]
      rfl

theorem ChangeGod.sql_goodsSize_inj {id name type price size size' : Bytes}
    (h : ChangeGod.sql ⟨id, name, type, price, size⟩ =
      ChangeGod.sql ⟨id, name, type, price, size'⟩) : size = size' := by
  rw [ChangeGod.sql, ChangeGod.sql] at h
  exact List.append_cancel_left
    (List.append_cancel_right (List.append_cancel_right (List.append_cancel_right h)))

theorem ChangeGod.sent_eq (held : ChangeGod) (dataString : Bytes) :
    held.sends (some dataString) =
      if Overruns (wordsOf 5 dataString) then .overrun
      else .statement (ChangeGod.sql (held.fill (wordsOf 5 dataString))) := by
  rw [ChangeGod.sends, sentBy, ChangeGod.scan_eq]
  split <;> rfl

theorem changeGod_independent_iff (dataString : Bytes) :
    (Independent fun held : ChangeGod => held.sends (some dataString)) ↔
      (wordsOf 5 dataString).length = 5 ∧ ¬Overruns (wordsOf 5 dataString) := by
  simp only [ChangeGod.sent_eq]
  have hlength : (wordsOf 5 dataString).length ≤ 5 := length_scanPairs_le _ _
  generalize wordsOf 5 dataString = words at hlength ⊢
  refine filled_independent_iff ⟨[], [], [], [], []⟩ hlength (fun hfull held held' => ?_)
    fun hlast => ⟨⟨[], [], [], [], []⟩, ⟨[], [], [], [], [65]⟩, fun hsame => ?_⟩
  · match words, hfull with
    | [id, name, type, price, size], _ => rfl
  · rw [ChangeGod.fill, ChangeGod.fill, hlast] at hsame
    exact absurd (ChangeGod.sql_goodsSize_inj hsame) (by decide)

/-! ## Six fields -/

/-- The filters: their buffers are zeroed. -/
def Filters.fill (words : List Bytes) : Filters :=
  ⟨words[0]?.getD [], words[1]?.getD [], words[2]?.getD [], words[3]?.getD [],
    words[4]?.getD [], words[5]?.getD []⟩

theorem Filters.scan_eq (dataString : Bytes) :
    Filters.scan dataString =
      if Overruns (wordsOf 6 dataString) then none
      else some (Filters.fill (wordsOf 6 dataString)) := by
  have hlength : (wordsOf 6 dataString).length ≤ 6 := length_scanPairs_le _ _
  rw [Filters.scan, ← wordsOf]
  generalize wordsOf 6 dataString = words at hlength ⊢
  split
  next hover =>
      obtain ⟨i, hi, hnone⟩ := exists_stored_none hlength hover
      have hcases : i = 0 ∨ i = 1 ∨ i = 2 ∨ i = 3 ∨ i = 4 ∨ i = 5 := by omega
      rcases hcases with rfl | rfl | rfl | rfl | rfl | rfl <;> simp [hnone]
  next hfits =>
      have hword := fits_getElem? hfits
      simp only [stored_of_fits (hword _)]
      rfl

/-! ## One field -/

/-- One word in one buffer, and what is made of it: it depends on the buffer exactly when
there is no word, and a word has to fit. -/
theorem stored_independent_iff {size : Nat} {word : Option Bytes} {sql : Bytes → Bytes}
    (hsql : ∀ {v w}, sql v = sql w → v = w) :
    (Independent fun held =>
        (stored size held word).elim .overrun fun v => .statement (sql v)) ↔
      ∃ w ∈ word, w.length < size := by
  cases word with
  | none =>
      refine iff_of_false (fun h => ?_) nofun
      exact absurd (hsql (Sent.statement.inj (h [] [65]).1)) (by decide)
  | some w =>
      have hone : (∃ v ∈ some w, v.length < size) ↔ w.length < size := by simp
      rw [hone]
      by_cases hfits : w.length < size
      · simp only [stored, if_pos hfits, Option.elim_some]
        exact iff_of_true (fun _ _ => ⟨rfl, nofun⟩) hfits
      · simp only [stored, if_neg hfits, Option.elim_none]
        exact iff_of_false (fun h => (h [] []).2 rfl) hfits

theorem AddType.sent_eq (held : AddType) (dataString : Bytes) :
    held.sends (some dataString) =
      (stored 100 held.typeName (scanAfter "type_name=" (cstr dataString))).elim .overrun
        fun v => .statement (AddType.sql ⟨v⟩) := by
  rw [AddType.sends, sentBy, AddType.scan]
  cases stored 100 held.typeName (scanAfter "type_name=" (cstr dataString)) <;> rfl

theorem addType_independent_iff (dataString : Bytes) :
    (Independent fun held : AddType => held.sends (some dataString)) ↔
      ∃ word ∈ scanAfter "type_name=" (cstr dataString), word.length < 100 := by
  have hsql : ∀ {v w}, AddType.sql ⟨v⟩ = AddType.sql ⟨w⟩ → v = w :=
    fun h => List.append_cancel_left (List.append_cancel_right h)
  simp only [AddType.sent_eq]
  rw [← stored_independent_iff hsql]
  exact ⟨fun h held held' => h ⟨held⟩ ⟨held'⟩, fun h held held' => h held.typeName held'.typeName⟩

theorem DelGoods.sent_eq (held : DelGoods) (dataString : Bytes) :
    held.sends (some dataString) =
      (stored 100 held.godId (scanAfter "god_id=" (cstr dataString))).elim .overrun
        fun v => .statement (DelGoods.sql ⟨v⟩) := by
  rw [DelGoods.sends, sentBy, DelGoods.scan]
  cases stored 100 held.godId (scanAfter "god_id=" (cstr dataString)) <;> rfl

theorem delGoods_independent_iff (dataString : Bytes) :
    (Independent fun held : DelGoods => held.sends (some dataString)) ↔
      ∃ word ∈ scanAfter "god_id=" (cstr dataString), word.length < 100 := by
  have hsql : ∀ {v w}, DelGoods.sql ⟨v⟩ = DelGoods.sql ⟨w⟩ → v = w :=
    fun h => List.append_cancel_left (List.append_cancel_right h)
  simp only [DelGoods.sent_eq]
  rw [← stored_independent_iff hsql]
  exact ⟨fun h held held' => h ⟨held⟩ ⟨held'⟩, fun h held held' => h held.godId held'.godId⟩

/-! ## All four -/

/-- For every data string, the statement is the same whatever the buffers held exactly when
the request has a word for each of them, and each of these fits. -/
theorem statements_independent_iff (dataString : Bytes) :
    ((Independent fun held : AddGoods => held.sends (some dataString)) ↔
        (wordsOf 4 dataString).length = 4 ∧ ¬Overruns (wordsOf 4 dataString)) ∧
      ((Independent fun held : AddType => held.sends (some dataString)) ↔
        ∃ word ∈ scanAfter "type_name=" (cstr dataString), word.length < 100) ∧
      ((Independent fun held : ChangeGod => held.sends (some dataString)) ↔
        (wordsOf 5 dataString).length = 5 ∧ ¬Overruns (wordsOf 5 dataString)) ∧
      ((Independent fun held : DelGoods => held.sends (some dataString)) ↔
        ∃ word ∈ scanAfter "god_id=" (cstr dataString), word.length < 100) :=
  ⟨addGoods_independent_iff dataString, addType_independent_iff dataString,
    changeGod_independent_iff dataString, delGoods_independent_iff dataString⟩

/-- A request without the field deletes what the buffer names. -/
theorem delGoods_dependent :
    delGoods ⟨bytes "7"⟩ (some (bytes "id=1")) = some (bytes "delete from goods where god_id=7;") ∧
      delGoods ⟨bytes "8"⟩ (some (bytes "id=1")) =
        some (bytes "delete from goods where god_id=8;") ∧
      ¬Independent fun held : DelGoods => held.sends (some (bytes "id=1")) := by
  have hseven : delGoods ⟨bytes "7"⟩ (some (bytes "id=1")) =
      some (bytes "delete from goods where god_id=7;") := by decide
  have height : delGoods ⟨bytes "8"⟩ (some (bytes "id=1")) =
      some (bytes "delete from goods where god_id=8;") := by decide
  refine ⟨hseven, height, fun h => ?_⟩
  have hsame : DelGoods.sends ⟨bytes "7"⟩ (some (bytes "id=1")) =
      DelGoods.sends ⟨bytes "8"⟩ (some (bytes "id=1")) := (h _ _).1
  rw [DelGoods.sends, DelGoods.sends, sentBy_eq_statement_iff.mpr hseven,
    sentBy_eq_statement_iff.mpr height] at hsame
  exact absurd (Sent.statement.inj hsame) (by decide)

end Cgi
