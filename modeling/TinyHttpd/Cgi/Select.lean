import Mathlib.Data.List.Forall2
import TinyHttpd.Lib.Numeral

/-!
# The rows of a result set

`exe_query`, `exe_select_type` and `exe_select_goods` on whatever the client library
answers.  After `mysql_query` has succeeded `mysql_store_result` may still return NULL, and a
column of a row may be NULL.  The three loops over the rows are one loop with a different
body; `exe_select_type` tests `_res` where the other two test the row.

Each loop is what it reads from the rows it fetches (`fetchLoop_eq_ok_iff`), and the number
of these is the number of rows, cut to an `int`.
-/

namespace Cgi

open CString

/-! ## The library -/

/-- A `MYSQL_ROW`: a column is a string or NULL. -/
abbrev MysqlRow := List (Option Bytes)

/-- A result set: the names of its columns, and rows that are as wide. -/
structure ResultSet where
  fields : List Bytes
  rows : List MysqlRow
  wide : ∀ row ∈ rows, row.length = fields.length

/-- What the library answers to a statement: an error, or `mysql_query` returns 0 and
`mysql_store_result` a result set or NULL. -/
inductive Answer where
  | refused (error : Bytes)
  | stored (res : Option ResultSet)

/-- Where the C++ code has no meaning. -/
inductive Fault where
  | nullResult
  | nullRow
  | nullColumn
  /-- A column that the row does not have. -/
  | noColumn
  /-- The first record of an empty list. -/
  | emptyList
  /-- The entry behind the last one of a map. -/
  | endIterator
  /-- A store behind the end of an array. -/
  | overrun
deriving DecidableEq

/-- A count of the library in an `int`. -/
def countInt (n : Nat) : Int := (n : Int).bmod (2 ^ 32)

/-- A column as a `char *` that is used as a string. -/
def column (row : MysqlRow) (i : Nat) : Except Fault Bytes :=
  match row[i]? with
  | none => .error .noColumn
  | some none => .error .nullColumn
  | some (some text) => .ok (cstr text)

/-- The loop over the rows, with that many rounds to go.  `tested` says whether its body is
skipped where `mysql_fetch_row` returns NULL. -/
def fetchLoop {α β : Type} (tested : Bool) (read : MysqlRow → Except Fault β) (add : α → β → α) :
    Nat → List MysqlRow → α → Except Fault α
  | 0, _, acc => .ok acc
  | n + 1, [], acc => if tested then fetchLoop tested read add n [] acc else .error .nullRow
  | n + 1, row :: rows, acc => do
      let item ← read row
      fetchLoop tested read add n rows (add acc item)

/-! ## The three routines -/

/-- A `Goods`. -/
structure GoodsRecord where
  godId : Bytes
  godName : Bytes
  godType : Bytes
  godPrice : Bytes
  godSize : Bytes
deriving DecidableEq

/-- The body of the loop of `exe_select_goods`. -/
def readGoods (resRow : MysqlRow) : Except Fault GoodsRecord := do
  let godId ← column resRow 0
  let godName ← column resRow 1
  let godType ← column resRow 2
  let godPrice ← column resRow 3
  let godSize ← column resRow 4
  return ⟨godId, godName, godType, godPrice, godSize⟩

/-- `exe_select_goods`: the list, and what it prints. -/
def exeSelectGoods : Answer → Except Fault (List GoodsRecord × Bytes)
  | .refused error => .ok ([], bytes "mysql_query error:" ++ error ++ bytes "\n")
  | .stored none => .error .nullResult
  | .stored (some res) => do
      let rowNum := countInt res.rows.length
      let goodsList ← fetchLoop true readGoods (fun goodsList goods => goodsList ++ [goods])
        rowNum.toNat res.rows []
      return (goodsList, [])

/-- A `map<int,string>`. -/
abbrev TypeMap := Std.TreeMap Int Bytes

/-- The body of the loop of `exe_select_type`. -/
def readType (resRow : MysqlRow) : Except Fault (Int × Bytes) := do
  let id ← column resRow 0
  let name ← column resRow 1
  return (atoi id, name)

/-- `map::insert` of a pair, which keeps the entry there is. -/
def TypeMap.insertPair (typeMap : TypeMap) (entry : Int × Bytes) : TypeMap :=
  typeMap.insertIfNew entry.1 entry.2

/-- `exe_select_type`: the map, and what it prints. -/
def exeSelectType : Answer → Except Fault (TypeMap × Bytes)
  | .refused error => .ok (∅, bytes "select_type_error:" ++ error ++ bytes "\n")
  | .stored none => .error .nullResult
  | .stored (some res) => do
      let rowNum := countInt res.rows.length
      let typeMap ← fetchLoop false readType TypeMap.insertPair rowNum.toNat res.rows ∅
      return (typeMap, [])

/-- The columns of a row from `start` on, that many of them. -/
def printColumns (row : MysqlRow) : Nat → Nat → Except Fault Bytes
  | 0, _ => .ok []
  | n + 1, start => do
      let text ← column row start
      let texts ← printColumns row n (start + 1)
      return text ++ bytes "\t" ++ texts

/-- `exe_query`: what it returns and prints. -/
def exeQuery : Answer → Except Fault (Bool × Bytes)
  | .refused error => .ok (false, error ++ bytes "\n")
  | .stored none => .error .nullResult
  | .stored (some res) => do
      let rowNum := countInt res.rows.length
      let fieldNum := countInt res.fields.length
      let head := bytes "共查询到：" ++ decimal rowNum ++ bytes "行。\n" ++ bytes "共有：" ++
        decimal fieldNum ++ bytes "列。\n" ++ res.fields.flatMap (· ++ bytes "\t") ++ bytes "\n"
      let lines ← fetchLoop true (fun row => printColumns row fieldNum.toNat 0)
        (fun lines line => lines ++ line ++ bytes "\n") rowNum.toNat res.rows []
      return (true, head ++ lines ++ bytes "\n")

/-! ## The loop -/

theorem bind_eq_ok {α β : Type} {x : Except Fault α} {f : α → Except Fault β} {b : β} :
    x >>= f = .ok b ↔ ∃ a, x = .ok a ∧ f a = .ok b := by
  cases x with
  | error fault => exact iff_of_false (fun h => by cases h) fun ⟨a, h, _⟩ => by cases h
  | ok a => exact ⟨fun h => ⟨a, rfl, h⟩, fun ⟨_, h, hf⟩ => Except.ok.inj h ▸ hf⟩

theorem exists_bind_pure_iff {α β : Type} {x : Except Fault α} {g : α → β} :
    (∃ b, (x >>= fun a => pure (g a)) = .ok b) ↔ ∃ a, x = .ok a := by
  cases x with
  | error fault => exact iff_of_false (fun ⟨_, h⟩ => by cases h) fun ⟨_, h⟩ => by cases h
  | ok a => exact iff_of_true ⟨g a, rfl⟩ ⟨a, rfl⟩

/-- The item read from a row, if reading it has a meaning. -/
def ReadsAs {β : Type} (read : MysqlRow → Except Fault β) (row : MysqlRow) (item : β) : Prop :=
  read row = .ok item

/-- Through no more rows than there are, the loop takes their items one by one. -/
theorem fetchLoop_eq_ok_iff {α β : Type} {tested : Bool} {read : MysqlRow → Except Fault β}
    {add : α → β → α} {n : Nat} {rows : List MysqlRow} (hn : n ≤ rows.length) {acc result : α} :
    fetchLoop tested read add n rows acc = .ok result ↔
      ∃ items, List.Forall₂ (ReadsAs read) (rows.take n) items ∧
        items.foldl add acc = result := by
  induction n generalizing rows acc with
  | zero =>
      rw [fetchLoop, Except.ok.injEq, List.take_zero]
      constructor
      · exact fun h => ⟨[], .nil, h⟩
      · rintro ⟨items, hitems, h⟩
        cases hitems
        exact h
  | succ n ih =>
      cases rows with
      | nil => exact absurd hn (Nat.not_succ_le_zero n)
      | cons row rows =>
          rw [fetchLoop, bind_eq_ok, List.take_succ_cons]
          constructor
          · rintro ⟨item, hitem, h⟩
            obtain ⟨items, hitems, hfold⟩ := (ih (Nat.le_of_succ_le_succ hn)).mp h
            exact ⟨item :: items, .cons hitem hitems, hfold⟩
          · rintro ⟨items, hitems, hfold⟩
            cases hitems with
            | cons hitem hitems =>
                exact ⟨_, hitem, (ih (Nat.le_of_succ_le_succ hn)).mpr ⟨_, hitems, hfold⟩⟩

theorem exists_forall₂_iff {α β : Type} {R : α → β → Prop} {l : List α} :
    (∃ items, List.Forall₂ R l items) ↔ ∀ a ∈ l, ∃ b, R a b := by
  induction l with
  | nil => exact iff_of_true ⟨[], .nil⟩ (List.forall_mem_nil _)
  | cons a l ih =>
      rw [List.forall_mem_cons, ← ih]
      constructor
      · rintro ⟨items, hitems⟩
        cases hitems with
        | cons hb hrest => exact ⟨⟨_, hb⟩, _, hrest⟩
      · rintro ⟨⟨b, hb⟩, items, hrest⟩
        exact ⟨b :: items, .cons hb hrest⟩

/-- The loop has a result when every row it fetches can be read. -/
theorem exists_fetchLoop_iff {α β : Type} {tested : Bool} {read : MysqlRow → Except Fault β}
    {add : α → β → α} {n : Nat} {rows : List MysqlRow} (hn : n ≤ rows.length) {acc : α} :
    (∃ result, fetchLoop tested read add n rows acc = .ok result) ↔
      ∀ row ∈ rows.take n, ∃ item, read row = .ok item := by
  have hitems := exists_forall₂_iff (R := ReadsAs read) (l := rows.take n)
  refine Iff.trans ?_ hitems
  constructor
  · rintro ⟨result, h⟩
    obtain ⟨items, hitems, -⟩ := (fetchLoop_eq_ok_iff hn).mp h
    exact ⟨items, hitems⟩
  · rintro ⟨items, hitems⟩
    exact ⟨_, (fetchLoop_eq_ok_iff hn).mpr ⟨items, hitems, rfl⟩⟩

theorem countInt_eq (n : Nat) :
    countInt n = if (n : Int) % 4294967296 < 2147483648 then (n : Int) % 4294967296
      else (n : Int) % 4294967296 - 4294967296 := by
  have hcut := Int.bmod_def (n : Int) (2 ^ 32)
  norm_num at hcut
  exact hcut

/-- A count that is cut is never too large. -/
theorem toNat_countInt_le (n : Nat) : (countInt n).toNat ≤ n := by
  rw [countInt_eq]
  split
  next => omega
  next => omega

theorem le_toNat_countInt_iff (n : Nat) : n ≤ (countInt n).toNat ↔ n < 2 ^ 31 := by
  rw [countInt_eq]
  split
  next => omega
  next => omega

/-- The rows that the loops fetch. -/
def ResultSet.fetched (res : ResultSet) : List MysqlRow :=
  res.rows.take (countInt res.rows.length).toNat

theorem ResultSet.fetched_eq_rows {res : ResultSet} (h : res.rows.length < 2 ^ 31) :
    res.fetched = res.rows :=
  List.take_of_length_le ((le_toNat_countInt_iff _).mpr h)

/-! ## Columns -/

/-- The row has that many columns, and none of them is NULL. -/
def HasColumns (n : Nat) (row : MysqlRow) : Prop := n ≤ row.length ∧ none ∉ row.take n

instance (n : Nat) (row : MysqlRow) : Decidable (HasColumns n row) :=
  inferInstanceAs (Decidable (_ ∧ _))

theorem column_eq_ok_iff {row : MysqlRow} {i : Nat} :
    (∃ text, column row i = .ok text) ↔ ∃ text, row[i]? = some (some text) := by
  rw [column]
  cases row[i]? with
  | none => exact iff_of_false (fun ⟨_, h⟩ => by cases h) fun ⟨_, h⟩ => by cases h
  | some cell =>
      cases cell with
      | none => exact iff_of_false (fun ⟨_, h⟩ => by cases h) fun ⟨_, h⟩ => by cases h
      | some text => exact iff_of_true ⟨_, rfl⟩ ⟨text, rfl⟩

theorem hasColumns_iff {n : Nat} {row : MysqlRow} :
    HasColumns n row ↔ ∀ i < n, ∃ text, column row i = .ok text := by
  simp only [column_eq_ok_iff]
  constructor
  · rintro ⟨hlen, hnull⟩ i hi
    have hlt : i < row.length := hi.trans_le hlen
    cases hcell : row[i] with
    | none =>
        have hmem := List.mem_take_iff_getElem.mpr ⟨i, lt_min hi hlt, hcell⟩
        exact absurd hmem hnull
    | some text => exact ⟨text, List.getElem?_eq_some_iff.mpr ⟨hlt, hcell⟩⟩
  · intro h
    refine ⟨?_, fun hmem => ?_⟩
    · by_contra hlen
      obtain ⟨text, htext⟩ := h row.length (Nat.lt_of_not_le hlen)
      rw [List.getElem?_eq_none le_rfl] at htext
      cases htext
    · obtain ⟨i, hi, hcell⟩ := List.mem_take_iff_getElem.mp hmem
      obtain ⟨text, htext⟩ := h i (lt_min_iff.mp hi).1
      rw [List.getElem?_eq_getElem (lt_min_iff.mp hi).2, hcell] at htext
      cases htext

theorem exists_readType_iff {row : MysqlRow} :
    (∃ entry, readType row = .ok entry) ↔ HasColumns 2 row := by
  rw [hasColumns_iff]
  constructor
  · rintro ⟨entry, h⟩ i hi
    obtain ⟨id, hid, h⟩ := bind_eq_ok.mp h
    obtain ⟨name, hname, -⟩ := bind_eq_ok.mp h
    rcases (by omega : i = 0 ∨ i = 1) with rfl | rfl
    · exact ⟨id, hid⟩
    · exact ⟨name, hname⟩
  · intro h
    obtain ⟨id, hid⟩ := h 0 (by decide)
    obtain ⟨name, hname⟩ := h 1 (by decide)
    exact ⟨(atoi id, name), bind_eq_ok.mpr ⟨id, hid, bind_eq_ok.mpr ⟨name, hname, rfl⟩⟩⟩

theorem exists_readGoods_iff {row : MysqlRow} :
    (∃ goods, readGoods row = .ok goods) ↔ HasColumns 5 row := by
  rw [hasColumns_iff]
  constructor
  · rintro ⟨goods, h⟩ i hi
    obtain ⟨godId, h₀, h⟩ := bind_eq_ok.mp h
    obtain ⟨godName, h₁, h⟩ := bind_eq_ok.mp h
    obtain ⟨godType, h₂, h⟩ := bind_eq_ok.mp h
    obtain ⟨godPrice, h₃, h⟩ := bind_eq_ok.mp h
    obtain ⟨godSize, h₄, -⟩ := bind_eq_ok.mp h
    rcases (by omega : i = 0 ∨ i = 1 ∨ i = 2 ∨ i = 3 ∨ i = 4) with rfl | rfl | rfl | rfl | rfl
    · exact ⟨godId, h₀⟩
    · exact ⟨godName, h₁⟩
    · exact ⟨godType, h₂⟩
    · exact ⟨godPrice, h₃⟩
    · exact ⟨godSize, h₄⟩
  · intro h
    obtain ⟨godId, h₀⟩ := h 0 (by decide)
    obtain ⟨godName, h₁⟩ := h 1 (by decide)
    obtain ⟨godType, h₂⟩ := h 2 (by decide)
    obtain ⟨godPrice, h₃⟩ := h 3 (by decide)
    obtain ⟨godSize, h₄⟩ := h 4 (by decide)
    refine ⟨⟨godId, godName, godType, godPrice, godSize⟩, ?_⟩
    rw [readGoods, h₀, h₁, h₂, h₃, h₄]
    rfl

theorem exists_printColumns_iff {row : MysqlRow} (n start : Nat) :
    (∃ line, printColumns row n start = .ok line) ↔
      ∀ i < n, ∃ text, column row (start + i) = .ok text := by
  induction n generalizing start with
  | zero => exact iff_of_true ⟨[], rfl⟩ fun i hi => absurd hi (Nat.not_lt_zero i)
  | succ n ih =>
      have hrest := ih (start + 1)
      constructor
      · rintro ⟨line, h⟩ i hi
        obtain ⟨text, htext, h⟩ := bind_eq_ok.mp h
        obtain ⟨texts, htexts, -⟩ := bind_eq_ok.mp h
        cases i with
        | zero => exact ⟨text, htext⟩
        | succ i =>
            have hi' := hrest.mp ⟨texts, htexts⟩ i (Nat.lt_of_succ_lt_succ hi)
            rwa [Nat.add_assoc, Nat.add_comm 1 i] at hi'
      · intro h
        obtain ⟨text, htext⟩ := h 0 (Nat.succ_pos n)
        obtain ⟨texts, htexts⟩ := hrest.mpr fun i hi => by
          have hi' := h (i + 1) (Nat.succ_lt_succ hi)
          rwa [Nat.add_comm i 1, ← Nat.add_assoc] at hi'
        exact ⟨_, bind_eq_ok.mpr ⟨text, htext, bind_eq_ok.mpr ⟨texts, htexts, rfl⟩⟩⟩

/-! ## The routines -/

theorem exists_exeSelectType_iff (res : ResultSet) :
    (∃ result, exeSelectType (.stored (some res)) = .ok result) ↔
      ∀ row ∈ res.fetched, HasColumns 2 row := by
  rw [exeSelectType, exists_bind_pure_iff, exists_fetchLoop_iff (toNat_countInt_le _)]
  simp only [exists_readType_iff]
  rfl

/-- The number of columns that `exe_query` prints. -/
def ResultSet.fieldNum (res : ResultSet) : Nat := (countInt res.fields.length).toNat

theorem exists_exeQuery_iff (res : ResultSet) :
    (∃ result, exeQuery (.stored (some res)) = .ok result) ↔
      ∀ row ∈ res.fetched, none ∉ row.take res.fieldNum := by
  rw [exeQuery, exists_bind_pure_iff, exists_fetchLoop_iff (toNat_countInt_le _)]
  refine forall₂_congr fun row hrow => ?_
  have hwidth : res.fieldNum ≤ row.length := by
    rw [res.wide row (List.mem_of_mem_take hrow)]
    exact toNat_countInt_le _
  rw [exists_printColumns_iff]
  simp only [Nat.zero_add]
  rw [← hasColumns_iff]
  exact and_iff_right hwidth

theorem foldl_push (items list : List GoodsRecord) :
    items.foldl (fun goodsList goods => goodsList ++ [goods]) list = list ++ items := by
  induction items generalizing list with
  | nil => exact (List.append_nil list).symm
  | cons goods items ih => rw [List.foldl_cons, ih, List.append_assoc, List.singleton_append]

/-- The list that `exe_select_goods` returns has the fetched rows in their order. -/
theorem exeSelectGoods_eq_ok_iff {res : ResultSet} {goodsList : List GoodsRecord}
    {printed : Bytes} :
    exeSelectGoods (.stored (some res)) = .ok (goodsList, printed) ↔
      List.Forall₂ (ReadsAs readGoods) res.fetched goodsList ∧ printed = [] := by
  rw [exeSelectGoods, bind_eq_ok]
  constructor
  · rintro ⟨list, hlist, h⟩
    obtain ⟨items, hitems, hfold⟩ := (fetchLoop_eq_ok_iff (toNat_countInt_le _)).mp hlist
    rw [foldl_push, List.nil_append] at hfold
    cases h
    exact ⟨hfold ▸ hitems, rfl⟩
  · rintro ⟨hitems, rfl⟩
    refine ⟨goodsList, (fetchLoop_eq_ok_iff (toNat_countInt_le _)).mpr ⟨goodsList, hitems, ?_⟩, rfl⟩
    exact foldl_push goodsList []

/-! ## What the routines accept -/

/-- `exe_select_goods` has a meaning, and its list has a record for every row of the set, in
the order of the rows. -/
def ReturnsRows (set : Option ResultSet) : Prop :=
  ∃ goodsList printed, exeSelectGoods (.stored set) = .ok (goodsList, printed) ∧
    ∀ res, set = some res → List.Forall₂ (ReadsAs readGoods) res.rows goodsList

theorem exists_exeSelectGoods_iff (res : ResultSet) :
    (∃ result, exeSelectGoods (.stored (some res)) = .ok result) ↔
      ∀ row ∈ res.fetched, HasColumns 5 row := by
  rw [exeSelectGoods, exists_bind_pure_iff, exists_fetchLoop_iff (toNat_countInt_le _)]
  simp only [exists_readGoods_iff]
  rfl

theorem returnsRows_iff (res : ResultSet) :
    ReturnsRows (some res) ↔ res.rows.length < 2 ^ 31 ∧ ∀ row ∈ res.rows, HasColumns 5 row := by
  constructor
  · rintro ⟨goodsList, printed, hlist, hrows⟩
    have hall := hrows res rfl
    have hfetched := (exeSelectGoods_eq_ok_iff.mp hlist).1
    have hlength : res.fetched.length = res.rows.length :=
      hfetched.length_eq.trans hall.length_eq.symm
    rw [ResultSet.fetched, List.length_take] at hlength
    refine ⟨(le_toNat_countInt_iff _).mp (by omega), fun row hrow => ?_⟩
    exact exists_readGoods_iff.mp (exists_forall₂_iff.mp ⟨goodsList, hall⟩ row hrow)
  · rintro ⟨hlength, hcolumns⟩
    have hread : ∀ row ∈ res.rows, ∃ goods, ReadsAs readGoods row goods :=
      fun row hrow => exists_readGoods_iff.mpr (hcolumns row hrow)
    obtain ⟨goodsList, hall⟩ := exists_forall₂_iff.mpr hread
    refine ⟨goodsList, [], exeSelectGoods_eq_ok_iff.mpr ⟨?_, rfl⟩, fun res' hres' => ?_⟩
    · rw [ResultSet.fetched_eq_rows hlength]
      exact hall
    · cases hres'
      exact hall

/-- A routine that has no meaning without a set has one for a set when it has one for it. -/
theorem exists_some_iff {p : Option ResultSet → Prop} {q : ResultSet → Prop} (hnone : ¬p none)
    (hsome : ∀ res, p (some res) ↔ q res) (set : Option ResultSet) :
    p set ↔ ∃ res, set = some res ∧ q res := by
  cases set with
  | none => exact iff_of_false hnone fun ⟨_, h, _⟩ => by cases h
  | some res =>
      rw [hsome]
      exact ⟨fun h => ⟨res, rfl, h⟩, fun ⟨_, hres, h⟩ => Option.some.inj hres ▸ h⟩

/-- For whatever `mysql_store_result` returns: each routine has a meaning exactly when there
is a result set and no row it fetches has a NULL, or nothing, in a column that it reads.  The
list of goods is complete exactly when the rows can also be counted in an `int`. -/
theorem select_accepts_iff (set : Option ResultSet) :
    ((∃ result, exeQuery (.stored set) = .ok result) ↔
        ∃ res, set = some res ∧ ∀ row ∈ res.fetched, none ∉ row.take res.fieldNum) ∧
      ((∃ result, exeSelectType (.stored set) = .ok result) ↔
        ∃ res, set = some res ∧ ∀ row ∈ res.fetched, HasColumns 2 row) ∧
      ((∃ result, exeSelectGoods (.stored set) = .ok result) ↔
        ∃ res, set = some res ∧ ∀ row ∈ res.fetched, HasColumns 5 row) ∧
      (ReturnsRows set ↔
        ∃ res, set = some res ∧ res.rows.length < 2 ^ 31 ∧ ∀ row ∈ res.rows, HasColumns 5 row) := by
  refine ⟨?_, ?_, ?_, ?_⟩
  · refine exists_some_iff (p := fun set => ∃ r, exeQuery (.stored set) = .ok r) ?_
      exists_exeQuery_iff set
    rintro ⟨result, h⟩
    cases h
  · refine exists_some_iff (p := fun set => ∃ r, exeSelectType (.stored set) = .ok r) ?_
      exists_exeSelectType_iff set
    rintro ⟨result, h⟩
    cases h
  · refine exists_some_iff (p := fun set => ∃ r, exeSelectGoods (.stored set) = .ok r) ?_
      exists_exeSelectGoods_iff set
    rintro ⟨result, h⟩
    cases h
  · refine exists_some_iff (p := ReturnsRows) ?_ returnsRows_iff set
    rintro ⟨goodsList, printed, h, -⟩
    cases h

/-- A set with one record whose type is NULL. -/
def untyped : ResultSet where
  fields := [bytes "god_id", bytes "god_name", bytes "god_type", bytes "god_price",
    bytes "god_size"]
  rows := [[some (bytes "1"), some (bytes "pen"), none, some (bytes "2"), some (bytes "big")]]
  wide := by decide

/-- A statement without a result set, and one that selects a NULL. -/
theorem select_faults :
    exeQuery (.stored none) = .error .nullResult ∧
      exeSelectType (.stored none) = .error .nullResult ∧
      exeSelectGoods (.stored none) = .error .nullResult ∧
      exeQuery (.stored (some untyped)) = .error .nullColumn ∧
      exeSelectGoods (.stored (some untyped)) = .error .nullColumn ∧
      exeSelectType (.stored (some ⟨[bytes "godt_id", bytes "godt_name"],
        [[some (bytes "1"), none]], by decide⟩)) = .error .nullColumn := by
  exact ⟨rfl, rfl, rfl, by decide +kernel, by decide +kernel, rfl⟩

end Cgi
