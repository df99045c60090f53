import TinyHttpd.Cgi.Database
import TinyHttpd.Cgi.TypeOptions

/-!
# The change page

For a GET `change_god_cgi` loads the types, selects the goods with the id of the query
string, and hands the first record of the list to `print_table`.  The list is indexed and
the type is looked up without a test, so the page depends on what the two tables hold when
the two selects are executed.

What the server answers to a statement is left to a parameter.  Two of its answers are
fixed: to the select of all types, and to that of the goods with a numeral for an id.
-/

namespace Cgi

open CString

/-! ## The server -/

/-- What the rows of `goods` look like in a result set. -/
def goodsRow (showPrice : Rat → Bytes) (row : Int × GoodsCells) : MysqlRow :=
  [some (decimal row.1), row.2.godName, row.2.godType.map decimal, row.2.godPrice.map showPrice,
    row.2.godSize]

def goodsSet (showPrice : Rat → Bytes) (rows : List (Int × GoodsCells)) : ResultSet where
  fields := [bytes "god_id", bytes "god_name", bytes "god_type", bytes "god_price",
    bytes "god_size"]
  rows := rows.map (goodsRow showPrice)
  wide row hrow := by
    obtain ⟨_, -, rfl⟩ := List.mem_map.mp hrow
    rfl

/-- What the rows of `goods_type` look like. -/
def goodsTypeRow (t : GoodsType) : MysqlRow := [some (decimal t.godtId), t.godtName]

def goodsTypeSet (types : List GoodsType) : ResultSet where
  fields := [bytes "godt_id", bytes "godt_name"]
  rows := types.map goodsTypeRow
  wide row hrow := by
    obtain ⟨_, -, rfl⟩ := List.mem_map.mp hrow
    rfl

/-- The statement `map_sql`. -/
def mapSql : Bytes := bytes "select * from goods_type;"

/-- The goods with that id. -/
def Database.goodsWithId (db : Database) (id : Nat) : List (Int × GoodsCells) :=
  db.goods.rows.filter fun row => row.1 = id

/-- A server, and what it answers to the two selects. -/
structure SelectServer where
  answer : Database → Bytes → Answer
  showPrice : Rat → Bytes
  types : ∀ db, answer db mapSql = .stored (some (goodsTypeSet db.goodsType))
  byId : ∀ db id, id ≠ [] → IsDigits id →
    answer db (ChangeForm.sql ⟨id⟩) =
      .stored (some (goodsSet showPrice (db.goodsWithId (numeral id))))

/-! ## The GET branch -/

/-- The page in front of the form, and what `exe_select_type` prints. -/
def changePageHead (printed : Bytes) : List Piece :=
  [.text (bytes "<html>\n\n"), .text (bytes "<head><title>Change goods information</title>\n\n"),
    .text (bytes "<body>\n\n"), .text (bytes "<style type=\"text/css\">\n"),
    .text (bytes "body\x7b\nbackground-color: #eeffff;\n\x7d\n"),
    .text (bytes "#addGodTab\x7b\nmargin-left:120px;\nbackground-color: #eeffff;\n\x7d\n"),
    .text (bytes "</style>\n</head>\n"),
    .text (bytes "<body><p><a href=\"../index.html\">Back index</a></p>\n\n"), .text printed,
    .text (bytes "<form action=\"change_god_cgi\" method=\"POST\">\n")]

/-- `god_list[0]`. -/
def firstGoods : List GoodsRecord → Except Fault GoodsRecord
  | [] => .error .emptyList
  | goods :: _ => .ok goods

/-- `change_god_cgi` for a GET. -/
def changeGodGet (server : SelectServer) (db : Database) (queryString : Bytes) :
    Except Fault (List Piece) := do
  let (typeMap, printed) ← exeSelectType (server.answer db mapSql)
  match changeForm queryString with
  | none => .error .overrun
  | some sql =>
      let (godList, printed') ← exeSelectGoods (server.answer db sql)
      let goods ← firstGoods godList
      let table ← printTable typeMap goods
      return changePageHead printed ++ [.text printed'] ++ table ++
        [.text (bytes "</form>\n</body>\n"), .text (bytes "</html>\n\n")]

/-! ## The two lookups -/

/-- The list is not indexed when it is empty, and the end of the map is not used.  Nor has
the id run over its buffer, behind which the program would go on with both of them. -/
structure LooksUp {α : Type} (outcome : Except Fault α) : Prop where
  list : outcome ≠ .error .emptyList
  map : outcome ≠ .error .endIterator
  fits : outcome ≠ .error .overrun

theorem looksUp_ok {α : Type} (a : α) : LooksUp (.ok a : Except Fault α) where
  list h := by cases h
  map h := by cases h
  fits h := by cases h

theorem looksUp_error_iff {α : Type} {fault : Fault} :
    LooksUp (.error fault : Except Fault α) ↔
      fault ≠ .emptyList ∧ fault ≠ .endIterator ∧ fault ≠ .overrun := by
  constructor
  · exact fun h => ⟨fun he => h.list (congrArg _ he), fun he => h.map (congrArg _ he),
      fun he => h.fits (congrArg _ he)⟩
  · exact fun h => ⟨fun he => h.1 (Except.error.inj he), fun he => h.2.1 (Except.error.inj he),
      fun he => h.2.2 (Except.error.inj he)⟩

/-- The rule for a sequence: what comes first looks nothing up. -/
theorem looksUp_bind_iff {α β : Type} {x : Except Fault α} {f : α → Except Fault β}
    (hx : LooksUp x) : LooksUp (x >>= f) ↔ ∀ a, x = .ok a → LooksUp (f a) := by
  cases x with
  | error fault =>
      exact iff_of_true (looksUp_error_iff.mpr (looksUp_error_iff.mp hx)) fun a h => by cases h
  | ok a => exact ⟨fun h _ ha => Except.ok.inj ha ▸ h, fun h => h a rfl⟩

theorem looksUp_column (row : MysqlRow) (i : Nat) : LooksUp (column row i) := by
  rw [column]
  cases row[i]? with
  | none => exact looksUp_error_iff.mpr (by decide)
  | some cell =>
      cases cell with
      | none => exact looksUp_error_iff.mpr (by decide)
      | some text => exact looksUp_ok _

theorem looksUp_readType (row : MysqlRow) : LooksUp (readType row) :=
  (looksUp_bind_iff (looksUp_column row 0)).mpr fun _ _ =>
    (looksUp_bind_iff (looksUp_column row 1)).mpr fun _ _ => looksUp_ok _

theorem looksUp_readGoods (row : MysqlRow) : LooksUp (readGoods row) :=
  (looksUp_bind_iff (looksUp_column row 0)).mpr fun _ _ =>
    (looksUp_bind_iff (looksUp_column row 1)).mpr fun _ _ =>
      (looksUp_bind_iff (looksUp_column row 2)).mpr fun _ _ =>
        (looksUp_bind_iff (looksUp_column row 3)).mpr fun _ _ =>
          (looksUp_bind_iff (looksUp_column row 4)).mpr fun _ _ => looksUp_ok _

theorem looksUp_fetchLoop {α β : Type} {tested : Bool} {read : MysqlRow → Except Fault β}
    {add : α → β → α} (hread : ∀ row, LooksUp (read row)) (n : Nat) (rows : List MysqlRow)
    (acc : α) : LooksUp (fetchLoop tested read add n rows acc) := by
  induction n generalizing rows acc with
  | zero => exact looksUp_ok acc
  | succ n ih =>
      cases rows with
      | nil =>
          cases tested with
          | true => exact ih [] acc
          | false => exact looksUp_error_iff.mpr (by decide)
      | cons row rows => exact (looksUp_bind_iff (hread row)).mpr fun item _ => ih rows _

theorem looksUp_exeSelectType (answer : Answer) : LooksUp (exeSelectType answer) := by
  cases answer with
  | refused error => exact looksUp_ok _
  | stored set =>
      cases set with
      | none => exact looksUp_error_iff.mpr (by decide)
      | some res =>
          exact (looksUp_bind_iff (looksUp_fetchLoop looksUp_readType _ _ _)).mpr
            fun _ _ => looksUp_ok _

theorem looksUp_exeSelectGoods (answer : Answer) : LooksUp (exeSelectGoods answer) := by
  cases answer with
  | refused error => exact looksUp_ok _
  | stored set =>
      cases set with
      | none => exact looksUp_error_iff.mpr (by decide)
      | some res =>
          exact (looksUp_bind_iff (looksUp_fetchLoop looksUp_readGoods _ _ _)).mpr
            fun _ _ => looksUp_ok _

theorem looksUp_printTable_iff {typeMap : TypeMap} {goods : GoodsRecord} :
    LooksUp (printTable typeMap goods) ↔ atoi goods.godType ∈ typeMap := by
  rw [Std.TreeMap.mem_iff_isSome_getElem?, printTable]
  cases typeMap[atoi goods.godType]? with
  | none => exact iff_of_false (fun h => h.map rfl) Bool.false_ne_true
  | some typeName => exact iff_of_true (looksUp_ok _) rfl

theorem looksUp_bind_pure_iff {α β : Type} {x : Except Fault α} {g : α → β} :
    LooksUp (x >>= fun a => pure (g a)) ↔ LooksUp x := by
  cases x with
  | error fault => exact looksUp_error_iff.trans looksUp_error_iff.symm
  | ok a => exact iff_of_true (looksUp_ok _) (looksUp_ok a)

/-- The record that the form is made of has its type in the map. -/
theorem looksUp_form_iff {typeMap : TypeMap} {godList : List GoodsRecord}
    {page : List Piece → List Piece} :
    LooksUp (do
      let goods ← firstGoods godList
      let table ← printTable typeMap goods
      return page table) ↔
      ∃ goods ∈ godList.head?, atoi goods.godType ∈ typeMap := by
  cases godList with
  | nil =>
      refine iff_of_false (fun h => h.list rfl) ?_
      rintro ⟨goods, hgoods, -⟩
      cases hgoods
  | cons goods godList =>
      have htable : LooksUp (printTable typeMap goods >>= fun table => pure (page table)) ↔
          atoi goods.godType ∈ typeMap :=
        looksUp_bind_pure_iff.trans looksUp_printTable_iff
      have hhead : (∃ g ∈ (goods :: godList).head?, atoi g.godType ∈ typeMap) ↔
          atoi goods.godType ∈ typeMap := by
        simp
      exact htable.trans hhead.symm

/-- The page looks nothing up in vain when the id fits, as soon as the types are there, and
every pair of results of the two selects has the type of its first record. -/
theorem looksUp_changeGodGet_iff (server : SelectServer) (db : Database) (queryString : Bytes) :
    LooksUp (changeGodGet server db queryString) ↔
      ∀ types, exeSelectType (server.answer db mapSql) = .ok types →
        ∃ sql, changeForm queryString = some sql ∧
          ∀ goods, exeSelectGoods (server.answer db sql) = .ok goods →
            ∃ first ∈ goods.1.head?, atoi first.godType ∈ types.1 := by
  rw [changeGodGet, looksUp_bind_iff (looksUp_exeSelectType _)]
  refine forall₂_congr fun types _ => ?_
  cases changeForm queryString with
  | none =>
      refine iff_of_false (fun h => h.fits rfl) ?_
      rintro ⟨sql, h, -⟩
      cases h
  | some sql =>
      refine (looksUp_bind_iff (looksUp_exeSelectGoods _)).trans ?_
      constructor
      · exact fun h => ⟨sql, rfl, fun goods hgoods => looksUp_form_iff.mp (h goods hgoods)⟩
      · rintro ⟨sql', hsql, h⟩ goods hgoods
        cases hsql
        exact looksUp_form_iff.mpr (h goods hgoods)

/-! ## What the selects return -/

/-- The rows of a list whose number is cut to an `int`. -/
def counted {α : Type} (rows : List α) : List α := rows.take (countInt rows.length).toNat

theorem counted_map {α β : Type} (f : α → β) (rows : List α) :
    counted (rows.map f) = (counted rows).map f := by
  rw [counted, counted, List.length_map, List.map_take]

/-- The columns of type `int` hold `int`s. -/
structure Database.Ints (db : Database) : Prop where
  goods : ∀ row ∈ db.goods.rows, ∀ type ∈ row.2.godType, IsInt type
  goodsType : ∀ t ∈ db.goodsType, IsInt t.godtId

theorem readType_goodsTypeRow {t : GoodsType} {entry : Int × Bytes} (hid : IsInt t.godtId)
    (h : readType (goodsTypeRow t) = .ok entry) : entry.1 = t.godtId := by
  obtain ⟨id, hcolumn, h⟩ := bind_eq_ok.mp h
  obtain ⟨name, -, h⟩ := bind_eq_ok.mp h
  cases h
  cases hcolumn
  exact (congrArg atoi (cstr_decimal t.godtId)).trans (atoi_decimal hid)

theorem hasColumns_goodsTypeRow (t : GoodsType) :
    HasColumns 2 (goodsTypeRow t) ↔ t.godtName.isSome := by
  obtain ⟨id, name⟩ := t
  cases name with
  | none => exact iff_of_false (fun h => h.2 (by simp [goodsTypeRow])) Bool.false_ne_true
  | some name => exact iff_of_true ⟨le_rfl, by simp [goodsTypeRow]⟩ rfl

/-- The types are loaded when none of the names is NULL. -/
theorem exists_types_iff (types : List GoodsType) :
    (∃ result, exeSelectType (.stored (some (goodsTypeSet types))) = .ok result) ↔
      ∀ t ∈ counted types, t.godtName.isSome := by
  have hfetched : (goodsTypeSet types).fetched = (counted types).map goodsTypeRow :=
    counted_map goodsTypeRow types
  rw [exists_exeSelectType_iff, hfetched, List.forall_mem_map]
  exact forall₂_congr fun t _ => hasColumns_goodsTypeRow t

theorem keys_eq {types : List GoodsType} {entries : List (Int × Bytes)}
    (hids : ∀ t ∈ types, IsInt t.godtId)
    (h : List.Forall₂ (ReadsAs readType) (types.map goodsTypeRow) entries) :
    entries.map Prod.fst = types.map GoodsType.godtId := by
  induction types generalizing entries with
  | nil =>
      cases h
      rfl
  | cons t types ih =>
      obtain ⟨hid, hids⟩ := List.forall_mem_cons.mp hids
      cases h with
      | cons hentry hrest =>
          rw [List.map_cons, List.map_cons, readType_goodsTypeRow hid hentry, ih hids hrest]

/-- The keys of the map that is loaded. -/
theorem mem_types_iff {types : List GoodsType} (hids : ∀ t ∈ types, IsInt t.godtId)
    {result : TypeMap × Bytes}
    (h : exeSelectType (.stored (some (goodsTypeSet types))) = .ok result) (k : Int) :
    k ∈ result.1 ↔ k ∈ (counted types).map GoodsType.godtId := by
  rw [exeSelectType, bind_eq_ok] at h
  obtain ⟨typeMap, hloop, h⟩ := h
  cases h
  obtain ⟨entries, hentries, hload⟩ := (fetchLoop_eq_ok_iff (toNat_countInt_le _)).mp hloop
  have hfetched : (goodsTypeSet types).fetched = (counted types).map goodsTypeRow :=
    counted_map goodsTypeRow types
  rw [← ResultSet.fetched, hfetched] at hentries
  have hkeys : entries.map Prod.fst = (counted types).map GoodsType.godtId :=
    keys_eq (fun t ht => hids t (List.mem_of_mem_take ht)) hentries
  have hmem : k ∈ OrderedMap.load ∅ entries ↔ k ∈ entries.map Prod.fst ∨ k ∈ (∅ : TypeMap) :=
    OrderedMap.mem_load
  rw [or_iff_left Std.TreeMap.not_mem_emptyc, hkeys] at hmem
  rw [← hmem, ← hload]
  rfl

/-- The type of a record is the third column of its row. -/
theorem readGoods_godType {row : MysqlRow} {goods : GoodsRecord} (h : readGoods row = .ok goods) :
    ∃ text, row[2]? = some (some text) ∧ goods.godType = cstr text := by
  obtain ⟨godId, -, h⟩ := bind_eq_ok.mp h
  obtain ⟨godName, -, h⟩ := bind_eq_ok.mp h
  obtain ⟨godType, htype, h⟩ := bind_eq_ok.mp h
  obtain ⟨godPrice, -, h⟩ := bind_eq_ok.mp h
  obtain ⟨godSize, -, h⟩ := bind_eq_ok.mp h
  cases h
  obtain ⟨text, htext⟩ := column_eq_ok_iff.mp ⟨godType, htype⟩
  refine ⟨text, htext, ?_⟩
  rw [column, htext] at htype
  exact (Except.ok.inj htype).symm

/-- If all of the rows can be read, there is a first one and its type is one of these. -/
def FirstTypedRow (ids : List Int) (rows : List MysqlRow) : Prop :=
  (∀ row ∈ rows, HasColumns 5 row) →
    ∃ row ∈ rows.head?, ∃ text, row[2]? = some (some text) ∧ atoi (cstr text) ∈ ids

theorem firstTypedRow_iff (ids : List Int) (rows : List MysqlRow) :
    FirstTypedRow ids rows ↔
      ∀ godList, List.Forall₂ (ReadsAs readGoods) rows godList →
        ∃ first ∈ godList.head?, atoi first.godType ∈ ids := by
  constructor
  · intro h godList hall
    have hread : ∀ row ∈ rows, HasColumns 5 row := fun row hrow =>
      exists_readGoods_iff.mp (exists_forall₂_iff.mp ⟨godList, hall⟩ row hrow)
    obtain ⟨row, hrow, text, htext, hid⟩ := h hread
    cases hall with
    | nil => cases hrow
    | cons hfirst hrest =>
        cases hrow
        obtain ⟨text', htext', htype⟩ := readGoods_godType hfirst
        rw [htext, Option.some.injEq, Option.some.injEq] at htext'
        exact ⟨_, rfl, by rwa [htype, ← htext']⟩
  · intro h hread
    have hitems : ∀ row ∈ rows, ∃ goods, ReadsAs readGoods row goods :=
      fun row hrow => exists_readGoods_iff.mpr (hread row hrow)
    obtain ⟨godList, hall⟩ := exists_forall₂_iff.mpr hitems
    obtain ⟨first, hfirst, hid⟩ := h godList hall
    cases hall with
    | nil => cases hfirst
    | cons hrow hrest =>
        cases hfirst
        obtain ⟨text, htext, htype⟩ := readGoods_godType hrow
        exact ⟨_, rfl, text, htext, htype ▸ hid⟩

/-- The same for an answer.  A statement that is refused gives an empty list, and NULL for a
result set is read before the list is there. -/
def FirstTyped (ids : List Int) : Answer → Prop
  | .refused _ => False
  | .stored none => True
  | .stored (some res) => FirstTypedRow ids res.fetched

theorem firstTyped_iff (ids : List Int) (answer : Answer) :
    FirstTyped ids answer ↔
      ∀ goods, exeSelectGoods answer = .ok goods →
        ∃ first ∈ goods.1.head?, atoi first.godType ∈ ids := by
  cases answer with
  | refused error =>
      refine iff_of_false id fun h => ?_
      obtain ⟨first, hfirst, -⟩ := h _ rfl
      cases hfirst
  | stored set =>
      cases set with
      | none => exact iff_of_true trivial fun goods h => by cases h
      | some res =>
          rw [FirstTyped, firstTypedRow_iff]
          constructor
          · exact fun h goods hgoods => h goods.1 (exeSelectGoods_eq_ok_iff.mp hgoods).1
          · exact fun h godList hall => h (godList, []) (exeSelectGoods_eq_ok_iff.mpr ⟨hall, rfl⟩)

/-! ## Which ids are safe -/

/-- The condition on the tables and the query string, for any server: the types can be loaded
only where no name is NULL, and then the id has to fit and its select to find a first record of
one of these types. -/
theorem looksUp_iff_firstTyped (server : SelectServer) {db : Database} (hints : db.Ints)
    (queryString : Bytes) :
    LooksUp (changeGodGet server db queryString) ↔
      ((∀ t ∈ counted db.goodsType, t.godtName.isSome) →
        ∃ sql, changeForm queryString = some sql ∧
          FirstTyped ((counted db.goodsType).map GoodsType.godtId) (server.answer db sql)) := by
  rw [looksUp_changeGodGet_iff, server.types, ← exists_types_iff]
  simp only [firstTyped_iff]
  constructor
  · rintro h ⟨types, htypes⟩
    obtain ⟨sql, hsql, h⟩ := h types htypes
    refine ⟨sql, hsql, fun goods hgoods => ?_⟩
    obtain ⟨first, hfirst, hmem⟩ := h goods hgoods
    exact ⟨first, hfirst, (mem_types_iff hints.goodsType htypes _).mp hmem⟩
  · intro h types htypes
    obtain ⟨sql, hsql, h⟩ := h ⟨types, htypes⟩
    refine ⟨sql, hsql, fun goods hgoods => ?_⟩
    obtain ⟨first, hfirst, hmem⟩ := h goods hgoods
    exact ⟨first, hfirst, (mem_types_iff hints.goodsType htypes _).mpr hmem⟩

/-- No column of the record is NULL. -/
def GoodsCells.Complete (cells : GoodsCells) : Prop :=
  cells.godName.isSome ∧ cells.godType.isSome ∧ cells.godPrice.isSome ∧ cells.godSize.isSome

theorem none_ne_iff {α : Type} (o : Option α) : ¬none = o ↔ o.isSome := by
  cases o with
  | none => exact iff_of_false (not_not_intro rfl) Bool.false_ne_true
  | some a => exact iff_of_true (Option.some_ne_none a).symm rfl

theorem hasColumns_goodsRow (showPrice : Rat → Bytes) (row : Int × GoodsCells) :
    HasColumns 5 (goodsRow showPrice row) ↔ row.2.Complete := by
  obtain ⟨id, name, type, price, size⟩ := row
  have hmem : none ∉ goodsRow showPrice (id, ⟨name, type, price, size⟩) ↔
      GoodsCells.Complete ⟨name, type, price, size⟩ := by
    simp only [goodsRow, List.mem_cons, List.not_mem_nil, not_or, none_ne_iff, Option.isSome_map,
      Option.isSome_some, true_and, not_false_iff, and_true]
    rfl
  exact (and_iff_right le_rfl).trans hmem

/-- Of goods that are selected the condition is one on the tables. -/
theorem firstTyped_goodsSet (showPrice : Rat → Bytes) {rows : List (Int × GoodsCells)}
    (hints : ∀ row ∈ rows, ∀ type ∈ row.2.godType, IsInt type) (ids : List Int) :
    FirstTyped ids (.stored (some (goodsSet showPrice rows))) ↔
      ((∀ row ∈ counted rows, row.2.Complete) →
        ∃ row ∈ (counted rows).head?, ∃ type ∈ row.2.godType, type ∈ ids) := by
  have hfetched : (goodsSet showPrice rows).fetched = (counted rows).map (goodsRow showPrice) :=
    counted_map (goodsRow showPrice) rows
  rw [FirstTyped, hfetched, FirstTypedRow, List.forall_mem_map]
  simp only [hasColumns_goodsRow]
  refine imp_congr_right fun hcomplete => ?_
  have hints' : ∀ row ∈ counted rows, ∀ type ∈ row.2.godType, IsInt type :=
    fun row hrow => hints row (List.mem_of_mem_take hrow)
  cases hrows : counted rows with
  | nil => simp
  | cons row rest =>
      rw [hrows] at hcomplete hints'
      have htype := (hcomplete row (List.mem_cons_self ..)).2.1
      obtain ⟨type, htype⟩ := Option.isSome_iff_exists.mp htype
      have hint := hints' row (List.mem_cons_self ..) type htype
      have hread : atoi (cstr (decimal type)) = type := by
        rw [cstr_decimal, atoi_decimal hint]
      simp [goodsRow, htype, hread]

theorem changeForm_numeral {id : Bytes} (hne : id ≠ []) (hid : IsDigits id)
    (hlen : id.length < 40) :
    changeForm (bytes "god_id=" ++ id) = some (ChangeForm.sql ⟨id⟩) := by
  have hhead : ∀ c ∈ bytes "god_id=", c ≠ 0 := by decide
  have hplain : ∀ c ∈ id, c ≠ 0 := by
    rintro c hc rfl
    exact absurd (hid 0 hc) (by decide)
  have hword : IsWord id := ⟨hne, fun c hc => isdigit_not_isspace (hid c hc)⟩
  have hcstr : cstr (bytes "god_id=" ++ id) = bytes "god_id=" ++ id :=
    cstr_eq_self (List.forall_mem_append.mpr ⟨hhead, hplain⟩)
  have hprefix : (bytes "god_id=" ++ id).dropPrefix? (bytes "god_id=") = some id :=
    List.dropPrefix?_eq_some_iff.mpr ⟨_, rfl, beq_self_eq_true _⟩
  have hends : EndsWord [] := fun c hc => absurd hc (Option.not_mem_none c)
  have hscan := scanWord_append hword hends
  rw [List.append_nil] at hscan
  rw [changeForm, ChangeForm.scan, hcstr, scanAfter, hprefix, Option.bind_some, hscan,
    Option.map_some, stored, if_pos hlen]
  rfl

/-- For every server and all contents of the two tables.  For every query string, the page
looks nothing up in vain exactly when, if it comes to that, the id fits and its select finds a
first record of a type that is there.  Where the id is a numeral this is a matter of the
tables. -/
theorem changePage_safe_iff (server : SelectServer) {db : Database} (hints : db.Ints) :
    (∀ queryString, LooksUp (changeGodGet server db queryString) ↔
      ((∀ t ∈ counted db.goodsType, t.godtName.isSome) →
        ∃ sql, changeForm queryString = some sql ∧
          FirstTyped ((counted db.goodsType).map GoodsType.godtId) (server.answer db sql))) ∧
      ∀ id, id ≠ [] → IsDigits id → id.length < 40 →
        (LooksUp (changeGodGet server db (bytes "god_id=" ++ id)) ↔
          ((∀ t ∈ counted db.goodsType, t.godtName.isSome) →
            (∀ row ∈ counted (db.goodsWithId (numeral id)), row.2.Complete) →
              ∃ row ∈ (counted (db.goodsWithId (numeral id))).head?, ∃ type ∈ row.2.godType,
                type ∈ (counted db.goodsType).map GoodsType.godtId)) := by
  refine ⟨looksUp_iff_firstTyped server hints, fun id hne hid hlen => ?_⟩
  have hgoods : ∀ row ∈ db.goodsWithId (numeral id), ∀ type ∈ row.2.godType, IsInt type :=
    fun row hrow => hints.goods row (List.mem_of_mem_filter hrow)
  have hanswer := firstTyped_goodsSet server.showPrice hgoods
    ((counted db.goodsType).map GoodsType.godtId)
  rw [looksUp_iff_firstTyped server hints, changeForm_numeral hne hid hlen]
  rw [← hanswer, ← server.byId db id hne hid]
  simp

/-! ## A server -/

/-- The head of the select of a record. -/
def goodsSelectHead : Bytes :=
  bytes "select god_id,god_name,god_type,god_price,god_size from goods where god_id="

/-- The numeral between the head of that statement and its semicolon. -/
def selectedId (sql : Bytes) : Option Bytes :=
  (sql.dropPrefix? goodsSelectHead).bind fun rest =>
    if rest.getLast? = some 59 ∧ rest.dropLast ≠ [] ∧ IsDigits rest.dropLast then
      some rest.dropLast
    else none

theorem selectedId_sql {id : Bytes} (hne : id ≠ []) (hid : IsDigits id) :
    selectedId (ChangeForm.sql ⟨id⟩) = some id := by
  have hsql : ChangeForm.sql ⟨id⟩ = goodsSelectHead ++ (id ++ [59]) := by
    rw [ChangeForm.sql, List.append_assoc]
    rfl
  have hprefix : (ChangeForm.sql ⟨id⟩).dropPrefix? goodsSelectHead = some (id ++ [59]) :=
    List.dropPrefix?_eq_some_iff.mpr ⟨_, hsql, beq_self_eq_true _⟩
  rw [selectedId, hprefix, Option.bind_some, List.dropLast_concat,
    if_pos ⟨List.getLast?_concat, hne, hid⟩]

/-- A server that knows these two selects and refuses everything else. -/
def plainServer : SelectServer where
  answer db sql :=
    if sql = mapSql then .stored (some (goodsTypeSet db.goodsType))
    else
      match selectedId sql with
      | some id => .stored (some (goodsSet (fun _ => bytes "1.00") (db.goodsWithId (numeral id))))
      | none => .refused (bytes "You have an error in your SQL syntax")
  showPrice _ := bytes "1.00"
  types db := if_pos rfl
  byId db id hne hid := by
    have hother : ChangeForm.sql ⟨id⟩ ≠ mapSql := by
      intro h
      have hselected := selectedId_sql hne hid
      rw [h] at hselected
      have hnone : selectedId mapSql = none := by decide
      rw [hnone] at hselected
      cases hselected
    rw [if_neg hother, selectedId_sql hne hid]

/-- One record, of type 3. -/
def oneRecord (types : List GoodsType) : Database where
  goods := ⟨[(1, ⟨some (bytes "pen"), some 3, some 1, some (bytes "big")⟩)], 2, by decide⟩
  goodsType := types

theorem oneRecord_ints {types : List GoodsType} (h : ∀ t ∈ types, IsInt t.godtId) :
    (oneRecord types).Ints where
  goods := by
    intro row hrow type htype
    cases List.mem_singleton.mp hrow
    cases htype
    decide
  goodsType := h

theorem changePage_safe_typed :
    LooksUp (changeGodGet plainServer (oneRecord [⟨3, some (bytes "pens")⟩])
      (bytes "god_id=1")) := by
  have hints : (oneRecord [⟨3, some (bytes "pens")⟩]).Ints :=
    oneRecord_ints (List.forall_mem_singleton.mpr (by decide))
  have hsafe := (changePage_safe_iff plainServer hints).2 (bytes "1") (by decide)
    (by decide) (by decide)
  have hfirst : (counted ((oneRecord [⟨3, some (bytes "pens")⟩]).goodsWithId
      (numeral (bytes "1")))).head? =
        some (1, ⟨some (bytes "pen"), some 3, some 1, some (bytes "big")⟩) := by
    decide
  exact hsafe.mpr fun _ _ => ⟨_, hfirst, 3, rfl, by decide⟩

/-- An id that no record has, no id at all, and a record whose type has no row. -/
theorem changePage_failing :
    changeGodGet plainServer (oneRecord [⟨3, some (bytes "pens")⟩]) (bytes "god_id=2") =
        .error .emptyList ∧
      changeGodGet plainServer (oneRecord [⟨3, some (bytes "pens")⟩]) (bytes "") =
        .error .emptyList ∧
      changeGodGet plainServer (oneRecord []) (bytes "god_id=1") = .error .endIterator := by
  decide

end Cgi
