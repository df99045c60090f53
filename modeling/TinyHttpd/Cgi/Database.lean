import TinyHttpd.Cgi.Report
import TinyHttpd.Cgi.SqlShape
import TinyHttpd.Lib.Numeral
import TinyHttpd.Lib.Run
import TinyHttpd.Lib.Table

/-!
# The goods and their types

`add_god_cgi` inserts into the table `goods`; `god_list_cgi` lists the goods joined with
`goods_type`, where those without a type do not appear.  The ids are auto-increment
columns, and nothing ties `god_type` to the types there are.  What the server stores for
the values of an insert is left to a parameter.
-/

namespace Cgi

open CString SqlLex Table

/-! ## The tables -/

/-- The columns of `goods` that an insert sets. -/
structure GoodsCells where
  godName : Option Bytes
  godType : Option Int
  godPrice : Option Rat
  godSize : Option Bytes
deriving DecidableEq

/-- A row of `goods_type`. -/
structure GoodsType where
  godtId : Int
  godtName : Option Bytes
deriving DecidableEq

structure Database where
  goods : Numbered GoodsCells
  goodsType : List GoodsType

/-- A record of the list: what is selected for it. -/
structure Goods where
  godId : Int
  godName : Option Bytes
  godType : Option Bytes
  godPrice : Option Rat
  godSize : Option Bytes
deriving DecidableEq

/-- `god_type=godt_id`, which a `NULL` never meets. -/
def joins (row : Int × GoodsCells) (type : GoodsType) : Bool :=
  row.2.godType == some type.godtId

/-- `god_id,god_name,godt_name,god_price,god_size` of a pair. -/
def columns (pair : (Int × GoodsCells) × GoodsType) : Goods :=
  ⟨pair.1.1, pair.1.2.godName, pair.2.godtName, pair.1.2.godPrice, pair.1.2.godSize⟩

/-- The goods joined with their types. -/
def Database.listing (db : Database) : List Goods :=
  (innerJoin joins db.goods.rows db.goodsType).map columns

/-! ## The statements -/

/-- `insert into goods(god_name,god_type,god_price,god_size) value(` -/
def insertHead : List Token :=
  [.word (bytes "insert"), .word (bytes "into"), .word (bytes "goods"), .operator (bytes "("),
    .word (bytes "god_name"), .operator (bytes ","), .word (bytes "god_type"),
    .operator (bytes ","), .word (bytes "god_price"), .operator (bytes ","),
    .word (bytes "god_size"), .operator (bytes ")"), .word (bytes "value"), .operator (bytes "(")]

/-- The select that has no condition. -/
def selectAll : List Token :=
  [.word (bytes "select"), .word (bytes "god_id"), .operator (bytes ","), .word (bytes "god_name"),
    .operator (bytes ","), .word (bytes "godt_name"), .operator (bytes ","),
    .word (bytes "god_price"), .operator (bytes ","), .word (bytes "god_size"),
    .word (bytes "from"), .word (bytes "goods"), .word (bytes "inner"), .word (bytes "join"),
    .word (bytes "goods_type"), .word (bytes "on"), .word (bytes "god_type"),
    .operator (bytes "="), .word (bytes "godt_id"), .operator (bytes ";")]

/-- What the server makes of the text behind `value(`: the rows it stores, of which there
is one at least, or nothing for a statement that it refuses. -/
structure Mysql where
  stores : Database → List Token → Option (List GoodsCells)
  stores_ne_nil : ∀ db values rows, stores db values = some rows → rows ≠ []

/-- An insert into `goods`. -/
def Mysql.insert (server : Mysql) (db : Database) (sql : Bytes) : Option Database :=
  ((lex sql).dropPrefix? insertHead).bind fun values =>
    (server.stores db values).map fun rows => { db with goods := db.goods.insertAll rows }

/-- A select of the whole list. -/
def Database.select (db : Database) (sql : Bytes) : Option (List Goods) :=
  if lex sql = selectAll then some db.listing else none

/-! ## The programs -/

/-- What `add_goods` starts from: its buffers, and the data string. -/
structure Post where
  held : AddGoods
  dataString : Bytes

/-- A request to `add_god_cgi` whose insert is executed. -/
def Mysql.post (server : Mysql) (db : Database) (p : Post) : Option Database :=
  (addGoods p.held (some p.dataString)).bind (server.insert db)

/-- The records that `god_list_cgi` selects for a GET. -/
def Database.goodsList (db : Database) : Option (List Goods) :=
  (getSelectSql none).bind db.select

theorem goodsList_eq (db : Database) : db.goodsList = some db.listing := by
  have hlex : ∀ sql ∈ getSelectSql none, lex sql = selectAll := by decide +kernel
  rw [Database.goodsList]
  obtain ⟨sql, hsql⟩ : ∃ sql, getSelectSql none = some sql := ⟨_, rfl⟩
  rw [hsql, Option.bind_some, Database.select, if_pos (hlex sql hsql)]

/-! ## What inserts do to the list -/

/-- From `db` to `db'` goods have been added, and nothing else has changed. -/
structure Database.Grows (db db' : Database) (added : List (Int × GoodsCells)) : Prop where
  goods : Table.Grows db.goods db'.goods added
  goodsType : db'.goodsType = db.goodsType

theorem Database.Grows.trans {db db' db'' : Database} {added added' : List (Int × GoodsCells)}
    (h : db.Grows db' added) (h' : db'.Grows db'' added') : db.Grows db'' (added ++ added') :=
  ⟨h.goods.trans h'.goods, h'.goodsType.trans h.goodsType⟩

/-- What a request has done whose insert was executed. -/
theorem Mysql.post_cases {server : Mysql} {db db' : Database} {p : Post}
    (h : server.post db p = some db') :
    ∃ sql values rows added, addGoods p.held (some p.dataString) = some sql ∧
      (lex sql).dropPrefix? insertHead = some values ∧ server.stores db values = some rows ∧
      db.Grows db' added ∧ added.map Prod.snd = rows := by
  obtain ⟨sql, hsql, hinsert⟩ := Option.bind_eq_some_iff.mp h
  obtain ⟨values, hvalues, hstores⟩ := Option.bind_eq_some_iff.mp hinsert
  obtain ⟨rows, hrows, rfl⟩ := Option.map_eq_some_iff.mp hstores
  obtain ⟨added, hgrows, hcells⟩ := grows_insertAll db.goods rows
  exact ⟨sql, values, rows, added, hsql, hvalues, hrows, ⟨hgrows, rfl⟩, hcells⟩

theorem Mysql.run_grows {server : Mysql} {db db' : Database} {posts : List Post}
    (h : Machine.run server.post db posts = some db') : ∃ added, db.Grows db' added := by
  refine Machine.run_invariant (P := fun db' => ∃ added, db.Grows db' added) ?_
    ⟨[], Table.Grows.refl db.goods, rfl⟩ h
  rintro db₁ p db₂ ⟨added, hgrows⟩ hpost
  obtain ⟨-, -, -, added', -, -, -, hgrows', -⟩ := server.post_cases hpost
  exact ⟨added ++ added', hgrows.trans hgrows'⟩

/-- What was listed stays listed. -/
theorem Database.Grows.listing_sublist {db db' : Database} {added : List (Int × GoodsCells)}
    (h : db.Grows db' added) : db.listing.Sublist db'.listing := by
  have hrows : db.goods.rows.Sublist db'.goods.rows :=
    h.goods.rows ▸ List.sublist_append_left _ _
  rw [Database.listing, Database.listing, h.goodsType]
  exact (innerJoin_sublist hrows _).map columns

/-- The id of a new record is not in the list before. -/
theorem Database.Grows.ne_of_listed {db db' : Database} {added : List (Int × GoodsCells)}
    (h : db.Grows db' added) {row : Int × GoodsCells} (hrow : row ∈ added) {listed : Goods}
    (hlisted : listed ∈ db.listing) : listed.godId ≠ row.1 := by
  obtain ⟨pair, hpair, rfl⟩ := List.mem_map.mp hlisted
  exact h.goods.ne_of_old hrow (mem_innerJoin.mp hpair).1

/-- A new record is listed once for each type that has its `god_type` for an id. -/
theorem Database.Grows.countP_listing {db db' : Database} {added : List (Int × GoodsCells)}
    (h : db.Grows db' added) {row : Int × GoodsCells} (hrow : row ∈ added) :
    db'.listing.countP (·.godId == row.1) = db.goodsType.countP (joins row) := by
  rw [Database.listing, List.countP_map, h.goodsType]
  exact h.goods.countP_innerJoin joins db.goodsType hrow

/-! ## Literals in the form -/

/-- The tokens of an integer. -/
def integerTokens : Int → List Token
  | .ofNat n => [.number (decimalNat n)]
  | .negSucc n => [.operator (bytes "-"), .number (decimalNat (n + 1))]

/-- What comes behind `value(`, for an integer as the type. -/
def AddGoods.values (f : AddGoods) (type : Int) : List Token :=
  [.quoted .single f.goodsName, .operator (bytes ",")] ++ integerTokens type ++
    [.operator (bytes ","), .number f.goodsPrice, .operator (bytes ","),
      .quoted .single f.goodsSize, .operator (bytes ")"), .operator (bytes ";")]

/-- The fields are literals, and the type is an integer as the options of the form are. -/
structure AddGoods.Literal (f : AddGoods) (type : Int) : Prop where
  name : isQuotable f.goodsName = true
  type : f.goodsType = decimal type
  price : isNumber f.goodsPrice = true
  size : isQuotable f.goodsSize = true

theorem AddGoods.lex_signed {f : AddGoods} {sign digits : Bytes}
    (hsign : sign = [] ∨ sign = bytes "-") (hname : isQuotable f.goodsName = true)
    (htype : f.goodsType = sign ++ digits) (hdigits : isNumber digits = true)
    (hprice : isNumber f.goodsPrice = true) (hsize : isQuotable f.goodsSize = true) :
    lex f.sql = tokens (f.signed sign digits) := by
  rw [AddGoods.sql_eq_signed htype]
  refine lex_render (f.wellFormed_signed hsign digits) ?_
  simp [AddGoods.signed, fields, Field.Fits, hname, hdigits, hprice, hsize]

/-- Such a statement is the fixed text and the four literals. -/
theorem AddGoods.Literal.lex_sql {f : AddGoods} {type : Int} (h : f.Literal type) :
    lex f.sql = insertHead ++ f.values type := by
  have hnumber : ∀ n, isNumber (decimalNat n) = true :=
    fun n => isNumber_of_digits (decimalNat_ne_nil n) (isDigits_decimalNat n)
  have hhead : lex (bytes "insert into goods(god_name,god_type,god_price,god_size) value(") =
      insertHead := by decide +kernel
  have hcomma : lex (bytes ",") = [.operator (bytes ",")] := by decide +kernel
  have hminus : lex (bytes "," ++ bytes "-") = [.operator (bytes ","), .operator (bytes "-")] := by
    decide +kernel
  have hclose : lex (bytes ");") = [.operator (bytes ")"), .operator (bytes ";")] := by
    decide +kernel
  cases type with
  | ofNat n =>
      have htype : f.goodsType = [] ++ decimalNat n := h.type
      rw [AddGoods.lex_signed (.inl rfl) h.name htype (hnumber n) h.price h.size]
      simp [AddGoods.signed, tokens, Segment.tokens, Field.token, hhead, hcomma, hclose,
        AddGoods.values, integerTokens]
  | negSucc n =>
      have htype : f.goodsType = bytes "-" ++ decimalNat (n + 1) := h.type
      rw [AddGoods.lex_signed (.inr rfl) h.name htype (hnumber (n + 1)) h.price h.size]
      simp [AddGoods.signed, tokens, Segment.tokens, Field.token, hhead, hcomma, hminus, hclose,
        AddGoods.values, integerTokens]

/-- The server takes four literals for one row, and stores an integer as the type that it
is. -/
def Mysql.KeepsTypes (server : Mysql) : Prop :=
  ∀ db (f : AddGoods) type rows, f.Literal type →
    server.stores db (f.values type) = some rows →
      ∃ cells : GoodsCells, rows = [cells] ∧ cells.godType = some type

/-- Then the form adds one record, and it has the type that was posted. -/
theorem Mysql.KeepsTypes.added {server : Mysql} (h : server.KeepsTypes) {db : Database}
    {f : AddGoods} {type : Int} (hf : f.Literal type) {values : List Token}
    {rows : List GoodsCells} (hvalues : (lex f.sql).dropPrefix? insertHead = some values)
    (hstores : server.stores db values = some rows) :
    ∃ cells : GoodsCells, rows = [cells] ∧ cells.godType = some type := by
  have hdrop : (lex f.sql).dropPrefix? insertHead = some (f.values type) :=
    List.dropPrefix?_eq_some_iff.mpr ⟨insertHead, hf.lex_sql, beq_self_eq_true _⟩
  rw [hdrop] at hvalues
  cases hvalues
  exact h db f type rows hf hstores

/-! ## What is added is listed -/

/-- For every state of the tables and every request after which the insert of `add_god_cgi`
has been executed, and after any further ones: what was listed is still listed, and a
record that was added is listed as many times as there are types with its `god_type` for
an id.  Where the fields were literals, there is one such record, of the type that was
posted. -/
theorem added_goods_listed (server : Mysql) {db db₁ db₂ : Database} {p : Post}
    {later : List Post} (hpost : server.post db p = some db₁)
    (hlater : Machine.run server.post db₁ later = some db₂) :
    ∃ added before after, added ≠ [] ∧ db₁.goods.rows = db.goods.rows ++ added ∧
      db.goodsList = some before ∧ db₂.goodsList = some after ∧ before.Sublist after ∧
      (∀ row ∈ added, (∀ listed ∈ before, listed.godId ≠ row.1) ∧
        after.countP (·.godId == row.1) = db.goodsType.countP (joins row)) ∧
      ∀ f type, server.KeepsTypes → AddGoods.scan p.held p.dataString = some f →
        f.Literal type → ∃ row, added = [row] ∧ row.2.godType = some type := by
  obtain ⟨sql, values, rows, added, hsql, hvalues, hstores, hgrows₁, hrows⟩ :=
    server.post_cases hpost
  obtain ⟨added', hgrows₂⟩ := server.run_grows hlater
  have hgrows := hgrows₁.trans hgrows₂
  refine ⟨added, db.listing, db₂.listing, ?_, hgrows₁.goods.rows, goodsList_eq db,
    goodsList_eq db₂, hgrows.listing_sublist, fun row hrow => ?_, fun f type hkeeps hscan hf => ?_⟩
  · rintro rfl
    exact server.stores_ne_nil db values rows hstores hrows.symm
  · have hmem : row ∈ added ++ added' := List.mem_append_left _ hrow
    exact ⟨fun listed hlisted => hgrows.ne_of_listed hmem hlisted, hgrows.countP_listing hmem⟩
  · rw [addGoods, Option.bind_some, hscan, Option.map_some] at hsql
    cases hsql
    obtain ⟨cells, hone, htype⟩ := hkeeps.added hf hvalues hstores
    rw [hone] at hrows
    obtain ⟨row, rfl, rfl⟩ := List.map_eq_singleton_iff.mp hrows
    exact ⟨row, rfl, htype⟩

/-! ## A server that stores literals -/

/-- An integer literal, or one behind a minus. -/
def integerValue : List Token → Option Int
  | [.number text] => if text.all isdigit then some (numeral text) else none
  | [.operator sign, .number text] =>
      if sign = bytes "-" ∧ text.all isdigit then some (-numeral text) else none
  | _ => none

/-- An integer literal, or one with a fraction. -/
def decimalValue (text : Bytes) : Option Rat :=
  let whole := text.takeWhile isdigit
  let fraction := (text.dropWhile isdigit).drop 1
  if whole ≠ [] ∧ fraction.all isdigit then
    some (numeral whole + numeral fraction / 10 ^ fraction.length)
  else none

/-- A string without escapes stands for its text. -/
def stringValue (raw : Bytes) : Option Bytes :=
  if raw.all fun c => c ≠ 39 && c ≠ 92 then some raw else none

/-- Four literals up to the end of the statement. -/
def literalValues (values : List Token) : Option GoodsCells :=
  match values.splitOn (.operator (bytes ",")) with
  | [[.quoted .single name], type, [.number price],
      [.quoted .single size, .operator close, .operator stop]] =>
      if close = bytes ")" ∧ stop = bytes ";" then
        (stringValue name).bind fun name => (integerValue type).bind fun type =>
          (decimalValue price).bind fun price => (stringValue size).map fun size =>
            ⟨some name, some type, some price, some size⟩
      else none
  | _ => none

/-- A server that executes inserts of four literals, and refuses all others. -/
def Mysql.literal : Mysql where
  stores _ values := (literalValues values).map fun cells => [cells]
  stores_ne_nil _ values rows h := by
    obtain ⟨cells, -, rfl⟩ := Option.map_eq_some_iff.mp h
    exact List.cons_ne_nil _ _

theorem literal_keepsTypes : Mysql.literal.KeepsTypes := by
  intro db f type rows hf hstores
  obtain ⟨cells, hcells, rfl⟩ := Option.map_eq_some_iff.mp hstores
  refine ⟨cells, rfl, ?_⟩
  have hdigits : ∀ n, (decimalNat n).all isdigit = true :=
    fun n => List.all_eq_true.mpr (isDigits_decimalNat n)
  have htype : integerValue (integerTokens type) = some type := by
    cases type with
    | ofNat n => simp [integerTokens, integerValue, hdigits, numeral_decimalNat]
    | negSucc n =>
        simp [integerTokens, integerValue, hdigits, numeral_decimalNat, Int.negSucc_eq]
  have hsplit : (f.values type).splitOn (.operator (bytes ",")) =
      [[.quoted .single f.goodsName], integerTokens type, [.number f.goodsPrice],
        [.quoted .single f.goodsSize, .operator (bytes ")"), .operator (bytes ";")]] := by
    cases type <;> rfl
  rw [literalValues, hsplit] at hcells
  simp only [htype, Option.bind_some, and_self, if_true] at hcells
  obtain ⟨name, -, hcells⟩ := Option.bind_eq_some_iff.mp hcells
  obtain ⟨price, -, hcells⟩ := Option.bind_eq_some_iff.mp hcells
  obtain ⟨size, -, rfl⟩ := Option.map_eq_some_iff.mp hcells
  rfl

/-- The server as the client library shows it to one program. -/
def Mysql.client (server : Mysql) (db : Database) : Client where
  connect := true
  query sql := if (server.insert db sql).isSome then 0 else 1
  affectedRows sql :=
    (server.insert db sql).elim 0 fun db' => db'.goods.rows.length - db.goods.rows.length
  error _ := bytes "refused"

/-- No goods, and one type. -/
def Database.food : Database where
  goods := ⟨[], 1, List.forall_mem_nil _⟩
  goodsType := [⟨1, some (bytes "food")⟩]

/-- The form of a pen, with that type. -/
def penOf (type : String) : Post where
  held := ⟨[], [], [], []⟩
  dataString := bytes ("god_name=pen&god_type=" ++ type ++ "&god_price=2.5&god_size=big")

def penCells (type : Int) : GoodsCells :=
  ⟨some (bytes "pen"), some type, some (5 / 2), some (bytes "big")⟩

theorem added_goods_listed_food :
    ∃ db row after, Mysql.literal.post .food (penOf "1") = some db ∧ db.goods.rows = [row] ∧
      row.2.godType = some 1 ∧ db.goodsList = some after ∧
      after.countP (·.godId == row.1) = 1 := by
  obtain ⟨db, hpost⟩ : ∃ db, Mysql.literal.post .food (penOf "1") = some db :=
    Option.isSome_iff_exists.mp (by decide +kernel)
  obtain ⟨added, before, after, -, hadded, -, hafter, -, hlisted, hone⟩ :=
    added_goods_listed Mysql.literal hpost (rfl : Machine.run Mysql.literal.post db [] = some db)
  have hpen : AddGoods.Literal ⟨bytes "pen", bytes "1", bytes "2.5", bytes "big"⟩ 1 :=
    ⟨by decide +kernel, by decide +kernel, by decide +kernel, by decide +kernel⟩
  obtain ⟨row, rfl, htype⟩ := hone _ 1 literal_keepsTypes (by decide +kernel) hpen
  have hcount := (hlisted row (List.mem_singleton_self row)).2
  refine ⟨db, row, after, hpost, hadded, htype, hafter, hcount.trans ?_⟩
  simp [Database.food, joins, htype]

/-- The form as it comes, without a choice of the type: the page reports a success, and
the list stays empty. -/
theorem added_goods_unlisted :
    .text addGoodsMessages.success ∈ addGoodsPage (Mysql.literal.client .food)
        (penOf "-1").held (some (penOf "-1").dataString) ∧
      (Mysql.literal.post .food (penOf "-1")).map (fun db => db.goods.rows) =
        some [(1, penCells (-1))] ∧
      (Mysql.literal.post .food (penOf "-1")).bind Database.goodsList = some [] := by
  decide +kernel

end Cgi
