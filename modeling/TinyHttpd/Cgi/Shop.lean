import TinyHttpd.Cgi.Report
import TinyHttpd.Cgi.Search
import TinyHttpd.Lib.SqlChange

/-!
# The shop behind the programs

`add_god_cgi`, `change_god_cgi`, `del_god_cgi` and `add_god_type_cgi` each put fields of a
request into a statement, and a MySQL server executes it or refuses it (`ChangeServer`).  Seen
from outside the two tables are partial functions from ids to records.  A request whose fields
are literals does one thing to them when its statement is executed, whatever the tables look
like: `post_refines` for one request and `run_refines` for any number of them, in any order.

The list shows the records that have a type, and so the requests decide alone what it shows
(`requests_refine`).  A record gets an id that nobody has had before or gets later, and
depends from then on only on the requests that name this id (`record_life`).
-/

namespace Cgi

open CString SqlLex SqlWhere Table Machine

/-! ## The tables -/

/-- `goods` and `goods_type`. -/
structure Tables where
  goods : Keyed GoodsCells
  types : Keyed (Option Bytes)

/-- The tables as the list selects from them. -/
def Tables.database (s : Tables) : Database where
  goods := s.goods.toNumbered
  goodsType := s.types.rows.map fun row => ⟨row.1, row.2⟩

/-- The columns of `goods` with numbers. -/
inductive GoodsNumber where
  | godId
  | godType
  | godPrice

/-- Its columns with text. -/
inductive GoodsText where
  | godName
  | godSize

def goodsSchema : Schema GoodsNumber GoodsText where
  number name :=
    if name = bytes "god_id" then some .godId
    else if name = bytes "god_type" then some .godType
    else if name = bytes "god_price" then some .godPrice
    else none
  text name :=
    if name = bytes "god_name" then some .godName
    else if name = bytes "god_size" then some .godSize
    else none
  numberName
    | .godId => bytes "god_id"
    | .godType => bytes "god_type"
    | .godPrice => bytes "god_price"
  textName
    | .godName => bytes "god_name"
    | .godSize => bytes "god_size"
  number_numberName c := by cases c <;> rfl
  text_textName c := by cases c <;> rfl

/-! ## The statements -/

/-- The columns that the first insert and the update set. -/
def goodsSets (name : PlainText) (type price : Decimal) (size : PlainText) :
    List (Bytes × Literal) :=
  [(bytes "god_name", .string name), (bytes "god_type", .number type),
    (bytes "god_price", .number price), (bytes "god_size", .string size)]

/-- `god_id=` a numeral. -/
def idIs (id : Decimal) : Condition GoodsNumber GoodsText :=
  .compare .equal (.column .godId) (.literal id)

/-- The insert of a record. -/
def insertGoods (name : PlainText) (type price : Decimal) (size : PlainText) :
    Change GoodsNumber GoodsText :=
  .insert (bytes "goods") ((goodsSets name type price size).map Prod.fst)
    ((goodsSets name type price size).map Prod.snd)

/-- The insert of a type. -/
def insertType (name : PlainText) : Change GoodsNumber GoodsText :=
  .insert (bytes "goods_type") [bytes "godt_name"] [.string name]

/-- The update of a record. -/
def updateGoods (id : Decimal) (name : PlainText) (type price : Decimal) (size : PlainText) :
    Change GoodsNumber GoodsText :=
  .update (bytes "goods") (goodsSets name type price size) [idIs id]

/-- The delete of a record. -/
def deleteGoods (id : Decimal) : Change GoodsNumber GoodsText := .delete (bytes "goods") [idIs id]

/-! ## The server -/

/-- What the columns hold behind a literal, `none` for one that they do not take. -/
structure Columns where
  godName : Bytes → Option Bytes
  godType : Rat → Option Int
  godPrice : Rat → Option Rat
  godSize : Bytes → Option Bytes
  godtName : Bytes → Option Bytes

/-- The cells that the literals of a record are stored as. -/
def Columns.cells (k : Columns) (name : PlainText) (type price : Decimal) (size : PlainText) :
    Option GoodsCells :=
  (k.godName name.text).bind fun name => (k.godType type.value).bind fun type =>
    (k.godPrice price.value).bind fun price => (k.godSize size.text).map fun size =>
      ⟨some name, some type, some price, some size⟩

/-- The numeral of an id. -/
def hasId (id : Decimal) (row : Int × GoodsCells) : Bool := (row.1 : Rat) == id.value

/-- A MySQL server with the two tables, and what the client library answers.  It may refuse any
statement, a name that is there already for one.  What is known of it is what the statements of
the four programs do when they are executed, with literals that the columns take. -/
structure ChangeServer where
  /-- The tables behind a statement that is executed, `none` for one that is refused. -/
  query : Tables → Bytes → Option Tables
  /-- The tables behind one that is refused: an id may have been used up. -/
  refused : Tables → Bytes → Tables
  client : Tables → Client
  columns : Columns
  executed : ∀ s sql, (client s).query sql = 0 ↔ (query s sql).isSome
  addGoods : ∀ {s s' : Tables} {sql : Bytes} {name size : PlainText} {type price : Decimal}
    {cells : GoodsCells}, query s sql = some s' →
    lex sql = (insertGoods name type price size).tokens goodsSchema →
    columns.cells name type price size = some cells →
    s' = { s with goods := s.goods.insert cells } ∧ (client s).affectedRows sql = 1
  addType : ∀ {s s' : Tables} {sql : Bytes} {name : PlainText} {v : Bytes},
    query s sql = some s' → lex sql = (insertType name).tokens goodsSchema →
    columns.godtName name.text = some v →
    s' = { s with types := s.types.insert (some v) } ∧ (client s).affectedRows sql = 1
  changeGod : ∀ {s s' : Tables} {sql : Bytes} {id : Decimal} {name size : PlainText}
    {type price : Decimal} {cells : GoodsCells}, query s sql = some s' →
    lex sql = (updateGoods id name type price size).tokens goodsSchema →
    columns.cells name type price size = some cells →
    s.goods.update (hasId id) (fun _ => some cells) = some s'.goods ∧ s'.types = s.types ∧
      (client s).affectedRows sql ≤ 1
  delGoods : ∀ {s s' : Tables} {sql : Bytes} {id : Decimal}, query s sql = some s' →
    lex sql = (deleteGoods id).tokens goodsSchema →
    s' = { s with goods := s.goods.delete (hasId id) } ∧ (client s).affectedRows sql ≤ 1

/-! ## The requests -/

/-- A request to one of the four programs: its buffers before the scan, and the data. -/
inductive Request where
  | addGod (held : AddGoods) (dataString : Bytes)
  | changeGod (held : ChangeGod) (dataString : Bytes)
  | delGod (held : DelGoods) (dataString : Bytes)
  | addGodType (held : AddType) (dataString : Bytes)

/-- The statement that goes to the server. -/
def Request.sql : Request → Option Bytes
  | .addGod held dataString => addGoods held (some dataString)
  | .changeGod held dataString => Cgi.changeGod held (some dataString)
  | .delGod held dataString => delGoods held (some dataString)
  | .addGodType held dataString => addType held (some dataString)

/-- A request whose statement is executed. -/
def ChangeServer.post (server : ChangeServer) (s : Tables) (r : Request) : Option Tables :=
  r.sql.bind (server.query s)

/-- A request whose statement is executed or refused, `none` for one without a statement. -/
def ChangeServer.handle (server : ChangeServer) (s : Tables) (r : Request) : Option Tables :=
  r.sql.map fun sql => (server.query s sql).getD (server.refused s sql)

/-! ## The tables from outside -/

/-- The records and the types under their ids, and the ids that come next. -/
structure Shop where
  goods : Int → Option GoodsCells
  nextGod : Int
  types : Int → Option (Option Bytes)
  nextType : Int

/-- What a request is about. -/
inductive Order where
  | add (cells : GoodsCells)
  | change (id : Rat) (cells : GoodsCells)
  | delete (id : Rat)
  | addType (name : Option Bytes)
deriving DecidableEq

/-- A new record gets the next id; a change replaces the record with the id, and a deletion
takes it away. -/
def Shop.fill (shop : Shop) : Order → Shop
  | .add cells =>
      { shop with
        goods := Function.update shop.goods shop.nextGod (some cells)
        nextGod := shop.nextGod + 1 }
  | .change id cells =>
      { shop with
        goods := fun n => if (n : Rat) = id then (shop.goods n).map fun _ => cells
          else shop.goods n }
  | .delete id => { shop with goods := fun n => if (n : Rat) = id then none else shop.goods n }
  | .addType name =>
      { shop with
        types := Function.update shop.types shop.nextType (some name)
        nextType := shop.nextType + 1 }

def Tables.shop (s : Tables) : Shop :=
  ⟨s.goods.lookup, s.goods.next, s.types.lookup, s.types.next⟩

/-- What the fields of `add_goods` ask for, when they are literals. -/
def AddGoods.order (k : Columns) (f : AddGoods) : Option Order :=
  (PlainText.ofText f.goodsName).bind fun name => (Decimal.read f.goodsType).bind fun type =>
    (Decimal.read f.goodsPrice).bind fun price => (PlainText.ofText f.goodsSize).bind fun size =>
      (k.cells name type price size).map .add

def ChangeGod.order (k : Columns) (f : ChangeGod) : Option Order :=
  (Decimal.read f.goodsId).bind fun id => (PlainText.ofText f.goodsName).bind fun name =>
    (Decimal.read f.goodsType).bind fun type => (Decimal.read f.goodsPrice).bind fun price =>
      (PlainText.ofText f.goodsSize).bind fun size =>
        (k.cells name type price size).map (.change id.value)

def DelGoods.order (f : DelGoods) : Option Order :=
  (Decimal.read f.godId).map fun id => .delete id.value

def AddType.order (k : Columns) (f : AddType) : Option Order :=
  (PlainText.ofText f.typeName).bind fun name => (k.godtName name.text).map fun v =>
    .addType (some v)

/-- What a request asks for: its fields fit the buffers, are literals, and the columns take
them. -/
def Request.order (k : Columns) : Request → Option Order
  | .addGod held dataString => (AddGoods.scan held dataString).bind (AddGoods.order k)
  | .changeGod held dataString => (ChangeGod.scan held dataString).bind (ChangeGod.order k)
  | .delGod held dataString => (DelGoods.scan held dataString).bind DelGoods.order
  | .addGodType held dataString => (AddType.scan held dataString).bind (AddType.order k)

/-! ## What the statements say -/

theorem text_of_ofText {text : Bytes} {t : PlainText} (h : PlainText.ofText text = some t) :
    t.text = text := by
  obtain ⟨hplain, ht⟩ := Option.dite_none_right_eq_some.mp h
  cases ht
  rfl

theorem Columns.cells_cases {k : Columns} {name size : PlainText} {type price : Decimal}
    {cells : GoodsCells} (h : k.cells name type price size = some cells) :
    ∃ v w x y, k.godName name.text = some v ∧ k.godType type.value = some w ∧
      k.godPrice price.value = some x ∧ k.godSize size.text = some y ∧
      cells = ⟨some v, some w, some x, some y⟩ := by
  obtain ⟨v, hname, h⟩ := Option.bind_eq_some_iff.mp h
  obtain ⟨w, htype, h⟩ := Option.bind_eq_some_iff.mp h
  obtain ⟨x, hprice, h⟩ := Option.bind_eq_some_iff.mp h
  obtain ⟨y, hsize, h⟩ := Option.map_eq_some_iff.mp h
  exact ⟨v, w, x, y, hname, htype, hprice, hsize, h.symm⟩

theorem AddGoods.order_cases {k : Columns} {f : AddGoods} {order : Order}
    (h : f.order k = some order) :
    ∃ name type price size cells, PlainText.ofText f.goodsName = some name ∧
      Decimal.read f.goodsType = some type ∧ Decimal.read f.goodsPrice = some price ∧
      PlainText.ofText f.goodsSize = some size ∧ k.cells name type price size = some cells ∧
      order = .add cells := by
  obtain ⟨name, hname, h⟩ := Option.bind_eq_some_iff.mp h
  obtain ⟨type, htype, h⟩ := Option.bind_eq_some_iff.mp h
  obtain ⟨price, hprice, h⟩ := Option.bind_eq_some_iff.mp h
  obtain ⟨size, hsize, h⟩ := Option.bind_eq_some_iff.mp h
  obtain ⟨cells, hcells, h⟩ := Option.map_eq_some_iff.mp h
  exact ⟨name, type, price, size, cells, hname, htype, hprice, hsize, hcells, h.symm⟩

theorem ChangeGod.order_cases {k : Columns} {f : ChangeGod} {order : Order}
    (h : f.order k = some order) :
    ∃ id name type price size cells, Decimal.read f.goodsId = some id ∧
      PlainText.ofText f.goodsName = some name ∧ Decimal.read f.goodsType = some type ∧
      Decimal.read f.goodsPrice = some price ∧ PlainText.ofText f.goodsSize = some size ∧
      k.cells name type price size = some cells ∧ order = .change id.value cells := by
  obtain ⟨id, hid, h⟩ := Option.bind_eq_some_iff.mp h
  obtain ⟨name, hname, h⟩ := Option.bind_eq_some_iff.mp h
  obtain ⟨type, htype, h⟩ := Option.bind_eq_some_iff.mp h
  obtain ⟨price, hprice, h⟩ := Option.bind_eq_some_iff.mp h
  obtain ⟨size, hsize, h⟩ := Option.bind_eq_some_iff.mp h
  obtain ⟨cells, hcells, h⟩ := Option.map_eq_some_iff.mp h
  exact ⟨id, name, type, price, size, cells, hid, hname, htype, hprice, hsize, hcells, h.symm⟩

/-- The fields that a statement and an order are made of are the same. -/
theorem exists_scanned {α : Type} {scan : Option α} {sql : α → Bytes} {order : α → Option Order}
    {text : Bytes} {o : Order} (hsql : scan.map sql = some text) (h : scan.bind order = some o) :
    ∃ f, order f = some o ∧ sql f = text := by
  obtain ⟨f, rfl, horder⟩ := Option.bind_eq_some_iff.mp h
  exact ⟨f, horder, Option.some.inj hsql⟩

/-- The texts between the literals of a record. -/
theorem comma_apart : Introduces "," ∧ Ends "," := by decide

theorem AddGoods.lex_literals {f : AddGoods} {name size : PlainText} {type price : Decimal}
    (hname : PlainText.ofText f.goodsName = some name) (htype : Decimal.read f.goodsType = some type)
    (hprice : Decimal.read f.goodsPrice = some price)
    (hsize : PlainText.ofText f.goodsSize = some size) :
    lex f.sql = (insertGoods name type price size).tokens goodsSchema := by
  have hsql : f.sql = render (literalSegments
      [("insert into goods(god_name,god_type,god_price,god_size) value(", .string name),
        (",", .number type), (",", .number price), (",", .string size)] ");") := by
    rw [f.sql_eq, render_literalSegments]
    simp [AddGoods.template, render, Segment.render, renderField, Field.render,
      Decimal.of_read htype, Decimal.of_read hprice, Literal.source, text_of_ofText hname,
      text_of_ofText hsize]
  have hfirst : Introduces "insert into goods(god_name,god_type,god_price,god_size) value(" := by
    decide
  have hclosing : Segment.Opens ⟨bytes ");", none⟩ ∧ Ends ");" := by decide
  have hhead : lex (bytes "insert into goods(god_name,god_type,god_price,god_size) value(") =
      insertHead := by decide
  have hcomma : lex (bytes ",") = [.operator (bytes ",")] := by decide
  have hclose : lex (bytes ");") = [.operator (bytes ")"), .operator (bytes ";")] := by
    decide
  rw [hsql, lex_literalSegments hfirst (by simp [comma_apart]) hclosing]
  simp [insertGoods, hhead, hcomma, hclose, insertHead, Change.tokens, goodsSets, commaTokens, columnTokens]

theorem ChangeGod.lex_literals {f : ChangeGod} {id : Decimal} {name size : PlainText}
    {type price : Decimal} (hid : Decimal.read f.goodsId = some id)
    (hname : PlainText.ofText f.goodsName = some name) (htype : Decimal.read f.goodsType = some type)
    (hprice : Decimal.read f.goodsPrice = some price)
    (hsize : PlainText.ofText f.goodsSize = some size) :
    lex f.sql = (updateGoods id name type price size).tokens goodsSchema := by
  have hsql : f.sql = render (literalSegments
      [("update goods set god_name=", .string name), (" , god_type=", .number type),
        (" , god_price=", .number price), (" , god_size=", .string size),
        (" where god_id=", .number id)] ";") := by
    rw [f.sql_eq, render_literalSegments]
    simp [ChangeGod.template, render, Segment.render, renderField, Field.render,
      Decimal.of_read hid, Decimal.of_read htype, Decimal.of_read hprice, Literal.source,
      text_of_ofText hname, text_of_ofText hsize]
  have hfirst : Introduces "update goods set god_name=" := by decide
  have hparts : ∀ text ∈ [" , god_type=", " , god_price=", " , god_size=", " where god_id="],
      Introduces text ∧ Ends text := by decide
  have hclosing : Segment.Opens ⟨bytes ";", none⟩ ∧ Ends ";" := by decide
  have hlex : lex (bytes "update goods set god_name=") =
        [.word (bytes "update"), .word (bytes "goods"), .word (bytes "set"),
          .word (bytes "god_name"), .operator (bytes "=")] ∧
      lex (bytes " , god_type=") =
        [.operator (bytes ","), .word (bytes "god_type"), .operator (bytes "=")] ∧
      lex (bytes " , god_price=") =
        [.operator (bytes ","), .word (bytes "god_price"), .operator (bytes "=")] ∧
      lex (bytes " , god_size=") =
        [.operator (bytes ","), .word (bytes "god_size"), .operator (bytes "=")] ∧
      lex (bytes " where god_id=") =
        [.word (bytes "where"), .word (bytes "god_id"), .operator (bytes "=")] ∧
      lex (bytes ";") = [.operator (bytes ";")] := by
    decide
  rw [hsql, lex_literalSegments hfirst (by simpa using hparts) hclosing]
  simp [updateGoods, hlex, Change.tokens, goodsSets, commaTokens, setTokens, whereTokens, idIs,
    Condition.tokens, Term.tokens, andTokens, goodsSchema, Comparison.symbol, Literal.tokens]

theorem DelGoods.lex_literals {f : DelGoods} {id : Decimal}
    (hid : Decimal.read f.godId = some id) :
    lex f.sql = (deleteGoods id).tokens goodsSchema := by
  have hsql : f.sql = render (literalSegments
      [("delete from goods where god_id=", .number id)] ";") := by
    rw [f.sql_eq, render_literalSegments]
    simp [DelGoods.template, render, Segment.render, renderField, Field.render,
      Decimal.of_read hid, Literal.source]
  have hfirst : Introduces "delete from goods where god_id=" := by decide
  have hclosing : Segment.Opens ⟨bytes ";", none⟩ ∧ Ends ";" := by decide
  have hlex : lex (bytes "delete from goods where god_id=") =
        [.word (bytes "delete"), .word (bytes "from"), .word (bytes "goods"),
          .word (bytes "where"), .word (bytes "god_id"), .operator (bytes "=")] ∧
      lex (bytes ";") = [.operator (bytes ";")] := by
    decide
  rw [hsql, lex_literalSegments hfirst (List.forall_mem_nil _) hclosing]
  simp [deleteGoods, hlex, Change.tokens, whereTokens, idIs, Condition.tokens, Term.tokens, andTokens,
    goodsSchema, Comparison.symbol, Literal.tokens]

theorem AddType.lex_literals {f : AddType} {name : PlainText}
    (hname : PlainText.ofText f.typeName = some name) :
    lex f.sql = (insertType name).tokens goodsSchema := by
  have hsql : f.sql = render (literalSegments
      [("insert into goods_type(godt_name) value(", .string name)] ");") := by
    rw [f.sql_eq, render_literalSegments]
    simp [AddType.template, render, Segment.render, renderField, Field.render, Literal.source,
      text_of_ofText hname]
  have hfirst : Introduces "insert into goods_type(godt_name) value(" := by decide
  have hclosing : Segment.Opens ⟨bytes ");", none⟩ ∧ Ends ");" := by decide
  have hlex : lex (bytes "insert into goods_type(godt_name) value(") =
        [.word (bytes "insert"), .word (bytes "into"), .word (bytes "goods_type"),
          .operator (bytes "("), .word (bytes "godt_name"), .operator (bytes ")"),
          .word (bytes "value"), .operator (bytes "(")] ∧
      lex (bytes ");") = [.operator (bytes ")"), .operator (bytes ";")] := by
    decide
  rw [hsql, lex_literalSegments hfirst (List.forall_mem_nil _) hclosing]
  simp [insertType, hlex, Change.tokens, commaTokens, columnTokens]

/-! ## What they do -/

theorem AddGoods.query_sql {server : ChangeServer} {f : AddGoods} {order : Order} {s s' : Tables}
    (h : f.order server.columns = some order) (hquery : server.query s f.sql = some s') :
    s'.shop = s.shop.fill order ∧ (server.client s).affectedRows f.sql ≤ 1 := by
  obtain ⟨name, type, price, size, cells, hname, htype, hprice, hsize, hcells, rfl⟩ :=
    AddGoods.order_cases h
  obtain ⟨rfl, hcount⟩ :=
    server.addGoods hquery (AddGoods.lex_literals hname htype hprice hsize) hcells
  refine ⟨?_, hcount.le⟩
  rw [Tables.shop, Shop.fill]
  congr 1
  funext n
  exact (s.goods.lookup_insert cells n).trans (Function.update_apply ..).symm

theorem Tables.shop_insertType (s : Tables) (name : Option Bytes) :
    Tables.shop { s with types := s.types.insert name } = s.shop.fill (.addType name) := by
  rw [Tables.shop, Shop.fill]
  congr 1
  funext n
  exact (s.types.lookup_insert name n).trans (Function.update_apply ..).symm

theorem AddType.query_sql {server : ChangeServer} {f : AddType} {order : Order} {s s' : Tables}
    (h : f.order server.columns = some order) (hquery : server.query s f.sql = some s') :
    s'.shop = s.shop.fill order ∧ (server.client s).affectedRows f.sql ≤ 1 := by
  obtain ⟨name, hname, h⟩ := Option.bind_eq_some_iff.mp h
  obtain ⟨v, hv, rfl⟩ := Option.map_eq_some_iff.mp h
  obtain ⟨rfl, hcount⟩ := server.addType hquery (AddType.lex_literals hname) hv
  exact ⟨s.shop_insertType (some v), hcount.le⟩

theorem ChangeGod.query_sql {server : ChangeServer} {f : ChangeGod} {order : Order}
    {s s' : Tables} (h : f.order server.columns = some order)
    (hquery : server.query s f.sql = some s') :
    s'.shop = s.shop.fill order ∧ (server.client s).affectedRows f.sql ≤ 1 := by
  obtain ⟨id, name, type, price, size, cells, hid, hname, htype, hprice, hsize, hcells, rfl⟩ :=
    ChangeGod.order_cases h
  obtain ⟨hgoods, htypes, hcount⟩ :=
    server.changeGod hquery (ChangeGod.lex_literals hid hname htype hprice hsize) hcells
  obtain ⟨goods, hupdate, hnext, hlookup⟩ := Keyed.lookup_update (t := s.goods)
    (q := fun n => (n : Rat) == id.value) (fun _ _ => rfl) fun _ => rfl
  obtain rfl : goods = s'.goods := Option.some.inj (hupdate.symm.trans hgoods)
  refine ⟨?_, hcount⟩
  rw [Tables.shop, Shop.fill]
  simp only [Tables.shop, hnext, htypes, Shop.mk.injEq, and_self, and_true]
  funext n
  rw [hlookup]
  simp only [beq_iff_eq]

theorem DelGoods.query_sql {server : ChangeServer} {f : DelGoods} {order : Order} {s s' : Tables}
    (h : f.order = some order) (hquery : server.query s f.sql = some s') :
    s'.shop = s.shop.fill order ∧ (server.client s).affectedRows f.sql ≤ 1 := by
  obtain ⟨id, hid, rfl⟩ := Option.map_eq_some_iff.mp h
  obtain ⟨rfl, hcount⟩ := server.delGoods hquery (DelGoods.lex_literals hid)
  refine ⟨?_, hcount⟩
  rw [Tables.shop, Shop.fill]
  congr 1
  funext n
  refine (s.goods.lookup_delete (q := fun n => (n : Rat) == id.value) (fun _ _ => rfl) n).trans ?_
  simp only [beq_iff_eq, Tables.shop]

/-! ## Refinement -/

/-- A request whose fields are literals, and whose statement is executed: the tables become what
it asks for, and no more than one row is affected. -/
theorem ChangeServer.post_executes {server : ChangeServer} {r : Request} {order : Order}
    (h : r.order server.columns = some order) {s s' : Tables} (hpost : server.post s r = some s') :
    ∃ sql, r.sql = some sql ∧ server.query s sql = some s' ∧ s'.shop = s.shop.fill order ∧
      (server.client s).affectedRows sql ≤ 1 := by
  obtain ⟨sql, hsql, hquery⟩ := Option.bind_eq_some_iff.mp hpost
  refine ⟨sql, hsql, hquery, ?_⟩
  cases r with
  | addGod held dataString =>
      obtain ⟨f, hf, rfl⟩ := exists_scanned hsql h
      exact AddGoods.query_sql hf hquery
  | changeGod held dataString =>
      obtain ⟨f, hf, rfl⟩ := exists_scanned hsql h
      exact ChangeGod.query_sql hf hquery
  | delGod held dataString =>
      obtain ⟨f, hf, rfl⟩ := exists_scanned hsql h
      exact DelGoods.query_sql hf hquery
  | addGodType held dataString =>
      obtain ⟨f, hf, rfl⟩ := exists_scanned hsql h
      exact AddType.query_sql hf hquery

/-- An executed request is handled. -/
theorem ChangeServer.handle_of_post {server : ChangeServer} {r : Request} {s s' : Tables}
    (hpost : server.post s r = some s') : server.handle s r = some s' := by
  obtain ⟨sql, hsql, hquery⟩ := Option.bind_eq_some_iff.mp hpost
  rw [handle, hsql, Option.map_some, hquery, Option.getD_some]

theorem ChangeServer.post_refines {server : ChangeServer} {r : Request} {order : Order}
    (h : r.order server.columns = some order) {s s' : Tables} (hpost : server.post s r = some s') :
    s'.shop = s.shop.fill order := by
  obtain ⟨-, -, -, hshop, -⟩ := server.post_executes h hpost
  exact hshop

/-- The same for any number of requests. -/
theorem ChangeServer.run_refines {server : ChangeServer} {requests : List Request}
    {orders : List Order} (h : requests.mapM (Request.order server.columns) = some orders)
    {s s' : Tables} (hrun : run server.post s requests = some s') :
    s'.shop = orders.foldl Shop.fill s.shop := by
  induction requests generalizing s orders with
  | nil =>
      rw [List.mapM_nil] at h
      obtain rfl : [] = orders := Option.some.inj h
      obtain rfl : s = s' := Option.some.inj hrun
      rfl
  | cons r requests ih =>
      rw [List.mapM_cons] at h
      obtain ⟨order, horder, h⟩ := Option.bind_eq_some_iff.mp h
      obtain ⟨rest, hrest, h⟩ := Option.bind_eq_some_iff.mp h
      obtain rfl : order :: rest = orders := Option.some.inj h
      obtain ⟨s₁, hpost, hrun⟩ := run_cons.mp hrun
      rw [ih hrest hrun, server.post_refines horder hpost, List.foldl_cons]

/-! ## The list -/

/-- The list has an entry for a record with a type. -/
def Shop.Shows (shop : Shop) (g : Goods) : Prop :=
  ∃ cells type, shop.goods g.godId = some cells ∧ cells.godType = some type ∧
    shop.types type = some g.godType ∧ g.godName = cells.godName ∧
    g.godPrice = cells.godPrice ∧ g.godSize = cells.godSize

theorem mem_listing_iff (s : Tables) (g : Goods) :
    g ∈ s.database.listing ↔ s.shop.Shows g := by
  rw [Database.listing, List.mem_map]
  constructor
  · rintro ⟨⟨⟨id, cells⟩, t⟩, hmem, rfl⟩
    obtain ⟨hrow, htype, hjoin⟩ := mem_innerJoin.mp hmem
    obtain ⟨⟨typeId, name⟩, htypes, rfl⟩ := List.mem_map.mp htype
    exact ⟨cells, typeId, Keyed.lookup_eq_some.mpr hrow, beq_iff_eq.mp hjoin,
      Keyed.lookup_eq_some.mpr htypes, rfl, rfl, rfl⟩
  · rintro ⟨cells, type, hgoods, htype, htypes, hname, hprice, hsize⟩
    refine ⟨((g.godId, cells), ⟨type, g.godType⟩), mem_innerJoin.mpr ⟨?_, ?_, ?_⟩, ?_⟩
    · exact Keyed.lookup_eq_some.mp hgoods
    · exact List.mem_map.mpr ⟨(type, g.godType), Keyed.lookup_eq_some.mp htypes, rfl⟩
    · exact beq_iff_eq.mpr htype
    · rw [columns, ← hname, ← hprice, ← hsize]

/-- No record is listed twice. -/
theorem nodup_listing (s : Tables) : (s.database.listing.map Goods.godId).Nodup := by
  have hone : ∀ row ∈ s.goods.rows, s.database.goodsType.countP (joins row) ≤ 1 := by
    intro row _
    rw [Tables.database, List.countP_map]
    cases htype : row.2.godType with
    | none =>
        refine (List.countP_eq_zero.mpr fun type _ => ?_).le.trans (Nat.zero_le _)
        simp [joins, htype]
    | some n =>
        refine le_of_eq_of_le (List.countP_congr fun type _ => ?_) (s.types.countP_fst_le_one n)
        show (row.2.godType == some type.1) = true ↔ (type.1 == n) = true
        rw [htype, beq_iff_eq, beq_iff_eq, Option.some.injEq, eq_comm]
  have hsub := (fst_innerJoin_sublist hone).map Prod.fst
  rw [List.map_map] at hsub
  rw [Database.listing, List.map_map]
  exact s.goods.distinct.sublist hsub

/-- However many requests with literals come to the four programs, in whatever order and whatever
the tables hold before, when their statements are executed: the tables are at the end what the
orders make of them one by one, and the list that is selected then has an entry for each of the
records with a type, and one only. -/
theorem requests_refine {server : ChangeServer} {requests : List Request} {orders : List Order}
    (h : requests.mapM (Request.order server.columns) = some orders) {s s' : Tables}
    (hrun : run server.post s requests = some s') :
    ∃ goods, s'.shop = orders.foldl Shop.fill s.shop ∧ s'.database.goodsList = some goods ∧
      (goods.map Goods.godId).Nodup ∧
      ∀ g, g ∈ goods ↔ (orders.foldl Shop.fill s.shop).Shows g := by
  have hshop := server.run_refines h hrun
  refine ⟨s'.database.listing, hshop, goodsList_eq _, nodup_listing s', fun g => ?_⟩
  rw [mem_listing_iff, hshop]

/-! ## A server that executes the statements -/

/-- A row of `goods`. -/
def goodsColumns (row : Int × GoodsCells) : Row GoodsNumber GoodsText where
  number
    | .godId => some row.1
    | .godType => row.2.godType.map fun type => (type : Rat)
    | .godPrice => row.2.godPrice
  text
    | .godName => row.2.godName
    | .godSize => row.2.godSize

/-- The rows of `goods` that meet the conditions. -/
def meetsAll (conditions : List (Condition GoodsNumber GoodsText)) (row : Int × GoodsCells) :
    Bool := selects .binary conditions (goodsColumns row)

/-- A literal in a column of `goods`. -/
def Columns.setGoods (k : Columns) (cells : GoodsCells) : Bytes × Literal → Option GoodsCells
  | (name, .string t) =>
      if name = bytes "god_name" then
        (k.godName t.text).map fun v => { cells with godName := some v }
      else if name = bytes "god_size" then
        (k.godSize t.text).map fun v => { cells with godSize := some v }
      else none
  | (name, .number d) =>
      if name = bytes "god_type" then
        (k.godType d.value).map fun v => { cells with godType := some v }
      else if name = bytes "god_price" then
        (k.godPrice d.value).map fun v => { cells with godPrice := some v }
      else none

/-- A literal in a column of `goods_type`. -/
def Columns.setType (k : Columns) (_ : Option Bytes) : Bytes × Literal → Option (Option Bytes)
  | (name, .string t) =>
      if name = bytes "godt_name" then (k.godtName t.text).map some else none
  | _ => none

/-- The tables behind a statement, and the rows that it affects. -/
def Columns.execute (k : Columns) (s : Tables) :
    Change GoodsNumber GoodsText → Option (Tables × Nat)
  | .insert table columns values =>
      if table = bytes "goods" then
        ((columns.zip values).foldlM k.setGoods ⟨none, none, none, none⟩).map fun cells =>
          ({ s with goods := s.goods.insert cells }, 1)
      else if table = bytes "goods_type" then
        ((columns.zip values).foldlM k.setType none).map fun name =>
          ({ s with types := s.types.insert name }, 1)
      else none
  | .update table sets conditions =>
      if table = bytes "goods" then
        (s.goods.update (meetsAll conditions) fun cells => sets.foldlM k.setGoods cells).map
          fun goods => ({ s with goods := goods }, s.goods.rows.countP (meetsAll conditions))
      else none
  | .delete table conditions =>
      if table = bytes "goods" then
        some ({ s with goods := s.goods.delete (meetsAll conditions) },
          s.goods.rows.countP (meetsAll conditions))
      else none

/-- The same for the text of a statement. -/
def Columns.query (k : Columns) (s : Tables) (sql : Bytes) : Option (Tables × Nat) :=
  (parseChange goodsSchema (lex sql)).bind (k.execute s)

theorem Columns.query_of_lex {k : Columns} {s : Tables} {sql : Bytes}
    {c : Change GoodsNumber GoodsText} (hlex : lex sql = c.tokens goodsSchema) (hfull : c.Full) :
    k.query s sql = k.execute s c := by
  rw [Columns.query, hlex, parseChange_tokens goodsSchema c hfull, Option.bind_some]

/-- The four literals of a record set all of its cells. -/
theorem Columns.foldlM_goodsSets {k : Columns} {name size : PlainText} {type price : Decimal}
    {cells : GoodsCells} (h : k.cells name type price size = some cells) (old : GoodsCells) :
    (goodsSets name type price size).foldlM k.setGoods old = some cells := by
  obtain ⟨v, w, x, y, hname, htype, hprice, hsize, rfl⟩ := Columns.cells_cases h
  have hset {c : GoodsCells} :
      k.setGoods c (bytes "god_name", .string name) = some { c with godName := some v } ∧
        k.setGoods c (bytes "god_type", .number type) = some { c with godType := some w } ∧
        k.setGoods c (bytes "god_price", .number price) = some { c with godPrice := some x } ∧
        k.setGoods c (bytes "god_size", .string size) = some { c with godSize := some y } :=
    ⟨congrArg (Option.map _) hname, congrArg (Option.map _) htype,
      congrArg (Option.map _) hprice, congrArg (Option.map _) hsize⟩
  simp only [goodsSets, List.foldlM_cons, List.foldlM_nil, hset, Option.bind_eq_bind,
    Option.bind_some]
  rfl

theorem meetsAll_idIs (id : Decimal) : meetsAll [idIs id] = hasId id := by
  funext row
  rw [meetsAll, Bool.eq_iff_iff, selects_iff, List.forall_mem_singleton]
  show compareTerms _ .equal (.column GoodsNumber.godId) (.literal id) = some true ↔ _
  rw [compareTerms_literal]
  simp [goodsColumns, Comparison.holds, hasId]

theorem countP_hasId (t : Keyed GoodsCells) (id : Decimal) : t.rows.countP (hasId id) ≤ 1 :=
  t.countP_le_one (p := fun n => (n : Rat) == id.value) fun _ _ hm hn =>
    Int.cast_injective ((beq_iff_eq.mp hm).trans (beq_iff_eq.mp hn).symm)

/-- The answers of the library for these tables. -/
def Columns.client (k : Columns) (s : Tables) : Client where
  connect := true
  query sql := if (k.query s sql).isSome then 0 else 1
  affectedRows sql := ((k.query s sql).map Prod.snd).getD 0
  error _ := bytes "You have an error in your SQL syntax"

theorem Columns.query_eq_zero_iff (k : Columns) (s : Tables) (sql : Bytes) :
    (k.client s).query sql = 0 ↔ (k.query s sql).isSome := by
  show (if (k.query s sql).isSome then (0 : Int) else 1) = 0 ↔ _
  rw [ite_eq_left_iff]
  exact ⟨fun h => by_contra fun hnot => one_ne_zero (h hnot), fun h hnot => absurd h hnot⟩

/-- A statement that is executed, with the tables behind it and its rows. -/
theorem Columns.answer_eq {k : Columns} {s s' t : Tables} {sql : Bytes} {n : Nat}
    (hexecute : k.query s sql = some (t, n)) (hquery : (k.query s sql).map Prod.fst = some s') :
    s' = t ∧ (k.client s).affectedRows sql = n := by
  constructor
  · rw [hexecute] at hquery
    exact (Option.some.inj hquery).symm
  · show ((k.query s sql).map Prod.snd).getD 0 = n
    rw [hexecute]
    rfl

/-- A server that executes every statement of this kind. -/
def Columns.server (k : Columns) : ChangeServer where
  query s sql := (k.query s sql).map Prod.fst
  refused s _ := s
  client := k.client
  columns := k
  executed s sql := by rw [k.query_eq_zero_iff, Option.isSome_map]
  addGoods {s s' sql name size type price cells} hquery hlex hcells := by
    have hexecute : k.query s sql = some ({ s with goods := s.goods.insert cells }, 1) := by
      rw [Columns.query_of_lex hlex ⟨List.cons_ne_nil _ _, List.cons_ne_nil _ _⟩, insertGoods,
        Columns.execute, if_pos rfl]
      show ((goodsSets name type price size).foldlM k.setGoods _).map _ = _
      rw [Columns.foldlM_goodsSets hcells, Option.map_some]
    exact Columns.answer_eq hexecute hquery
  addType {s s' sql name v} hquery hlex hv := by
    have hset : k.setType none (bytes "godt_name", .string name) = some (some v) :=
      congrArg (Option.map some) hv
    have hexecute : k.query s sql = some ({ s with types := s.types.insert (some v) }, 1) := by
      rw [Columns.query_of_lex hlex ⟨List.cons_ne_nil _ _, List.cons_ne_nil _ _⟩, insertType,
        Columns.execute, if_neg (by decide), if_pos rfl]
      simp only [List.zip_cons_cons, List.zip_nil_right, List.foldlM_cons, List.foldlM_nil, hset,
        Option.bind_eq_bind, Option.bind_some]
      rfl
    exact Columns.answer_eq hexecute hquery
  changeGod {s s' sql id name size type price cells} hquery hlex hcells := by
    have hsets : (fun old => (goodsSets name type price size).foldlM k.setGoods old) =
        fun _ => some cells := funext (Columns.foldlM_goodsSets hcells)
    have hexecute : k.query s sql = (s.goods.update (hasId id) fun _ => some cells).map
        fun goods => ({ s with goods := goods }, s.goods.rows.countP (hasId id)) := by
      rw [Columns.query_of_lex hlex ⟨List.cons_ne_nil _ _, List.cons_ne_nil _ _⟩, updateGoods,
        Columns.execute, if_pos rfl, hsets, meetsAll_idIs]
    cases hupdate : s.goods.update (hasId id) fun _ => some cells with
    | none =>
        rw [hexecute, hupdate] at hquery
        cases hquery
    | some goods =>
        rw [hupdate, Option.map_some] at hexecute
        obtain ⟨rfl, hcount⟩ := Columns.answer_eq hexecute hquery
        exact ⟨rfl, rfl, hcount.trans_le (countP_hasId s.goods id)⟩
  delGoods {s s' sql id} hquery hlex := by
    have hexecute : k.query s sql = some ({ s with goods := s.goods.delete (hasId id) },
        s.goods.rows.countP (hasId id)) := by
      rw [Columns.query_of_lex hlex (List.cons_ne_nil _ _), deleteGoods, Columns.execute,
        if_pos rfl, meetsAll_idIs]
    obtain ⟨htables, hcount⟩ := Columns.answer_eq hexecute hquery
    exact ⟨htables, hcount.trans_le (countP_hasId s.goods id)⟩

/-- Columns that take what fits their type. -/
def Columns.plain : Columns where
  godName := some
  godType x := if x.den = 1 then some x.num else none
  godPrice := some
  godSize := some
  godtName := some

def plainTables : ChangeServer := Columns.plain.server

def Tables.empty : Tables := ⟨.empty, .empty⟩

/-- A pen is added, and changed. -/
def penRequests : List Request :=
  [.addGodType ⟨[]⟩ (bytes "type_name=food"),
    .addGod ⟨[], [], [], []⟩ (bytes "god_name=pen&god_type=1&god_price=2.5&god_size=big"),
    .changeGod ⟨[], [], [], [], []⟩
      (bytes "god_id=1&god_name=ink&god_type=1&god_price=-3&god_size=any")]

theorem requests_refine_pen : ∃ orders s' goods,
    penRequests.mapM (Request.order plainTables.columns) = some orders ∧
      run plainTables.post .empty penRequests = some s' ∧
      s'.shop = orders.foldl Shop.fill Tables.empty.shop ∧
      s'.database.goodsList = some goods ∧ (goods.map Goods.godId).Nodup ∧
      ∀ g, g ∈ goods ↔ (orders.foldl Shop.fill Tables.empty.shop).Shows g := by
  obtain ⟨orders, horders⟩ :
      ∃ orders, penRequests.mapM (Request.order plainTables.columns) = some orders :=
    Option.isSome_iff_exists.mp (by decide +kernel)
  obtain ⟨s', hrun⟩ : ∃ s', run plainTables.post .empty penRequests = some s' :=
    Option.isSome_iff_exists.mp (by decide +kernel)
  obtain ⟨goods, h⟩ := requests_refine horders hrun
  exact ⟨orders, s', goods, horders, hrun, h⟩

/-! ## The life of a record -/

/-- What the orders that name an id make of the record. -/
def lifeOf (n : Int) (cells : Option GoodsCells) (orders : List Order) : Option GoodsCells :=
  orders.foldl (fun cells order =>
    match order with
    | .change id new => if (n : Rat) = id then cells.map fun _ => new else cells
    | .delete id => if (n : Rat) = id then none else cells
    | _ => cells) cells

theorem nextGod_le_fill (shop : Shop) (order : Order) :
    shop.nextGod ≤ (shop.fill order).nextGod := by
  cases order with
  | add cells => exact (Int.lt_succ _).le
  | _ => exact le_rfl

theorem nextGod_le_foldl (orders : List Order) (shop : Shop) :
    shop.nextGod ≤ (orders.foldl Shop.fill shop).nextGod := by
  induction orders generalizing shop with
  | nil => exact le_rfl
  | cons order orders ih => exact (nextGod_le_fill shop order).trans (ih _)

/-- A record below the next id is left alone by the orders that do not name it. -/
theorem goods_foldl_fill (orders : List Order) {shop : Shop} {n : Int} (hn : n < shop.nextGod) :
    (orders.foldl Shop.fill shop).goods n = lifeOf n (shop.goods n) orders := by
  induction orders generalizing shop with
  | nil => rfl
  | cons order orders ih =>
      rw [List.foldl_cons, ih (hn.trans_le (nextGod_le_fill shop order)), lifeOf, lifeOf,
        List.foldl_cons]
      congr 1
      cases order with
      | add cells => exact Function.update_of_ne hn.ne _ _
      | _ => rfl

/-- A request to `add_god_cgi`, with any requests before it and any behind it, all with literals
and executed.  It makes a record under an id that no state before has had, and leaves every
other record as it is.  Whatever comes later, what is under this id is the record as the
later changes of it have left it, or nothing once it has been deleted. -/
theorem record_life {server : ChangeServer} {before later : List Request} {added : Request}
    {past future : List Order} {cells : GoodsCells}
    (hbefore : before.mapM (Request.order server.columns) = some past)
    (hadded : added.order server.columns = some (.add cells))
    (hlater : later.mapM (Request.order server.columns) = some future) {s s₁ s₂ s₃ : Tables}
    (hrun₁ : run server.post s before = some s₁) (hpost : server.post s₁ added = some s₂)
    (hrun₂ : run server.post s₂ later = some s₃) :
    ∃ id, (∀ front rest s', before = front ++ rest → run server.post s front = some s' →
        s'.goods.lookup id = none) ∧
      (∀ n, n ≠ id → s₂.goods.lookup n = s₁.goods.lookup n) ∧
      s₃.goods.lookup id = lifeOf id (some cells) future := by
  have hshop₂ := server.post_refines hadded hpost
  have hgoods : ∀ n, s₂.goods.lookup n =
      Function.update s₁.goods.lookup s₁.goods.next (some cells) n :=
    fun n => congrFun (congrArg Shop.goods hshop₂) n
  have hnext : s₂.goods.next = s₁.goods.next + 1 := congrArg Shop.nextGod hshop₂
  refine ⟨s₁.goods.next, ?_, fun n hn => ?_, ?_⟩
  · rintro front rest s' rfl hrun
    rw [List.mapM_append] at hbefore
    obtain ⟨past₁, hfront, hbefore⟩ := Option.bind_eq_some_iff.mp hbefore
    obtain ⟨past₂, hrest, -⟩ := Option.bind_eq_some_iff.mp hbefore
    obtain ⟨t, hrunt, ht⟩ := run_append.mp hrun₁
    rw [hrun] at hrunt
    cases hrunt
    have hshop₁ := server.run_refines hrest ht
    -- The next id never goes down.
    have hle : s'.goods.next ≤ s₁.goods.next := by
      have hfold := nextGod_le_foldl past₂ s'.shop
      rw [← hshop₁] at hfold
      exact hfold
    exact s'.goods.lookup_next hle
  · rw [hgoods, Function.update_of_ne hn]
  · have hlt : s₁.goods.next < s₂.shop.nextGod := by
      show s₁.goods.next < s₂.goods.next
      rw [hnext]
      exact Int.lt_succ _
    have hlife := goods_foldl_fill future hlt
    rw [← server.run_refines hlater hrun₂] at hlife
    refine hlife.trans ?_
    show lifeOf _ (s₂.goods.lookup s₁.goods.next) future = _
    rw [hgoods, Function.update_self]

theorem record_life_pen : ∃ s₁ s₂ s₃ id,
    run plainTables.post .empty (penRequests.take 1) = some s₁ ∧
      plainTables.post s₁ (.addGod ⟨[], [], [], []⟩
        (bytes "god_name=pen&god_type=1&god_price=2.5&god_size=big")) = some s₂ ∧
      run plainTables.post s₂ [.delGod ⟨[]⟩ (bytes "god_id=1")] = some s₃ ∧
      (∀ front rest s', penRequests.take 1 = front ++ rest →
        run plainTables.post .empty front = some s' → s'.goods.lookup id = none) ∧
      (∀ n, n ≠ id → s₂.goods.lookup n = s₁.goods.lookup n) ∧
      s₃.goods.lookup id = lifeOf id (some (penCells 1)) [.delete 1] := by
  have horders : (penRequests.take 1).mapM (Request.order plainTables.columns) =
        some [.addType (some (bytes "food"))] ∧
      Request.order plainTables.columns (.addGod ⟨[], [], [], []⟩
        (bytes "god_name=pen&god_type=1&god_price=2.5&god_size=big")) =
          some (.add (penCells 1)) ∧
      [Request.delGod ⟨[]⟩ (bytes "god_id=1")].mapM (Request.order plainTables.columns) =
        some [.delete 1] := by decide +kernel
  obtain ⟨s₃, hrun⟩ : ∃ s₃, run plainTables.post .empty (penRequests.take 2 ++
      [.delGod ⟨[]⟩ (bytes "god_id=1")]) = some s₃ :=
    Option.isSome_iff_exists.mp (by decide +kernel)
  obtain ⟨s₁, hbefore, hrun⟩ := run_cons.mp hrun
  obtain ⟨s₂, hadded, hlater⟩ := run_cons.mp hrun
  have hbefore : run plainTables.post .empty (penRequests.take 1) = some s₁ :=
    run_singleton.mpr hbefore
  obtain ⟨id, hlife⟩ :=
    record_life horders.1 horders.2.1 horders.2.2 hbefore hadded hlater
  exact ⟨s₁, s₂, s₃, id, hbefore, hadded, hlater, hlife⟩

end Cgi
