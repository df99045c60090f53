import TinyHttpd.Cgi.Statements
import TinyHttpd.Lib.SqlTemplate

/-!
# The shape of the statements

Each statement is its template with the fields put in.  It keeps the template's tokens,
with one literal for each field, exactly when the fields are such on their own: nothing
on the way from the request to the statement escapes or checks them.
-/

namespace Cgi

open CString SqlLex

/-! ## Templates -/

def AddGoods.template (f : AddGoods) : List Segment :=
  [⟨bytes "insert into goods(god_name,god_type,god_price,god_size) value(",
      some (.string f.goodsName)⟩,
    ⟨bytes ",", some (.number f.goodsType)⟩, ⟨bytes ",", some (.number f.goodsPrice)⟩,
    ⟨bytes ",", some (.string f.goodsSize)⟩, ⟨bytes ");", none⟩]

/-- The template of `add_goods` with a sign in front of the type. -/
def AddGoods.signed (f : AddGoods) (sign digits : Bytes) : List Segment :=
  [⟨bytes "insert into goods(god_name,god_type,god_price,god_size) value(",
      some (.string f.goodsName)⟩,
    ⟨bytes "," ++ sign, some (.number digits)⟩, ⟨bytes ",", some (.number f.goodsPrice)⟩,
    ⟨bytes ",", some (.string f.goodsSize)⟩, ⟨bytes ");", none⟩]

def AddType.template (f : AddType) : List Segment :=
  [⟨bytes "insert into goods_type(godt_name) value(", some (.string f.typeName)⟩,
    ⟨bytes ");", none⟩]

def ChangeGod.template (f : ChangeGod) : List Segment :=
  [⟨bytes "update goods set god_name=", some (.string f.goodsName)⟩,
    ⟨bytes " , god_type=", some (.number f.goodsType)⟩,
    ⟨bytes " , god_price=", some (.number f.goodsPrice)⟩,
    ⟨bytes " , god_size=", some (.string f.goodsSize)⟩,
    ⟨bytes " where god_id=", some (.number f.goodsId)⟩, ⟨bytes ";", none⟩]

def DelGoods.template (f : DelGoods) : List Segment :=
  [⟨bytes "delete from goods where god_id=", some (.number f.godId)⟩, ⟨bytes ";", none⟩]

/-- A part of the statement that is there under a condition. -/
def whenActive (active : Bool) (segments : List Segment) : List Segment :=
  if active then segments else []

def Filters.priceTemplate (f : Filters) : List Segment :=
  if isActive f.godPriceL "xx.xx" && isActive f.godPriceH "xx.xx" then
    [⟨bytes " and god_price between ", some (.number f.godPriceL)⟩,
      ⟨bytes " and ", some (.number f.godPriceH)⟩]
  else if isActive f.godPriceL "xx.xx" then
    [⟨bytes " and god_price >= ", some (.number f.godPriceL)⟩]
  else if isActive f.godPriceH "xx.xx" then
    [⟨bytes " and god_price <= ", some (.number f.godPriceH)⟩]
  else []

/-- The filters that are active decide on the template. -/
def Filters.template (f : Filters) : List Segment :=
  ⟨bytes ("select god_id,god_name,godt_name,god_price,god_size from goods " ++
      "inner join goods_type on god_type=godt_id where 1=1 "), none⟩ ::
    (whenActive (isActive f.godId "xx") [⟨bytes " and god_id=", some (.number f.godId)⟩] ++
      whenActive (isActive f.godName "xx")
        [⟨bytes " and god_name like ", some (.string (bytes "%" ++ f.godName ++ bytes "%"))⟩,
          ⟨bytes " ", none⟩] ++
      whenActive (isActive f.godType "-1") [⟨bytes " and god_type=", some (.number f.godType)⟩] ++
      f.priceTemplate ++
      whenActive (isActive f.godSize "any")
        [⟨bytes " and god_size = ", some (.string f.godSize)⟩, ⟨bytes " ;", none⟩])

/-! ## Statements are their templates -/

theorem AddGoods.sql_eq_signed {f : AddGoods} {sign digits : Bytes}
    (h : f.goodsType = sign ++ digits) : f.sql = render (f.signed sign digits) := by
  have hopen : bytes "insert into goods(god_name,god_type,god_price,god_size) value('" =
      bytes "insert into goods(god_name,god_type,god_price,god_size) value(" ++ [39] := rfl
  have hname : bytes "'," = 39 :: bytes "," := rfl
  have hsize : bytes ",'" = bytes "," ++ [39] := rfl
  have hclose : bytes "');" = 39 :: bytes ");" := rfl
  simp [AddGoods.sql, AddGoods.signed, render, Segment.render, renderField, Field.render, quote,
    h, hopen, hname, hsize, hclose]

theorem AddGoods.sql_eq (f : AddGoods) : f.sql = render f.template :=
  AddGoods.sql_eq_signed (rfl : f.goodsType = [] ++ f.goodsType)

theorem AddType.sql_eq (f : AddType) : f.sql = render f.template := by
  have hopen : bytes "insert into goods_type(godt_name) value('" =
      bytes "insert into goods_type(godt_name) value(" ++ [39] := rfl
  have hclose : bytes "');" = 39 :: bytes ");" := rfl
  simp [AddType.sql, AddType.template, render, Segment.render, renderField, Field.render, quote,
    hopen, hclose]

theorem ChangeGod.sql_eq (f : ChangeGod) : f.sql = render f.template := by
  have hopen : bytes "update goods set god_name='" =
      bytes "update goods set god_name=" ++ [39] := rfl
  have hname : bytes "' , god_type=" = 39 :: bytes " , god_type=" := rfl
  have hsize : bytes " , god_size='" = bytes " , god_size=" ++ [39] := rfl
  have hclose : bytes "' where god_id=" = 39 :: bytes " where god_id=" := rfl
  simp [ChangeGod.sql, ChangeGod.template, render, Segment.render, renderField, Field.render,
    quote, hopen, hname, hsize, hclose]

theorem DelGoods.sql_eq (f : DelGoods) : f.sql = render f.template := by
  simp [DelGoods.sql, DelGoods.template, render, Segment.render, renderField, Field.render]

theorem render_whenActive (active : Bool) (segments : List Segment) :
    render (whenActive active segments) = if active then render segments else [] := by
  cases active <;> rfl

theorem render_append (a b : List Segment) : render (a ++ b) = render a ++ render b :=
  List.flatMap_append

theorem Filters.sql_eq (f : Filters) : f.sql = render f.template := by
  have hname : bytes " and god_name like '%" =
      bytes " and god_name like " ++ 39 :: bytes "%" := rfl
  have hlike : bytes "%' " = bytes "%" ++ 39 :: bytes " " := rfl
  have hsize : bytes " and god_size = '" = bytes " and god_size = " ++ [39] := rfl
  have hclose : bytes "' ;" = 39 :: bytes " ;" := rfl
  have hprice : render f.priceTemplate =
      (if isActive f.godPriceL "xx.xx" && isActive f.godPriceH "xx.xx" then
        bytes " and god_price between " ++ f.godPriceL ++ bytes " and " ++ f.godPriceH
      else if isActive f.godPriceL "xx.xx" then bytes " and god_price >= " ++ f.godPriceL
      else if isActive f.godPriceH "xx.xx" then bytes " and god_price <= " ++ f.godPriceH
      else []) := by
    rw [Filters.priceTemplate]
    split_ifs <;> simp [render, Segment.render, renderField, Field.render]
  have hcons : ∀ s segments, render (s :: segments) = Segment.render s ++ render segments :=
    fun s segments => rfl
  simp only [Filters.sql, Filters.template, hcons, render_append, render_whenActive, hprice]
  simp [render, Segment.render, renderField, Field.render, quote, hname, hlike, hsize, hclose]

/-! ## Text and fields do not run into each other -/

theorem AddGoods.wellFormed_signed (f : AddGoods) {sign : Bytes}
    (h : sign = [] ∨ sign = bytes "-") (digits : Bytes) : WellFormed (f.signed sign digits) := by
  refine ⟨rfl, ?_⟩
  simp only [List.forall_mem_cons, List.not_mem_nil, false_implies, implies_true, and_true]
  refine ⟨?_, ⟨rfl, rfl⟩, ⟨rfl, rfl⟩, ⟨rfl, rfl⟩⟩
  rcases h with rfl | rfl
  · exact ⟨rfl, rfl⟩
  · exact ⟨rfl, rfl⟩

theorem AddGoods.wellFormed (f : AddGoods) : WellFormed f.template :=
  f.wellFormed_signed (.inl rfl) f.goodsType

theorem AddType.wellFormed (f : AddType) : WellFormed f.template := by
  refine ⟨rfl, ?_⟩
  simp only [List.forall_mem_cons, List.not_mem_nil, false_implies, implies_true, and_true]
  exact ⟨rfl, rfl⟩

theorem ChangeGod.wellFormed (f : ChangeGod) : WellFormed f.template := by
  refine ⟨rfl, ?_⟩
  simp only [List.forall_mem_cons, List.not_mem_nil, false_implies, implies_true, and_true]
  exact ⟨⟨rfl, rfl⟩, ⟨rfl, rfl⟩, ⟨rfl, rfl⟩, ⟨rfl, rfl⟩, ⟨rfl, rfl⟩⟩

theorem DelGoods.wellFormed (f : DelGoods) : WellFormed f.template := by
  refine ⟨rfl, ?_⟩
  simp only [List.forall_mem_cons, List.not_mem_nil, false_implies, implies_true, and_true]
  exact ⟨rfl, rfl⟩

theorem forall_whenActive {P : Segment → Prop} {active : Bool} {segments : List Segment}
    (h : ∀ s ∈ segments, P s) : ∀ s ∈ whenActive active segments, P s := by
  cases active with
  | false => exact nofun
  | true => exact h

theorem Filters.wellFormed (f : Filters) : WellFormed f.template := by
  refine ⟨rfl, ?_⟩
  simp only [List.forall_mem_append]
  refine ⟨⟨⟨⟨forall_whenActive ?_, forall_whenActive ?_⟩, forall_whenActive ?_⟩, ?_⟩,
    forall_whenActive ?_⟩
  · exact List.forall_mem_singleton.mpr ⟨rfl, rfl⟩
  · exact List.forall_mem_cons.mpr ⟨⟨rfl, rfl⟩, List.forall_mem_singleton.mpr ⟨rfl, rfl⟩⟩
  · exact List.forall_mem_singleton.mpr ⟨rfl, rfl⟩
  · rw [Filters.priceTemplate]
    split_ifs
    · exact List.forall_mem_cons.mpr ⟨⟨rfl, rfl⟩, List.forall_mem_singleton.mpr ⟨rfl, rfl⟩⟩
    · exact List.forall_mem_singleton.mpr ⟨rfl, rfl⟩
    · exact List.forall_mem_singleton.mpr ⟨rfl, rfl⟩
    · exact nofun
  · exact List.forall_mem_cons.mpr ⟨⟨rfl, rfl⟩, List.forall_mem_singleton.mpr ⟨rfl, rfl⟩⟩

/-! ## What the fields have to be -/

def AddGoods.Fits (f : AddGoods) : Prop :=
  isQuotable f.goodsName = true ∧ isNumber f.goodsType = true ∧ isNumber f.goodsPrice = true ∧
    isQuotable f.goodsSize = true

def ChangeGod.Fits (f : ChangeGod) : Prop :=
  isQuotable f.goodsName = true ∧ isNumber f.goodsType = true ∧ isNumber f.goodsPrice = true ∧
    isQuotable f.goodsSize = true ∧ isNumber f.goodsId = true

/-- Only the active filters matter, and the name is quoted with the `%` behind it. -/
def Filters.Fits (f : Filters) : Prop :=
  (isActive f.godId "xx" = true → isNumber f.godId = true) ∧
    (isActive f.godName "xx" = true → isQuotable (f.godName ++ bytes "%") = true) ∧
    (isActive f.godType "-1" = true → isNumber f.godType = true) ∧
    (isActive f.godPriceL "xx.xx" = true → isNumber f.godPriceL = true) ∧
    (isActive f.godPriceH "xx.xx" = true → isNumber f.godPriceH = true) ∧
    (isActive f.godSize "any" = true → isQuotable f.godSize = true)

instance (f : AddGoods) : Decidable f.Fits := inferInstanceAs (Decidable (_ ∧ _))

instance (f : ChangeGod) : Decidable f.Fits := inferInstanceAs (Decidable (_ ∧ _))

instance (f : Filters) : Decidable f.Fits := inferInstanceAs (Decidable (_ ∧ _))

theorem fields_append (a b : List Segment) : fields (a ++ b) = fields a ++ fields b :=
  List.filterMap_append

theorem fields_whenActive {P : Field → Prop} {active : Bool} {segments : List Segment} :
    (∀ f ∈ fields (whenActive active segments), P f) ↔
      (active = true → ∀ f ∈ fields segments, P f) := by
  cases active <;> simp [whenActive, fields]

theorem AddGoods.lex_sql_iff (f : AddGoods) : lex f.sql = tokens f.template ↔ f.Fits := by
  rw [f.sql_eq, lex_render_iff f.wellFormed]
  simp [AddGoods.template, fields, AddGoods.Fits, Field.Fits]

theorem AddType.lex_sql_iff (f : AddType) :
    lex f.sql = tokens f.template ↔ isQuotable f.typeName = true := by
  rw [f.sql_eq, lex_render_iff f.wellFormed]
  simp [AddType.template, fields, Field.Fits]

theorem ChangeGod.lex_sql_iff (f : ChangeGod) : lex f.sql = tokens f.template ↔ f.Fits := by
  rw [f.sql_eq, lex_render_iff f.wellFormed]
  simp [ChangeGod.template, fields, ChangeGod.Fits, Field.Fits]

theorem DelGoods.lex_sql_iff (f : DelGoods) :
    lex f.sql = tokens f.template ↔ isNumber f.godId = true := by
  rw [f.sql_eq, lex_render_iff f.wellFormed]
  simp [DelGoods.template, fields, Field.Fits]

example : tokens (DelGoods.template ⟨bytes "7"⟩) =
    [.word (bytes "delete"), .word (bytes "from"), .word (bytes "goods"), .word (bytes "where"),
      .word (bytes "god_id"), .operator (bytes "="), .number (bytes "7"),
      .operator (bytes ";")] := by
  decide +kernel

theorem Filters.lex_sql_iff (f : Filters) : lex f.sql = tokens f.template ↔ f.Fits := by
  rw [f.sql_eq, lex_render_iff f.wellFormed]
  have hlike : isQuotable (bytes "%" ++ (f.godName ++ bytes "%")) =
      isQuotable (f.godName ++ bytes "%") := isQuotable_append rfl _
  have hprice : (∀ p ∈ fields f.priceTemplate, p.Fits) ↔
      (isActive f.godPriceL "xx.xx" = true → isNumber f.godPriceL = true) ∧
        (isActive f.godPriceH "xx.xx" = true → isNumber f.godPriceH = true) := by
    rw [Filters.priceTemplate]
    cases isActive f.godPriceL "xx.xx" <;> cases isActive f.godPriceH "xx.xx" <;>
      simp [fields, Field.Fits]
  have hcons : ∀ text segments, fields (⟨text, none⟩ :: segments) = fields segments :=
    fun text segments => rfl
  simp only [Filters.template, hcons, fields_append, List.forall_mem_append, fields_whenActive,
    hprice, Filters.Fits]
  simp [fields, Field.Fits, hlike, and_assoc]

/-! ## The statements of a request -/

/-- For every request: a statement keeps the tokens of its template, with one literal for
each field, exactly when the fields of the request are such literals on their own. -/
theorem statements_shaped_iff (dataString : Bytes) :
    (∀ held f, AddGoods.scan held dataString = some f →
      ∃ sql, addGoods held (some dataString) = some sql ∧
        (lex sql = tokens f.template ↔ f.Fits)) ∧
    (∀ held f, AddType.scan held dataString = some f →
      ∃ sql, addType held (some dataString) = some sql ∧
        (lex sql = tokens f.template ↔ isQuotable f.typeName = true)) ∧
    (∀ held f, ChangeGod.scan held dataString = some f →
      ∃ sql, changeGod held (some dataString) = some sql ∧
        (lex sql = tokens f.template ↔ f.Fits)) ∧
    (∀ held f, DelGoods.scan held dataString = some f →
      ∃ sql, delGoods held (some dataString) = some sql ∧
        (lex sql = tokens f.template ↔ isNumber f.godId = true)) ∧
    ∀ f, Filters.scan dataString = some f →
      ∃ sql, getSelectSql (some dataString) = some sql ∧
        (lex sql = tokens f.template ↔ f.Fits) := by
  refine ⟨fun held f h => ⟨f.sql, ?_, f.lex_sql_iff⟩, fun held f h => ⟨f.sql, ?_, f.lex_sql_iff⟩,
    fun held f h => ⟨f.sql, ?_, f.lex_sql_iff⟩, fun held f h => ⟨f.sql, ?_, f.lex_sql_iff⟩,
    fun f h => ⟨f.sql, ?_, f.lex_sql_iff⟩⟩
  · rw [addGoods, Option.bind_some, h, Option.map_some]
  · rw [addType, Option.bind_some, h, Option.map_some]
  · rw [changeGod, Option.bind_some, h, Option.map_some]
  · rw [delGoods, Option.bind_some, h, Option.map_some]
  · rw [getSelectSql, h, Option.map_some]

/-- A pen. -/
theorem addGoods_shaped :
    ∃ sql, addGoods ⟨[], [], [], []⟩
        (some (bytes "god_name=pen&god_type=1&god_price=2.5&god_size=big")) = some sql ∧
      lex sql = tokens
        (AddGoods.template ⟨bytes "pen", bytes "1", bytes "2.5", bytes "big"⟩) := by
  obtain ⟨sql, hsql, hiff⟩ :=
    (statements_shaped_iff (bytes "god_name=pen&god_type=1&god_price=2.5&god_size=big")).1
      ⟨[], [], [], []⟩ ⟨bytes "pen", bytes "1", bytes "2.5", bytes "big"⟩ (by decide +kernel)
  exact ⟨sql, hsql, hiff.mpr (by decide +kernel)⟩

/-- One request deletes every row: behind the field's number come an operator and another
number, so that no number in its place gives the same tokens. -/
theorem delGoods_unshaped :
    ∃ sql, delGoods ⟨[]⟩ (some (bytes "god_id=1||1")) = some sql ∧
      ∀ id, lex sql ≠ tokens (DelGoods.template ⟨id⟩) := by
  refine ⟨bytes "delete from goods where god_id=1||1;", by decide +kernel, fun id h => ?_⟩
  have hlength := congrArg List.length h
  have hsql : (lex (bytes "delete from goods where god_id=1||1;")).length = 10 := by
    decide +kernel
  have htemplate : (tokens (DelGoods.template ⟨id⟩)).length = 8 := rfl
  rw [hsql, htemplate] at hlength
  cases hlength

end Cgi
