import TinyHttpd.Cgi.Database
import TinyHttpd.Cgi.SearchForm
import TinyHttpd.Lib.SqlWhere

/-!
# The goods that a search finds

The statement of a search is a select over the goods joined with their types, and each
filter that is not at its default adds a clause to it.  The clauses are put together as
text.  Each is a segment of a template, with the condition that its tokens stand for, and
so the server reads these conditions from the whole (`query_template`).
-/

namespace Cgi

open CString SqlLex SqlWhere Table Like

/-! ## Selects from the join -/

inductive NumberColumn where
  | godId
  | godType
  | godPrice
  | godtId

inductive TextColumn where
  | godName
  | godSize
  | godtName

/-- The columns of `goods` and `goods_type`. -/
def schema : Schema NumberColumn TextColumn where
  number name :=
    if name = bytes "god_id" then some .godId
    else if name = bytes "god_type" then some .godType
    else if name = bytes "god_price" then some .godPrice
    else if name = bytes "godt_id" then some .godtId
    else none
  text name :=
    if name = bytes "god_name" then some .godName
    else if name = bytes "god_size" then some .godSize
    else if name = bytes "godt_name" then some .godtName
    else none
  numberName
    | .godId => bytes "god_id"
    | .godType => bytes "god_type"
    | .godPrice => bytes "god_price"
    | .godtId => bytes "godt_id"
  textName
    | .godName => bytes "god_name"
    | .godSize => bytes "god_size"
    | .godtName => bytes "godt_name"
  number_numberName c := by cases c <;> rfl
  text_textName c := by cases c <;> rfl

/-- A pair of the join. -/
def rowOf (pair : (Int × GoodsCells) × GoodsType) : Row NumberColumn TextColumn where
  number
    | .godId => some pair.1.1
    | .godType => pair.1.2.godType.map fun type => (type : Rat)
    | .godPrice => pair.1.2.godPrice
    | .godtId => some pair.2.godtId
  text
    | .godName => pair.1.2.godName
    | .godSize => pair.1.2.godSize
    | .godtName => pair.2.godtName

/-- The pairs of the join. -/
def Database.joined (db : Database) : List ((Int × GoodsCells) × GoodsType) :=
  innerJoin joins db.goods.rows db.goodsType

/-- A select up to its condition. -/
def selectHead : List Token := selectAll.dropLast

/-- A select from the join, with a condition or without; `none` for any other text. -/
def Database.query (db : Database) (k : Collation) (sql : Bytes) : Option (List Goods) :=
  ((lex sql).dropPrefix? selectHead).bind fun rest =>
    (parseWhere schema rest).map fun conditions =>
      (db.joined.filter fun pair => selects k conditions (rowOf pair)).map columns

theorem Database.query_of_lex {sql : Bytes} {rest : List Token}
    {conditions : List (Condition NumberColumn TextColumn)} (hlex : lex sql = selectHead ++ rest)
    (hparse : parseWhere schema rest = some conditions) (db : Database) (k : Collation) :
    db.query k sql =
      some ((db.joined.filter fun pair => selects k conditions (rowOf pair)).map columns) := by
  have hdrop : (lex sql).dropPrefix? selectHead = some rest :=
    List.dropPrefix?_eq_some_iff.mpr ⟨selectHead, hlex, beq_self_eq_true _⟩
  rw [Database.query, hdrop, Option.bind_some, hparse, Option.map_some]

/-- The select of the whole list is one of these. -/
theorem Database.query_of_select {db : Database} {sql : Bytes} {goods : List Goods}
    (h : db.select sql = some goods) (k : Collation) : db.query k sql = some goods := by
  rw [Database.select] at h
  split at h
  next hlex =>
      cases h
      have hhead : selectAll = selectHead ++ [.operator (bytes ";")] := by decide +kernel
      have hend : parseWhere schema [.operator (bytes ";")] = some [] := rfl
      have hall : ∀ pair ∈ db.joined, selects k [] (rowOf pair) = true := fun _ _ => rfl
      rw [db.query_of_lex (hlex.trans hhead) hend, List.filter_eq_self.mpr hall]
      rfl
  next => cases h

/-! ## Clauses -/

/-- A part of the statement with the condition it adds.  Its text and its fields keep apart,
and its tokens are those of the condition. -/
structure Clause where
  segments : List Segment
  condition : Condition NumberColumn TextColumn
  apart : ∀ s ∈ segments, s.Opens ∧ s.Follows
  fits : ∀ f ∈ fields segments, f.Fits
  tokens_eq : tokens segments = .word (bytes "and") :: condition.tokens schema

/-- A text that a numeral can stand behind, with its tokens. -/
def Leads (text : Bytes) (before : List Token) : Prop :=
  ∀ sign ∈ [[], bytes "-"], Segment.Opens ⟨text ++ sign, none⟩ ∧ Segment.Follows ⟨text, none⟩ ∧
    lex (text ++ sign) = before ++ lex sign

instance (text : Bytes) (before : List Token) : Decidable (Leads text before) :=
  inferInstanceAs (Decidable (∀ sign ∈ [[], bytes "-"], _))

/-- A text and a numeral. -/
def numeralSegment (text : Bytes) (d : Decimal) : Segment :=
  ⟨text ++ d.sign, some (.number d.text)⟩

theorem Leads.numeral {text : Bytes} {before : List Token} (h : Leads text before)
    (d : Decimal) : (numeralSegment text d).Opens ∧ (numeralSegment text d).Follows ∧
      (∀ f ∈ fields [numeralSegment text d], f.Fits) ∧
      (numeralSegment text d).tokens = before ++ d.tokens := by
  have hnumber : isNumber d.text = true := by
    have hdecimal := d.decimal
    rw [isDecimal, Bool.and_eq_true] at hdecimal
    exact hdecimal.1
  have hfits : ∀ f ∈ fields [numeralSegment text d], f.Fits := List.forall_mem_singleton.mpr hnumber
  have hsign : d.sign ∈ [[], bytes "-"] ∧ lex d.sign ++ [.number d.text] = d.tokens := by
    obtain ⟨_ | _, digits, hdecimal⟩ := d
    · exact ⟨List.mem_cons_self .., rfl⟩
    · exact ⟨List.mem_cons_of_mem _ (List.mem_cons_self ..), rfl⟩
  obtain ⟨hopens, hfollows, hlex⟩ := h d.sign hsign.1
  refine ⟨hopens, ?_, hfits, ?_⟩
  · cases text with
    | nil => cases hfollows
    | cons c text => exact hfollows
  · show lex (text ++ d.sign) ++ [.number d.text] = before ++ d.tokens
    rw [hlex, List.append_assoc, hsign.2]

/-- A comparison of a column with a numeral. -/
def compareClause (text : Bytes) (c : NumberColumn) (op : Comparison) (d : Decimal)
    (h : Leads text [.word (bytes "and"), .word (schema.numberName c), .operator op.symbol]) :
    Clause where
  segments := [numeralSegment text d]
  condition := .compare op (.column c) (.literal d)
  apart := List.forall_mem_singleton.mpr ⟨(h.numeral d).1, (h.numeral d).2.1⟩
  fits := (h.numeral d).2.2.1
  tokens_eq := (List.flatMap_singleton ..).trans (h.numeral d).2.2.2

def idClause (d : Decimal) : Clause :=
  compareClause (bytes " and god_id=") .godId .equal d (by decide +kernel)

def typeClause (d : Decimal) : Clause :=
  compareClause (bytes " and god_type=") .godType .equal d (by decide +kernel)

def lowClause (d : Decimal) : Clause :=
  compareClause (bytes " and god_price >= ") .godPrice .atLeast d (by decide +kernel)

def highClause (d : Decimal) : Clause :=
  compareClause (bytes " and god_price <= ") .godPrice .atMost d (by decide +kernel)

theorem leads_between : Leads (bytes " and god_price between ")
    [.word (bytes "and"), .word (bytes "god_price"), .word (bytes "between")] := by
  decide +kernel

theorem leads_and : Leads (bytes " and ") [.word (bytes "and")] := by decide +kernel

def betweenClause (low high : Decimal) : Clause where
  segments :=
    [numeralSegment (bytes " and god_price between ") low, numeralSegment (bytes " and ") high]
  condition := .between (.column .godPrice) (.literal low) (.literal high)
  apart := by
    obtain ⟨hopens, hfollows, -⟩ := leads_between.numeral low
    obtain ⟨hopens', hfollows', -⟩ := leads_and.numeral high
    exact List.forall_mem_cons.mpr
      ⟨⟨hopens, hfollows⟩, List.forall_mem_singleton.mpr ⟨hopens', hfollows'⟩⟩
  fits := List.forall_mem_append.mpr
    ⟨(leads_between.numeral low).2.2.1, (leads_and.numeral high).2.2.1⟩
  tokens_eq := by
    rw [tokens, List.flatMap_cons, List.flatMap_singleton, (leads_between.numeral low).2.2.2,
      (leads_and.numeral high).2.2.2]
    simp [Condition.tokens, Term.tokens, schema]

/-- The pattern is the name between two `%`. -/
def nameClause (pattern : PlainText) : Clause where
  segments := [⟨bytes " and god_name like ", some (.string pattern.text)⟩, ⟨bytes " ", none⟩]
  condition := .like .godName pattern
  apart := List.forall_mem_cons.mpr ⟨⟨rfl, rfl⟩, List.forall_mem_singleton.mpr ⟨rfl, rfl⟩⟩
  fits := List.forall_mem_singleton.mpr (isQuotable_of_plain pattern.plain)
  tokens_eq := by
    have hlex : lex (bytes " and god_name like ") =
        [.word (bytes "and"), .word (bytes "god_name"), .word (bytes "like")] := by
      decide +kernel
    have hblank : lex (bytes " ") = [] := by decide +kernel
    simp [tokens, Segment.tokens, Field.token, hlex, hblank, Condition.tokens, schema]

def sizeClause (size : PlainText) : Clause where
  segments := [⟨bytes " and god_size = ", some (.string size.text)⟩]
  condition := .equalText .godSize size
  apart := List.forall_mem_singleton.mpr ⟨rfl, rfl⟩
  fits := List.forall_mem_singleton.mpr (isQuotable_of_plain size.plain)
  tokens_eq := by
    have hlex : lex (bytes " and god_size = ") =
        [.word (bytes "and"), .word (bytes "god_size"), .operator (bytes "=")] := by
      decide +kernel
    simp [tokens, Segment.tokens, Field.token, hlex, Condition.tokens, schema]

/-! ## The statement of a search -/

/-- What a search asks for. -/
structure Search where
  id : Option Decimal
  pattern : Option PlainText
  type : Option Decimal
  low : Option Decimal
  high : Option Decimal
  size : Option PlainText

def Search.priceClauses (s : Search) : List Clause :=
  match s.low, s.high with
  | some low, some high => [betweenClause low high]
  | some low, none => [lowClause low]
  | none, some high => [highClause high]
  | none, none => []

def Search.clauses (s : Search) : List Clause :=
  s.id.toList.map idClause ++ s.pattern.toList.map nameClause ++ s.type.toList.map typeClause ++
    s.priceClauses ++ s.size.toList.map sizeClause

/-- The text in front of the clauses. -/
def searchHead : Bytes :=
  bytes ("select god_id,god_name,godt_name,god_price,god_size from goods " ++
    "inner join goods_type on god_type=godt_id where 1=1 ")

/-- A semicolon comes with the size. -/
def Search.closing (s : Search) : List Segment :=
  if s.size.isSome then [⟨bytes " ;", none⟩] else []

def Search.template (s : Search) : List Segment :=
  ⟨searchHead, none⟩ :: (s.clauses.flatMap Clause.segments ++ s.closing)

theorem Search.wellFormed (s : Search) : WellFormed s.template := by
  refine ⟨rfl, List.forall_mem_append.mpr ⟨fun r hr => ?_, ?_⟩⟩
  · obtain ⟨c, -, hrc⟩ := List.mem_flatMap.mp hr
    exact c.apart r hrc
  · rw [Search.closing]
    split
    next => exact List.forall_mem_singleton.mpr ⟨rfl, rfl⟩
    next => exact nofun

theorem Search.fits (s : Search) : ∀ f ∈ fields s.template, f.Fits := by
  intro f hf
  obtain ⟨r, hr, hfield⟩ := List.mem_filterMap.mp hf
  rcases List.mem_cons.mp hr with rfl | hr
  · cases hfield
  · rcases List.mem_append.mp hr with hr | hr
    · obtain ⟨c, -, hrc⟩ := List.mem_flatMap.mp hr
      exact c.fits f (List.mem_filterMap.mpr ⟨r, hrc, hfield⟩)
    · rw [Search.closing] at hr
      split at hr
      next =>
          cases List.mem_singleton.mp hr
          cases hfield
      next => cases hr

/-- `1=1`. -/
def oneIsOne : Condition NumberColumn TextColumn :=
  .compare .equal (.literal ⟨false, bytes "1", by decide⟩)
    (.literal ⟨false, bytes "1", by decide⟩)

theorem tokens_clauses (clauses : List Clause) :
    tokens (clauses.flatMap Clause.segments) =
      andTokens schema (clauses.map Clause.condition) := by
  induction clauses with
  | nil => rfl
  | cons c clauses ih =>
      rw [tokens, List.flatMap_cons, List.flatMap_append, ← tokens, ← tokens, c.tokens_eq, ih]
      rfl

theorem Search.lex_template (s : Search) : ∃ rest, IsEnd rest ∧
    lex (render s.template) = selectHead ++ .word (bytes "where") ::
      (oneIsOne.tokens schema ++ (andTokens schema (s.clauses.map Clause.condition) ++ rest)) := by
  have hhead : lex searchHead =
      selectHead ++ .word (bytes "where") :: oneIsOne.tokens schema := by
    decide +kernel
  have hclosing : IsEnd (tokens s.closing) := by
    rw [Search.closing]
    split
    next => exact .inr (by decide +kernel)
    next => exact .inl rfl
  refine ⟨tokens s.closing, hclosing, ?_⟩
  have htokens : tokens s.template = lex searchHead ++
      (tokens (s.clauses.flatMap Clause.segments) ++ tokens s.closing) := by
    rw [Search.template, tokens, List.flatMap_cons, List.flatMap_append, ← tokens, ← tokens]
    exact congrArg (· ++ _) (List.append_nil _)
  rw [lex_render s.wellFormed s.fits, htokens, tokens_clauses, hhead]
  simp

/-- The server reads the conditions of the search. -/
theorem Database.query_template (db : Database) (k : Collation) (s : Search) :
    db.query k (render s.template) = some ((db.joined.filter fun pair =>
      selects k (oneIsOne :: s.clauses.map Clause.condition) (rowOf pair)).map columns) := by
  obtain ⟨rest, hrest, hlex⟩ := s.lex_template
  exact db.query_of_lex hlex (parseWhere_tokens schema oneIsOne _ hrest) k

/-! ## The filters of a form -/

/-- The default, or a numeral. -/
def IsNumeralOr (default : String) (value : Bytes) : Prop :=
  value = bytes default ∨ (numeralValue value).isSome

instance (default : String) (value : Bytes) : Decidable (IsNumeralOr default value) :=
  inferInstanceAs (Decidable (_ ∨ _))

/-- Six tokens, four of them numerals or the defaults of the form. -/
structure Filters.Searchable (f : Filters) : Prop where
  tokens : f.Tokens
  id : IsNumeralOr "xx" f.godId
  type : IsNumeralOr "-1" f.godType
  low : IsNumeralOr "xx.xx" f.godPriceL
  high : IsNumeralOr "xx.xx" f.godPriceH

/-- The pair meets every filter that is not at its default. -/
def Filters.Meets (f : Filters) (k : Collation) (pair : (Int × GoodsCells) × GoodsType) : Prop :=
  (f.godId ≠ bytes "xx" → ∃ x ∈ numeralValue f.godId, (pair.1.1 : Rat) = x) ∧
    (f.godName ≠ bytes "xx" → ∃ name ∈ pair.1.2.godName, Contains k.same f.godName name) ∧
    (f.godType ≠ bytes "-1" →
      ∃ x ∈ numeralValue f.godType, ∃ type ∈ pair.1.2.godType, (type : Rat) = x) ∧
    (f.godPriceL ≠ bytes "xx.xx" →
      ∃ x ∈ numeralValue f.godPriceL, ∃ price ∈ pair.1.2.godPrice, x ≤ price) ∧
    (f.godPriceH ≠ bytes "xx.xx" →
      ∃ x ∈ numeralValue f.godPriceH, ∃ price ∈ pair.1.2.godPrice, price ≤ x) ∧
    (f.godSize ≠ bytes "any" → ∃ size ∈ pair.1.2.godSize, k.equal size f.godSize = true)

instance (f : Filters) (k : Collation) (pair : (Int × GoodsCells) × GoodsType) :
    Decidable (f.Meets k pair) := inferInstanceAs (Decidable (_ ∧ _))

/-- The filter at its default asks for nothing. -/
def askedNumeral (default : String) (value : Bytes) : Option Decimal :=
  if value = bytes default then none else Decimal.read value

/-- The text that is made of a filter, unless it is at its default. -/
def askedText (default : String) (value text : Bytes) : Option PlainText :=
  if value = bytes default then none else PlainText.ofText text

def Filters.search (f : Filters) : Search where
  id := askedNumeral "xx" f.godId
  pattern := askedText "xx" f.godName (37 :: (f.godName ++ [37]))
  type := askedNumeral "-1" f.godType
  low := askedNumeral "xx.xx" f.godPriceL
  high := askedNumeral "xx.xx" f.godPriceH
  size := askedText "any" f.godSize f.godSize

/-- A token is at its default, or active. -/
theorem isActive_cases {value : Bytes} (h : IsToken value) {default : String}
    (hdefault : ∀ c ∈ bytes default, c ≠ 0) :
    (value = bytes default ∧ isActive value default = false) ∨
      value ≠ bytes default ∧ isActive value default = true := by
  have hpos : 0 < value.length := List.length_pos_iff.mpr h.nonempty
  have hcmp := strcmp_eq_zero value (bytes default)
  rw [cstr_eq_self h.ne_nul, cstr_eq_self hdefault] at hcmp
  rcases eq_or_ne value (bytes default) with heq | hne
  · exact .inl ⟨heq, by simp [isActive, hcmp.mpr heq]⟩
  · exact .inr ⟨hne, by simp [isActive, hpos, hcmp, hne]⟩

/-- Either at its default and not active, or a numeral. -/
theorem askedNumeral_cases {value : Bytes} {default : String} (htoken : IsToken value)
    (hdefault : ∀ c ∈ bytes default, c ≠ 0) (h : IsNumeralOr default value) :
    (value = bytes default ∧ isActive value default = false ∧ askedNumeral default value = none) ∨
      ∃ d, value ≠ bytes default ∧ isActive value default = true ∧
        askedNumeral default value = some d ∧ value = d.sign ++ d.text ∧
        numeralValue value = some d.value := by
  rcases isActive_cases htoken hdefault with ⟨heq, hidle⟩ | ⟨hne, hactive⟩
  · exact .inl ⟨heq, hidle, if_pos heq⟩
  · obtain ⟨x, hx⟩ := Option.isSome_iff_exists.mp (h.resolve_left hne)
    obtain ⟨d, hd, rfl⟩ := Option.map_eq_some_iff.mp hx
    exact .inr ⟨d, hne, hactive, (if_neg hne).trans hd, Decimal.of_read hd, hx⟩

/-- A token is plain text. -/
theorem IsToken.isPlainText {value : Bytes} (h : IsToken value) : isPlainText value = true := by
  rw [SqlWhere.isPlainText, List.all_eq_true]
  intro c hc
  obtain ⟨-, -, hquote, hescape, -, -⟩ := (isTokenByte_iff c).mp (h.bytes c hc)
  simp [hquote, hescape]

theorem IsToken.isPlainText_pattern {value : Bytes} (h : IsToken value) :
    SqlWhere.isPlainText (37 :: (value ++ [37])) = true := by
  have hvalue := h.isPlainText
  rw [SqlWhere.isPlainText] at hvalue ⊢
  rw [List.all_cons, List.all_append, hvalue]
  rfl

/-- Either at its default and not active, or some text. -/
theorem askedText_cases {value text : Bytes} {default : String} (htoken : IsToken value)
    (hdefault : ∀ c ∈ bytes default, c ≠ 0) (h : isPlainText text = true) :
    (value = bytes default ∧ isActive value default = false ∧
        askedText default value text = none) ∨
      value ≠ bytes default ∧ isActive value default = true ∧
        askedText default value text = some ⟨text, h⟩ := by
  rcases isActive_cases htoken hdefault with ⟨heq, hidle⟩ | ⟨hne, hactive⟩
  · exact .inl ⟨heq, hidle, if_pos heq⟩
  · exact .inr ⟨hne, hactive, (if_neg hne).trans (dif_pos h)⟩

/-! ## The text of the clauses -/

/-- The text that clauses add. -/
def renderClauses (clauses : List Clause) : Bytes := render (clauses.flatMap Clause.segments)

theorem renderClauses_append (a b : List Clause) :
    renderClauses (a ++ b) = renderClauses a ++ renderClauses b := by
  rw [renderClauses, List.flatMap_append, render_append, renderClauses, renderClauses]

theorem render_numeralSegment (text : Bytes) (d : Decimal) :
    (numeralSegment text d).render = text ++ (d.sign ++ d.text) := by
  simp [numeralSegment, Segment.render, renderField, Field.render]

/-- A clause with one numeral. -/
theorem renderClauses_numeral {value text : Bytes} {default : String} (htoken : IsToken value)
    (hdefault : ∀ c ∈ bytes default, c ≠ 0) (h : IsNumeralOr default value)
    {mk : Decimal → Clause} (hmk : ∀ d, (mk d).segments = [numeralSegment text d]) :
    renderClauses ((askedNumeral default value).toList.map mk) =
      if isActive value default then text ++ value else [] := by
  rcases askedNumeral_cases htoken hdefault h with ⟨-, hidle, hnone⟩ | ⟨d, -, hactive, hd, hvalue, -⟩
  · rw [hnone, if_neg (ne_true_of_eq_false hidle)]
    rfl
  · rw [hd, if_pos hactive]
    show render ((mk d).segments ++ []) = _
    rw [hmk, hvalue, ← render_numeralSegment]
    exact List.append_nil _

theorem Filters.Searchable.render_price {f : Filters} (h : f.Searchable) :
    renderClauses f.search.priceClauses =
      if isActive f.godPriceL "xx.xx" && isActive f.godPriceH "xx.xx" then
        bytes " and god_price between " ++ f.godPriceL ++ bytes " and " ++ f.godPriceH
      else if isActive f.godPriceL "xx.xx" then bytes " and god_price >= " ++ f.godPriceL
      else if isActive f.godPriceH "xx.xx" then bytes " and god_price <= " ++ f.godPriceH
      else [] := by
  obtain ⟨-, -, -, hlow, hhigh, -⟩ := f.tokens_iff.mp h.tokens
  have hone : ∀ text d, render [numeralSegment text d] = text ++ (d.sign ++ d.text) :=
    fun text d => (List.append_nil _).trans (render_numeralSegment text d)
  rw [Search.priceClauses, Filters.search]
  rcases askedNumeral_cases hlow (by decide +kernel) h.low with
    ⟨-, hidle, hnone⟩ | ⟨low, -, hactive, hlow, hvalue, -⟩
  · rcases askedNumeral_cases hhigh (by decide +kernel) h.high with
      ⟨-, hidle', hnone'⟩ | ⟨high, -, hactive', hhigh, hvalue', -⟩
    · simp only [hnone, hnone', hidle, hidle']
      rfl
    · simp only [hnone, hhigh, hidle, hactive', Bool.false_and, Bool.false_eq_true, if_false,
        if_true]
      rw [hvalue']
      exact hone _ high
  · rcases askedNumeral_cases hhigh (by decide +kernel) h.high with
      ⟨-, hidle', hnone'⟩ | ⟨high, -, hactive', hhigh, hvalue', -⟩
    · simp only [hlow, hnone', hactive, hidle', Bool.and_false, Bool.false_eq_true, if_false,
        if_true]
      rw [hvalue]
      exact hone _ low
    · simp only [hlow, hhigh, hactive, hactive', Bool.and_self, if_true]
      rw [hvalue, hvalue', List.append_assoc (_ ++ _), ← render_numeralSegment,
        ← render_numeralSegment]
      exact congrArg (_ ++ ·) (List.append_nil _)

theorem Filters.Searchable.render_name {f : Filters} (h : f.Searchable) :
    renderClauses (f.search.pattern.toList.map nameClause) =
      if isActive f.godName "xx" then
        bytes " and god_name like '%" ++ f.godName ++ bytes "%' " else [] := by
  obtain ⟨-, hname, -⟩ := f.tokens_iff.mp h.tokens
  have hdefault : ∀ c ∈ bytes "xx", c ≠ 0 := by decide +kernel
  have hopen : bytes " and god_name like '%" = bytes " and god_name like " ++ [39, 37] := rfl
  have hclose : bytes "%' " = [37, 39] ++ bytes " " := rfl
  rw [Filters.search]
  rcases askedText_cases hname hdefault hname.isPlainText_pattern with
    ⟨-, hidle, hnone⟩ | ⟨-, hactive, hsome⟩
  · rw [hnone, hidle]
    rfl
  · rw [hsome, hactive, hopen, hclose]
    simp [renderClauses, nameClause, render, Segment.render, renderField, Field.render, quote]

theorem Filters.Searchable.render_size {f : Filters} (h : f.Searchable) :
    renderClauses (f.search.size.toList.map sizeClause) ++ render f.search.closing =
      if isActive f.godSize "any" then bytes " and god_size = '" ++ f.godSize ++ bytes "' ;"
      else [] := by
  obtain ⟨-, -, -, -, -, hsize⟩ := f.tokens_iff.mp h.tokens
  have hdefault : ∀ c ∈ bytes "any", c ≠ 0 := by decide +kernel
  have hopen : bytes " and god_size = '" = bytes " and god_size = " ++ [39] := rfl
  have hclose : bytes "' ;" = 39 :: bytes " ;" := rfl
  rw [Search.closing, Filters.search]
  rcases askedText_cases hsize hdefault hsize.isPlainText with
    ⟨-, hidle, hnone⟩ | ⟨-, hactive, hsome⟩
  · rw [hnone, hidle]
    rfl
  · rw [hsome, hactive, hopen, hclose]
    simp [renderClauses, sizeClause, render, Segment.render, renderField, Field.render, quote]

theorem Search.render_template (s : Search) :
    render s.template = searchHead ++ (renderClauses s.clauses ++ render s.closing) := by
  rw [Search.template, render, List.flatMap_cons, ← render, render_append]
  exact congrArg (· ++ _) (List.append_nil _)

/-- The statement of the filters is that of their search. -/
theorem Filters.Searchable.sql_eq {f : Filters} (h : f.Searchable) :
    f.sql = render f.search.template := by
  obtain ⟨hid, -, htype, -⟩ := f.tokens_iff.mp h.tokens
  have hidText : renderClauses (f.search.id.toList.map idClause) =
      if isActive f.godId "xx" then bytes " and god_id=" ++ f.godId else [] :=
    renderClauses_numeral hid (by decide +kernel) h.id fun _ => rfl
  have htypeText : renderClauses (f.search.type.toList.map typeClause) =
      if isActive f.godType "-1" then bytes " and god_type=" ++ f.godType else [] :=
    renderClauses_numeral htype (by decide +kernel) h.type fun _ => rfl
  rw [Search.render_template, Search.clauses, renderClauses_append, renderClauses_append,
    renderClauses_append, renderClauses_append, List.append_assoc _ (renderClauses _),
    h.render_size, hidText, h.render_name, htypeText, h.render_price, Filters.sql, searchHead]
  simp only [List.append_assoc]

/-! ## What the clauses say -/

/-- What is asked of a numeral is asked of its value. -/
theorem forall_askedNumeral {value : Bytes} {default : String} (htoken : IsToken value)
    (hdefault : ∀ c ∈ bytes default, c ≠ 0) (h : IsNumeralOr default value) (Q : Rat → Prop) :
    (∀ d ∈ askedNumeral default value, Q d.value) ↔
      (value ≠ bytes default → ∃ x ∈ numeralValue value, Q x) := by
  rcases askedNumeral_cases htoken hdefault h with ⟨heq, -, hnone⟩ | ⟨d, hne, -, hd, -, hvalue⟩
  · rw [hnone]
    exact iff_of_true nofun fun hne => absurd heq hne
  · rw [hd, hvalue]
    simp [hne]

theorem forall_askedText {value text : Bytes} {default : String} (htoken : IsToken value)
    (hdefault : ∀ c ∈ bytes default, c ≠ 0) (h : isPlainText text = true)
    {P : PlainText → Prop} :
    (∀ t ∈ askedText default value text, P t) ↔ (value ≠ bytes default → P ⟨text, h⟩) := by
  rcases askedText_cases htoken hdefault h with ⟨heq, -, hnone⟩ | ⟨hne, -, hsome⟩
  · rw [hnone]
    exact iff_of_true nofun fun hne => absurd heq hne
  · rw [hsome]
    simp [hne]

theorem eval_idClause (k : Collation) (pair : (Int × GoodsCells) × GoodsType) (d : Decimal) :
    (idClause d).condition.eval k (rowOf pair) = some true ↔ (pair.1.1 : Rat) = d.value := by
  simp [idClause, compareClause, Condition.eval, compareTerms_literal, Comparison.holds, rowOf]

theorem eval_typeClause (k : Collation) (pair : (Int × GoodsCells) × GoodsType) (d : Decimal) :
    (typeClause d).condition.eval k (rowOf pair) = some true ↔
      ∃ type ∈ pair.1.2.godType, (type : Rat) = d.value := by
  rw [typeClause, compareClause, Condition.eval, compareTerms_literal, rowOf]
  dsimp only
  cases pair.1.2.godType <;> simp [Comparison.holds]

/-- A name that fits the pattern contains the part between the `%`. -/
theorem eval_nameClause {part : Bytes} (hpart : Plain wildcards part)
    (hplain : isPlainText (37 :: (part ++ [37])) = true) (k : Collation)
    (pair : (Int × GoodsCells) × GoodsType) :
    (nameClause ⟨37 :: (part ++ [37]), hplain⟩).condition.eval k (rowOf pair) = some true ↔
      ∃ name ∈ pair.1.2.godName, Contains k.same part name := by
  have hlike : ∀ name, like wildcards k.same (37 :: (part ++ [37])) name = true ↔
      Contains k.same part name := like_contains hpart k.same
  simp [nameClause, Condition.eval, rowOf, hlike]

theorem eval_sizeClause (k : Collation) (pair : (Int × GoodsCells) × GoodsType)
    (size : PlainText) :
    (sizeClause size).condition.eval k (rowOf pair) = some true ↔
      ∃ cell ∈ pair.1.2.godSize, k.equal cell size.text = true := by
  simp [sizeClause, Condition.eval, rowOf]

/-- Between two bounds is above the one and below the other. -/
theorem Search.forall_priceClauses (s : Search) {k : Collation}
    {r : Row NumberColumn TextColumn} :
    (∀ c ∈ s.priceClauses, c.condition.eval k r = some true) ↔
      (∀ d ∈ s.low, ∃ x ∈ r.number .godPrice, d.value ≤ x) ∧
        ∀ d ∈ s.high, ∃ x ∈ r.number .godPrice, x ≤ d.value := by
  have hlow : ∀ d, compareTerms r .atLeast (.column .godPrice) (.literal d) = some true ↔
      ∃ x ∈ r.number .godPrice, d.value ≤ x := by
    intro d
    simp only [compareTerms_literal, Comparison.holds, decide_eq_true_eq]
  have hhigh : ∀ d, compareTerms r .atMost (.column .godPrice) (.literal d) = some true ↔
      ∃ x ∈ r.number .godPrice, x ≤ d.value := by
    intro d
    simp only [compareTerms_literal, Comparison.holds, decide_eq_true_eq]
  rw [Search.priceClauses]
  rcases s.low with _ | low <;> rcases s.high with _ | high
  · exact iff_of_true nofun ⟨nofun, nofun⟩
  · simpa [highClause, compareClause, Condition.eval] using hhigh high
  · simpa [lowClause, compareClause, Condition.eval] using hlow low
  · simpa [betweenClause, Condition.eval, Truth.and_eq_true] using
      and_congr (hlow low) (hhigh high)

theorem IsToken.plainPart {value : Bytes} (h : IsToken value) : Plain wildcards value := by
  intro c hc
  obtain ⟨-, -, -, -, hmany, hone⟩ := (isTokenByte_iff c).mp (h.bytes c hc)
  exact ⟨hmany, hone⟩

/-- The clauses of a search select the pairs that meet its filters. -/
theorem Filters.Searchable.selects_iff {f : Filters} (h : f.Searchable) (k : Collation)
    (pair : (Int × GoodsCells) × GoodsType) :
    selects k (oneIsOne :: f.search.clauses.map Clause.condition) (rowOf pair) = true ↔
      f.Meets k pair := by
  obtain ⟨hid, hname, htype, hlow, hhigh, hsize⟩ := f.tokens_iff.mp h.tokens
  have hone : oneIsOne.eval k (rowOf pair) = some true := by
    show some (_ == _) = some true
    rw [beq_self_eq_true]
  rw [SqlWhere.selects_iff, List.forall_mem_cons, and_iff_right hone, Search.clauses]
  simp only [List.map_append, List.forall_mem_append, List.forall_mem_map, Option.mem_toList,
    f.search.forall_priceClauses, eval_idClause, eval_typeClause, eval_sizeClause, and_assoc]
  refine and_congr ?_ (and_congr ?_ (and_congr ?_ (and_congr ?_ (and_congr ?_ ?_))))
  · exact forall_askedNumeral hid (by decide +kernel) h.id fun x => (pair.1.1 : Rat) = x
  · exact (forall_askedText hname (by decide +kernel) hname.isPlainText_pattern).trans
      (imp_congr_right fun _ => eval_nameClause hname.plainPart _ k pair)
  · exact forall_askedNumeral htype (by decide +kernel) h.type
      fun x => ∃ type ∈ pair.1.2.godType, (type : Rat) = x
  · exact forall_askedNumeral hlow (by decide +kernel) h.low
      fun x => ∃ price ∈ pair.1.2.godPrice, x ≤ price
  · exact forall_askedNumeral hhigh (by decide +kernel) h.high
      fun x => ∃ price ∈ pair.1.2.godPrice, price ≤ x
  · exact forall_askedText hsize (by decide +kernel) hsize.isPlainText

/-! ## The search -/

/-- The filters as the form shows them first. -/
def Filters.defaults : Filters :=
  ⟨bytes "xx", bytes "xx", bytes "-1", bytes "xx.xx", bytes "xx.xx", bytes "any"⟩

theorem Filters.Searchable.asked {f : Filters} (h : f.Searchable) (sized : Bool) :
    (f.asked sized).Searchable := by
  have htokens := h.tokens.asked sized
  cases sized with
  | true => exact h
  | false => exact ⟨htokens, h.id, h.type, h.low, h.high⟩

/-- For every content of the tables and every six filters, with a field for the size or
without: the program sends one select, and this gives the pairs of goods and types that
meet all the filters that are asked for.  At the defaults, these are the pairs of the list
without a search. -/
theorem search_selects (db : Database) (k : Collation) (beyond : Bytes) {f : Filters}
    (h : f.Searchable) (sized : Bool) :
    ∃ sql all,
      getSelectSql (some (godListData beyond (f.body sized).length (f.body sized))) = some sql ∧
        db.query k sql =
          some ((db.joined.filter fun pair => (f.asked sized).Meets k pair).map columns) ∧
        getSelectSql none = some all ∧
        (f.asked sized = Filters.defaults → db.query k sql = db.query k all) := by
  have hasked := h.asked sized
  have hquery : db.query k (f.asked sized).sql =
      some ((db.joined.filter fun pair => (f.asked sized).Meets k pair).map columns) := by
    rw [hasked.sql_eq, db.query_template]
    refine congrArg (fun rows => some (rows.map columns)) (List.filter_congr fun pair _ => ?_)
    rw [Bool.eq_iff_iff, hasked.selects_iff, decide_eq_true_eq]
  obtain ⟨all, hall⟩ : ∃ all, getSelectSql none = some all := ⟨_, rfl⟩
  have hlist : db.query k all = some db.listing := by
    refine Database.query_of_select ?_ k
    rw [← goodsList_eq db, Database.goodsList, hall, Option.bind_some]
  refine ⟨_, all, Filters.getSelectSql_body h.tokens sized beyond, hquery, hall, fun hdefault => ?_⟩
  have hmeets : ∀ pair ∈ db.joined, decide (Filters.defaults.Meets k pair) = true := by
    intro pair _
    rw [decide_eq_true_eq]
    exact ⟨(absurd rfl ·), (absurd rfl ·), (absurd rfl ·), (absurd rfl ·), (absurd rfl ·),
      (absurd rfl ·)⟩
  rw [hquery, hdefault, List.filter_eq_self.mpr hmeets, hlist]
  rfl

/-- Two goods of one type. -/
def Database.teas : Database where
  goods :=
    ⟨[(1, ⟨some (bytes "green"), some 1, some (5 / 2), some (bytes "big")⟩),
      (2, ⟨some (bytes "black"), some 1, some 4, some (bytes "small")⟩)], 3, by decide⟩
  goodsType := [⟨1, some (bytes "tea")⟩]

/-- Names with `ee` for a price up to 3, with no size chosen. -/
def greenTea : Filters :=
  ⟨bytes "xx", bytes "ee", bytes "1", bytes "xx.xx", bytes "3.0", bytes "any"⟩

theorem search_selects_green :
    ∃ sql, getSelectSql
        (some (godListData [] (greenTea.body false).length (greenTea.body false))) = some sql ∧
      Database.teas.query .binary sql =
        some [⟨1, some (bytes "green"), some (bytes "tea"), some (5 / 2), some (bytes "big")⟩] := by
  have hsearch : greenTea.Searchable :=
    ⟨by decide +kernel, by decide +kernel, by decide +kernel, by decide +kernel,
      by decide +kernel⟩
  obtain ⟨sql, -, hsql, hquery, -⟩ := search_selects .teas .binary [] hsearch false
  exact ⟨sql, hsql, hquery.trans (by decide +kernel)⟩

end Cgi
