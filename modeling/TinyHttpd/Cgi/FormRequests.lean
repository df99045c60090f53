import TinyHttpd.Cgi.ListPage
import TinyHttpd.Cgi.Pages
import TinyHttpd.Cgi.Search

/-!
# From a page to the tables

A user opens one of the pages with a form, fills in some of the controls and sends the form;
the program it goes to finds the values in the body.

What comes of it depends on the names and the order of the controls, which the program skips
and counts, on what stands in the controls at first, and on what a browser does to the values.
-/

namespace Cgi

open CString Html FormUrl SqlLex SqlWhere Table Machine

/-! ## The entries of the controls -/

/-- A text of one line. -/
def OneLine (v : Bytes) : Prop := lf ∉ v ∧ cr ∉ v

instance (v : Bytes) : Decidable (OneLine v) := inferInstanceAs (Decidable (_ ∧ _))

theorem entries_textInput {choice : Choice} {name : String} (value : Bytes) (readonly : Bool)
    {typed : Option Bytes} (hchoice : choice (codes (bytes name)) = typed.map codes)
    (hline : OneLine (if readonly then value else typed.getD value)) :
    (textInput name value readonly).entries choice =
      [(codes (bytes name), codes (if readonly then value else typed.getD value))] := by
  rw [textInput, FormPart.entries, hchoice, ← oneLine_codes hline.1 hline.2]
  cases readonly with
  | true => rfl
  | false => cases typed <;> rfl

theorem entries_typeSelect {choice : Choice} {first : Int} {typeMap : TypeMap}
    {type : Option Int}
    (hchoice : choice (codes (bytes "god_type")) = type.map fun id => codes (decimal id))
    (hknown : ∀ id ∈ type, id = first ∨ id ∈ typeMap) :
    (typeSelect first typeMap).entries choice =
      [(codes (bytes "god_type"), codes (decimal (type.getD first)))] := by
  have hshown : shown ((codes (decimal first), true) :: typeChoices typeMap) =
      some (codes (decimal first)) := by
    have hothers : (typeChoices typeMap).filter (fun o => o.2) = [] := by
      refine List.filter_eq_nil_iff.mpr fun o ho => ?_
      obtain ⟨t, -, rfl⟩ := List.mem_map.mp ho
      exact Bool.false_ne_true
    rw [shown, List.filter_cons_of_pos rfl, hothers]
    rfl
  rw [typeSelect, FormPart.entries, hchoice]
  cases type with
  | none =>
      rw [Option.map_none, Option.filter_none, Option.none_or, hshown]
      rfl
  | some id =>
      have hmem : codes (decimal id) ∈
          ((codes (decimal first), true) :: typeChoices typeMap).map Prod.fst := by
        rcases hknown id rfl with rfl | hid
        · exact List.mem_cons_self ..
        · obtain ⟨typeName, hname⟩ := Option.isSome_iff_exists.mp
            (Std.TreeMap.mem_iff_isSome_getElem?.mp hid)
          have hentry := Std.TreeMap.mem_toList_iff_getElem?_eq_some.mpr hname
          refine List.mem_cons_of_mem _ ?_
          rw [typeChoices, List.map_map]
          exact List.mem_map.mpr ⟨(id, typeName), hentry, rfl⟩
      rw [Option.map_some, Option.filter_some_pos (by simpa using hmem), Option.some_or]
      rfl

/-- The button that is picked, or else those that are checked. -/
theorem entries_sizeRadios {choice : Choice} {checked : Bytes → Bool} {size : Option Bytes}
    (hchoice : choice (codes (bytes "god_size")) = size.map codes) :
    (sizeRadios checked).flatMap (FormPart.entries choice) =
      (sizes.filter fun v => (size.map fun s => s == v).getD (checked v)).map fun v =>
        (codes (bytes "god_size"), codes v) := by
  have hradio : ∀ v : Bytes,
      FormPart.entries choice (.radio (codes (bytes "god_size")) (codes v) (checked v)) =
        if (size.map fun s => s == v).getD (checked v) then
          [(codes (bytes "god_size"), codes v)] else [] := by
    intro v
    rw [FormPart.entries, hchoice, Option.map_map]
    have hbeq : (fun s => s == codes v) ∘ codes = fun s : Bytes => s == v := by
      funext s
      rw [Function.comp_apply, Bool.eq_iff_iff, beq_iff_eq, beq_iff_eq, codes_inj]
    rw [hbeq]
  rw [sizeRadios, List.flatMap_map, List.flatMap_congr fun v _ => hradio v]
  induction sizes with
  | nil => rfl
  | cons v rest ih =>
      rw [List.flatMap_cons, ih, List.filter_cons]
      split <;> rfl

/-- One of the sizes, as it is picked or as it was. -/
theorem filter_sizes {s : Bytes} (h : s ∈ sizes) :
    sizes.filter (fun v => s == v) = [s] ∧
      sizes.filter (fun v => decide (strcmp v s = 0)) = [s] := by
  have hall : ∀ s ∈ sizes, sizes.filter (fun v => s == v) = [s] ∧
      sizes.filter (fun v => decide (strcmp v s = 0)) = [s] := by decide
  exact hall s h

/-! ## The form of a record -/

/-- What a user puts into the form for goods; nothing where a control is not touched. -/
structure GoodsEntry where
  name : Option Bytes
  type : Option Int
  price : Option Bytes
  size : Option Bytes

def GoodsEntry.choice (e : GoodsEntry) : Choice := fun n =>
  if n = codes (bytes "god_name") then e.name.map codes
  else if n = codes (bytes "god_type") then e.type.map fun id => codes (decimal id)
  else if n = codes (bytes "god_price") then e.price.map codes
  else if n = codes (bytes "god_size") then e.size.map codes
  else none

theorem GoodsEntry.choice_eq (e : GoodsEntry) :
    e.choice (codes (bytes "god_id")) = none ∧
      e.choice (codes (bytes "god_name")) = e.name.map codes ∧
      e.choice (codes (bytes "god_type")) = e.type.map (fun id => codes (decimal id)) ∧
      e.choice (codes (bytes "god_price")) = e.price.map codes ∧
      e.choice (codes (bytes "god_size")) = e.size.map codes := by
  have hnames : (["god_id", "god_name", "god_type", "god_price", "god_size"].map
      fun s => codes (bytes s)).Nodup := by decide
  simp only [List.map_cons, List.map_nil, List.nodup_cons, List.mem_cons, not_or,
    List.not_mem_nil] at hnames
  simp only [GoodsEntry.choice]
  grind

/-- The fields of the form of a record when it is sent. -/
def GoodsEntry.changed (e : GoodsEntry) (goods : GoodsRecord) : ChangeGod where
  goodsId := goods.godId
  goodsName := e.name.getD goods.godName
  goodsType := decimal (e.type.getD (atoi goods.godType))
  goodsPrice := e.price.getD goods.godPrice
  goodsSize := e.size.getD goods.godSize

/-- What a browser sends of it: texts of one line and a size with a button, each with a value
that fits its buffer. -/
structure ChangeGod.Sendable (f : ChangeGod) : Prop where
  id : OneLine f.goodsId
  name : OneLine f.goodsName
  price : OneLine f.goodsPrice
  size : f.goodsSize ∈ sizes
  typed : TypedForm f.form

theorem recordForm_entries {e : GoodsEntry} {typeMap : TypeMap} {goods : GoodsRecord}
    (h : (e.changed goods).Sendable) (htype : ∀ id ∈ e.type, id ∈ typeMap) :
    (recordForm typeMap goods).flatMap (FormPart.entries e.choice) =
      (e.changed goods).form.map fun f => (codes (bytes f.1), codes f.2) := by
  obtain ⟨hid, hname, htypeChoice, hprice, hsize⟩ := e.choice_eq
  have hsizes : (sizes.filter fun v => (e.size.map fun s => s == v).getD
      (decide (strcmp v goods.godSize = 0))) = [e.size.getD goods.godSize] := by
    have hmem : e.size.getD goods.godSize ∈ sizes := h.size
    cases hsome : e.size with
    | none =>
        rw [hsome] at hmem
        exact (filter_sizes hmem).2
    | some s =>
        rw [hsome] at hmem
        exact (filter_sizes hmem).1
  have hoptions : ∀ id ∈ e.type,
      id = atoi goods.godType ∨ id ∈ typeMap.erase (atoi goods.godType) := by
    intro id hmem
    by_cases hid : id = atoi goods.godType
    · exact .inl hid
    · exact .inr (Std.TreeMap.mem_erase.mpr
        ⟨fun h => hid (Std.LawfulEqCmp.eq_of_compare h).symm, htype id hmem⟩)
  have hidEntry := entries_textInput goods.godId true (hid.trans (Option.map_none codes).symm) h.id
  have hnameEntry := entries_textInput goods.godName false hname h.name
  have hpriceEntry := entries_textInput goods.godPrice false hprice h.price
  rw [recordForm, List.flatMap_append, entries_sizeRadios hsize, hsizes]
  simp only [List.flatMap_cons, List.flatMap_nil, hidEntry, hnameEntry,
    entries_typeSelect htypeChoice hoptions, hpriceEntry]
  rfl

/-- What is sent for a record. -/
theorem recordForm_body {e : GoodsEntry} {typeMap : TypeMap} {goods : GoodsRecord}
    (h : (e.changed goods).Sendable) (htype : ∀ id ∈ e.type, id ∈ typeMap) :
    formBody e.choice (recordForm typeMap goods) = submit (e.changed goods).form := by
  refine formBody_eq (recordForm_entries h htype) ?_
  have hnames : ∀ name ∈ ["god_id", "god_name", "god_type", "god_price", "god_size"],
      ∀ c ∈ bytes name, isUnreserved c = true := by decide
  intro f hf
  exact hnames f.1 (List.mem_map_of_mem (f := Prod.fst) hf)

/-! ## The body in the buffer -/

/-- The string that a program finds behind the stores of a body. -/
def postString (memory : Bytes) (stores : List Store) : Bytes := cstr (afterStores memory stores)

/-- A body without NUL that leaves room for one. -/
theorem postString_postData {body memory : Bytes} (hnul : ∀ c ∈ body, c ≠ 0)
    (hroom : body.length < memory.length) :
    postString memory (postData body.length body) = body := by
  have hstores := afterStores_bodyStores body.length [] body memory le_rfl hroom.le
  rw [List.nil_append, List.nil_append, List.length_nil, List.take_length] at hstores
  rw [postString, postData, Int.toNat_natCast, afterStores_append, hstores]
  refine cstr_afterStores_nul hnul (List.ne_nil_of_length_pos ?_)
  rw [List.length_drop]
  omega

/-- The body of a form whose names are short. -/
theorem TypedForm.submit_bounds {fields : List (String × Bytes)} (h : TypedForm fields)
    (hnames : ∀ f ∈ fields, (bytes f.1).length < 40) :
    (∀ c ∈ submit fields, c ≠ 0) ∧ (submit fields).length ≤ 80 * fields.length := by
  have hsent : submit fields = sent (fields.map fun f => (f.1, encode f.2)) := by
    rw [sent, List.map_map]
    rfl
  have hshort : ∀ f ∈ fields.map fun f => (f.1, encode f.2), IsShortName f.1 := by
    intro f hf
    obtain ⟨g, hg, rfl⟩ := List.mem_map.mp hf
    exact ⟨(h g hg).1, hnames g hg⟩
  have hplain : PlainForm (fields.map fun f => (f.1, encode f.2)) := by
    intro f hf
    obtain ⟨g, hg, rfl⟩ := List.mem_map.mp hf
    exact ⟨encode_plain, (h g hg).2.fits⟩
  rw [hsent]
  refine ⟨sent_ne_nul (fun f hf => (hshort f hf).1) hplain, ?_⟩
  exact (length_sent_le hshort hplain).trans_eq (by rw [List.length_map])

/-- A program gets such a form as it was sent. -/
theorem TypedForm.postString_submit {fields : List (String × Bytes)} (h : TypedForm fields)
    (hnames : ∀ f ∈ fields, (bytes f.1).length < 40) (hcount : fields.length ≤ 12)
    {memory : Bytes} (hmemory : postDataSize ≤ memory.length) :
    postString memory (postData (submit fields).length (submit fields)) = submit fields := by
  obtain ⟨hnul, hlength⟩ := h.submit_bounds hnames
  have hsize : postDataSize = 1024 := rfl
  exact postString_postData hnul (by omega)

theorem changeGodCgi_submit {f : ChangeGod} (h : TypedForm f.form) {memory : Bytes}
    (hmemory : postDataSize ≤ memory.length) :
    postString memory (changeGodCgi (submit f.form).length (submit f.form)) = submit f.form := by
  have hnames : ∀ name ∈ ["god_id", "god_name", "god_type", "god_price", "god_size"],
      (bytes name).length < 40 := by decide
  exact h.postString_submit (fun g hg => hnames g.1 (List.mem_map_of_mem (f := Prod.fst) hg))
    (show 5 ≤ 12 by norm_num) hmemory

theorem addGodCgi_submit {f : AddGoods} (h : TypedForm f.form) {memory : Bytes}
    (hmemory : postDataSize ≤ memory.length) :
    postString memory (addGodCgi (submit f.form).length (submit f.form)) = submit f.form := by
  have hnames : ∀ name ∈ ["god_name", "god_type", "god_price", "god_size"],
      (bytes name).length < 40 := by decide
  exact h.postString_submit (fun g hg => hnames g.1 (List.mem_map_of_mem (f := Prod.fst) hg))
    (show 4 ≤ 12 by norm_num) hmemory

/-! ## A record is changed -/

variable {refs : References} {server : SelectServer}

/-- The page of a record, and what its form sends to the program. -/
theorem changePage_request (r : ShownCells refs server) {s : Tables} {types : List (Int × Bytes)}
    (h : ShownTypes refs s types) {id : Nat} (hid : (decimalNat id).length < 40)
    (hrow : s.goods.lookup id = some r.cells) (htype : r.type ∈ types.map Prod.fst)
    {e : GoodsEntry} (hchosen : ∀ t ∈ e.type, t ∈ types.map Prod.fst)
    (hsendable : (e.changed (r.record id)).Sendable) :
    ∃ page parts, changeGodGet server s.database (bytes "god_id=" ++ decimalNat id) = .ok page ∧
      formParts .outside (tokenize refs (pageBytes page)) =
        .start (codes (bytes "change_god_cgi")) (codes (bytes "POST")) :: parts ∧
      formBody e.choice parts = submit (e.changed (r.record id)).form := by
  obtain ⟨page, hpage, hform⟩ := changeGodGet_form r h hid hrow htype
  have hbody : formBody e.choice (recordForm (typeMapOf types) (r.record id)) =
      submit (e.changed (r.record id)).form :=
    recordForm_body hsendable fun t ht => mem_typeMapOf.mpr (hchosen t ht)
  exact ⟨page, _, hpage, hform, hbody⟩

/-- What the program makes of it. -/
theorem ChangeGod.Sendable.order_eq {f : ChangeGod} (h : f.Sendable) (k : Columns)
    (held : ChangeGod) {memory : Bytes} (hmemory : postDataSize ≤ memory.length) :
    Request.order k (.changeGod held (postString memory
      (changeGodCgi (submit f.form).length (submit f.form)))) = f.encoded.order k := by
  rw [changeGodCgi_submit h.typed hmemory, Request.order, ChangeGod.scan_submit held h.typed,
    Option.bind_some]

/-- The page of a record is opened, some of its controls are filled in, and the form is sent.
When the update is executed, the record with this id gets what the columns make of the values,
and nothing else changes. -/
theorem record_changed (r : ShownCells refs server) {s : Tables} {types : List (Int × Bytes)}
    (h : ShownTypes refs s types) {id : Nat} (hid : (decimalNat id).length < 40)
    (hrow : s.goods.lookup id = some r.cells) (htype : r.type ∈ types.map Prod.fst)
    {e : GoodsEntry} (hchosen : ∀ t ∈ e.type, t ∈ types.map Prod.fst)
    (hsendable : (e.changed (r.record id)).Sendable) {changes : ChangeServer} {cells : GoodsCells}
    (horder : (e.changed (r.record id)).encoded.order changes.columns = some (.change id cells))
    (held : ChangeGod) {memory : Bytes} (hmemory : postDataSize ≤ memory.length) :
    ∃ page parts, changeGodGet server s.database (bytes "god_id=" ++ decimalNat id) = .ok page ∧
      formParts .outside (tokenize refs (pageBytes page)) =
        .start (codes (bytes "change_god_cgi")) (codes (bytes "POST")) :: parts ∧
      formBody e.choice parts = submit (e.changed (r.record id)).form ∧
      ∀ s', changes.post s (.changeGod held (postString memory (changeGodCgi
          (formBody e.choice parts).length (formBody e.choice parts)))) = some s' →
        s'.shop = s.shop.fill (.change id cells) := by
  obtain ⟨page, parts, hpage, hform, hbody⟩ :=
    changePage_request r h hid hrow htype hchosen hsendable
  refine ⟨page, parts, hpage, hform, hbody, fun s' hpost => ?_⟩
  rw [hbody] at hpost
  exact changes.post_refines ((hsendable.order_eq _ held hmemory).trans horder) hpost

/-- A pen, of the only type there is. -/
def penTables : Tables where
  goods := Keyed.empty.insert ⟨some (bytes "pen"), some 1, some 1, some (bytes "big")⟩
  types := Keyed.empty.insert (some (bytes "pens"))

theorem penTables_types : ShownTypes someReferences penTables [(1, bytes "pens")] where
  rows := rfl
  ints := List.forall_mem_singleton.mpr (by decide)
  names := List.forall_mem_singleton.mpr (by decide)
  count := by decide

def penCellsShown : ShownCells someReferences plainServer where
  name := bytes "pen"
  type := 1
  price := 1
  size := bytes "big"
  nameText := valueText_of_unreserved _ (by decide)
  priceText := valueText_of_unreserved _ (by decide)
  typeInt := by decide
  sizeText := by decide

theorem zeros_room : postDataSize ≤ (List.replicate postDataSize (0 : UInt8)).length :=
  (List.length_replicate ..).ge

/-- Another name and another price. -/
def greenPen : GoodsEntry := ⟨some (bytes "green pen"), none, some (bytes "-2.5"), none⟩

theorem record_changed_pen : ∃ page parts s',
    changeGodGet plainServer penTables.database (bytes "god_id=" ++ decimalNat 1) = .ok page ∧
      formParts .outside (tokenize someReferences (pageBytes page)) =
        .start (codes (bytes "change_god_cgi")) (codes (bytes "POST")) :: parts ∧
      plainTables.post penTables (.changeGod ⟨[], [], [], [], []⟩
        (postString (List.replicate postDataSize 0) (changeGodCgi
          (formBody greenPen.choice parts).length (formBody greenPen.choice parts)))) = some s' ∧
      s'.shop = penTables.shop.fill (.change (1 : Nat)
        ⟨some (bytes "green+pen"), some 1, some (-5 / 2), some (bytes "big")⟩) := by
  have hsendable : (greenPen.changed (penCellsShown.record 1)).Sendable :=
    ⟨by decide, by decide, by decide, by decide,
      by decide⟩
  have horder : (greenPen.changed (penCellsShown.record 1)).encoded.order plainTables.columns =
      some (.change (1 : Nat)
        ⟨some (bytes "green+pen"), some 1, some (-5 / 2), some (bytes "big")⟩) := by
    decide +kernel
  obtain ⟨page, parts, hpage, hform, hbody, hchanged⟩ :=
    record_changed penCellsShown penTables_types (by decide) rfl (List.mem_singleton_self _)
      (fun _ ht => by cases ht) hsendable horder ⟨[], [], [], [], []⟩ zeros_room
  obtain ⟨s', hpost⟩ : ∃ s', plainTables.post penTables (.changeGod ⟨[], [], [], [], []⟩
      (submit (greenPen.changed (penCellsShown.record 1)).form)) = some s' :=
    Option.isSome_iff_exists.mp (by decide +kernel)
  rw [← changeGodCgi_submit hsendable.typed zeros_room, ← hbody] at hpost
  exact ⟨page, parts, s', hpage, hform, hpost, hchanged s' hpost⟩

/-! ## A record is left as it is -/

/-- The numeral of a number is read as this number. -/
theorem read_decimal (v : Int) : ∃ d, Decimal.read (decimal v) = some d ∧ d.value = v := by
  have hof : ∀ (negative : Bool) (n : Nat), ∃ d,
      Decimal.ofText negative (decimalNat n) = some d ∧ d.magnitude = n ∧
        d.negative = negative := by
    intro negative n
    have hdigits : ∀ c ∈ decimalNat n, isdigit c = true := isDigits_decimalNat n
    have hdecimal : isDecimal (decimalNat n) = true := by
      rw [isDecimal, isNumber_of_digits (decimalNat_ne_nil n) hdigits, Bool.true_and,
        List.all_eq_true]
      exact fun c hc => by rw [hdigits c hc, Bool.true_or]
    refine ⟨⟨negative, decimalNat n, hdecimal⟩, dif_pos hdecimal, ?_, rfl⟩
    have htake : (decimalNat n).takeWhile isdigit = decimalNat n :=
      List.takeWhile_eq_self_iff.mpr hdigits
    have hdrop : (decimalNat n).dropWhile isdigit = [] := List.dropWhile_eq_nil_iff.mpr hdigits
    rw [Decimal.magnitude, htake, hdrop, numeral_decimalNat]
    simp
  cases v with
  | ofNat n =>
      obtain ⟨d, hd, hvalue, hsign⟩ := hof false n
      refine ⟨d, ?_, ?_⟩
      · rw [decimal]
        cases hn : decimalNat n with
        | nil => exact absurd hn (decimalNat_ne_nil n)
        | cons c text =>
            have hc : c ≠ 45 := by
              rintro rfl
              have hdigit := isDigits_decimalNat n 45 (hn ▸ List.mem_cons_self ..)
              exact absurd hdigit (by decide)
            rw [Decimal.read, if_neg hc, ← hn, hd]
      · rw [Decimal.value, hsign, hvalue]
        rfl
  | negSucc n =>
      obtain ⟨d, hd, hvalue, hsign⟩ := hof true (n + 1)
      refine ⟨d, ?_, ?_⟩
      · rw [decimal, Decimal.read, if_pos rfl, hd]
      · rw [Decimal.value, hsign, hvalue, Int.cast_negSucc]
        rfl

theorem unreserved_of_read {text : Bytes} {d : Decimal} (h : Decimal.read text = some d) :
    Unreserved text := by
  rw [Decimal.of_read h]
  have hdecimal := d.decimal
  rw [isDecimal, Bool.and_eq_true, List.all_eq_true] at hdecimal
  refine List.forall_mem_append.mpr ⟨?_, fun c hc => ?_⟩
  · rw [Decimal.sign]
    split
    next => decide
    next => exact List.forall_mem_nil _
  · rcases Bool.or_eq_true_iff.mp (hdecimal.2 c hc) with hdigit | hpoint
    · rw [isUnreserved, hdigit]
      rfl
    · rw [beq_iff_eq.mp hpoint]
      rfl

/-- No encoding has a quote or a backslash. -/
theorem ofText_encode (b : Bytes) :
    ∃ t, SqlWhere.PlainText.ofText (encode b) = some t ∧ t.text = encode b := by
  have hplain : isPlainText (encode b) = true := by
    refine List.all_eq_true.mpr fun c hc => ?_
    obtain ⟨d, -, hcd⟩ := List.mem_flatMap.mp hc
    exact List.all_eq_true.mp (forall_byte
      (p := fun d => (encodeByte d).all fun c => c != 39 && c != 92) (by decide +kernel) d) c hcd
  exact ⟨⟨encode b, hplain⟩, dif_pos hplain, rfl⟩

/-- Nothing is put into the form. -/
def untouched : GoodsEntry := ⟨none, none, none, none⟩

/-- The columns keep what a page shows of the record, and the name in its encoding. -/
structure Columns.Keeps (k : Columns) (r : ShownCells refs server) : Prop where
  name : k.godName (encode r.name) = some (encode r.name)
  type : k.godType r.type = some r.type
  price : ∃ d, Decimal.read (server.showPrice r.price) = some d ∧ k.godPrice d.value = some r.price
  size : k.godSize r.size = some r.size

/-- The cells with the name in its encoding. -/
def ShownCells.sentBack (r : ShownCells refs server) : GoodsCells :=
  { r.cells with godName := some (encode r.name) }

theorem untouched_order (r : ShownCells refs server) {k : Columns} (hk : k.Keeps r) (id : Nat)
    (hsize : r.size ∈ sizes) :
    (untouched.changed (r.record id)).encoded.order k = some (.change id r.sentBack) := by
  obtain ⟨price, hprice, hkprice⟩ := hk.price
  obtain ⟨idNumeral, hid, hidValue⟩ := read_decimal id
  obtain ⟨type, htype, htypeValue⟩ := read_decimal r.type
  obtain ⟨name, hname, hnameText⟩ := ofText_encode r.name
  obtain ⟨size, hsizeText, hsizeEq⟩ := ofText_encode r.size
  have hencoded : ∀ {v : Bytes}, Unreserved v → encode v = v :=
    fun h => (encode_eq_self_iff _).mpr h
  have hsizes : ∀ v ∈ sizes, encode v = v := by decide
  rw [hsizes r.size hsize] at hsizeText hsizeEq
  have hfields : (untouched.changed (r.record id)).encoded =
      ⟨decimal id, encode r.name, decimal r.type, server.showPrice r.price, r.size⟩ := by
    show ChangeGod.mk (encode (decimal id)) (encode r.name) (encode (decimal (atoi (decimal r.type))))
      (encode (server.showPrice r.price)) (encode r.size) = _
    rw [hencoded (unreserved_decimal id), atoi_decimal r.typeInt,
      hencoded (unreserved_decimal r.type), hencoded (unreserved_of_read hprice),
      hsizes r.size hsize]
  have hcells : k.cells name type price size = some r.sentBack := by
    rw [Columns.cells, hnameText, htypeValue, hsizeEq, hk.name, Option.bind_some, hk.type,
      Option.bind_some, hkprice, Option.bind_some, hk.size, Option.map_some]
    rfl
  rw [hfields, ChangeGod.order, hid, Option.bind_some, hname, Option.bind_some, htype,
    Option.bind_some, hprice, Option.bind_some, hsizeText, Option.bind_some, hcells,
    Option.map_some, hidValue]
  rfl

/-- A change to the cells that a record has changes nothing, and any other does. -/
theorem fill_change_eq_iff {shop : Shop} {id : Int} {cells new : GoodsCells}
    (h : shop.goods id = some cells) : shop.fill (.change id new) = shop ↔ new = cells := by
  have hgoods : (shop.fill (.change id new)).goods = Function.update shop.goods id (some new) := by
    funext n
    rw [Shop.fill, Function.update_apply]
    dsimp only
    by_cases hn : n = id
    · subst hn
      rw [if_pos rfl, if_pos rfl, h, Option.map_some]
    · rw [if_neg (fun hcast => hn (Int.cast_injective hcast)), if_neg hn]
  constructor
  · intro heq
    rw [heq] at hgoods
    have hid := congrFun hgoods id
    rw [Function.update_self, h] at hid
    exact (Option.some.inj hid).symm
  · rintro rfl
    have hsame : (shop.fill (.change id new)).goods = shop.goods := by
      rw [hgoods, ← h, Function.update_eq_self]
    show Shop.mk (shop.fill (.change id new)).goods _ _ _ = shop
    rw [hsame]

/-- The page of a record is opened, and its form is sent without touching anything.  When the
update is executed, all that changes is the name, which comes back in its encoding.  So the
tables stay as they are exactly when the name has letters, digits and `*-._` only. -/
theorem record_sent_back (r : ShownCells refs server) {s : Tables} {types : List (Int × Bytes)}
    (h : ShownTypes refs s types) {id : Nat} (hid : (decimalNat id).length < 40)
    (hrow : s.goods.lookup id = some r.cells) (htype : r.type ∈ types.map Prod.fst)
    (hsendable : (untouched.changed (r.record id)).Sendable) {changes : ChangeServer}
    (hk : changes.columns.Keeps r) (held : ChangeGod) {memory : Bytes}
    (hmemory : postDataSize ≤ memory.length) :
    ∃ page parts, changeGodGet server s.database (bytes "god_id=" ++ decimalNat id) = .ok page ∧
      formParts .outside (tokenize refs (pageBytes page)) =
        .start (codes (bytes "change_god_cgi")) (codes (bytes "POST")) :: parts ∧
      formBody untouched.choice parts = submit (untouched.changed (r.record id)).form ∧
      ∀ s', changes.post s (.changeGod held (postString memory (changeGodCgi
          (formBody untouched.choice parts).length (formBody untouched.choice parts)))) =
          some s' →
        s'.shop = s.shop.fill (.change id r.sentBack) ∧
          (s'.shop = s.shop ↔ Unreserved r.name) := by
  obtain ⟨page, parts, hpage, hform, hbody⟩ :=
    changePage_request r h hid hrow htype (fun _ ht => by cases ht) hsendable
  refine ⟨page, parts, hpage, hform, hbody, fun s' hpost => ?_⟩
  rw [hbody] at hpost
  have hshop := changes.post_refines
    ((hsendable.order_eq _ held hmemory).trans (untouched_order r hk id hsendable.size)) hpost
  refine ⟨hshop, ?_⟩
  have hgoods : s.shop.goods (id : Int) = some r.cells := hrow
  have hname : r.sentBack = r.cells ↔ encode r.name = r.name := by
    constructor
    · exact fun heq => Option.some.inj (congrArg GoodsCells.godName heq)
    · exact fun heq => by rw [ShownCells.sentBack, heq]; rfl
  rw [hshop]
  exact (fill_change_eq_iff hgoods).trans (hname.trans (encode_eq_self_iff _))

theorem penCells_kept : plainTables.columns.Keeps penCellsShown :=
  ⟨rfl, rfl, ⟨⟨false, bytes "1.00", by decide +kernel⟩, rfl, by decide +kernel⟩, rfl⟩

theorem record_sent_back_pen : ∃ page parts s',
    changeGodGet plainServer penTables.database (bytes "god_id=" ++ decimalNat 1) = .ok page ∧
      formParts .outside (tokenize someReferences (pageBytes page)) =
        .start (codes (bytes "change_god_cgi")) (codes (bytes "POST")) :: parts ∧
      plainTables.post penTables (.changeGod ⟨[], [], [], [], []⟩
        (postString (List.replicate postDataSize 0) (changeGodCgi
          (formBody untouched.choice parts).length (formBody untouched.choice parts)))) =
        some s' ∧
      s'.shop = penTables.shop.fill (.change (1 : Nat) penCellsShown.sentBack) ∧
      (s'.shop = penTables.shop ↔ Unreserved penCellsShown.name) := by
  have hsendable : (untouched.changed (penCellsShown.record 1)).Sendable :=
    ⟨by decide, by decide, by decide, by decide,
      by decide⟩
  obtain ⟨page, parts, hpage, hform, hbody, hchanged⟩ :=
    record_sent_back penCellsShown penTables_types (by decide) rfl (List.mem_singleton_self _)
      hsendable penCells_kept ⟨[], [], [], [], []⟩ zeros_room
  obtain ⟨s', hpost⟩ : ∃ s', plainTables.post penTables (.changeGod ⟨[], [], [], [], []⟩
      (submit (untouched.changed (penCellsShown.record 1)).form)) = some s' :=
    Option.isSome_iff_exists.mp (by decide +kernel)
  rw [← changeGodCgi_submit hsendable.typed zeros_room, ← hbody] at hpost
  exact ⟨page, parts, s', hpage, hform, hpost, hchanged s' hpost⟩

/-! ## A page that is out of date -/

/-- What a form sends of the controls that have not been touched. -/
theorem changed_order_keeps (r : ShownCells refs server) {k : Columns} (hk : k.Keeps r) {n : Nat}
    {e : GoodsEntry} {id : Rat} {cells : GoodsCells} (hsize : e.size.getD r.size ∈ sizes)
    (h : (e.changed (r.record n)).encoded.order k = some (.change id cells)) :
    id = n ∧ (e.name = none → cells.godName = some (encode r.name)) ∧
      (e.type = none → cells.godType = some r.type) ∧
      (e.price = none → cells.godPrice = some r.price) ∧
      (e.size = none → cells.godSize = some r.size) := by
  obtain ⟨idNumeral, name, type, price, size, stored, hid, hname, htype, hprice, hsizeText, hcells,
    horder⟩ := ChangeGod.order_cases h
  obtain ⟨rfl, rfl⟩ := Order.change.inj horder
  obtain ⟨v, w, x, y, hv, hw, hx, hy, rfl⟩ := Columns.cells_cases hcells
  refine ⟨?_, fun hnone => ?_, fun hnone => ?_, fun hnone => ?_, fun hnone => ?_⟩
  · obtain ⟨d, hd, hvalue⟩ := read_decimal n
    have hnumeral : Decimal.read (encode (decimal n)) = some idNumeral := hid
    rw [(encode_eq_self_iff _).mpr (unreserved_decimal n), hd] at hnumeral
    rw [← Option.some.inj hnumeral, hvalue, Int.cast_natCast]
  · have htext : PlainText.ofText (encode (e.name.getD r.name)) = some name := hname
    rw [hnone, Option.getD_none] at htext
    rw [text_of_ofText htext, hk.name] at hv
    rw [Option.some.inj hv]
  · obtain ⟨d, hd, hvalue⟩ := read_decimal r.type
    have hnumeral : Decimal.read (encode (decimal (e.type.getD (atoi (decimal r.type))))) =
        some type := htype
    rw [hnone, Option.getD_none, atoi_decimal r.typeInt,
      (encode_eq_self_iff _).mpr (unreserved_decimal r.type), hd] at hnumeral
    rw [← Option.some.inj hnumeral, hvalue, hk.type] at hw
    rw [Option.some.inj hw]
  · obtain ⟨d, hd, hstored⟩ := hk.price
    have hnumeral : Decimal.read (encode (e.price.getD (server.showPrice r.price))) =
        some price := hprice
    rw [hnone, Option.getD_none, (encode_eq_self_iff _).mpr (unreserved_of_read hd), hd] at hnumeral
    rw [← Option.some.inj hnumeral, hstored] at hx
    rw [Option.some.inj hx]
  · have htext : PlainText.ofText (encode (e.size.getD r.size)) = some size := hsizeText
    have hplain : ∀ z ∈ sizes, encode z = z := by decide
    rw [hplain _ hsize, hnone, Option.getD_none] at htext
    rw [text_of_ofText htext, hk.size] at hy
    rw [Option.some.inj hy]

/-- The page of a record is opened, and its form is sent later, whatever has become of the
tables in the meantime.  When the update is executed, every cell of the record is written again:
those whose control has not been touched get what the page showed, so changes made in between
are undone.  A record that is gone stays away, and no other record is touched. -/
theorem record_overwritten (r : ShownCells refs server) {s : Tables} {types : List (Int × Bytes)}
    (h : ShownTypes refs s types) {id : Nat} (hid : (decimalNat id).length < 40)
    (hrow : s.goods.lookup id = some r.cells) (htype : r.type ∈ types.map Prod.fst)
    {e : GoodsEntry} (hchosen : ∀ t ∈ e.type, t ∈ types.map Prod.fst)
    (hsendable : (e.changed (r.record id)).Sendable) {changes : ChangeServer}
    (hk : changes.columns.Keeps r) {order : Order}
    (horder : (e.changed (r.record id)).encoded.order changes.columns = some order)
    (held : ChangeGod) {memory : Bytes} (hmemory : postDataSize ≤ memory.length) (later : Tables) :
    ∃ page parts cells,
      changeGodGet server s.database (bytes "god_id=" ++ decimalNat id) = .ok page ∧
      formParts .outside (tokenize refs (pageBytes page)) =
        .start (codes (bytes "change_god_cgi")) (codes (bytes "POST")) :: parts ∧
      formBody e.choice parts = submit (e.changed (r.record id)).form ∧
      (∀ s', changes.post later (.changeGod held (postString memory (changeGodCgi
          (formBody e.choice parts).length (formBody e.choice parts)))) = some s' →
        s'.goods.lookup id = (later.goods.lookup id).map (fun _ => cells) ∧
          ∀ n : Int, n ≠ id → s'.goods.lookup n = later.goods.lookup n) ∧
      (e.name = none → cells.godName = some (encode r.name)) ∧
      (e.type = none → cells.godType = some r.type) ∧
      (e.price = none → cells.godPrice = some r.price) ∧
      (e.size = none → cells.godSize = some r.size) := by
  obtain ⟨page, parts, hpage, hform, hbody⟩ :=
    changePage_request r h hid hrow htype hchosen hsendable
  obtain ⟨_, _, _, _, _, cells, -, -, -, -, -, -, rfl⟩ := ChangeGod.order_cases horder
  obtain ⟨hvalue, hkept⟩ := changed_order_keeps r hk hsendable.size horder
  rw [hvalue] at horder
  refine ⟨page, parts, cells, hpage, hform, hbody, fun s' hpost => ?_, hkept⟩
  rw [hbody] at hpost
  have hshop := changes.post_refines ((hsendable.order_eq _ held hmemory).trans horder) hpost
  have hgoods : ∀ n : Int, s'.goods.lookup n =
      if (n : Rat) = id then (later.goods.lookup n).map fun _ => cells
      else later.goods.lookup n := fun n => congrFun (congrArg Shop.goods hshop) n
  refine ⟨?_, fun n hn => ?_⟩
  · rw [hgoods, if_pos (Int.cast_natCast id)]
  · refine (hgoods n).trans (if_neg fun hcast => hn ?_)
    exact Int.cast_injective (hcast.trans (Int.cast_natCast id).symm)

/-- The price of the pen is changed while the page is open, and only the name in the page. -/
theorem record_overwritten_pen : ∃ later page parts s' cells,
    plainTables.post penTables (.changeGod ⟨[], [], [], [], []⟩
        (bytes "god_id=1&god_name=pen&god_type=1&god_price=9&god_size=big")) = some later ∧
      changeGodGet plainServer penTables.database (bytes "god_id=" ++ decimalNat 1) = .ok page ∧
      formParts .outside (tokenize someReferences (pageBytes page)) =
        .start (codes (bytes "change_god_cgi")) (codes (bytes "POST")) :: parts ∧
      plainTables.post later (.changeGod ⟨[], [], [], [], []⟩
        (postString (List.replicate postDataSize 0) (changeGodCgi
          (formBody (GoodsEntry.choice ⟨some (bytes "quill"), none, none, none⟩) parts).length
          (formBody (GoodsEntry.choice ⟨some (bytes "quill"), none, none, none⟩) parts)))) =
        some s' ∧
      s'.goods.lookup (1 : Nat) = (later.goods.lookup (1 : Nat)).map (fun _ => cells) ∧
      cells.godPrice = some 1 := by
  have hsendable : (GoodsEntry.changed ⟨some (bytes "quill"), none, none, none⟩
      (penCellsShown.record 1)).Sendable :=
    ⟨by decide, by decide, by decide, by decide,
      by decide⟩
  obtain ⟨order, horder⟩ : ∃ order, ChangeGod.order plainTables.columns (GoodsEntry.changed
      ⟨some (bytes "quill"), none, none, none⟩ (penCellsShown.record 1)).encoded = some order :=
    Option.isSome_iff_exists.mp (by decide +kernel)
  obtain ⟨s', hrun⟩ : ∃ s', run plainTables.post penTables [.changeGod ⟨[], [], [], [], []⟩
      (bytes "god_id=1&god_name=pen&god_type=1&god_price=9&god_size=big"),
      .changeGod ⟨[], [], [], [], []⟩ (submit (GoodsEntry.changed
        ⟨some (bytes "quill"), none, none, none⟩ (penCellsShown.record 1)).form)] = some s' :=
    Option.isSome_iff_exists.mp (by decide +kernel)
  obtain ⟨later, hlater, hrun⟩ := run_cons.mp hrun
  have hpost := run_singleton.mp hrun
  obtain ⟨page, parts, cells, hpage, hform, hbody, hchanged, -, -, hprice, -⟩ :=
    record_overwritten penCellsShown penTables_types (by decide) rfl
      (List.mem_singleton_self _) (fun _ ht => by cases ht) hsendable penCells_kept horder
      ⟨[], [], [], [], []⟩ zeros_room later
  rw [← changeGodCgi_submit hsendable.typed zeros_room, ← hbody] at hpost
  exact ⟨later, page, parts, s', cells, hlater, hpage, hform, hpost, (hchanged s' hpost).1,
    hprice rfl⟩

/-! ## A record is added -/

/-- The fields of the form without a record when it is sent. -/
def GoodsEntry.added (e : GoodsEntry) : AddGoods where
  goodsName := e.name.getD []
  goodsType := decimal (e.type.getD (-1))
  goodsPrice := e.price.getD []
  goodsSize := e.size.getD []

/-- What a browser sends of it. -/
structure AddGoods.Sendable (f : AddGoods) : Prop where
  name : OneLine f.goodsName
  price : OneLine f.goodsPrice
  size : f.goodsSize ∈ sizes
  typed : TypedForm f.form

theorem addForm_body {e : GoodsEntry} {typeMap : TypeMap} (h : e.added.Sendable)
    (htype : ∀ id ∈ e.type, id ∈ typeMap) :
    formBody e.choice (addForm typeMap) = submit e.added.form := by
  obtain ⟨-, hname, htypeChoice, hprice, hsize⟩ := e.choice_eq
  have hsizes : (sizes.filter fun v => (e.size.map fun s => s == v).getD false) =
      [e.size.getD []] := by
    have hmem : e.size.getD [] ∈ sizes := h.size
    cases hsome : e.size with
    | none =>
        rw [hsome] at hmem
        exact absurd hmem (by decide)
    | some s =>
        rw [hsome] at hmem
        exact (filter_sizes hmem).1
  have hnameEntry := entries_textInput [] false hname h.name
  have hpriceEntry := entries_textInput [] false hprice h.price
  have hentries : (addForm typeMap).flatMap (FormPart.entries e.choice) =
      e.added.form.map fun f => (codes (bytes f.1), codes f.2) := by
    rw [addForm, List.flatMap_append, entries_sizeRadios hsize, hsizes]
    simp only [List.flatMap_cons, List.flatMap_nil, hnameEntry,
      entries_typeSelect htypeChoice fun id hid => .inr (htype id hid), hpriceEntry]
    rfl
  have hnames : ∀ name ∈ ["god_name", "god_type", "god_price", "god_size"],
      ∀ c ∈ bytes name, isUnreserved c = true := by decide
  exact formBody_eq hentries fun f hf => hnames f.1 (List.mem_map_of_mem (f := Prod.fst) hf)

/-- The page without a record is opened, filled in and sent.  When the insert is executed, there
is a record more, with what the columns make of the values.  The list shows it exactly when its
type is one of the types; so a form sent without choosing one makes a record that is not in the
list. -/
theorem record_added {s : Tables} {types : List (Int × Bytes)} (h : ShownTypes refs s types)
    (server : SelectServer) {e : GoodsEntry} (hchosen : ∀ t ∈ e.type, t ∈ types.map Prod.fst)
    (hsendable : e.added.Sendable) {changes : ChangeServer} {cells : GoodsCells}
    (horder : e.added.encoded.order changes.columns = some (.add cells)) (held : AddGoods)
    {memory : Bytes} (hmemory : postDataSize ≤ memory.length) :
    ∃ page parts, addGodShowGet server s.database = .ok page ∧
      formParts .outside (tokenize refs (pageBytes page)) =
        .start (codes (bytes "add_god_cgi")) (codes (bytes "POST")) :: parts ∧
      formBody e.choice parts = submit e.added.form ∧
      ∀ s', changes.post s (.addGod held (postString memory (addGodCgi
          (formBody e.choice parts).length (formBody e.choice parts)))) = some s' →
        s'.shop = s.shop.fill (.add cells) ∧
          ((∃ g ∈ s'.database.listing, g.godId = s.goods.next) ↔
            ∃ t ∈ cells.godType, t ∈ types.map Prod.fst) := by
  obtain ⟨page, hpage, hform⟩ := addGodShowGet_form h server
  have hbody : formBody e.choice (addForm (typeMapOf types)) = submit e.added.form :=
    addForm_body hsendable fun t ht => mem_typeMapOf.mpr (hchosen t ht)
  have hrequest : Request.order changes.columns (.addGod held (postString memory
      (addGodCgi (submit e.added.form).length (submit e.added.form)))) = some (.add cells) := by
    rw [addGodCgi_submit hsendable.typed hmemory, Request.order,
      AddGoods.scan_submit held hsendable.typed, Option.bind_some, horder]
  rw [← hbody] at hrequest
  refine ⟨page, _, hpage, hform, hbody, fun s' hpost => ?_⟩
  have hshop := changes.post_refines hrequest hpost
  refine ⟨hshop, ?_⟩
  have hgoods : (s.shop.fill (.add cells)).goods s.goods.next = some cells :=
    Function.update_self ..
  have htypes : ∀ t, (∃ name, s.types.lookup t = some name) ↔ t ∈ types.map Prod.fst := by
    intro t
    simp only [Keyed.lookup_eq_some, h.rows, List.mem_map, Prod.mk.injEq]
    constructor
    · rintro ⟨name, entry, hentry, rfl, -⟩
      exact ⟨entry, hentry, rfl⟩
    · rintro ⟨entry, hentry, rfl⟩
      exact ⟨some entry.2, entry, hentry, rfl, rfl⟩
  simp only [mem_listing_iff, hshop]
  constructor
  · rintro ⟨g, ⟨cells', type, hg, htype, hname, -⟩, hid⟩
    rw [hid, hgoods] at hg
    cases hg
    exact ⟨type, htype, (htypes type).mp ⟨_, hname⟩⟩
  · rintro ⟨type, htype, hmem⟩
    obtain ⟨name, hname⟩ := (htypes type).mpr hmem
    exact ⟨⟨s.goods.next, cells.godName, name, cells.godPrice, cells.godSize⟩,
      ⟨cells, type, hgoods, htype, hname, rfl, rfl, rfl⟩, rfl⟩

/-- An ink pot of the type of the pen. -/
def inkPot : GoodsEntry :=
  ⟨some (bytes "ink pot"), some 1, some (bytes "3"), some (bytes "small")⟩

theorem record_added_ink : ∃ page parts s',
    addGodShowGet plainServer penTables.database = .ok page ∧
      formParts .outside (tokenize someReferences (pageBytes page)) =
        .start (codes (bytes "add_god_cgi")) (codes (bytes "POST")) :: parts ∧
      plainTables.post penTables (.addGod ⟨[], [], [], []⟩
        (postString (List.replicate postDataSize 0) (addGodCgi
          (formBody inkPot.choice parts).length (formBody inkPot.choice parts)))) = some s' ∧
      s'.shop = penTables.shop.fill
        (.add ⟨some (bytes "ink+pot"), some 1, some 3, some (bytes "small")⟩) ∧
      ((∃ g ∈ s'.database.listing, g.godId = penTables.goods.next) ↔
        ∃ t ∈ some (1 : Int), t ∈ [((1 : Int), bytes "pens")].map Prod.fst) := by
  have hsendable : inkPot.added.Sendable :=
    ⟨by decide, by decide, by decide, by decide⟩
  have horder : inkPot.added.encoded.order plainTables.columns =
      some (.add ⟨some (bytes "ink+pot"), some 1, some 3, some (bytes "small")⟩) := by
    decide +kernel
  obtain ⟨page, parts, hpage, hform, hbody, hadded⟩ :=
    record_added penTables_types plainServer (by decide) hsendable horder ⟨[], [], [], []⟩ zeros_room
  obtain ⟨s', hpost⟩ : ∃ s', plainTables.post penTables
      (.addGod ⟨[], [], [], []⟩ (submit inkPot.added.form)) = some s' :=
    Option.isSome_iff_exists.mp (by decide +kernel)
  rw [← addGodCgi_submit hsendable.typed zeros_room, ← hbody] at hpost
  exact ⟨page, parts, s', hpage, hform, hpost, hadded s' hpost⟩

/-! ## A search -/

/-- What a user puts into the form of a search. -/
structure SearchEntry where
  id : Option Bytes
  name : Option Bytes
  type : Option Int
  low : Option Bytes
  high : Option Bytes
  size : Option Bytes

def SearchEntry.choice (e : SearchEntry) : Choice := fun n =>
  if n = codes (bytes "god_id") then e.id.map codes
  else if n = codes (bytes "god_name") then e.name.map codes
  else if n = codes (bytes "god_type") then e.type.map fun id => codes (decimal id)
  else if n = codes (bytes "god_price_l") then e.low.map codes
  else if n = codes (bytes "god_price_h") then e.high.map codes
  else if n = codes (bytes "god_size") then e.size.map codes
  else none

theorem SearchEntry.choice_eq (e : SearchEntry) :
    e.choice (codes (bytes "god_id")) = e.id.map codes ∧
      e.choice (codes (bytes "god_name")) = e.name.map codes ∧
      e.choice (codes (bytes "god_type")) = e.type.map (fun id => codes (decimal id)) ∧
      e.choice (codes (bytes "god_price_l")) = e.low.map codes ∧
      e.choice (codes (bytes "god_price_h")) = e.high.map codes ∧
      e.choice (codes (bytes "god_size")) = e.size.map codes := by
  have hnames : (["god_id", "god_name", "god_type", "god_price_l", "god_price_h", "god_size"].map
      fun s => codes (bytes s)).Nodup := by decide
  simp only [List.map_cons, List.map_nil, List.nodup_cons, List.mem_cons, not_or,
    List.not_mem_nil] at hnames
  simp only [SearchEntry.choice]
  grind

/-- The filters of the form, where the size is open unless a button is picked. -/
def SearchEntry.filters (e : SearchEntry) : Filters where
  godId := e.id.getD (bytes "xx")
  godName := e.name.getD (bytes "xx")
  godType := decimal (e.type.getD (-1))
  godPriceL := e.low.getD (bytes "xx.xx")
  godPriceH := e.high.getD (bytes "xx.xx")
  godSize := e.size.getD (bytes "any")

theorem IsToken.oneLine {value : Bytes} (h : IsToken value) : OneLine value :=
  ⟨fun hlf => absurd (h.plain lf hlf) (by decide), fun hcr => absurd (h.plain cr hcr) (by decide)⟩

/-- The body is that of a search with these filters. -/
theorem findForm_body {e : SearchEntry} {typeMap : TypeMap} (htype : ∀ id ∈ e.type, id ∈ typeMap)
    (hsize : ∀ z ∈ e.size, z ∈ sizes) (h : e.filters.Tokens)
    (hplain : ∀ g ∈ e.filters.form, Unreserved g.2) :
    formBody e.choice (findForm typeMap) = e.filters.body e.size.isSome := by
  obtain ⟨hidChoice, hnameChoice, htypeChoice, hlowChoice, hhighChoice, hsizeChoice⟩ :=
    e.choice_eq
  obtain ⟨hid, hname, -, hlow, hhigh, -⟩ := e.filters.tokens_iff.mp h
  have hidEntry := entries_textInput (bytes "xx") false hidChoice hid.oneLine
  have hnameEntry := entries_textInput (bytes "xx") false hnameChoice hname.oneLine
  have hlowEntry := entries_textInput (bytes "xx.xx") false hlowChoice hlow.oneLine
  have hhighEntry := entries_textInput (bytes "xx.xx") false hhighChoice hhigh.oneLine
  have hsizes : (sizes.filter fun v => (e.size.map fun s => s == v).getD false) =
      e.size.toList := by
    cases hsome : e.size with
    | none => rfl
    | some z => exact (filter_sizes (hsize z hsome)).1
  have hentries : (findForm typeMap).flatMap (FormPart.entries e.choice) =
      (if e.size.isSome then e.filters.form else e.filters.form.dropLast).map fun f =>
        (codes (bytes f.1), codes f.2) := by
    rw [findForm, List.flatMap_append, entries_sizeRadios hsizeChoice, hsizes]
    simp only [List.flatMap_cons, List.flatMap_nil, hidEntry, hnameEntry,
      entries_typeSelect htypeChoice fun id hid => .inr (htype id hid), hlowEntry, hhighEntry]
    cases hsome : e.size with
    | none => rfl
    | some z =>
        rw [SearchEntry.filters, hsome]
        rfl
  have hnames : ∀ name ∈ ["god_id", "god_name", "god_type", "god_price_l", "god_price_h",
      "god_size"], ∀ c ∈ bytes name, isUnreserved c = true := by decide
  have hfields : ∀ f ∈ if e.size.isSome then e.filters.form else e.filters.form.dropLast,
      f ∈ e.filters.form := by
    intro f hf
    split at hf
    next => exact hf
    next => exact List.mem_of_mem_dropLast hf
  rw [formBody_eq hentries fun f hf =>
    hnames f.1 (List.mem_map_of_mem (f := Prod.fst) (hfields f hf))]
  rw [submit, Filters.body, sent]
  refine congrArg join (List.map_congr_left fun f hf => ?_)
  rw [(encode_eq_self_iff _).mpr (hplain f (hfields f hf))]

/-- The select of a search, executed. -/
theorem Filters.Searchable.query_sql {f : Filters} (h : f.Searchable) (db : Database)
    (c : Collation) :
    db.query c f.sql = some ((db.joined.filter fun pair => f.Meets c pair).map columns) := by
  rw [h.sql_eq, db.query_template]
  refine congrArg (fun rows => some (rows.map columns)) (List.filter_congr fun pair _ => ?_)
  rw [Bool.eq_iff_iff, h.selects_iff, decide_eq_true_eq]

/-- The body of a search leaves room for the field that may be appended. -/
theorem Filters.Tokens.body_bounds {f : Filters} (h : f.Tokens) (sized : Bool) :
    (f.body sized).length ≤ 480 ∧ ∀ c ∈ f.body sized, c ≠ 0 := by
  have hfields : (if sized then f.form else f.form.dropLast).Sublist f.form := by
    split
    next => exact List.Sublist.refl _
    next => exact List.dropLast_sublist _
  have hshort := fun g hg => f.form_names g (hfields.subset hg)
  have hplain : PlainForm _ := fun g hg => h.plainForm g (hfields.subset hg)
  have hlength := (length_sent_le hshort hplain).trans (Nat.mul_le_mul_left 80 hfields.length_le)
  exact ⟨hlength, sent_ne_nul (fun g hg => (hshort g hg).1) hplain⟩

/-- The page of a search, and what its form sends to the list. -/
theorem findPage_request {s : Tables} {types : List (Int × Bytes)} (h : ShownTypes refs s types)
    (server : SelectServer) {e : SearchEntry} (hchosen : ∀ t ∈ e.type, t ∈ types.map Prod.fst)
    (hsize : ∀ z ∈ e.size, z ∈ sizes) (hsearch : e.filters.Searchable)
    (hplain : ∀ g ∈ e.filters.form, Unreserved g.2) :
    ∃ page parts, findGodGet server s.database = .ok page ∧
      formParts .outside (tokenize refs (pageBytes page)) =
        .start (codes (bytes "god_list_cgi")) (codes (bytes "POST")) :: parts ∧
      formBody e.choice parts = e.filters.body e.size.isSome ∧
      ∀ beyond, getSelectSql (some (godListData beyond (formBody e.choice parts).length
        (formBody e.choice parts))) = some e.filters.sql := by
  obtain ⟨page, hpage, hform⟩ := findGodGet_form h server
  have hbody : formBody e.choice (findForm (typeMapOf types)) = e.filters.body e.size.isSome :=
    findForm_body (fun t ht => mem_typeMapOf.mpr (hchosen t ht)) hsize hsearch.tokens hplain
  have hasked : e.filters.asked e.size.isSome = e.filters := by
    rw [Filters.asked]
    split
    next => rfl
    next hnone =>
        rw [SearchEntry.filters, Option.not_isSome_iff_eq_none.mp hnone]
        rfl
  refine ⟨page, _, hpage, hform, hbody, fun beyond => ?_⟩
  show getSelectSql (some (godListData beyond (formBody e.choice (findForm _)).length _)) = _
  have hsql := Filters.getSelectSql_body hsearch.tokens e.size.isSome beyond
  rwa [hasked, ← hbody] at hsql

/-- The page of a search is opened, filled in and sent: the list is that of the records with a
type which meet what has been put in.  If nothing has, it is the whole list. -/
theorem records_found {s : Tables} {types : List (Int × Bytes)} (h : ShownTypes refs s types)
    (server : SelectServer) {e : SearchEntry} (hchosen : ∀ t ∈ e.type, t ∈ types.map Prod.fst)
    (hsize : ∀ z ∈ e.size, z ∈ sizes) (hsearch : e.filters.Searchable)
    (hplain : ∀ g ∈ e.filters.form, Unreserved g.2) (c : Collation) (beyond : Bytes) :
    ∃ page parts sql found, findGodGet server s.database = .ok page ∧
      formParts .outside (tokenize refs (pageBytes page)) =
        .start (codes (bytes "god_list_cgi")) (codes (bytes "POST")) :: parts ∧
      getSelectSql (some (godListData beyond (formBody e.choice parts).length
        (formBody e.choice parts))) = some sql ∧
      s.database.query c sql = some found ∧
      found = (s.database.joined.filter fun pair => e.filters.Meets c pair).map columns ∧
      (e = ⟨none, none, none, none, none, none⟩ → found = s.database.listing) := by
  obtain ⟨page, parts, hpage, hform, -, hsql⟩ :=
    findPage_request h server hchosen hsize hsearch hplain
  refine ⟨page, parts, _, _, hpage, hform, hsql beyond, hsearch.query_sql s.database c, rfl, ?_⟩
  rintro rfl
  have hmeets : ∀ pair ∈ s.database.joined, decide (Filters.defaults.Meets c pair) = true := by
    intro pair _
    rw [decide_eq_true_eq]
    exact ⟨(absurd rfl ·), (absurd rfl ·), (absurd rfl ·), (absurd rfl ·), (absurd rfl ·),
      (absurd rfl ·)⟩
  have hdefaults : SearchEntry.filters ⟨none, none, none, none, none, none⟩ = Filters.defaults := by
    decide
  rw [hdefaults, List.filter_eq_self.mpr hmeets]
  rfl

theorem records_found_en : ∃ page parts sql found,
    findGodGet plainServer penTables.database = .ok page ∧
      formParts .outside (tokenize someReferences (pageBytes page)) =
        .start (codes (bytes "god_list_cgi")) (codes (bytes "POST")) :: parts ∧
      getSelectSql (some (godListData []
        (formBody (SearchEntry.choice ⟨none, some (bytes "en"), some 1, none, none, none⟩)
          parts).length
        (formBody (SearchEntry.choice ⟨none, some (bytes "en"), some 1, none, none, none⟩)
          parts))) = some sql ∧
      penTables.database.query .binary sql = some found ∧
      found = [⟨1, some (bytes "pen"), some (bytes "pens"), some 1, some (bytes "big")⟩] := by
  have hsearch : (SearchEntry.filters
      ⟨none, some (bytes "en"), some 1, none, none, none⟩).Searchable :=
    ⟨by decide, by decide, by decide, by decide,
      by decide⟩
  obtain ⟨page, parts, sql, found, hpage, hform, hsql, hquery, hfound, -⟩ :=
    records_found penTables_types plainServer (by decide) (fun _ hz => by cases hz) hsearch
      (by decide) .binary []
  exact ⟨page, parts, sql, found, hpage, hform, hsql, hquery, hfound.trans (by decide +kernel)⟩

end Cgi
