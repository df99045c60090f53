import TinyHttpd.Cgi.ListLinks
import TinyHttpd.Cgi.Pages

/-!
# From the list to the records

The list page of the tables has a row for each listed record, whose two links lead to the page
of the record and to its deletion.  For tables whose texts can be read back from a page, the
addresses of the records are those of the records that are listed, each with a page behind it.
-/

namespace Cgi

open CString Html SqlLex SqlWhere Table

/-! ## The list page of the tables -/

/-- What a row of the list looks like in a result set. -/
def listRow (showPrice : Rat → Bytes) (g : Goods) : MysqlRow :=
  [some (decimal g.godId), g.godName, g.godType, g.godPrice.map showPrice, g.godSize]

def listSet (showPrice : Rat → Bytes) (goods : List Goods) : ResultSet where
  fields := [bytes "god_id", bytes "god_name", bytes "godt_name", bytes "god_price",
    bytes "god_size"]
  rows := goods.map (listRow showPrice)
  wide row hrow := by
    obtain ⟨_, -, rfl⟩ := List.mem_map.mp hrow
    rfl

/-- A server that also answers to the selects of the list. -/
structure ListServer extends SelectServer where
  collation : Collation
  list : ∀ db sql goods, db.query collation sql = some goods →
    answer db sql = .stored (some (listSet showPrice goods))

/-- The select of a record is none of these. -/
theorem Database.query_goodsSelect (db : Database) (k : Collation) (rest : Bytes) :
    db.query k (goodsSelectHead ++ rest) = none := by
  have hdrop : (lex (goodsSelectHead ++ rest)).dropPrefix? selectHead = none := by
    rw [Option.eq_none_iff_forall_ne_some]
    intro others h
    obtain ⟨head, hlex, hhead⟩ := List.dropPrefix?_eq_some_iff.mp h
    obtain rfl := eq_of_beq hhead
    rw [lex, run_append] at hlex
    have hselected := congrArg (·[5]?) hlex
    have hshort : 5 < (run .initial goodsSelectHead).2.length ∧ 5 < selectHead.length := by
      decide
    dsimp only at hselected
    rw [List.append_assoc, List.getElem?_append_left hshort.1,
      List.getElem?_append_left hshort.2] at hselected
    exact absurd hselected (by decide)
  rw [Database.query, hdrop]
  rfl

/-- A server that knows these selects and refuses everything else. -/
def shopServer : ListServer where
  answer db sql :=
    match db.query .binary sql with
    | some goods => .stored (some (listSet plainServer.showPrice goods))
    | none => plainServer.answer db sql
  showPrice := plainServer.showPrice
  types db := by
    have hnone : db.query .binary mapSql = none := by
      have hdrop : (lex mapSql).dropPrefix? selectHead = none := by decide
      rw [Database.query, hdrop]
      rfl
    rw [hnone]
    exact plainServer.types db
  byId db id hne hid := by
    have hnone : db.query .binary (ChangeForm.sql ⟨id⟩) = none := by
      rw [ChangeForm.sql, List.append_assoc]
      exact db.query_goodsSelect .binary _
    rw [hnone]
    exact plainServer.byId db id hne hid
  collation := .binary
  list db sql goods h := by rw [h]

/-- The list page for the data of a request, `none` where it has no meaning. -/
def godListPage (server : SelectServer) (db : Database) (dataString : Option Bytes) :
    Option Bytes := do
  let sql ← getSelectSql dataString
  let (goodsList, printed) ← (exeSelectGoods (server.answer db sql)).toOption
  listPage printed goodsList

/-! ## The records in it -/

/-- Tables whose types and records are texts that a page shows, and few enough to be
counted. -/
structure ShownTables (refs : References) (server : SelectServer) (s : Tables)
    (types : List (Int × Bytes)) : Prop extends ShownTypes refs s types where
  records : ∀ row ∈ s.goods.rows, ∃ (id : Nat) (r : ShownCells refs server),
    row = ((id : Int), r.cells) ∧ (decimalNat id).length < 40 ∧ PlainText refs r.name ∧
      PlainText refs (server.showPrice r.price) ∧ PlainText refs r.size
  counted : s.goods.rows.length < 2 ^ 31

/-- The record of the list, as it is printed. -/
def shownGoods (showPrice : Rat → Bytes) (g : Goods) : GoodsRecord :=
  ⟨decimal g.godId, g.godName.getD [], g.godType.getD [], (g.godPrice.map showPrice).getD [],
    g.godSize.getD []⟩

variable {refs : References} {server : SelectServer} {s : Tables} {types : List (Int × Bytes)}

/-- A listed record has an id, cells that are shown, and the name of its type. -/
theorem ShownTables.listed (h : ShownTables refs server s types) {g : Goods}
    (hg : g ∈ s.database.listing) :
    ∃ (id : Nat) (r : ShownCells refs server) (typeName : Bytes),
      s.goods.lookup id = some r.cells ∧ (r.type, typeName) ∈ types ∧
      g = ⟨id, some r.name, some typeName, some r.price, some r.size⟩ ∧
      (decimalNat id).length < 40 ∧ PlainText refs r.name ∧
      PlainText refs (server.showPrice r.price) ∧ PlainText refs r.size := by
  obtain ⟨cells, type, hgoods, htype, htypes, hname, hprice, hsize⟩ := (mem_listing_iff s g).mp hg
  obtain ⟨id, r, hrow, hdigits, hplain⟩ := h.records _ (Keyed.lookup_eq_some.mp hgoods)
  obtain ⟨hid, rfl⟩ := Prod.mk.inj hrow
  obtain rfl : r.type = type := Option.some.inj htype
  have hmem := Keyed.lookup_eq_some.mp htypes
  rw [h.rows] at hmem
  obtain ⟨⟨typeId, typeName⟩, hentry, heq⟩ := List.mem_map.mp hmem
  obtain ⟨rfl, hgodType⟩ := Prod.mk.inj heq
  refine ⟨id, r, typeName, hid ▸ hgoods, hentry, ?_, hdigits, hplain⟩
  obtain ⟨godId, godName, godType, godPrice, godSize⟩ := g
  dsimp only at hid hgodType hname hprice hsize
  rw [hid, ← hgodType, hname, hprice, hsize]
  rfl

/-- A text without `<`, `&` and carriage returns means nothing in a page. -/
theorem plainText_of_notMem (refs : References) {v : Bytes} (hcr : cr ∉ v) (hmarkup : 60 ∉ v)
    (hreference : 38 ∉ v) : PlainText refs v := by
  have hunopened : ∀ b : Bytes, 60 ∉ b → Unopened b := by
    intro b hb
    induction b with
    | nil => trivial
    | cons c b ih =>
        rw [List.mem_cons, not_or] at hb
        exact ⟨fun hc => absurd hc.symm hb.1, ih hb.2⟩
  exact ⟨hcr, hunopened v hmarkup, unreferenced_of_notMem refs hreference⟩

theorem plainText_of_unreserved (refs : References) {v : Bytes} (h : Unreserved v) :
    PlainText refs v := by
  have hnot : ∀ c, FormUrl.isUnreserved c = false → c ∉ v := by
    intro c hc hmem
    rw [h c hmem] at hc
    cases hc
  exact plainText_of_notMem refs (hnot cr (by decide)) (hnot 60 (by decide)) (hnot 38 (by decide))

/-- It is read from its row, and does not show in the markup. -/
theorem ShownTables.read (h : ShownTables refs server s types) {g : Goods}
    (hg : g ∈ s.database.listing) :
    ReadsAs readGoods (listRow server.showPrice g) (shownGoods server.showPrice g) ∧
      Harmless refs (shownGoods server.showPrice g) ∧ 0 ∉ (shownGoods server.showPrice g).godId := by
  obtain ⟨id, r, typeName, -, hentry, rfl, -, hname, hprice, hsize⟩ := h.listed hg
  obtain ⟨htype, htypeNul⟩ := h.names _ hentry
  have hunreserved := unreserved_decimal id
  have hid := valueText_of_unreserved refs hunreserved
  refine ⟨?_, ⟨?_, hid.noQuote⟩, hid.noNul⟩
  · have hcstrId := cstr_decimal (id : Int)
    have hcstrName := cstr_of_notMem r.nameText.noNul
    have hcstrType := cstr_of_notMem htypeNul
    have hcstrPrice := cstr_of_notMem r.priceText.noNul
    have hcstrSize := cstr_of_notMem r.sizeText
    simp [ReadsAs, readGoods, column, listRow, shownGoods, hcstrId, hcstrName, hcstrType,
      hcstrPrice, hcstrSize]
    rfl
  · have hplain := plainText_of_unreserved refs hunreserved
    intro field hfield
    simp only [GoodsRecord.fields, shownGoods, Option.getD_some, Option.map_some, List.mem_cons,
      List.not_mem_nil, or_false] at hfield
    rcases hfield with rfl | rfl | rfl | rfl | rfl
    · exact hplain
    · exact hname
    · exact htype
    · exact hprice
    · exact hsize

/-- A record has one entry at most. -/
theorem length_listing_le (s : Tables) : s.database.listing.length ≤ s.goods.rows.length := by
  have hnodup := nodup_listing s
  have hsub : ∀ id ∈ s.database.listing.map Goods.godId, id ∈ s.goods.rows.map Prod.fst := by
    intro id hid
    obtain ⟨g, hg, rfl⟩ := List.mem_map.mp hid
    obtain ⟨cells, type, hgoods, -⟩ := (mem_listing_iff s g).mp hg
    exact List.mem_map.mpr ⟨_, Keyed.lookup_eq_some.mp hgoods, rfl⟩
  have hlength := (hnodup.subperm hsub).length_le
  rwa [List.length_map, List.length_map] at hlength

/-- The page of a list that the server answers with. -/
theorem ShownTables.listPage_links (h : ShownTables refs server s types) {goods : List Goods}
    (hgoods : goods.Sublist s.database.listing) :
    exeSelectGoods (.stored (some (listSet server.showPrice goods))) =
        .ok (goods.map (shownGoods server.showPrice), []) ∧
      ∃ page, listPage [] (goods.map (shownGoods server.showPrice)) = some page ∧
        links (tokenize refs page) = operLinks ++
          if goods = [] then [codes (bytes "god_list_cgi")]
          else goods.flatMap fun g => recordLinks (decimal g.godId) := by
  have hlength : goods.length < 2 ^ 31 :=
    (hgoods.length_le.trans (length_listing_le s)).trans_lt h.counted
  have hread : ∀ g ∈ goods, _ := fun g hg => h.read (hgoods.subset hg)
  constructor
  · have hrows : (listSet server.showPrice goods).rows.length < 2 ^ 31 := by
      show (goods.map _).length < 2 ^ 31
      rwa [List.length_map]
    refine exeSelectGoods_eq_ok_iff.mpr ⟨?_, rfl⟩
    rw [ResultSet.fetched_eq_rows hrows]
    show List.Forall₂ _ (goods.map _) (goods.map _)
    rw [List.forall₂_map_left_iff, List.forall₂_map_right_iff]
    exact List.forall₂_same.mpr fun g hg => (hread g hg).1
  · by_cases hempty : goods = []
    · subst hempty
      rw [if_pos rfl]
      exact listPage_links_nil refs
    · have hharmless : ∀ record ∈ goods.map (shownGoods server.showPrice),
          Harmless refs record ∧ 0 ∉ record.godId := by
        intro record hrecord
        obtain ⟨g, hg, rfl⟩ := List.mem_map.mp hrecord
        exact (hread g hg).2
      obtain ⟨page, hpage, hlinks⟩ := Cgi.listPage_links
        (fun hnil => hempty (List.map_eq_nil_iff.mp hnil)) (by rwa [List.length_map])
        (fun record hrecord => (hharmless record hrecord).2)
        (fun record hrecord => (hharmless record hrecord).1)
      rw [List.flatMap_map] at hlinks
      rw [if_neg hempty]
      exact ⟨page, hpage, hlinks⟩

/-- The links of the whole list are those of the listed records. -/
theorem godListPage_links {server : ListServer}
    (h : ShownTables refs server.toSelectServer s types) :
    ∃ page, godListPage server.toSelectServer s.database none = some page ∧
      links (tokenize refs page) = operLinks ++
        if s.database.listing = [] then [codes (bytes "god_list_cgi")]
        else s.database.listing.flatMap fun g => recordLinks (decimal g.godId) := by
  obtain ⟨hselect, page, hpage, hlinks⟩ := h.listPage_links (List.Sublist.refl _)
  obtain ⟨sql, hsql, hgoods⟩ := Option.bind_eq_some_iff.mp (goodsList_eq s.database)
  have hanswer := server.list _ _ _ (Database.query_of_select hgoods server.collation)
  refine ⟨page, ?_, hlinks⟩
  rw [godListPage, hsql]
  show (exeSelectGoods (server.answer s.database sql)).toOption.bind _ = _
  rw [hanswer, hselect]
  exact hpage

end Cgi
