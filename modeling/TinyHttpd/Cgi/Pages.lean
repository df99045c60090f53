import TinyHttpd.Cgi.Forms
import TinyHttpd.Cgi.Shop

/-!
# The pages of the tables

What the three pages with a form are, for tables whose texts can be read back from a page:
each has the form that is meant, with the types of the table and on the change page with the
record of the id.
-/

namespace Cgi

open CString Html Table

/-! ## The types -/

/-- The types of the table, as texts that a page shows: no name is NULL, an option has the
name as it is, and they can be counted in an `int`. -/
structure ShownTypes (refs : References) (s : Tables) (types : List (Int × Bytes)) : Prop where
  rows : s.types.rows = types.map fun t => (t.1, some t.2)
  ints : ∀ t ∈ types, IsInt t.1
  names : ∀ t ∈ types, PlainText refs t.2 ∧ 0 ∉ t.2
  count : types.length < 2 ^ 31

/-- The map of these. -/
def typeMapOf (types : List (Int × Bytes)) : TypeMap := OrderedMap.load ∅ types

theorem mem_typeMapOf {types : List (Int × Bytes)} {id : Int} :
    id ∈ typeMapOf types ↔ id ∈ types.map Prod.fst := by
  rw [typeMapOf, OrderedMap.mem_load, or_iff_left Std.TreeMap.not_mem_emptyc]

theorem ShownTypes.distinct {refs : References} {s : Tables} {types : List (Int × Bytes)}
    (h : ShownTypes refs s types) : (types.map Prod.fst).Nodup := by
  have hdistinct := s.types.distinct
  rw [h.rows, List.map_map] at hdistinct
  exact hdistinct

theorem ShownTypes.plain {refs : References} {s : Tables} {types : List (Int × Bytes)}
    (h : ShownTypes refs s types) : ∀ t ∈ (typeMapOf types).toList, PlainText refs t.2 :=
  fun t ht => (h.names t ((OrderedMap.toList_load_perm h.distinct).mem_iff.mp ht)).1

/-- They are all loaded. -/
theorem ShownTypes.loads {refs : References} {s : Tables} {types : List (Int × Bytes)}
    (h : ShownTypes refs s types) (server : SelectServer) :
    exeSelectType (server.answer s.database mapSql) = .ok (typeMapOf types, []) := by
  have hrows : (goodsTypeSet s.database.goodsType).rows =
      types.map fun t => [some (decimal t.1), some t.2] := by
    show (s.types.rows.map fun row => (⟨row.1, row.2⟩ : GoodsType)).map goodsTypeRow = _
    rw [h.rows, List.map_map, List.map_map]
    rfl
  have hshows : List.Forall₂ ShowsType (goodsTypeSet s.database.goodsType).rows types := by
    rw [hrows, List.forall₂_map_left_iff]
    exact List.forall₂_same.mpr fun t _ => ⟨rfl, rfl⟩
  have hloaded : loaded types = types := by
    rw [loaded, List.take_of_length_le ((le_toNat_countInt_iff _).mpr h.count)]
    refine (List.map_congr_left fun t ht => ?_).trans (List.map_id types)
    rw [cstr_eq_self fun c hc h0 => (h.names t ht).2 (h0 ▸ hc)]
    rfl
  rw [server.types, exeSelectType_shows hshows h.ints, hloaded]
  rfl

/-- The page of `add_god_show_cgi`. -/
theorem addGodShowGet_form {refs : References} {s : Tables} {types : List (Int × Bytes)}
    (h : ShownTypes refs s types) (server : SelectServer) :
    ∃ page, addGodShowGet server s.database = .ok page ∧
      formParts .outside (tokenize refs (pageBytes page)) = addForm (typeMapOf types) := by
  refine ⟨_, ?_, addPage_form h.plain⟩
  rw [addGodShowGet, h.loads]
  rfl

/-- The page of `find_god_cgi`. -/
theorem findGodGet_form {refs : References} {s : Tables} {types : List (Int × Bytes)}
    (h : ShownTypes refs s types) (server : SelectServer) :
    ∃ page, findGodGet server s.database = .ok page ∧
      formParts .outside (tokenize refs (pageBytes page)) = findForm (typeMapOf types) := by
  refine ⟨_, ?_, findPage_form h.plain⟩
  rw [findGodGet, h.loads]
  rfl

/-! ## A record -/

/-- The cells of a record without NULL, as texts that a page shows. -/
structure ShownCells (refs : References) (server : SelectServer) where
  name : Bytes
  type : Int
  price : Rat
  size : Bytes
  nameText : ValueText refs name
  priceText : ValueText refs (server.showPrice price)
  typeInt : IsInt type
  sizeText : 0 ∉ size

variable {refs : References} {server : SelectServer}

def ShownCells.cells (r : ShownCells refs server) : GoodsCells :=
  ⟨some r.name, some r.type, some r.price, some r.size⟩

/-- The record with that id, as it is selected. -/
def ShownCells.record (r : ShownCells refs server) (id : Nat) : GoodsRecord :=
  ⟨decimal id, r.name, decimal r.type, server.showPrice r.price, r.size⟩

theorem cstr_of_notMem {b : Bytes} (h : 0 ∉ b) : cstr b = b :=
  cstr_eq_self fun _ hc h0 => h (h0 ▸ hc)

/-- It is selected alone. -/
theorem ShownCells.selected (r : ShownCells refs server) {s : Tables} {id : Nat}
    (h : s.goods.lookup id = some r.cells) :
    exeSelectGoods (server.answer s.database (ChangeForm.sql ⟨decimalNat id⟩)) =
      .ok ([r.record id], []) := by
  have hrows : s.database.goodsWithId id = [((id : Int), r.cells)] := Keyed.filter_fst h
  have hread : ReadsAs readGoods (goodsRow server.showPrice ((id : Int), r.cells))
      (r.record id) := by
    have hid := cstr_decimal (id : Int)
    have hname := cstr_of_notMem r.nameText.noNul
    have htype := cstr_decimal r.type
    have hprice := cstr_of_notMem r.priceText.noNul
    have hsize := cstr_of_notMem r.sizeText
    simp [ReadsAs, readGoods, column, goodsRow, ShownCells.cells, ShownCells.record, hid, hname,
      htype, hprice, hsize]
    rfl
  rw [server.byId _ _ (decimalNat_ne_nil id) (isDigits_decimalNat id), numeral_decimalNat, hrows]
  have hcount : (goodsSet server.showPrice [((id : Int), r.cells)]).rows.length < 2 ^ 31 := by
    show 1 < 2 ^ 31
    norm_num
  refine exeSelectGoods_eq_ok_iff.mpr ⟨?_, rfl⟩
  rw [ResultSet.fetched_eq_rows hcount]
  exact .cons hread .nil

/-- The page of `change_god_cgi`, for a record whose type is in the table. -/
theorem changeGodGet_form (r : ShownCells refs server) {s : Tables} {types : List (Int × Bytes)}
    (h : ShownTypes refs s types) {id : Nat} (hid : (decimalNat id).length < 40)
    (hrow : s.goods.lookup id = some r.cells) (htype : r.type ∈ types.map Prod.fst) :
    ∃ page, changeGodGet server s.database (bytes "god_id=" ++ decimalNat id) = .ok page ∧
      formParts .outside (tokenize refs (pageBytes page)) =
        recordForm (typeMapOf types) (r.record id) := by
  have hatoi : atoi (r.record id).godType = r.type := atoi_decimal r.typeInt
  obtain ⟨typeName, hfind⟩ : ∃ typeName, (typeMapOf types)[atoi (r.record id).godType]? =
      some typeName := by
    rw [hatoi]
    exact Option.isSome_iff_exists.mp
      (Std.TreeMap.mem_iff_isSome_getElem?.mp (mem_typeMapOf.mpr htype))
  obtain ⟨table, htable⟩ := exists_printTable hfind
  have hidText : ValueText refs (r.record id).godId :=
    valueText_of_unreserved refs (unreserved_decimal id)
  refine ⟨_, ?_, changePage_form htable h.plain hidText r.nameText r.priceText⟩
  rw [changeGodGet, h.loads, changeForm_numeral (decimalNat_ne_nil id) (isDigits_decimalNat id)
    hid]
  show (exeSelectGoods _ >>= _) = _
  rw [r.selected hrow]
  show (printTable _ _ >>= _) = _
  rw [htable]
  rfl

end Cgi
