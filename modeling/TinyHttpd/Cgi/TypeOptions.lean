import TinyHttpd.Cgi.Select
import TinyHttpd.Lib.OrderedMap

/-!
# The form of the change page

`print_table` looks the type of a record up in the map of the types, takes its entry out and
prints it as the selected option, in front of the entries that are left.  Neither the result
of `find` nor the size of the map is looked at.
-/

namespace Cgi

open CString

/-! ## The form -/

/-- An option of the type. -/
structure TypeOption where
  id : Int
  name : Bytes
  selected : Bool
deriving DecidableEq

/-- A piece of what is printed: an option, or any other text. -/
inductive Piece where
  | text (s : Bytes)
  | option (o : TypeOption)
deriving DecidableEq

def TypeOption.render (o : TypeOption) : Bytes :=
  bytes "<option value=\"" ++ decimal o.id ++
    bytes (if o.selected then "\" selected=\"selected\">" else "\">") ++ o.name ++
    bytes "</option>\n"

def Piece.render : Piece → Bytes
  | .text s => s
  | .option o => o.render

/-- The options among the pieces. -/
def optionsOf : List Piece → List TypeOption
  | [] => []
  | .text _ :: pieces => optionsOf pieces
  | .option o :: pieces => o :: optionsOf pieces

/-- `print_type`. -/
def printType (typeMap : TypeMap) : List Piece :=
  typeMap.toList.map fun entry => .option ⟨entry.1, entry.2, false⟩

/-- The three buttons for the size. -/
def sizeButton (value label : String) (godSize : Bytes) : List Piece :=
  [.text (bytes "<input type=\"radio\" name=\"god_size\" "),
    .text (bytes (if strcmp (bytes value) godSize = 0 then "checked=\"checked\"" else "")),
    .text (bytes (" value=\"" ++ value ++ "\"/>" ++ label ++ "\n"))]

/-- A row of the table with an input. -/
def inputRow (head : String) (value : Bytes) : List Piece :=
  [.text (bytes "<tr>\n"), .text (bytes head), .text value, .text (bytes "\"/></td>\n"),
    .text (bytes "</tr>\n")]

/-- `print_table` of `change_god_cgi`. -/
def printTable (typeMap : TypeMap) (goods : GoodsRecord) : Except Fault (List Piece) :=
  let typeId := atoi goods.godType
  match typeMap[typeId]? with
  -- `find` has returned `end()`, which is dereferenced and erased.
  | none => .error .endIterator
  | some typeName =>
      .ok <|
        [.text (bytes "<table id=\"addGodTab\">\n"),
          .text (bytes
            "<caption style=\"font-size: 17px\">Current goods information</caption>\n")] ++
        inputRow
          "<td>Id:</td><td><input type=\"text\" readonly=\"readonly\" name=\"god_id\" value=\""
          goods.godId ++
        inputRow "<td>Name:</td><td><input type=\"text\" name=\"god_name\" value=\""
          goods.godName ++
        [.text (bytes "<tr>\n<td>Type:</td>\n<td>\n<select name=\"god_type\">\n"),
          .option ⟨typeId, typeName, true⟩] ++
        printType (typeMap.erase typeId) ++
        [.text (bytes "</select>\n</td>\n</tr>\n")] ++
        inputRow "<td>Price:</td><td><input type=\"text\" name=\"god_price\" value=\""
          goods.godPrice ++
        [.text (bytes "<tr>\n<td>Size:</td><td>\n")] ++
        sizeButton "big" "Big" goods.godSize ++ sizeButton "middle" "Middle" goods.godSize ++
        sizeButton "small" "Small" goods.godSize ++
        [.text (bytes "</td>\n</tr>\n<tr>\n"),
          .text (bytes "<td><input type=\"submit\" value=\"change\"/></td>\n"),
          .text (bytes "<td><input type=\"reset\" value =\"reset\"/></td>\n"),
          .text (bytes "</tr>\n</table>\n")]

/-! ## The options of the form -/

@[simp] theorem optionsOf_append (a b : List Piece) :
    optionsOf (a ++ b) = optionsOf a ++ optionsOf b := by
  induction a with
  | nil => rfl
  | cons piece a ih =>
      cases piece with
      | text s => exact ih
      | option o => exact congrArg (o :: ·) ih

theorem optionsOf_printType (typeMap : TypeMap) :
    optionsOf (printType typeMap) =
      typeMap.toList.map fun entry => ⟨entry.1, entry.2, false⟩ := by
  rw [printType]
  induction typeMap.toList with
  | nil => rfl
  | cons entry entries ih => exact congrArg (_ :: ·) ih

/-- Where the type is found, its option comes first and the entries that are left follow. -/
theorem optionsOf_printTable {typeMap : TypeMap} {goods : GoodsRecord} {pieces : List Piece}
    (h : printTable typeMap goods = .ok pieces) :
    ∃ typeName, typeMap[atoi goods.godType]? = some typeName ∧
      optionsOf pieces = ⟨atoi goods.godType, typeName, true⟩ ::
        (typeMap.erase (atoi goods.godType)).toList.map fun entry =>
          ⟨entry.1, entry.2, false⟩ := by
  rw [printTable] at h
  split at h
  next => cases h
  next typeName hfind =>
      cases h
      refine ⟨typeName, hfind, ?_⟩
      simp [optionsOf_printType, inputRow, sizeButton, optionsOf]

theorem exists_printTable {typeMap : TypeMap} {goods : GoodsRecord} {typeName : Bytes}
    (h : typeMap[atoi goods.godType]? = some typeName) :
    ∃ pieces, printTable typeMap goods = .ok pieces := by
  rw [printTable, h]
  exact ⟨_, rfl⟩

/-- The option in front is selected and the others are not; these are in the order of the
map, without the key in front. -/
theorem optionsOf_erased {typeMap : TypeMap} {goods : GoodsRecord} {pieces : List Piece}
    (h : printTable typeMap goods = .ok pieces) :
    (∀ o ∈ optionsOf pieces, o.selected = true ↔ o.id = atoi goods.godType) ∧
      ∃ o rest, optionsOf pieces = o :: rest ∧ o.id = atoi goods.godType ∧
        rest.Pairwise fun a b => a.id < b.id := by
  obtain ⟨typeName, -, hoptions⟩ := optionsOf_printTable h
  rw [hoptions]
  refine ⟨List.forall_mem_cons.mpr ⟨iff_of_true rfl rfl, ?_⟩, _, _, rfl, rfl, ?_⟩
  · intro o ho
    obtain ⟨⟨id, name⟩, hentry, rfl⟩ := List.mem_map.mp ho
    refine iff_of_false Bool.false_ne_true fun hid => ?_
    rw [Std.TreeMap.mem_toList_iff_getElem?_eq_some] at hentry
    dsimp only at hid
    rw [hid, Std.TreeMap.getElem?_erase_self] at hentry
    cases hentry
  · rw [List.pairwise_map]
    exact (typeMap.erase _).ordered_keys_toList.imp fun hlt => Int.compare_eq_lt.mp hlt

/-! ## The rows of `goods_type` -/

/-- The row is that of a type: its first two columns are the id and the name. -/
def ShowsType (row : MysqlRow) (type : Int × Bytes) : Prop :=
  row[0]? = some (some (decimal type.1)) ∧ row[1]? = some (some type.2)

theorem cstr_decimal (v : Int) : cstr (decimal v) = decimal v := by
  have hdigits : ∀ (n : Nat), ∀ c ∈ decimalNat n, c ≠ 0 := by
    rintro n c hc rfl
    exact absurd (isDigits_decimalNat n 0 hc) (by decide)
  refine cstr_eq_self ?_
  cases v with
  | ofNat n => exact hdigits n
  | negSucc n => exact List.forall_mem_cons.mpr ⟨by decide, hdigits (n + 1)⟩

/-- The id is read back, and the name up to its first NUL. -/
theorem readType_shows {row : MysqlRow} {type : Int × Bytes} (h : ShowsType row type)
    (hid : IsInt type.1) : readType row = .ok (type.1, cstr type.2) := by
  obtain ⟨h₀, h₁⟩ := h
  rw [readType, column, column, h₀, h₁]
  dsimp only
  rw [cstr_decimal]
  exact congrArg (fun id => Except.ok (id, cstr type.2)) (atoi_decimal hid)

theorem readType_forall₂ {rows : List MysqlRow} {types : List (Int × Bytes)}
    (hshows : List.Forall₂ ShowsType rows types) (hids : ∀ t ∈ types, IsInt t.1) :
    List.Forall₂ (ReadsAs readType) rows (types.map fun t => (t.1, cstr t.2)) := by
  induction hshows with
  | nil => exact .nil
  | cons h _ ih =>
      obtain ⟨hid, hids⟩ := List.forall_mem_cons.mp hids
      exact .cons (readType_shows h hid) (ih hids)

/-- The entries of the map: the ids and the names of the rows that are fetched. -/
def loaded (types : List (Int × Bytes)) : List (Int × Bytes) :=
  (types.take (countInt types.length).toNat).map fun t => (t.1, cstr t.2)

theorem exeSelectType_shows {res : ResultSet} {types : List (Int × Bytes)}
    (hshows : List.Forall₂ ShowsType res.rows types) (hids : ∀ t ∈ types, IsInt t.1) :
    exeSelectType (.stored (some res)) = .ok (OrderedMap.load ∅ (loaded types), []) := by
  have hlength : res.rows.length = types.length := hshows.length_eq
  have hread : List.Forall₂ (ReadsAs readType) res.fetched (loaded types) := by
    rw [ResultSet.fetched, hlength]
    exact readType_forall₂ (List.forall₂_take _ hshows)
      fun t ht => hids t (List.mem_of_mem_take ht)
  rw [exeSelectType, bind_eq_ok]
  refine ⟨OrderedMap.load ∅ (loaded types), ?_, rfl⟩
  exact (fetchLoop_eq_ok_iff (toNat_countInt_le res.rows.length)).mpr ⟨loaded types, hread, rfl⟩

theorem nodup_loaded {types : List (Int × Bytes)} (hdistinct : (types.map Prod.fst).Nodup) :
    ((loaded types).map Prod.fst).Nodup := by
  have hkeys : (loaded types).map Prod.fst =
      (types.map Prod.fst).take (countInt types.length).toNat := by
    rw [loaded, List.map_map, List.map_take]
    rfl
  rw [hkeys]
  exact hdistinct.sublist (List.take_sublist _ _)

theorem zero_notMem_cstr (b : Bytes) : 0 ∉ cstr b := by
  intro h
  simpa using List.mem_takeWhile_imp h

/-- All of the types are loaded as they are, under two conditions. -/
theorem loaded_perm_iff (types : List (Int × Bytes)) :
    (loaded types).Perm types ↔ types.length < 2 ^ 31 ∧ ∀ t ∈ types, 0 ∉ t.2 := by
  constructor
  · intro h
    have hlength := h.length_eq
    rw [loaded, List.length_map, List.length_take] at hlength
    refine ⟨(le_toNat_countInt_iff _).mp (by omega), fun t ht => ?_⟩
    obtain ⟨t', -, rfl⟩ := List.mem_map.mp (h.mem_iff.mpr ht)
    exact zero_notMem_cstr t'.2
  · rintro ⟨hlength, hnames⟩
    have hplain : ∀ t ∈ types, (t.1, cstr t.2) = t := by
      intro t ht
      rw [cstr_eq_self fun c hc h0 => hnames t ht (h0 ▸ hc)]
    rw [loaded, List.take_of_length_le ((le_toNat_countInt_iff _).mpr hlength),
      List.map_congr_left hplain, List.map_id']

/-! ## The type list -/

/-- What the options have to be for types that are listed in any order and a record of one
of them. -/
structure ListsTypes (types : List (Int × Bytes)) (own : Int) (options : List TypeOption) :
    Prop where
  once : (options.map fun o => (o.id, o.name)).Perm types
  selected : ∀ o ∈ options, o.selected = true ↔ o.id = own
  first : ∃ o rest, options = o :: rest ∧ o.id = own ∧ rest.Pairwise fun a b => a.id < b.id

/-- The form that the two functions print lists the types. -/
def PrintsTypes (res : ResultSet) (types : List (Int × Bytes)) (goods : GoodsRecord) : Prop :=
  ∃ typeMap printed pieces, exeSelectType (.stored (some res)) = .ok (typeMap, printed) ∧
    printTable typeMap goods = .ok pieces ∧
    ListsTypes types (atoi goods.godType) (optionsOf pieces)

/-- The options are the entries of the map. -/
theorem map_optionsOf_perm {types : List (Int × Bytes)} {goods : GoodsRecord}
    {pieces : List Piece} (hdistinct : (types.map Prod.fst).Nodup)
    (h : printTable (OrderedMap.load ∅ (loaded types)) goods = .ok pieces) :
    ((optionsOf pieces).map fun o => (o.id, o.name)).Perm (loaded types) := by
  obtain ⟨typeName, hfind, hoptions⟩ := optionsOf_printTable h
  have hpairs : (optionsOf pieces).map (fun o => (o.id, o.name)) = (atoi goods.godType, typeName) ::
      ((OrderedMap.load ∅ (loaded types)).erase (atoi goods.godType)).toList := by
    rw [hoptions, List.map_cons, List.map_map]
    exact congrArg (_ :: ·) (List.map_id _)
  rw [hpairs]
  exact (OrderedMap.cons_erase_perm hfind).trans (OrderedMap.toList_load_perm (nodup_loaded hdistinct))

/-- The form lists the types when all of them are loaded. -/
theorem printsTypes_iff_loaded {res : ResultSet} {types : List (Int × Bytes)}
    {goods : GoodsRecord} (hshows : List.Forall₂ ShowsType res.rows types)
    (hids : ∀ t ∈ types, IsInt t.1) (hdistinct : (types.map Prod.fst).Nodup)
    (hown : atoi goods.godType ∈ types.map Prod.fst) :
    PrintsTypes res types goods ↔ (loaded types).Perm types := by
  have hselect := exeSelectType_shows hshows hids
  constructor
  · rintro ⟨typeMap, printed, pieces, hmap, hprint, hlists⟩
    rw [hselect, Except.ok.injEq, Prod.mk.injEq] at hmap
    rw [← hmap.1] at hprint
    exact (map_optionsOf_perm hdistinct hprint).symm.trans hlists.once
  · intro hperm
    obtain ⟨⟨id, typeName⟩, htype, hid⟩ := List.mem_map.mp hown
    have hfind : (OrderedMap.load ∅ (loaded types))[atoi goods.godType]? = some typeName := by
      rw [← hid, ← Std.TreeMap.mem_toList_iff_getElem?_eq_some,
        (OrderedMap.toList_load_perm (nodup_loaded hdistinct)).mem_iff, hperm.mem_iff]
      exact htype
    obtain ⟨pieces, hprint⟩ := exists_printTable hfind
    obtain ⟨hselected, hfirst⟩ := optionsOf_erased hprint
    have honce := (map_optionsOf_perm hdistinct hprint).trans hperm
    exact ⟨_, _, pieces, hselect, hprint, honce, hselected, hfirst⟩

/-- For every set of rows with distinct ids in any order, and every record of one of these
types: the form has the option of the record, selected, and behind it the others by
increasing id, exactly when the rows can be counted in an `int` and no name has a NUL in
it. -/
theorem printsTypes_iff {res : ResultSet} {types : List (Int × Bytes)} {goods : GoodsRecord}
    (hshows : List.Forall₂ ShowsType res.rows types) (hids : ∀ t ∈ types, IsInt t.1)
    (hdistinct : (types.map Prod.fst).Nodup) (hown : atoi goods.godType ∈ types.map Prod.fst) :
    PrintsTypes res types goods ↔ types.length < 2 ^ 31 ∧ ∀ t ∈ types, 0 ∉ t.2 :=
  (printsTypes_iff_loaded hshows hids hdistinct hown).trans (loaded_perm_iff types)

/-- A set with the rows of these types. -/
def typeSet (types : List (Int × Bytes)) : ResultSet where
  fields := [bytes "godt_id", bytes "godt_name"]
  rows := types.map fun t => [some (decimal t.1), some t.2]
  wide row hrow := by
    obtain ⟨t, -, rfl⟩ := List.mem_map.mp hrow
    rfl

theorem typeSet_shows (types : List (Int × Bytes)) :
    List.Forall₂ ShowsType (typeSet types).rows types := by
  induction types with
  | nil => exact .nil
  | cons t types ih => exact .cons ⟨rfl, rfl⟩ ih

/-- A record of the type with that id. -/
def recordOf (id : String) : GoodsRecord :=
  ⟨bytes "7", bytes "pen", bytes id, bytes "2", bytes "big"⟩

theorem printsTypes_two :
    PrintsTypes (typeSet [(2, bytes "cups"), (1, bytes "pens")])
      [(2, bytes "cups"), (1, bytes "pens")] (recordOf "1") :=
  (printsTypes_iff (typeSet_shows _) (by decide +kernel) (by decide +kernel)
    (by decide +kernel)).mpr ⟨by decide, by decide +kernel⟩

/-- That many types, with the numbers from 0 on for ids. -/
def manyTypes (n : Nat) : List (Int × Bytes) :=
  (List.range n).map fun i : Nat => (Int.ofNat i, bytes "pens")

theorem mem_manyTypes {n i : Nat} (hi : i < n) : (i : Int) ∈ (manyTypes n).map Prod.fst := by
  rw [manyTypes, List.map_map]
  exact List.mem_map.mpr ⟨i, List.mem_range.mpr hi, rfl⟩

theorem manyTypes_ids {n : Nat} (hn : n ≤ 2 ^ 31) : ∀ t ∈ manyTypes n, IsInt t.1 := by
  intro t ht
  obtain ⟨i, hi, rfl⟩ := List.mem_map.mp ht
  have hlt := List.mem_range.mp hi
  rw [IsInt]
  dsimp only [Int.ofNat_eq_natCast]
  omega

theorem manyTypes_distinct (n : Nat) : ((manyTypes n).map Prod.fst).Nodup := by
  rw [manyTypes, List.map_map]
  exact List.Nodup.map (fun i j hij => Int.ofNat.inj hij) List.nodup_range

/-- A name with a NUL in it is cut, and of too many types none is loaded. -/
theorem printsTypes_failing :
    ¬PrintsTypes (typeSet [(1, [97, 0, 98])]) [(1, [97, 0, 98])] (recordOf "1") ∧
      List.Forall₂ ShowsType (typeSet (manyTypes (2 ^ 31))).rows (manyTypes (2 ^ 31)) ∧
      (∀ t ∈ manyTypes (2 ^ 31), IsInt t.1) ∧ ((manyTypes (2 ^ 31)).map Prod.fst).Nodup ∧
      atoi (recordOf "1").godType ∈ (manyTypes (2 ^ 31)).map Prod.fst ∧
      ¬PrintsTypes (typeSet (manyTypes (2 ^ 31))) (manyTypes (2 ^ 31)) (recordOf "1") := by
  have hone : atoi (recordOf "1").godType = 1 := by decide +kernel
  have hown : atoi (recordOf "1").godType ∈ (manyTypes (2 ^ 31)).map Prod.fst := by
    rw [hone]
    exact mem_manyTypes (by norm_num)
  have hids := manyTypes_ids (n := 2 ^ 31) le_rfl
  have hdistinct := manyTypes_distinct (2 ^ 31)
  refine ⟨fun h => ?_, typeSet_shows _, hids, hdistinct, hown, fun h => ?_⟩
  · have hloaded := (printsTypes_iff_loaded (typeSet_shows _) (by decide) (by decide)
      (by decide +kernel)).mp h
    exact ((loaded_perm_iff _).mp hloaded).2 (1, [97, 0, 98]) (List.mem_singleton_self _) (by decide)
  · have hloaded := (printsTypes_iff_loaded (typeSet_shows _) hids hdistinct hown).mp h
    have hlength := ((loaded_perm_iff _).mp hloaded).1
    rw [manyTypes, List.length_map, List.length_range] at hlength
    exact absurd hlength (lt_irrefl _)

end Cgi
