import TinyHttpd.Cgi.Select
import TinyHttpd.Lib.Html

/-!
# The table of the list page

`print_table` of `god_list_cgi` puts the fields of the records into the page as they are:
between the tags of a cell, and behind the address in a link.
-/

namespace Cgi

open CString Html

/-! ## What is printed -/

/-- A cell with a field. -/
def fieldCell (field : Bytes) : Bytes :=
  bytes "<td class=\"tabRow\">" ++ field ++ bytes "</td>\n"

/-- A cell with a link to a page about the record. -/
def linkCell (page label : String) (godId : Bytes) : Bytes :=
  bytes ("<td class=\"tabRow\"><a href=\"" ++ page ++ "?god_id=") ++ godId ++
    bytes ("\">" ++ label ++ "</a></td>\n")

/-- The body of the loop. -/
def printRow (goods : GoodsRecord) : Bytes :=
  bytes "<tr >\n" ++ fieldCell goods.godId ++ fieldCell goods.godName ++
    fieldCell goods.godType ++ fieldCell goods.godPrice ++ fieldCell goods.godSize ++
    linkCell "change_god_cgi" "Change" goods.godId ++ linkCell "del_god_cgi" "Del" goods.godId ++
    bytes "</tr>\n"

/-- The loop from `i` on.  `i` is an `int`, and there is none behind the last one. -/
def printRows : Nat → List GoodsRecord → Option Bytes
  | _, [] => some []
  | i, goods :: goodsList =>
      if i + 1 < 2 ^ 31 then do
        let rows ← printRows (i + 1) goodsList
        return printRow goods ++ rows
      else none

/-- What is printed in front of the rows. -/
def tableHead : Bytes :=
  bytes "<table id=\"godTable\">\n" ++
    bytes "<tr styel=\"text-align:center;border:solid;\">\n" ++
    bytes "<td>Id</td><td>Name</td><td>Type</td><td>Price</td>\n" ++
    bytes "<td>Size</td><td>Operater</td><td>Delete</td>\n" ++ bytes "</tr>\n"

/-- `print_table` of `god_list_cgi`. -/
def printGoodsTable (goodsList : List GoodsRecord) : Option Bytes := do
  let rows ← printRows 0 goodsList
  return tableHead ++ rows ++ bytes "</table>\n"

theorem printRows_eq_some_iff {goodsList : List GoodsRecord} {i : Nat} (hi : i < 2 ^ 31)
    {rows : Bytes} : printRows i goodsList = some rows ↔
      i + goodsList.length < 2 ^ 31 ∧ goodsList.flatMap printRow = rows := by
  induction goodsList generalizing i rows with
  | nil =>
      rw [printRows, Option.some.injEq]
      exact (and_iff_right hi).symm
  | cons goods goodsList ih =>
      rw [printRows, List.flatMap_cons, List.length_cons]
      split
      next hnext =>
          simp only [Option.bind_eq_bind, Option.bind_eq_some_iff, ih hnext, Option.pure_def,
            Option.some.injEq]
          constructor
          · rintro ⟨rest, ⟨hlength, rfl⟩, rfl⟩
            exact ⟨by omega, rfl⟩
          · rintro ⟨hlength, rfl⟩
            exact ⟨_, ⟨by omega, rfl⟩, rfl⟩
      next hlast => exact iff_of_false (fun h => by cases h) fun h => hlast (by omega)

/-! ## What the page is meant to be -/

/-- The text as it is. -/
def chars (text : Bytes) : List Token := (codes text).map .char

/-- An element. -/
def element (name : String) (attributes : List (String × Bytes)) (content : List Token) :
    List Token :=
  .tag ⟨false, codes (bytes name), attributes.map fun a => (codes (bytes a.1), codes a.2), false⟩ ::
    content ++ [.tag ⟨true, codes (bytes name), [], false⟩]

def newline : List Token := chars [lf]

def recordCell (content : List Token) : List Token :=
  newline ++ element "td" [("class", bytes "tabRow")] content

/-- A link with the id of a record. -/
def idLink (page label : String) (godId : Bytes) : List Token :=
  element "a" [("href", bytes (page ++ "?god_id=") ++ godId)] (chars (bytes label))

/-- The five fields. -/
def GoodsRecord.fields (goods : GoodsRecord) : List Bytes :=
  [goods.godId, goods.godName, goods.godType, goods.godPrice, goods.godSize]

/-- A row: a cell for each field, with the text of the field, and the two links. -/
def recordRow (goods : GoodsRecord) : List Token :=
  newline ++ element "tr" []
    (goods.fields.flatMap (fun field => recordCell (chars field)) ++
      recordCell (idLink "change_god_cgi" "Change" goods.godId) ++
      recordCell (idLink "del_god_cgi" "Del" goods.godId) ++ newline)

def headCells (labels : List String) : List Token :=
  newline ++ labels.flatMap fun label => element "td" [] (chars (bytes label))

def headRow : List Token :=
  newline ++ element "tr" [("styel", bytes "text-align:center;border:solid;")]
    (headCells ["Id", "Name", "Type", "Price"] ++ headCells ["Size", "Operater", "Delete"] ++
      newline)

/-- One table: the row of the heads, and a row for each record. -/
def goodsTable (goodsList : List GoodsRecord) : List Token :=
  element "table" [("id", bytes "godTable")]
    (headRow ++ goodsList.flatMap recordRow ++ newline) ++ newline

/-! ## The rows -/

/-- The fields of the record do not show in the markup. -/
def Harmless (refs : References) (goods : GoodsRecord) : Prop :=
  (∀ field ∈ goods.fields, PlainText refs field) ∧ 34 ∉ goods.godId

instance (refs : References) : DecidablePred (Harmless refs) :=
  fun goods => inferInstanceAs (Decidable
    ((∀ field ∈ goods.fields, PlainText refs field) ∧ 34 ∉ goods.godId))

/-- Behind a line of the table. -/
abbrev lineEnd : State := .data [lf]

theorem isTagName_td : isTagName (bytes "td") := by decide

theorem readsWhen_fieldCell (refs : References) (field : Bytes) :
    ReadsWhen refs lineEnd lineEnd (fieldCell field) (recordCell (chars field))
      (PlainText refs field) := by
  have hopen : Writes lineEnd (bytes "<td class=\"tabRow\">")
      (newline ++ [.tag ⟨false, codes (bytes "td"),
        [(codes (bytes "class"), codes (bytes "tabRow"))], false⟩]) (.data []) := by
    decide
  have hclose : Writes (.data []) [lf] [] lineEnd := by decide
  have htext := readsWhen_text refs isTagName_td field
  have hbytes : bytes "</td>\n" = endTag (bytes "td") ++ [lf] := by decide
  have htoken : endToken (bytes "td") = .tag ⟨true, codes (bytes "td"), [], false⟩ := by
    decide
  have hcell := ((hopen.readsWhen refs).comp fun _ => htext).comp fun _ => hclose.readsWhen refs
  refine hcell.congr ?_ ?_ (by rw [true_and, and_true])
  · rw [fieldCell, hbytes, List.append_assoc, List.append_assoc, List.append_assoc]
  · rw [htoken]
    simp [recordCell, element, chars]

/-- The pages behind the links of a row, and their labels. -/
def rowLinks : List (String × String) := [("change_god_cgi", "Change"), ("del_god_cgi", "Del")]

/-- A link of a row. -/
theorem readsWhen_linkCell (refs : References) {link : String × String} (hlink : link ∈ rowLinks)
    {godId : Bytes} (hid : PlainText refs godId) (hnul : 0 ∉ godId) :
    ReadsWhen refs lineEnd lineEnd (linkCell link.1 link.2 godId)
      (recordCell (idLink link.1 link.2 godId)) (34 ∉ godId) := by
  have hopens : ∀ link ∈ rowLinks,
      Writes lineEnd (bytes ("<td class=\"tabRow\"><a href=\"" ++ link.1 ++ "?god_id="))
        (newline ++ [.tag ⟨false, codes (bytes "td"),
          [(codes (bytes "class"), codes (bytes "tabRow"))], false⟩])
        (.tag ⟨false, codes (bytes "a"), [], false⟩
          (.value 34 (codes (bytes "href")) (bytes (link.1 ++ "?god_id=")))) := by decide
  have hcloses : ∀ link ∈ rowLinks, Writes (.data []) (bytes (link.2 ++ "</a></td>\n"))
      (chars (bytes link.2) ++ [.tag ⟨true, codes (bytes "a"), [], false⟩,
        .tag ⟨true, codes (bytes "td"), [], false⟩]) lineEnd := by decide
  have htexts : ∀ link ∈ rowLinks,
      (38 ∉ bytes (link.1 ++ "?god_id=") ∧ 0 ∉ bytes (link.1 ++ "?god_id=")) ∧
        bytes ("\">" ++ link.2 ++ "</a></td>\n") =
          [34, 62] ++ bytes (link.2 ++ "</a></td>\n") := by decide
  obtain ⟨haddress, hbytes⟩ := htexts link hlink
  have hvalue := readsWhen_value refs (t := ⟨false, codes (bytes "a"), [], false⟩) rfl
    (n := codes (bytes "href")) haddress hid hnul
  have hcell := (((hopens link hlink).readsWhen refs).comp fun _ => hvalue).comp
    fun _ => (hcloses link hlink).readsWhen refs
  refine hcell.congr ?_ ?_ (by rw [true_and, and_true])
  · rw [linkCell, hbytes]
    simp only [List.append_assoc]
  · simp [recordCell, idLink, element]

/-- A record is shown in its row exactly when it is harmless. -/
theorem readsWhen_row (refs : References) {goods : GoodsRecord} (hnul : 0 ∉ goods.godId) :
    ReadsWhen refs lineEnd lineEnd (printRow goods) (recordRow goods) (Harmless refs goods) := by
  have hopen : Writes lineEnd (bytes "<tr >\n")
      (newline ++ [.tag ⟨false, codes (bytes "tr"), [], false⟩]) lineEnd := by decide
  have hclose : Writes lineEnd (bytes "</tr>\n")
      (newline ++ [.tag ⟨true, codes (bytes "tr"), [], false⟩]) lineEnd := by decide
  have hfield := readsWhen_fieldCell refs
  have hcells := (((((hopen.readsWhen refs).comp fun _ => hfield goods.godId).comp
    fun _ => hfield goods.godName).comp fun _ => hfield goods.godType).comp
    fun _ => hfield goods.godPrice).comp fun _ => hfield goods.godSize
  have hlink {link : String × String} (h : link ∈ rowLinks) (hid : PlainText refs goods.godId) :=
    readsWhen_linkCell refs h hid hnul
  have hlinks := (hcells.comp fun h => hlink (List.mem_cons_self ..) h.1.1.1.1.2).comp
    fun h => hlink (List.mem_cons_of_mem _ (List.mem_singleton_self _)) h.1.1.1.1.1.2
  refine (hlinks.comp fun _ => hclose.readsWhen refs).congr rfl ?_ ?_
  · simp [recordRow, element, GoodsRecord.fields]
  · simp only [Harmless, GoodsRecord.fields, List.forall_mem_cons]
    tauto

/-- The table in front of its rows. -/
theorem writes_tableHead : Writes (.data []) tableHead
    (.tag ⟨false, codes (bytes "table"), [(codes (bytes "id"), codes (bytes "godTable"))], false⟩ ::
      headRow) lineEnd := by
  decide +kernel

theorem writes_tableEnd : Writes lineEnd (bytes "</table>\n")
    (newline ++ [.tag ⟨true, codes (bytes "table"), [], false⟩]) lineEnd := by
  decide

theorem tokenize_table_iff (refs : References) {goodsList : List GoodsRecord}
    (hnul : ∀ goods ∈ goodsList, 0 ∉ goods.godId) :
    tokenize refs (tableHead ++ goodsList.flatMap printRow ++ bytes "</table>\n") =
      goodsTable goodsList ↔ ∀ goods ∈ goodsList, Harmless refs goods := by
  have hrows := ReadsWhen.flatMap fun goods hgoods => readsWhen_row refs (hnul goods hgoods)
  have htable := ((writes_tableHead.readsWhen refs).comp fun _ => hrows).comp
    fun _ => writes_tableEnd.readsWhen refs
  have hlast : read refs lineEnd [] = newline := rfl
  have htokens := htable [] newline
  rw [List.append_nil, hlast, true_and, and_true, and_iff_left rfl] at htokens
  rw [tokenize, ← htokens]
  simp [goodsTable, element]

/-! ## The page -/

/-- The table is printed, and its tokens are those of the records. -/
def PrintsGoods (refs : References) (goodsList : List GoodsRecord) : Prop :=
  ∃ page, printGoodsTable goodsList = some page ∧ tokenize refs page = goodsTable goodsList

theorem printGoodsTable_eq_some_iff {goodsList : List GoodsRecord} {page : Bytes} :
    printGoodsTable goodsList = some page ↔ goodsList.length < 2 ^ 31 ∧
      tableHead ++ goodsList.flatMap printRow ++ bytes "</table>\n" = page := by
  simp only [printGoodsTable, Option.bind_eq_bind, Option.bind_eq_some_iff, Option.pure_def,
    Option.some.injEq, printRows_eq_some_iff (i := 0) (by norm_num), Nat.zero_add]
  constructor
  · rintro ⟨rows, ⟨hlength, rfl⟩, rfl⟩
    exact ⟨hlength, rfl⟩
  · rintro ⟨hlength, rfl⟩
    exact ⟨_, ⟨hlength, rfl⟩, rfl⟩

/-- For every list of records without NUL, and whatever the references are: the page is one
table with a row for each record in which its fields and links are as they were stored,
exactly when the list can be counted in an `int`, every field is plain text and no id has a
quote in it. -/
theorem printsGoods_iff (refs : References) {goodsList : List GoodsRecord}
    (hnul : ∀ goods ∈ goodsList, ∀ field ∈ goods.fields, 0 ∉ field) :
    PrintsGoods refs goodsList ↔
      goodsList.length < 2 ^ 31 ∧ ∀ goods ∈ goodsList, Harmless refs goods := by
  have hid : ∀ goods ∈ goodsList, 0 ∉ goods.godId :=
    fun goods hgoods => hnul goods hgoods goods.godId (List.mem_cons_self ..)
  rw [← tokenize_table_iff refs hid]
  constructor
  · rintro ⟨page, hpage, htokens⟩
    obtain ⟨hlength, rfl⟩ := printGoodsTable_eq_some_iff.mp hpage
    exact ⟨hlength, htokens⟩
  · rintro ⟨hlength, htokens⟩
    exact ⟨_, printGoodsTable_eq_some_iff.mpr ⟨hlength, rfl⟩, htokens⟩

/-- Some of the references; a number that is no character stands for U+FFFD. -/
def someReferences : References where
  named := [(bytes "amp;", [38]), (bytes "amp", [38]), (bytes "lt;", [60]), (bytes "lt", [60]),
    (bytes "gt;", [62]), (bytes "gt", [62]), (bytes "quot;", [34]), (bytes "quot", [34])]
  numeric n := if n = 0 ∨ 0x10FFFF < n ∨ (0xD800 ≤ n ∧ n < 0xE000) then 0xFFFD else n
  length_le := by decide

/-- A record with this id and this name. -/
def goodsNamed (id name : String) : GoodsRecord :=
  ⟨bytes id, bytes name, bytes "pens", bytes "2", bytes "big"⟩

theorem printsGoods_two :
    PrintsGoods someReferences [goodsNamed "7" "R&D < 5 \"x\"", goodsNamed "8" "pen"] := by
  refine (printsGoods_iff someReferences (by decide)).mpr ⟨by decide, ?_⟩
  decide +kernel

/-- A name with a tag in it, a name with a reference in it, and an id with a quote in it. -/
theorem printsGoods_failing :
    ¬PrintsGoods someReferences [goodsNamed "7" "<script>alert(1)</script>"] ∧
      ¬PrintsGoods someReferences [goodsNamed "7" "&lt;b"] ∧
      ¬PrintsGoods someReferences [goodsNamed "\" onclick=\"alert(1)" "pen"] := by
  have hfails : ∀ goods, 0 ∉ goods.godId → ¬Harmless someReferences goods →
      ¬PrintsGoods someReferences [goods] := by
    rintro goods hnul hharm ⟨page, hpage, htokens⟩
    obtain ⟨-, rfl⟩ := printGoodsTable_eq_some_iff.mp hpage
    refine hharm ((tokenize_table_iff _ ?_).mp htokens goods (List.mem_singleton_self _))
    exact List.forall_mem_singleton.mpr hnul
  exact ⟨hfails _ (by decide) (by decide +kernel), hfails _ (by decide) (by decide +kernel),
    hfails _ (by decide) (by decide +kernel)⟩

end Cgi
