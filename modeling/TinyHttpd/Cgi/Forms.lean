import TinyHttpd.Cgi.ChangePage
import TinyHttpd.Cgi.FormTrip
import TinyHttpd.Lib.HtmlForm

/-!
# The forms of the three pages

`add_god_show_cgi`, `find_god_cgi` and `change_god_cgi` print a form each.  What a browser
finds in their pages depends on what is printed between the fixed parts: the ids and names of
the types, and on the change page the fields of the record.  Where these are read as they
are, each page has the one form that is meant (`addPage_form`, `findPage_form`,
`changePage_form`).
-/

namespace Cgi

open CString Html

/-- What is printed. -/
def pageBytes (pieces : List Piece) : Bytes := pieces.flatMap Piece.render

theorem pageBytes_append (a b : List Piece) : pageBytes (a ++ b) = pageBytes a ++ pageBytes b :=
  List.flatMap_append

/-! ## The page of `add_god_show_cgi` -/

/-- The style of the pages with a form. -/
def formStyle : List Piece :=
  [.text (bytes "<style type=\"text/css\">\n"),
    .text (bytes "body\x7b\nbackground-color: #eeffff;\n\x7d\n"),
    .text (bytes "#addGodTab\x7b\nmargin-left:120px;\nbackground-color: #eeffff;\n\x7d\n"),
    .text (bytes "</style>\n")]

/-- `print_table` of `add_god_show_cgi` up to the options of the types. -/
def addTableTop : List Piece :=
  [.text (bytes "<table id=\"addGodTab\">\n"),
    .text (bytes "<caption style=\"font-size: 17px\">Please input goods information</caption>\n"),
    .text (bytes "<tr>\n"),
    .text (bytes "<td>Name:</td><td><input type=\"text\" name=\"god_name\"/></td>\n"),
    .text (bytes "</tr>\n<tr>\n<td>Type:</td>\n<td>\n<select name=\"god_type\">\n"),
    .text (bytes "<option value=\"-1\" selected=\"selected\">-please choice-</option>\n")]

/-- The three buttons for the size, of which none is checked. -/
def openSizes : List Piece :=
  [.text (bytes "</tr>\n<tr>\n<td>Size:</td><td>\n"),
    .text (bytes "<input type=\"radio\" name=\"god_size\" value=\"big\"/>Big\n"),
    .text (bytes "<input type=\"radio\" name=\"god_size\" value=\"middle\"/>Middle\n"),
    .text (bytes "<input type=\"radio\" name=\"god_size\" value=\"small\"/>Small\n"),
    .text (bytes "</td>\n</tr>\n<tr>\n")]

/-- The rest of it. -/
def addTableBottom : List Piece :=
  [.text (bytes "</select>\n</td>\n</tr>\n<tr>\n"),
    .text (bytes "<td>Price:</td><td><input type=\"text\" name=\"god_price\"/></td>\n")] ++
  openSizes ++
  [.text (bytes "<td><input type=\"submit\" value=\"insert\"/></td>\n"),
    .text (bytes "<td><input type=\"reset\" value =\"reset\"/></td>\n"),
    .text (bytes "</tr>\n</table>\n")]

/-- The page in front of the table, with what `exe_select_type` prints. -/
def addPageHead (printed : Bytes) : List Piece :=
  [.text (bytes "<html>\n\n"), .text (bytes "<head><title>Add new goods</title>\n\n")] ++
  formStyle ++
  [.text (bytes "</head>\n<body>\n\n"),
    .text (bytes "<p><a href=\"../index.html\">Back index</a></p>\n\n"),
    .text (bytes "<form action=\"add_god_cgi\" method=\"POST\">\n"), .text printed]

/-- The end of the two pages without a record. -/
def formPageEnd : List Piece :=
  [.text (bytes "</form>\n"), .text (bytes "</body>\n</html>\n\n")]

/-- `add_god_show_cgi` for a GET. -/
def addGodShowGet (server : SelectServer) (db : Database) : Except Fault (List Piece) := do
  let (typeMap, printed) ← exeSelectType (server.answer db mapSql)
  return addPageHead printed ++ addTableTop ++ printType typeMap ++
    (addTableBottom ++ formPageEnd)

/-! ## The page of `find_god_cgi` -/

/-- `print_script`. -/
def printScript : List Piece :=
  [.text (bytes "<script language=\"javascript\">\n"),
    .text (bytes "function focus(obj)\x7b\nalert(\"aa\");\nobj.value=\"\";\n\x7d\n"),
    .text (bytes "</script>\n")]

/-- `print_table` of `find_god_cgi` up to the options of the types. -/
def findTableTop : List Piece :=
  [.text (bytes "<table id=\"addGodTab\">\n"),
    .text (bytes "<caption style=\"font-size: 17px\"> Input find goods information</caption>\n"),
    .text (bytes "<tr>\n<td>Id:</td><td><input onfocus=\"this.value=''\" "),
    .text (bytes "onblur=\"if(this.value=='')this.value='xx'\"type=\"text\" name=\"god_id\" "),
    .text (bytes "value=\"xx\"/></td>\n</tr>\n"),
    .text (bytes "<tr>\n<td>Name:</td><td><input onfocus=\"this.value=''\" "),
    .text (bytes "onblur=\"if(this.value=='')this.value='xx'\" type=\"text\" name=\"god_name\" "),
    .text (bytes "value=\"xx\"/></td>\n</tr>\n"),
    .text (bytes "<tr>\n<td>Type:</td>\n<td>\n<select name=\"god_type\">\n"),
    .text (bytes "<option value=\"-1\" selected=\"selected\">-please choice-</option>\n")]

/-- The rest of it. -/
def findTableBottom : List Piece :=
  [.text (bytes "</select>\n</td>\n</tr>\n<tr>\n<td>Price:</td><td>"),
    .text (bytes "<input onfocus=\"this.value=''\" onblur=\"if(this.value=='')this.value='xx.xx'\" "),
    .text (bytes "style=\"width:70px\" type=\"text\" name=\"god_price_l\" value=\"xx.xx\"/>--to--\n"),
    .text (bytes "<input onfocus=\"this.value=''\" onblur=\"if(this.value=='')this.value='xx.xx'\" "),
    .text (bytes "style=\"width:70px\" type=\"text\" name=\"god_price_h\" value=\"xx.xx\"/></td>\n")] ++
  openSizes ++
  [.text (bytes "<td><input type=\"submit\" value=\"find\"/></td>\n"),
    .text (bytes "<td><input type=\"reset\" value =\"reset\"/></td>\n"),
    .text (bytes "</tr>\n</table>\n")]

/-- The page in front of the table. -/
def findPageHead (printed : Bytes) : List Piece :=
  [.text (bytes "<html>\n\n"), .text (bytes "<head><title>Find goods</title>\n\n")] ++
  formStyle ++ printScript ++
  [.text (bytes "</head>\n<body>\n\n"),
    .text (bytes "<p><a href=\"../index.html\">Back index</a></p>\n\n"),
    .text (bytes "<form action=\"god_list_cgi\" method=\"POST\">\n"), .text printed]

/-- `find_god_cgi` for a GET. -/
def findGodGet (server : SelectServer) (db : Database) : Except Fault (List Piece) := do
  let (typeMap, printed) ← exeSelectType (server.answer db mapSql)
  return findPageHead printed ++ findTableTop ++ printType typeMap ++
    (findTableBottom ++ formPageEnd)

/-! ## Texts that are read as they are -/

instance (value : Bytes) : Decidable (Unreserved value) :=
  inferInstanceAs (Decidable (∀ c ∈ value, _))

/-- Letters, digits and `*-._` mean nothing in a page. -/
theorem valueText_of_unreserved (refs : References) {v : Bytes} (h : Unreserved v) :
    ValueText refs v := by
  have hnot : ∀ c, FormUrl.isUnreserved c = false → c ∉ v := by
    intro c hc hmem
    rw [h c hmem] at hc
    cases hc
  exact ⟨hnot 34 (by decide), hnot cr (by decide), hnot 0 (by decide),
    unreferenced_of_notMem refs (hnot 38 (by decide))⟩

theorem unreserved_decimal (v : Int) : Unreserved (decimal v) := by
  have hdigit : ∀ (n : Nat), ∀ c ∈ decimalNat n, FormUrl.isUnreserved c = true := by
    intro n c hc
    rw [FormUrl.isUnreserved, isDigits_decimalNat n c hc]
    rfl
  cases v with
  | ofNat n => exact hdigit n
  | negSucc n => exact List.forall_mem_cons.mpr ⟨by decide, hdigit (n + 1)⟩

theorem TypeOption.render_eq (o : TypeOption) :
    o.render = optionBytes (decimal o.id) o.name o.selected := rfl

/-- The options that are printed for the types. -/
def typeChoices (typeMap : TypeMap) : List (Text × Bool) :=
  typeMap.toList.map fun t => (codes (decimal t.1), false)

/-- The select of the types. -/
abbrev inTypes (options : List (Text × Bool)) : Region :=
  .select (some (codes (bytes "god_type"))) options

theorem shows_printType {refs : References} {typeMap : TypeMap}
    (h : ∀ t ∈ typeMap.toList, PlainText refs t.2) (options : List (Text × Bool)) :
    Shows refs (lineStart, inTypes options) (pageBytes (printType typeMap)) []
      (lineStart, inTypes (options ++ typeChoices typeMap)) := by
  have htypes : ∀ i ∈ typeMap.toList.map fun t => (decimal t.1, t.2),
      ValueText refs i.1 ∧ PlainText refs i.2 := by
    intro i hi
    obtain ⟨t, ht, rfl⟩ := List.mem_map.mp hi
    exact ⟨valueText_of_unreserved refs (unreserved_decimal t.1), h t ht⟩
  have hitems := shows_options htypes (some (codes (bytes "god_type"))) options
  rw [List.flatMap_map, List.map_map] at hitems
  rw [pageBytes, printType, List.flatMap_map]
  exact hitems

/-! ## The two forms without a record -/

/-- The sizes there are buttons for. -/
def sizes : List Bytes := [bytes "big", bytes "middle", bytes "small"]

/-- Radio buttons for the size. -/
def sizeRadios (checked : Bytes → Bool) : List FormPart :=
  sizes.map fun value => .radio (codes (bytes "god_size")) (codes value) (checked value)

/-- A text input. -/
def textInput (name : String) (value : Bytes) (readonly : Bool) : FormPart :=
  .text (codes (bytes name)) (codes value) readonly

/-- The select of a type, with an option in front of those of the types. -/
def typeSelect (first : Int) (typeMap : TypeMap) : FormPart :=
  .select (codes (bytes "god_type")) ((codes (decimal first), true) :: typeChoices typeMap)

/-- The form of `add_god_show_cgi`. -/
def addForm (typeMap : TypeMap) : List FormPart :=
  [.start (codes (bytes "add_god_cgi")) (codes (bytes "POST")),
    textInput "god_name" [] false, typeSelect (-1) typeMap, textInput "god_price" [] false] ++
  sizeRadios fun _ => false

/-- The form of `find_god_cgi`. -/
def findForm (typeMap : TypeMap) : List FormPart :=
  [.start (codes (bytes "god_list_cgi")) (codes (bytes "POST")),
    textInput "god_id" (bytes "xx") false, textInput "god_name" (bytes "xx") false,
    typeSelect (-1) typeMap, textInput "god_price_l" (bytes "xx.xx") false,
    textInput "god_price_h" (bytes "xx.xx") false] ++
  sizeRadios fun _ => false

theorem shows_selectEnd (refs : References) (options : List (Text × Bool)) :
    Shows refs (lineStart, inTypes options) (bytes "</select>")
      [.select (codes (bytes "god_type")) options] (.data [], .form) := by
  have hend : Writes lineStart (bytes "</select>")
      [.char 10, .tag ⟨true, codes (bytes "select"), [], false⟩] (.data []) := by decide
  refine shows_of_read (hend.read refs) ?_
  simp [feedParts, Region.step, Region.tag, Tag.closes]

/-- A page with the options of the types between two parts that are fixed. -/
theorem formParts_page {refs : References} {typeMap : TypeMap}
    (h : ∀ t ∈ typeMap.toList, PlainText refs t.2) {front behind : List Piece}
    {parts more : List FormPart}
    (hfront : Fixed (.data [], .outside) (pageBytes front) parts
      (lineStart, inTypes [(codes (decimal (-1)), true)]))
    (hselect : (pageBytes behind).take 9 = bytes "</select>")
    (hbehind : Fixed (.data [], .form) ((pageBytes behind).drop 9) more
      (.data [lf, lf], .outside)) :
    formParts .outside (tokenize refs (pageBytes (front ++ printType typeMap ++ behind))) =
      parts ++ typeSelect (-1) typeMap :: more := by
  have hpage := (((hfront.shows refs).comp (shows_printType h _)).comp
    (shows_selectEnd refs _)).comp (hbehind.shows refs)
  rw [← hselect, List.append_assoc, List.take_append_drop] at hpage
  rw [pageBytes_append, pageBytes_append, hpage.formParts_eq rfl]
  simp [typeSelect]

/-- What a browser finds in the page of `add_god_show_cgi`. -/
theorem addPage_form {refs : References} {typeMap : TypeMap}
    (h : ∀ t ∈ typeMap.toList, PlainText refs t.2) :
    formParts .outside (tokenize refs (pageBytes (addPageHead [] ++ addTableTop ++
      printType typeMap ++ (addTableBottom ++ formPageEnd)))) = addForm typeMap := by
  have hfront : Fixed (.data [], .outside) (pageBytes (addPageHead [] ++ addTableTop))
      [.start (codes (bytes "add_god_cgi")) (codes (bytes "POST")), textInput "god_name" [] false]
      (lineStart, inTypes [(codes (decimal (-1)), true)]) := by decide +kernel
  have hbehind : Fixed (.data [], .form) ((pageBytes (addTableBottom ++ formPageEnd)).drop 9)
      (textInput "god_price" [] false :: sizeRadios fun _ => false)
      (.data [lf, lf], .outside) := by decide +kernel
  exact formParts_page h hfront (by decide +kernel) hbehind

/-- What it finds in that of `find_god_cgi`. -/
theorem findPage_form {refs : References} {typeMap : TypeMap}
    (h : ∀ t ∈ typeMap.toList, PlainText refs t.2) :
    formParts .outside (tokenize refs (pageBytes (findPageHead [] ++ findTableTop ++
      printType typeMap ++ (findTableBottom ++ formPageEnd)))) = findForm typeMap := by
  have hfront : Fixed (.data [], .outside) (pageBytes (findPageHead [] ++ findTableTop))
      [.start (codes (bytes "god_list_cgi")) (codes (bytes "POST")),
        textInput "god_id" (bytes "xx") false, textInput "god_name" (bytes "xx") false]
      (lineStart, inTypes [(codes (decimal (-1)), true)]) := by decide +kernel
  have hbehind : Fixed (.data [], .form) ((pageBytes (findTableBottom ++ formPageEnd)).drop 9)
      (textInput "god_price_l" (bytes "xx.xx") false ::
        textInput "god_price_h" (bytes "xx.xx") false :: sizeRadios fun _ => false)
      (.data [lf, lf], .outside) := by decide +kernel
  exact formParts_page h hfront (by decide +kernel) hbehind

/-! ## The form of a record -/

/-- An input in front of its value. -/
def inputTag (attributes : List (String × String)) : Tag Bytes :=
  ⟨false, codes (bytes "input"), attributes.map fun a => (codes (bytes a.1), bytes a.2), false⟩

theorem shows_inputRow {refs : References} (head name : String) (readonly : Bool) (t : Tag Bytes)
    (hopen : Fixed (lineStart, .form) (bytes "<tr>\n" ++ bytes head) []
      (.tag t (.value 34 (codes (bytes "value")) []), .form))
    (h : TextInput t (codes (bytes name)) readonly) {v : Bytes} (hv : ValueText refs v) :
    Shows refs (lineStart, .form) (pageBytes (inputRow head v)) [textInput name v readonly]
      (lineStart, .form) := by
  have hclose : Fixed (.data [], .form) (bytes "</td>\n" ++ bytes "</tr>\n") []
      (lineStart, .form) := by decide
  have hend : bytes "\"/></td>\n" = [34, 47, 62] ++ bytes "</td>\n" := by decide
  have hrow := ((hopen.shows refs).comp (shows_input h hv)).comp (hclose.shows refs)
  simp only [List.nil_append, List.append_nil, List.append_assoc] at hrow
  simpa [pageBytes, inputRow, Piece.render, hend, textInput] using hrow

/-- A button for the size, checked or not. -/
theorem shows_sizeButton (refs : References) (value label : String) {s last : Spot}
    (h : ∀ checked : Bool, Fixed s
      (bytes "<input type=\"radio\" name=\"god_size\" " ++
        (bytes (if checked then "checked=\"checked\"" else "") ++
          bytes (" value=\"" ++ value ++ "\"/>" ++ label ++ "\n")))
      [.radio (codes (bytes "god_size")) (codes (bytes value)) checked] last) (godSize : Bytes) :
    Shows refs s (pageBytes (sizeButton value label godSize))
      [.radio (codes (bytes "god_size")) (codes (bytes value))
        (decide (strcmp (bytes value) godSize = 0))] last := by
  have hbutton := (h (decide (strcmp (bytes value) godSize = 0))).shows refs
  simpa [pageBytes, sizeButton, Piece.render] using hbutton

/-- The form of `change_god_cgi` for a record. -/
def recordForm (typeMap : TypeMap) (goods : GoodsRecord) : List FormPart :=
  [.start (codes (bytes "change_god_cgi")) (codes (bytes "POST")),
    textInput "god_id" goods.godId true, textInput "god_name" goods.godName false,
    typeSelect (atoi goods.godType) (typeMap.erase (atoi goods.godType)),
    textInput "god_price" goods.godPrice false] ++
  sizeRadios fun value => strcmp value goods.godSize = 0

theorem mem_toList_of_erase {typeMap : TypeMap} {id : Int} {t : Int × Bytes}
    (h : t ∈ (typeMap.erase id).toList) : t ∈ typeMap.toList := by
  rw [Std.TreeMap.mem_toList_iff_getElem?_eq_some] at h ⊢
  rw [Std.TreeMap.getElem?_erase] at h
  split at h
  next => cases h
  next => exact h

/-- The row of the type: its option in front, and the others. -/
theorem shows_typeRow {refs : References} {typeMap : TypeMap} {goods : GoodsRecord}
    {typeName : Bytes} (hfind : typeMap[atoi goods.godType]? = some typeName)
    (hnames : ∀ t ∈ typeMap.toList, PlainText refs t.2) :
    Shows refs (lineStart, .form)
      (pageBytes ([.text (bytes "<tr>\n<td>Type:</td>\n<td>\n<select name=\"god_type\">\n"),
          .option ⟨atoi goods.godType, typeName, true⟩] ++
        printType (typeMap.erase (atoi goods.godType)) ++
        [.text (bytes "</select>\n</td>\n</tr>\n")]))
      [typeSelect (atoi goods.godType) (typeMap.erase (atoi goods.godType))]
      (lineStart, .form) := by
  have hopen : Fixed (lineStart, .form)
      (bytes "<tr>\n<td>Type:</td>\n<td>\n<select name=\"god_type\">\n") []
      (lineStart, inTypes []) := by decide
  have hclose : Fixed (.data [], .form) (bytes "\n</td>\n</tr>\n") [] (lineStart, .form) := by
    decide
  have hend : bytes "</select>\n</td>\n</tr>\n" = bytes "</select>" ++ bytes "\n</td>\n</tr>\n" := by
    decide
  have hname : PlainText refs typeName :=
    hnames (atoi goods.godType, typeName)
      (Std.TreeMap.mem_toList_iff_getElem?_eq_some.mpr hfind)
  have hfirst := shows_option (valueText_of_unreserved refs (unreserved_decimal
    (atoi goods.godType))) hname (some (codes (bytes "god_type"))) [] true
  have herased : ∀ t ∈ (typeMap.erase (atoi goods.godType)).toList, PlainText refs t.2 :=
    fun t ht => hnames t (mem_toList_of_erase ht)
  have hrow := ((((hopen.shows refs).comp hfirst).comp (shows_printType herased _)).comp
    (shows_selectEnd refs _)).comp (hclose.shows refs)
  rw [pageBytes_append, pageBytes_append]
  simpa only [pageBytes, List.flatMap_cons, List.flatMap_nil, Piece.render, TypeOption.render_eq,
    hend, List.append_nil, List.nil_append, List.append_assoc, typeSelect, List.singleton_append]
    using hrow

/-- The three buttons. -/
theorem shows_sizes (refs : References) (godSize : Bytes) :
    Shows refs (lineStart, .form)
      (pageBytes (sizeButton "big" "Big" godSize ++ sizeButton "middle" "Middle" godSize ++
        sizeButton "small" "Small" godSize))
      (sizeRadios fun value => strcmp value godSize = 0) (.data (bytes "Small\n"), .form) := by
  have hbig : Shows refs (lineStart, .form) (pageBytes (sizeButton "big" "Big" godSize)) _
      (.data (bytes "Big\n"), .form) :=
    shows_sizeButton refs "big" "Big" (by decide) godSize
  have hmiddle : Shows refs (.data (bytes "Big\n"), .form)
      (pageBytes (sizeButton "middle" "Middle" godSize)) _ (.data (bytes "Middle\n"), .form) :=
    shows_sizeButton refs "middle" "Middle" (by decide) godSize
  have hsmall : Shows refs (.data (bytes "Middle\n"), .form)
      (pageBytes (sizeButton "small" "Small" godSize)) _ (.data (bytes "Small\n"), .form) :=
    shows_sizeButton refs "small" "Small" (by decide) godSize
  rw [pageBytes_append, pageBytes_append]
  exact (hbig.comp hmiddle).comp hsmall

/-- What a browser finds in the page of `change_god_cgi`, where the fields of the record and
the names of the types are read as they are. -/
theorem changePage_form {refs : References} {typeMap : TypeMap} {goods : GoodsRecord}
    {table : List Piece} (htable : printTable typeMap goods = .ok table)
    (hnames : ∀ t ∈ typeMap.toList, PlainText refs t.2) (hid : ValueText refs goods.godId)
    (hname : ValueText refs goods.godName) (hprice : ValueText refs goods.godPrice) :
    formParts .outside (tokenize refs (pageBytes (changePageHead [] ++ [.text []] ++ table ++
      [.text (bytes "</form>\n</body>\n"), .text (bytes "</html>\n\n")]))) =
      recordForm typeMap goods := by
  obtain ⟨typeName, hfind⟩ : ∃ typeName, typeMap[atoi goods.godType]? = some typeName := by
    obtain ⟨typeName, hfind, -⟩ := optionsOf_printTable htable
    exact ⟨typeName, hfind⟩
  rw [printTable, hfind] at htable
  obtain rfl := Except.ok.inj htable
  have hhead : Fixed (.data [], .outside) (pageBytes (changePageHead [] ++ [.text []] ++
      [.text (bytes "<table id=\"addGodTab\">\n"), .text (bytes
        "<caption style=\"font-size: 17px\">Current goods information</caption>\n")]))
      [.start (codes (bytes "change_god_cgi")) (codes (bytes "POST"))] (lineStart, .form) := by
    decide +kernel
  have htail : Fixed (.data (bytes "Small\n"), .form)
      (pageBytes [.text (bytes "</td>\n</tr>\n<tr>\n"),
        .text (bytes "<td><input type=\"submit\" value=\"change\"/></td>\n"),
        .text (bytes "<td><input type=\"reset\" value =\"reset\"/></td>\n"),
        .text (bytes "</tr>\n</table>\n"),
        .text (bytes "</form>\n</body>\n"), .text (bytes "</html>\n\n")]) []
      (.data [lf, lf], .outside) := by decide +kernel
  have hsizeHead : Fixed (lineStart, .form) (pageBytes [.text (bytes "<tr>\n<td>Size:</td><td>\n")])
      [] (lineStart, .form) := by decide
  have hidRow := shows_inputRow
    "<td>Id:</td><td><input type=\"text\" readonly=\"readonly\" name=\"god_id\" value=\""
    "god_id" true (inputTag [("type", "text"), ("readonly", "readonly"), ("name", "god_id")])
    (by decide) (by decide) hid
  have hnameRow := shows_inputRow
    "<td>Name:</td><td><input type=\"text\" name=\"god_name\" value=\""
    "god_name" false (inputTag [("type", "text"), ("name", "god_name")])
    (by decide) (by decide) hname
  have hpriceRow := shows_inputRow
    "<td>Price:</td><td><input type=\"text\" name=\"god_price\" value=\""
    "god_price" false (inputTag [("type", "text"), ("name", "god_price")])
    (by decide) (by decide) hprice
  have hpage := (((((((hhead.shows refs).comp hidRow).comp hnameRow).comp
    (shows_typeRow hfind hnames)).comp hpriceRow).comp (hsizeHead.shows refs)).comp
    (shows_sizes refs goods.godSize)).comp (htail.shows refs)
  simp only [← pageBytes_append] at hpage
  refine Eq.trans (congrArg (fun b => formParts .outside (tokenize refs (pageBytes b))) ?_)
    (hpage.formParts_eq rfl)
  simp only [List.append_assoc, List.cons_append, List.nil_append]

end Cgi
