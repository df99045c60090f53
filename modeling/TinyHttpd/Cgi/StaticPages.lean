import TinyHttpd.Cgi.FormRequests
import TinyHttpd.Cgi.ListLinks
import TinyHttpd.Cgi.MathAdd

/-!
# The pages that are files

The start page, the form for a sum and the form for a type are files in `htdocs`, two of them
with the line ends of another system.  These are the links and the forms that a browser finds
in them, and what it sends for the forms.
-/

namespace Cgi

open CString Html FormUrl SqlWhere

/-! ## The files -/

/-- `index.html`. -/
def indexHtml : Bytes :=
  bytes "<!DOCTYPE html>\r\n<html>\r\n<head>\r\n\t<meata charset=\"UTF-8\">\r\n" ++
    bytes "\t<title>Add new goods</title>\r\n\t<style type=\"text/css\">\r\n\t\tbody\x7b\r\n" ++
    bytes "\t\t\tbackground-color: #eeffff;\r\n\t\t\x7d\r\n\t\t\r\n\t\t#formatTab\x7b\r\n" ++
    bytes "\t\t\tmargin-left:120px;\r\n\t\t\tbackground-color: #eeffff;\r\n\t\t\x7d\r\n" ++
    bytes "\t</style>\r\n</head>\r\n<body>\r\n" ++
    bytes "\t\t<p style=\"margin-left: 100px\">Goods Management System</p>\r\n" ++
    bytes "\t\t<table id=\"formatTab\">\r\n\t\t\t<tr>\r\n" ++
    bytes "\t\t\t\t<td><a href=\"cgi_bin/god_list_cgi\">Goods list</a></a></td>\r\n" ++
    bytes "\t\t\t</tr>\r\n\t\t\t<tr>\r\n" ++
    bytes "\t\t\t\t<td><a href=\"cgi_bin/add_god_show_cgi\">Add new Goods</a></a></td>\r\n" ++
    bytes "\t\t\t</tr>\r\n\t\t\t<tr>\r\n" ++
    bytes "\t\t\t\t<td><a href=\"add_god_type.html\">Add new Goods Type</a></a></td>\r\n" ++
    bytes "\t\t\t</tr>\r\n\t\t\t<tr>\r\n" ++
    bytes "\t\t\t\t<td><a href=\"cal_add.html\">Calculate two num sum</a></a></td>\r\n" ++
    bytes "\t\t\t</tr>\r\n\t\t\t<tr>\r\n" ++
    bytes "\t\t\t\t<td><span onclick=\"document.getElementById('pic_text').innerHTML='This " ++
    bytes "is a picture';document.getElementById('pic_div').style.background='gray'\" " ++
    bytes ">Client here show a picture</span></td>\r\n" ++
    bytes "\t\t\t</tr>\r\n\t</table>\r\n" ++
    bytes "\t<div id=\"pic_div\" style=\"width: 658px;height: 411px;margin-left: " ++
    bytes "120px;margin-top: 50px\" " ++
    bytes "onmouseover=\"this.style.backgroundImage='url(messi.jpg)'\">\r\n" ++
    bytes "\t\t<h1 id=\"pic_text\" style=\"line-height: 411px;text-align: center;\"></h1>\r\n" ++
    bytes "\t</div>\r\n</body>\r\n</html>\r\n"

/-- `cal_add.html`. -/
def calAddHtml : Bytes :=
  bytes "<html>\n\t<head><title>My httpd index</title></head>\n" ++
    bytes "\t<body style=\"background-color: #eeffff;margin-left:120px\">\n" ++
    bytes "\t\t<p style=\"margin-left:0px\"><a href=\"index.html\">Back index</a></p>\n" ++
    bytes "\t\t<form action=\"cgi_bin/math_cgi\" method=\"POST\">\n" ++
    bytes "\t\t\tinput data1:<input type=\"text\" name=\"data1\"/><br/>\n" ++
    bytes "\t\t\tinput data2:<input type=\"text\" name=\"data2\"/><br/>\n" ++
    bytes "\t\t\t<input type=\"submit\"/>\n\t\t</form>\n\t</body>\n</html>\n"

/-- `add_god_type.html`. -/
def addGodTypeHtml : Bytes :=
  bytes "<!DOCTYPE html>\r\n<html>\r\n<head>\r\n\t<meata charset=\"UTF-8\">\r\n" ++
    bytes "\t<title>Add new goods type</title>\r\n\t<style type=\"text/css\">\r\n" ++
    bytes "\t\tbody\x7b\r\n\t\t\tbackground-color: #eeffff;\r\n\t\t\x7d\r\n\t\t\r\n" ++
    bytes "\t\t#addGodTab\x7b\r\n\t\t\tmargin-left:120px;\r\n" ++
    bytes "\t\t\tbackground-color: #eeffff;\r\n\t\t\x7d\r\n\t</style>\r\n</head>\r\n" ++
    bytes "<body>\r\n\t<p><a href=\"index.html\">Back index</a></p>\r\n" ++
    bytes "\t<form action=\"cgi_bin/add_god_type_cgi\" method=\"post\">\r\n" ++
    bytes "\t\t<table id=\"addGodTab\">\r\n" ++
    bytes "\t\t\t<caption style=\"font-size: 23px\">Add new goods type</caption>\r\n" ++
    bytes "\t\t\t<tr style=\"margin-top:10px;\">\r\n\t\t\t\t<td>Type name:</td>\r\n" ++
    bytes "\t\t\t\t<td><input type=\"text\" name=\"type_name\"/></td>\r\n\t\t\t</tr>\r\n" ++
    bytes "\t\t\t<tr>\r\n\t\t\t\t<td><input type=\"submit\" value=\"submit\"/></td>\r\n" ++
    bytes "\t\t\t\t<td><input type=\"reset\" value =\"reset\"/></td>\r\n\t\t\t</tr>\r\n" ++
    bytes "\t\t</table>\r\n\t</form>\r\n\r\n</body>\r\n</html>\r\n"

/-! ## Their links and forms -/

/-- A page is read with its line ends made one. -/
theorem tokenize_newlines (refs : References) (page : Bytes) :
    tokenize refs (newlines page) = tokenize refs page := by
  show tokensFrom refs _ (newlines (newlines page)) = _
  rw [newlines_eq_self (cr_notMem_newlines page)]
  rfl

/-- The links of the start page. -/
def startLinks : List Text :=
  [codes (bytes "cgi_bin/god_list_cgi"), codes (bytes "cgi_bin/add_god_show_cgi"),
    codes (bytes "add_god_type.html"), codes (bytes "cal_add.html")]

/-- The form for a sum. -/
def sumForm : List FormPart :=
  [.start (codes (bytes "cgi_bin/math_cgi")) (codes (bytes "POST")), textInput "data1" [] false,
    textInput "data2" [] false]

/-- The form for a type. -/
def typeForm : List FormPart :=
  [.start (codes (bytes "cgi_bin/add_god_type_cgi")) (codes (bytes "post")),
    textInput "type_name" [] false]

theorem indexHtml_links (refs : References) : links (tokenize refs indexHtml) = startLinks := by
  have hpage : FixedLinks (.data []) (newlines indexHtml) startLinks lineStart := by
    decide +kernel
  rw [← tokenize_newlines]
  exact (hpage.leads refs).links_eq rfl

theorem calAddHtml_form (refs : References) :
    formParts .outside (tokenize refs calAddHtml) = sumForm := by
  have hpage : Fixed (.data [], .outside) calAddHtml sumForm (lineStart, .outside) := by
    decide +kernel
  exact (hpage.shows refs).formParts_eq rfl

theorem addGodTypeHtml_form (refs : References) :
    formParts .outside (tokenize refs addGodTypeHtml) = typeForm := by
  have hpage : Fixed (.data [], .outside) (newlines addGodTypeHtml) typeForm
      (lineStart, .outside) := by
    decide +kernel
  rw [← tokenize_newlines]
  exact (hpage.shows refs).formParts_eq rfl

/-! ## A sum -/

/-- What a user puts into the form for a sum. -/
def sumChoice (data1 data2 : Bytes) : Choice := fun n =>
  if n = codes (bytes "data1") then some (codes data1)
  else if n = codes (bytes "data2") then some (codes data2)
  else none

theorem sumForm_body {data1 data2 : Bytes} (h₁ : OneLine data1) (h₂ : OneLine data2) :
    formBody (sumChoice data1 data2) sumForm = submit [("data1", data1), ("data2", data2)] := by
  have hnames : codes (bytes "data2") ≠ codes (bytes "data1") := by decide
  have hfirst : sumChoice data1 data2 (codes (bytes "data1")) = (some data1).map codes :=
    if_pos rfl
  have hsecond : sumChoice data1 data2 (codes (bytes "data2")) = (some data2).map codes :=
    (if_neg hnames).trans (if_pos rfl)
  have hentries : sumForm.flatMap (FormPart.entries (sumChoice data1 data2)) =
      [("data1", data1), ("data2", data2)].map fun f => (codes (bytes f.1), codes f.2) := by
    simp only [sumForm, List.flatMap_cons, List.flatMap_nil,
      entries_textInput [] false hfirst h₁, entries_textInput [] false hsecond h₂]
    rfl
  have hunreserved : ∀ name ∈ ["data1", "data2"], ∀ c ∈ bytes name, isUnreserved c = true := by
    decide +kernel
  exact formBody_eq hentries fun f hf => hunreserved f.1 (List.mem_map_of_mem (f := Prod.fst) hf)

/-- The number that `math_add` reads for what a user has typed. -/
def operand (typed : Bytes) : Int := atoi (encode typed)

/-- A numeral is read as it is, unless it has a plus sign. -/
theorem operand_numeral {typed : Bytes} {v : Int} (h : IsNumeral typed v) (hv : IsInt v) :
    operand typed = if typed.head? = some 43 then 0 else v := by
  have hdigits : ∀ {ds : Bytes}, IsDigits ds → encode ds = ds := by
    intro ds hds
    refine (encode_eq_self_iff ds).mpr fun c hc => ?_
    rw [isUnreserved, hds c hc]
    rfl
  cases h with
  | digits hne hds =>
      have hhead : typed.head? ≠ some 43 := by
        intro hhead
        exact absurd (hds 43 (List.mem_of_mem_head? hhead)) (by decide)
      rw [if_neg hhead, operand, hdigits hds]
      exact atoi_numeral (.digits hne hds) hv
  | @plus ds hne hds =>
      -- The plus is sent as `%2B`.
      have hplus : encode (43 :: ds) = 37 :: 50 :: 66 :: encode ds := rfl
      have hread : strtol (37 :: 50 :: 66 :: encode ds) = 0 := by
        rw [strtol]
        simp only [List.dropWhile_cons_of_neg (show ¬isspace 37 = true by decide)]
        show min (longMax : Int) (numeral ((37 :: 50 :: 66 :: encode ds).takeWhile isdigit)) = 0
        rw [List.takeWhile_cons_of_neg (by decide)]
        decide
      rw [if_pos List.head?_cons, operand, hplus, atoi, hread]
      decide
  | @minus ds hne hds =>
      have hminus : encode (45 :: ds) = 45 :: ds := congrArg (45 :: ·) (hdigits hds)
      have hhead : (45 :: ds).head? ≠ some 43 := by
        rw [List.head?_cons]
        decide
      rw [if_neg hhead, operand, hminus]
      exact atoi_numeral (.minus hne hds) hv

/-- What is printed for the form. -/
theorem mathAdd_submit (data1 data2 : Bytes) :
    mathAdd (some (submit [("data1", data1), ("data2", data2)])) =
      (addInt (operand data1) (operand data2)).map resultScript := by
  have hplain : ∀ typed, IsPlain (encode typed) := by
    intro typed c hc
    obtain ⟨-, hamp, heq, hnul⟩ := (isPlain_iff c).mp (encode_plain c hc)
    exact ⟨hnul, heq, hamp⟩
  have hnames : ∀ name ∈ ["data1", "data2"], ∀ c ∈ bytes name, c ≠ 0 ∧ c ≠ 61 ∧ c ≠ 38 := by
    decide +kernel
  have hsubmit : submit [("data1", data1), ("data2", data2)] =
      bytes "data1" ++ 61 :: (encode data1 ++ 38 :: (bytes "data2" ++ 61 :: encode data2)) :=
    List.append_assoc ..
  obtain ⟨hdata1, hdata2⟩ := mathScan_form (hnames "data1" (by simp))
    (hplain data1) (hnames "data2" (by simp)) (hplain data2)
  rw [mathAdd, hsubmit, hdata1, hdata2]
  rfl

/-! ## A type -/

/-- What a user puts into the form for a type. -/
def typeChoice (typeName : Bytes) : Choice := fun n =>
  if n = codes (bytes "type_name") then some (codes typeName) else none

theorem typeForm_body {typeName : Bytes} (h : OneLine typeName) :
    formBody (typeChoice typeName) typeForm = submit (AddType.form ⟨typeName⟩) := by
  have hchoice : typeChoice typeName (codes (bytes "type_name")) = (some typeName).map codes :=
    if_pos rfl
  have hentries : typeForm.flatMap (FormPart.entries (typeChoice typeName)) =
      (AddType.form ⟨typeName⟩).map fun f => (codes (bytes f.1), codes f.2) := by
    simp only [typeForm, List.flatMap_cons, List.flatMap_nil,
      entries_textInput [] false hchoice h]
    rfl
  have hunreserved : ∀ name ∈ ["type_name"], ∀ c ∈ bytes name, isUnreserved c = true := by
    decide +kernel
  exact formBody_eq hentries fun f hf => hunreserved f.1 (List.mem_map_of_mem (f := Prod.fst) hf)

/-- A text behind a literal is read up to its end. -/
theorem scanAfter_word (literal : String) {word : Bytes} (h : IsWord word) :
    scanAfter literal (bytes literal ++ word) = some word := by
  have hdrop : (bytes literal ++ word).dropPrefix? (bytes literal) = some word :=
    List.dropPrefix?_eq_some_iff.mpr ⟨_, rfl, beq_self_eq_true _⟩
  have hends : EndsWord [] := fun c hc => absurd hc (Option.not_mem_none c)
  have hscan := scanWord_append h hends
  rw [List.append_nil] at hscan
  rw [scanAfter, hdrop, Option.bind_some, hscan, Option.map_some]

/-- An encoding has no quote and no backslash. -/
theorem isPlainText_encode (text : Bytes) : isPlainText (encode text) = true := by
  have hbyte : ∀ c d, d ∈ encodeByte c → (d != 39 && d != 92) = true := fun c =>
    List.all_eq_true.mp (forall_byte (p := fun c => (encodeByte c).all fun d => d != 39 && d != 92)
      (by decide +kernel) c)
  refine List.all_eq_true.mpr fun d hd => ?_
  obtain ⟨c, -, hdc⟩ := List.mem_flatMap.mp hd
  exact hbyte c d hdc

/-- The program gets the name in its encoding. -/
theorem AddType.scan_typed (held : AddType) {typeName : Bytes} (hne : typeName ≠ [])
    (hfits : (encode typeName).length < 100) :
    AddType.scan held (submit (AddType.form ⟨typeName⟩)) = some ⟨encode typeName⟩ := by
  have hplain : ∀ c ∈ encode typeName, _ := fun c hc => (isPlain_iff c).mp (encode_plain c hc)
  have hword : IsWord (encode typeName) := ⟨encode_ne_nil hne, fun c hc => (hplain c hc).1⟩
  have hsubmit : submit (AddType.form ⟨typeName⟩) = bytes "type_name=" ++ encode typeName := by
    rw [show bytes "type_name=" = bytes "type_name" ++ [61] from rfl, List.append_assoc]
    rfl
  have hnul : ∀ c ∈ bytes "type_name=" ++ encode typeName, c ≠ 0 :=
    List.forall_mem_append.mpr ⟨by decide +kernel, fun c hc => (hplain c hc).2.2.2⟩
  rw [AddType.scan, hsubmit, cstr_eq_self hnul, scanAfter_word _ hword, stored, if_pos hfits,
    Option.map_some]

end Cgi
