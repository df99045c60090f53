import TinyHttpd.Cgi.ListPage
import TinyHttpd.Lib.HtmlForm

/-!
# The links of the list page

`god_list_cgi` prints three links over the list, and in the row of each record one to its page
and one that deletes it.  Where the records do not show in the markup these are all the links
that a browser finds, and an empty list has one back to the whole list.
-/

namespace Cgi

open CString Html

/-! ## The page -/

/-- What `print_style` of `god_list_cgi` prints between its tags. -/
def styleText : Bytes :=
  bytes "\n\nbody\x7b\n\n background-color:#eeffff;\n\n" ++
    bytes "\x7d\n#godTable\x7b\nborder:solid;\nborder-color:5b5c5e;\n" ++
    bytes "border-width:1px;\nmargin-left:120px;\nbackground-color: #eeffff;\n" ++
    bytes "font-family:楷体_GB2312;\n\x7d\n.tabRow\x7b\nborder:dotted;\n" ++
    bytes "border-color:#6b6c6e;\nborder-width:1px;\n\x7d\ntd\x7b\nwidth:70px;\n" ++
    bytes "text-align: center;\n\x7d\n#godTable a:LINK\x7b\ncolor:black;\n" ++
    bytes "font-family:楷体_GB2312;\nmargin-bottom: 6px;\ntext-decoration: none;\n" ++
    bytes "\x7d\n#godTable a:HOVER\x7b\ncolor:#cc8291;\nfont-family:楷体_GB2312;\n" ++
    bytes "text-decoration: none;\n\x7d\n a:VISITED\x7b\ncolor:#918291;\n" ++
    bytes "font-size:15px;\nfont-family:楷体_GB2312;\ntext-decoration:underline;\n" ++
    bytes "\x7d\na:LINK\x7b\ncolor:#6b6c6e;\nfont-size:medium;\n" ++
    bytes "font-family:楷体_GB2312;\nmargin-bottom: 6px;\ntext-decoration: none;\n" ++
    bytes "\x7d\na:HOVER\x7b\ncolor:#8c93b5;\nfont-size:17px;\n" ++
    bytes "font-family:楷体_GB2312;\ntext-decoration:underline;\n" ++
    bytes "margin-bottom: 6px;\n\x7d\n#quickMenu a:VISITED\x7b\ncolor:#81838e;\n" ++
    bytes "font-size:medium;\nfont-family:楷体_GB2312;\ntext-decoration:underline;\n" ++
    bytes "margin-bottom: 6px;\n\x7d\n#oper\x7b\nmagin-top:20px;\n" ++
    bytes "margin-bottom:20px;\nmargin-left:120px;\n\x7d\n"

/-- `print_style`. -/
def printStyle : Bytes := bytes "<style type=\"text/css\">" ++ styleText ++ bytes "</style>\n"

/-- The page in front of the list. -/
def listPageHead : Bytes :=
  bytes "<html>\n\n<head><title>Goods list</title>\n\n" ++ printStyle ++
    bytes "</head>\n<body>\n\n<div id=\"oper\">\n" ++
    bytes "-<a href=\"add_god_show_cgi\" >Add new goods</a>-\n" ++
    bytes "-<a href=\"find_god_cgi\">Find goods</a>-\n" ++
    bytes "-<a href=\"../index.html\">Back index</a>-\n</div>\n"

/-- What stands for a list without records. -/
def noRecord : Bytes :=
  bytes "<h3 style=\"margin-top:35px;margin-left:120px\">Can't find suitable record!</h3>\n" ++
    bytes "<p style=\"margin-left:170px\">" ++
    bytes "-<a href=\"god_list_cgi\" >Back to goods list</a>-</p>\n"

def listPageEnd : Bytes := bytes "</body>\n</html>\n\n"

/-- The page of a list, with what `exe_select_goods` prints. -/
def listPage (printed : Bytes) (goodsList : List GoodsRecord) : Option Bytes := do
  let list ← if goodsList.length > 0 then printGoodsTable goodsList else some noRecord
  return listPageHead ++ printed ++ list ++ listPageEnd

/-! ## Its links -/

/-- The links over the list. -/
def operLinks : List Text :=
  [codes (bytes "add_god_show_cgi"), codes (bytes "find_god_cgi"), codes (bytes "../index.html")]

/-- The two links of a record. -/
def recordLinks (godId : Bytes) : List Text :=
  [codes (bytes "change_god_cgi?god_id=" ++ godId), codes (bytes "del_god_cgi?god_id=" ++ godId)]

theorem links_element {name : String} (hname : codes (bytes name) ≠ codes (bytes "a"))
    (attributes : List (String × Bytes)) (content : List Token) :
    links (element name attributes content) = links content := by
  have hopens : ∀ (attributes : List (Text × Text)) (closing : Bool),
      Token.links (.tag ⟨closing, codes (bytes name), attributes, false⟩) = [] := by
    intro attributes closing
    have hother : (codes (bytes name) == codes (bytes "a")) = false := beq_eq_false_iff_ne.mpr hname
    rw [Token.links, Tag.opens, hother, Bool.and_false]
    rfl
  rw [element, links, List.flatMap_append, List.flatMap_cons, List.flatMap_singleton, hopens,
    hopens, List.append_nil, List.nil_append, links]

theorem links_recordCell (content : List Token) : links (recordCell content) = links content := by
  rw [recordCell, links_append, newline, chars, links_chars, List.nil_append,
    links_element (by decide)]

theorem links_idLink (page label : String) (godId : Bytes) :
    links (idLink page label godId) = [codes (bytes (page ++ "?god_id=") ++ godId)] := by
  rw [idLink, element, links, List.flatMap_append, List.flatMap_cons, List.flatMap_singleton,
    ← links, chars, links_chars]
  rfl

theorem links_recordRow (goods : GoodsRecord) :
    links (recordRow goods) = recordLinks goods.godId := by
  have hfields : links (goods.fields.flatMap fun field => recordCell (chars field)) = [] := by
    rw [links, List.flatMap_assoc]
    refine List.flatMap_eq_nil_iff.mpr fun field _ => ?_
    rw [← links, links_recordCell, chars, links_chars]
  rw [recordRow, links_append, newline, chars, links_chars, List.nil_append,
    links_element (by decide), links_append, links_append, links_append, hfields,
    links_recordCell, links_recordCell, links_idLink, links_idLink, links_chars]
  rfl

/-- The page in front of the list. -/
theorem leads_listPageHead (refs : References) :
    Leads refs (.data []) listPageHead operLinks lineEnd := by
  have hstart : FixedLinks (.data [])
      (bytes "<html>\n\n<head><title>Goods list</title>\n\n<style type=\"text/css\">") []
      (.data []) := by
    decide
  have hoper : FixedLinks (.data []) (bytes "</style>\n" ++
      (bytes "</head>\n<body>\n\n<div id=\"oper\">\n" ++
        (bytes "-<a href=\"add_god_show_cgi\" >Add new goods</a>-\n" ++
          (bytes "-<a href=\"find_god_cgi\">Find goods</a>-\n" ++
            bytes "-<a href=\"../index.html\">Back index</a>-\n</div>\n")))) operLinks lineEnd := by
    decide +kernel
  have hstyle := leads_text refs (f := styleText) (by decide +kernel) (by decide +kernel) []
  have hhead := ((hstart.leads refs).comp hstyle).comp (hoper.leads refs)
  have hbytes : bytes "<html>\n\n<head><title>Goods list</title>\n\n<style type=\"text/css\">" =
      bytes "<html>\n\n<head><title>Goods list</title>\n\n" ++
        bytes "<style type=\"text/css\">" := by decide
  rw [hbytes] at hhead
  simp only [listPageHead, printStyle, List.append_assoc] at hhead ⊢
  exact hhead

/-- All the links of a page with records. -/
theorem listPage_links {refs : References} {goodsList : List GoodsRecord} (hne : goodsList ≠ [])
    (hlength : goodsList.length < 2 ^ 31) (hnul : ∀ goods ∈ goodsList, 0 ∉ goods.godId)
    (hharmless : ∀ goods ∈ goodsList, Harmless refs goods) :
    ∃ page, listPage [] goodsList = some page ∧
      links (tokenize refs page) =
        operLinks ++ goodsList.flatMap fun goods => recordLinks goods.godId := by
  have htable : FixedLinks lineEnd tableHead [] lineEnd := by decide +kernel
  have hend : FixedLinks lineEnd (bytes "</table>\n" ++ listPageEnd) [] (.data [lf, lf]) := by
    decide
  have hrows : Leads refs lineEnd (goodsList.flatMap printRow)
      (goodsList.flatMap fun goods => recordLinks goods.godId) lineEnd := by
    refine Leads.flatMap fun goods hgoods => ?_
    rw [← links_recordRow]
    exact (readsWhen_row refs (hnul goods hgoods)).leads (hharmless goods hgoods)
  have hpage := (((leads_listPageHead refs).comp (htable.leads refs)).comp hrows).comp
    (hend.leads refs)
  refine ⟨_, ?_, (List.append_nil _ ▸ hpage).links_eq rfl⟩
  rw [listPage, if_pos (List.length_pos_iff.mpr hne),
    printGoodsTable_eq_some_iff.mpr ⟨hlength, rfl⟩]
  simp

/-- All the links of a page without. -/
theorem listPage_links_nil (refs : References) : ∃ page, listPage [] [] = some page ∧
    links (tokenize refs page) = operLinks ++ [codes (bytes "god_list_cgi")] := by
  have hend : FixedLinks lineEnd (noRecord ++ listPageEnd) [codes (bytes "god_list_cgi")]
      (.data [lf, lf]) := by
    decide +kernel
  have hpage := (leads_listPageHead refs).comp (hend.leads refs)
  refine ⟨listPageHead ++ (noRecord ++ listPageEnd), ?_, hpage.links_eq rfl⟩
  simp [listPage]

end Cgi
