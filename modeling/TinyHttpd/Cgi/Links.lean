import TinyHttpd.Cgi.Responses
import TinyHttpd.Cgi.StaticPages

/-!
# Following links

A link is the address of a page seen from the page that it is on.  Every link that a visitor
finds on the start page and on the list leads to a page that is there, to the form of that page
or to the list without a record, whatever records the tables hold (`links_work`).
-/

namespace Cgi

open CString Html Httpd Machine SqlLex SqlWhere Table

variable {refs : References} {server : SelectServer}

/-! ## Links -/

/-- The URL of a link in a page of that directory. -/
def linkUrl (dir link : Bytes) : Bytes :=
  match link.dropPrefix? (bytes "../") with
  | some rest => (dir.dropLast.reverse.dropWhile fun c => c != 47).reverse ++ rest
  | none => dir ++ link

/-- The request for it. -/
def follow (m : Message) (dir : String) (link : Text) : Bytes :=
  { m with url := linkUrl (bytes dir) (link.map UInt8.ofNat) }.get

/-- Every link of the list leads where it says: those at the top to their forms and to the start
page, the one of an empty list to this list, and those of a record to its page and, when the
delete is executed, to a list without it. -/
structure ListLinksWork (site : Site) (server : SelectServer) (refs : References) (s : Tables)
    (types : List (Int × Bytes)) (m : Message) (page : Bytes) : Prop where
  links : links (tokenize refs page) = operLinks ++
    if s.database.listing = [] then [codes (bytes "god_list_cgi")]
    else s.database.listing.flatMap fun g => recordLinks (decimal g.godId)
  list : site.respond server s (follow m "/cgi_bin/" (codes (bytes "god_list_cgi"))) =
    some (responseHeader ++ page)
  add : ∃ page, site.respond server s (follow m "/cgi_bin/" (codes (bytes "add_god_show_cgi"))) =
      some (responseHeader ++ page) ∧
    formParts .outside (tokenize refs page) = addForm (typeMapOf types)
  find : ∃ page, site.respond server s (follow m "/cgi_bin/" (codes (bytes "find_god_cgi"))) =
      some (responseHeader ++ page) ∧
    formParts .outside (tokenize refs page) = findForm (typeMapOf types)
  start : site.respond server s (follow m "/cgi_bin/" (codes (bytes "../index.html"))) =
    some (responseHeader ++ indexHtml)
  change : ∀ g ∈ s.database.listing, ∃ (page : Bytes) (id : Nat) (r : ShownCells refs server),
    g.godId = id ∧ s.goods.lookup id = some r.cells ∧
    site.respond server s
        (follow m "/cgi_bin/" (codes (bytes "change_god_cgi?god_id=" ++ decimal g.godId))) =
      some (responseHeader ++ page) ∧
    formParts .outside (tokenize refs page) = recordForm (typeMapOf types) (r.record id)
  delete : ∀ g ∈ s.database.listing, ∀ s',
    site.changes.post s (.delGod site.frame.delGoods (bytes "god_id=" ++ decimal g.godId)) =
      some s' →
    site.after s
        (follow m "/cgi_bin/" (codes (bytes "del_god_cgi?god_id=" ++ decimal g.godId))) =
      some s' ∧
    site.respond server s
        (follow m "/cgi_bin/" (codes (bytes "del_god_cgi?god_id=" ++ decimal g.godId))) =
      some (responseHeader ++ delGodPage delGoodsMessages.executed) ∧
    ∀ other, other ∈ s'.database.listing ↔
      other ∈ s.database.listing ∧ other.godId ≠ g.godId

/-- The links of the start page lead to the list, with links that work, to the form for a
record, and to the forms for a type and for a sum. -/
structure StartLinksWork (site : Site) (server : SelectServer) (refs : References) (s : Tables)
    (types : List (Int × Bytes)) (m : Message) : Prop where
  links : links (tokenize refs indexHtml) = startLinks
  list : ∃ page, site.respond server s (follow m "/" (codes (bytes "cgi_bin/god_list_cgi"))) =
      some (responseHeader ++ page) ∧
    ListLinksWork site server refs s types m page
  add : ∃ page, site.respond server s (follow m "/" (codes (bytes "cgi_bin/add_god_show_cgi"))) =
      some (responseHeader ++ page) ∧
    formParts .outside (tokenize refs page) = addForm (typeMapOf types)
  type : site.respond server s (follow m "/" (codes (bytes "add_god_type.html"))) =
      some (responseHeader ++ addGodTypeHtml) ∧
    formParts .outside (tokenize refs addGodTypeHtml) = typeForm
  sum : site.respond server s (follow m "/" (codes (bytes "cal_add.html"))) =
      some (responseHeader ++ calAddHtml) ∧
    formParts .outside (tokenize refs calAddHtml) = sumForm

theorem follow_codes (m : Message) (dir : String) {link : Bytes} (h : link.head? ≠ some 46) :
    follow m dir (codes link) = { m with url := bytes dir ++ link }.get := by
  have hcodes : (codes link).map UInt8.ofNat = link := by
    rw [codes, List.map_map]
    refine (List.map_congr_left fun c _ => ?_).trans (List.map_id link)
    exact UInt8.ofNat_toNat
  have hdots : link.dropPrefix? (bytes "../") = none := by
    refine Option.eq_none_iff_forall_ne_some.mpr fun rest hrest => h ?_
    obtain ⟨dots, rfl, hdots⟩ := List.dropPrefix?_eq_some_iff.mp hrest
    obtain rfl := eq_of_beq hdots
    rfl
  rw [follow, hcodes, linkUrl, hdots]

/-- The links to the programs are those of visits. -/
theorem follow_eq (m : Message) (p : Program) (query : Option Bytes) :
    follow m "/cgi_bin/" (codes (bytes p.name ++ query.elim [] fun q => questionMark :: q)) =
      (Visit.get m p query).wire := by
  have hname : (bytes p.name).head? ≠ some 46 ∧ bytes p.name ≠ [] := by cases p <;> decide
  have hhead : (bytes p.name ++ query.elim [] fun q => questionMark :: q).head? ≠ some 46 := by
    rw [List.head?_append_of_ne_nil _ hname.2]
    exact hname.1
  rw [follow_codes m _ hhead, Visit.wire, queryUrl, Program.url, List.append_assoc]

theorem godId_query {id : Nat} (h : (decimalNat id).length < 40) :
    ∀ q ∈ some (bytes "god_id=" ++ decimalNat id), (∀ c ∈ q, isspace c = false ∧ c ≠ 0) ∧
      q.length ≤ 60 := by
  intro q hq
  obtain rfl := Option.some.inj hq
  have hname : (bytes "god_id=").length = 7 := by decide
  refine ⟨List.forall_mem_append.mpr ⟨by decide, fun c hc => ?_⟩, ?_⟩
  · have hdigit := isDigits_decimalNat id c hc
    refine ⟨isdigit_not_isspace hdigit, ?_⟩
    rintro rfl
    exact absurd hdigit (by decide)
  · rw [List.length_append, hname]
    omega

theorem DelGoods.order_numeral (held : DelGoods) {id : Nat} (h : (decimalNat id).length < 40)
    (k : Columns) :
    Request.order k (.delGod held (bytes "god_id=" ++ decimalNat id)) = some (.delete id) := by
  have hword : IsWord (decimalNat id) :=
    ⟨decimalNat_ne_nil id, fun c hc => isdigit_not_isspace (isDigits_decimalNat id c hc)⟩
  have hcstr : cstr (bytes "god_id=" ++ decimalNat id) = bytes "god_id=" ++ decimalNat id :=
    cstr_eq_self fun c hc => ((godId_query h _ rfl).1 c hc).2
  obtain ⟨d, hd, hvalue⟩ := read_decimal id
  have hread : Decimal.read (decimalNat id) = some d := hd
  rw [Request.order, DelGoods.scan, hcstr, scanAfter_word _ hword, stored,
    if_pos (h.trans (by norm_num)), Option.map_some, Option.bind_some, DelGoods.order, hread,
    Option.map_some, hvalue, Int.cast_natCast]

/-- What the list shows without a record. -/
theorem mem_listing_delete {s s' : Tables} {id : Nat} (h : s'.shop = s.shop.fill (.delete id))
    (g : Goods) : g ∈ s'.database.listing ↔ g ∈ s.database.listing ∧ g.godId ≠ id := by
  have hgoods : ∀ n : Int, s'.shop.goods n = if (n : Rat) = id then none else s.shop.goods n :=
    fun n => by rw [h]; rfl
  have htypes : s'.shop.types = s.shop.types := by rw [h]; rfl
  rw [mem_listing_iff, mem_listing_iff, Shop.Shows, Shop.Shows, hgoods, htypes]
  by_cases hid : g.godId = id
  · rw [if_pos (by rw [hid]; exact Int.cast_natCast id)]
    constructor
    · rintro ⟨cells, type, hnone, -⟩
      cases hnone
    · exact fun h => absurd hid h.2
  · rw [if_neg fun hcast => hid (Int.cast_injective (hcast.trans (Int.cast_natCast id).symm)),
      and_iff_left hid]

/-- What comes back for a link to a program that only reads the tables. -/
theorem Site.Up.respond_follow {site : Site} (hup : site.Up) {m : Message} (hm : m.Around 100)
    {p : Program} (hp : p ≠ .debugCgi) {query : Option Bytes}
    (hquery : ∀ q ∈ query, (∀ c ∈ q, isspace c = false ∧ c ≠ 0) ∧ q.length ≤ 60)
    (hreads : (Visit.get m p query).requests site.frame = []) {server : SelectServer} {s : Tables}
    {page : List Piece}
    (hpage : ∀ n, p.page server (site.changes.client s) site.frame s.database []
      (p.get.input (query.getD []) n) = some page) :
    site.respond server s (Visit.get m p query).wire =
      some (responseHeader ++ pageBytes page) := by
  have hfits := get_fits hm hp hquery
  have hafter := hup.after_wire hfits s
  rw [hreads] at hafter
  rw [hup.respond_wire hfits server hafter, hpage, Option.map_some]

theorem none_fits : ∀ q ∈ (none : Option Bytes), (∀ c ∈ q, isspace c = false ∧ c ≠ 0) ∧
    q.length ≤ 60 := fun q hq => by cases hq

/-- The form for a record comes back, with the types of the table. -/
theorem Site.Up.respond_addPage {site : Site} (hup : site.Up) {m : Message} (hm : m.Around 100)
    {s : Tables} {types : List (Int × Bytes)} (h : ShownTypes refs s types)
    (server : SelectServer) :
    ∃ page, site.respond server s (Visit.get m .addGodShowCgi none).wire =
        some (responseHeader ++ page) ∧
      formParts .outside (tokenize refs page) = addForm (typeMapOf types) := by
  obtain ⟨page, hpage, hform⟩ := addGodShowGet_form h server
  refine ⟨pageBytes page, hup.respond_follow hm (by decide) none_fits rfl fun n => ?_, hform⟩
  show (addGodShowGet server s.database).toOption = _
  rw [hpage]
  rfl

/-- The form for a search comes back. -/
theorem Site.Up.respond_findPage {site : Site} (hup : site.Up) {m : Message} (hm : m.Around 100)
    {s : Tables} {types : List (Int × Bytes)} (h : ShownTypes refs s types)
    (server : SelectServer) :
    ∃ page, site.respond server s (Visit.get m .findGodCgi none).wire =
        some (responseHeader ++ page) ∧
      formParts .outside (tokenize refs page) = findForm (typeMapOf types) := by
  obtain ⟨page, hpage, hform⟩ := findGodGet_form h server
  refine ⟨pageBytes page, hup.respond_follow hm (by decide) none_fits rfl fun n => ?_, hform⟩
  show (findGodGet server s.database).toOption = _
  rw [hpage]
  rfl

theorem list_links_work {site : Site} (hup : site.Up)
    (hindex : site.Serves (bytes "/index.html") indexHtml) {server : ListServer} {s : Tables}
    {types : List (Int × Bytes)} (h : ShownTables refs server.toSelectServer s types)
    {m : Message} (hm : m.Around 100) :
    ∃ page, ListLinksWork site server.toSelectServer refs s types m page := by
  obtain ⟨page, hpage, hlinks⟩ := godListPage_links h
  obtain ⟨addPage, haddPage, haddForm⟩ :=
    hup.respond_addPage hm h.toShownTypes server.toSelectServer
  obtain ⟨findPage, hfindPage, hfindForm⟩ :=
    hup.respond_findPage hm h.toShownTypes server.toSelectServer
  refine ⟨page, hlinks, ?_, ⟨addPage, ?_, haddForm⟩, ⟨findPage, ?_, hfindForm⟩, ?_,
    fun g hg => ?_, fun g hg => ?_⟩
  · have hprinted : (godListPage server.toSelectServer s.database none).map
        (fun page => [Piece.text page]) = some [.text page] := by rw [hpage, Option.map_some]
    have hrespond := hup.respond_follow hm (p := .godListCgi) (by decide) none_fits rfl
      fun _ => hprinted
    rw [pageBytes, List.flatMap_singleton] at hrespond
    exact (congrArg _ (follow_eq m .godListCgi none)).trans hrespond
  · exact (congrArg _ (follow_eq m .addGodShowCgi none)).trans haddPage
  · exact (congrArg _ (follow_eq m .findGodCgi none)).trans hfindPage
  · have hstart : follow m "/cgi_bin/" (codes (bytes "../index.html")) =
        { m with url := bytes "/index.html" }.get := by
      have hurl : linkUrl (bytes "/cgi_bin/") ((codes (bytes "../index.html")).map UInt8.ofNat) =
          bytes "/index.html" := by decide
      rw [follow, hurl]
    rw [hstart]
    exact (hindex.respond fileUrl_pages.1 hm server.toSelectServer s).2
  · obtain ⟨id, r, typeName, hrow, htype, rfl, hdigits, -⟩ := h.listed hg
    obtain ⟨changePage, hchangePage, hform⟩ := changeGodGet_form r h.toShownTypes hdigits hrow
      (List.mem_map_of_mem htype)
    refine ⟨pageBytes changePage, id, r, rfl, hrow, ?_, hform⟩
    have hcodes : bytes "change_god_cgi?god_id=" ++ decimal (id : Int) =
        bytes (Program.changeGodCgi).name ++ questionMark :: (bytes "god_id=" ++ decimalNat id) :=
      rfl
    rw [hcodes]
    refine (congrArg _ (follow_eq m .changeGodCgi (some _))).trans
      (hup.respond_follow hm (by decide) (godId_query hdigits) rfl fun n => ?_)
    show (changeGodGet _ s.database _).toOption = _
    rw [Option.getD_some, hchangePage]
    rfl
  · obtain ⟨id, r, typeName, -, -, rfl, hdigits, -⟩ := h.listed hg
    have hcodes : bytes "del_god_cgi?god_id=" ++ decimal (id : Int) =
        bytes (Program.delGodCgi).name ++ questionMark :: (bytes "god_id=" ++ decimalNat id) :=
      rfl
    have hlink : follow m "/cgi_bin/" (codes (bytes "del_god_cgi?god_id=" ++ decimal (id : Int))) =
        (Visit.get m .delGodCgi (some (bytes "god_id=" ++ decimalNat id))).wire := by
      rw [hcodes]
      exact follow_eq m .delGodCgi (some _)
    have hfits := get_fits hm (p := .delGodCgi) (by decide) (godId_query hdigits)
    have horder := DelGoods.order_numeral site.frame.delGoods hdigits site.changes.columns
    intro s' hpost
    have hafter := hup.after_of_post hfits rfl hpost
    rw [hlink]
    refine ⟨hafter, ?_, mem_listing_delete (site.changes.post_refines horder hpost)⟩
    have hscript := site.changes.report_executed horder hpost
    rw [hup.respond_wire hfits server.toSelectServer hafter]
    show some (responseHeader ++ pageBytes [.text (delGodPage (scriptBytes
      (Request.report _ (.delGod site.frame.delGoods (bytes "god_id=" ++ decimalNat id)))))]) = _
    rw [hscript, pageBytes, List.flatMap_singleton]
    rfl

/-- From the start page every link leads where it says, and so does every link of the list that
is found there, for any records. -/
theorem links_work {site : Site} (hup : site.Up)
    (hindex : site.Serves (bytes "/index.html") indexHtml)
    (hsum : site.Serves (bytes "/cal_add.html") calAddHtml)
    (htype : site.Serves (bytes "/add_god_type.html") addGodTypeHtml) {server : ListServer}
    {s : Tables} {types : List (Int × Bytes)}
    (h : ShownTables refs server.toSelectServer s types) {m : Message} (hm : m.Around 100) :
    site.respond server.toSelectServer s { m with url := bytes "/index.html" }.get =
        some (responseHeader ++ indexHtml) ∧
      StartLinksWork site server.toSelectServer refs s types m := by
  obtain ⟨page, hlist⟩ := list_links_work hup hindex h hm
  have hprogram : ∀ link, (bytes link).head? ≠ some 46 →
      follow m "/" (codes (bytes "cgi_bin/" ++ bytes link)) =
        follow m "/cgi_bin/" (codes (bytes link)) := by
    intro link hlink
    have hhead : (bytes "cgi_bin/" ++ bytes link).head? ≠ some 46 := by
      rw [List.head?_append_of_ne_nil _ (by decide)]
      decide
    rw [follow_codes m "/" hhead, follow_codes m "/cgi_bin/" hlink]
    rfl
  refine ⟨(hindex.respond fileUrl_pages.1 hm server.toSelectServer s).2,
    indexHtml_links refs, ⟨page, ?_, hlist⟩, ?_, ⟨?_, addGodTypeHtml_form refs⟩,
    ⟨?_, calAddHtml_form refs⟩⟩
  · exact (congrArg _ (hprogram "god_list_cgi" (by decide))).trans hlist.list
  · obtain ⟨addPage, haddPage, hform⟩ := hlist.add
    exact ⟨addPage, (congrArg _ (hprogram "add_god_show_cgi" (by decide))).trans haddPage,
      hform⟩
  · rw [follow_codes m "/" (by decide)]
    exact (htype.respond fileUrl_pages.2.2 hm server.toSelectServer s).2
  · rw [follow_codes m "/" (by decide)]
    exact (hsum.respond fileUrl_pages.2.1 hm server.toSelectServer s).2

theorem penTables_shown : ShownTables someReferences shopServer.toSelectServer penTables
    [(1, bytes "pens")] where
  toShownTypes := penTables_types
  records row hrow := by
    obtain rfl := List.mem_singleton.mp hrow
    exact ⟨1, ⟨bytes "pen", 1, 1, bytes "big", penCellsShown.nameText, penCellsShown.priceText,
      penCellsShown.typeInt, penCellsShown.sizeText⟩, rfl, by decide,
      plainText_of_unreserved _ (by decide), plainText_of_unreserved _ (by decide),
      plainText_of_unreserved _ (by decide)⟩
  counted := by decide

/-- The files of the site. -/
def htdocs : List (Bytes × Bytes) :=
  [(bytes "/index.html", indexHtml), (bytes "/cal_add.html", calAddHtml),
    (bytes "/add_god_type.html", addGodTypeHtml)]

def fileAt (path : Bytes) : Option Bytes :=
  (htdocs.find? fun file => bytes "htdocs" ++ file.1 == path).map Prod.snd

/-- Every other file is a program. -/
def fileStat (path : Bytes) : Stat :=
  match fileAt path with
  | some contents => ⟨false, false, false, false, contents.length⟩
  | none => ⟨false, true, true, true, 5⟩

/-- A site with these files, which are sent whole. -/
def fileSite : Site where
  env := { Env.obliging with
    stat := fun path => some (fileStat path)
    openFile := fileAt
    sendfile := fun contents _ => some contents }
  inherited := shopSite.inherited
  changes := shopSite.changes
  frame := shopSite.frame

theorem fileSite_up : fileSite.Up where
  forks := by decide
  execl := rfl
  programs p := by
    have hnone : fileAt p.path = none := by cases p <;> decide
    refine ⟨⟨false, true, true, true, 5⟩, ?_, rfl, rfl⟩
    show some (fileStat p.path) = _
    rw [fileStat, hnone]

theorem fileSite_serves {url contents : Bytes}
    (hfile : fileAt (bytes "htdocs" ++ url) = some contents) : fileSite.Serves url contents where
  stat := by
    show some (fileStat (bytes "htdocs" ++ url)) = _
    rw [fileStat, hfile]
  openFile := hfile
  sendfile := rfl

theorem browser_short : browser.Around 100 :=
  ⟨browser_around.version, by decide, browser_around.headers⟩

theorem links_work_pen : ∃ s',
    fileSite.respond shopServer.toSelectServer penTables
        { browser with url := bytes "/index.html" }.get = some (responseHeader ++ indexHtml) ∧
      StartLinksWork fileSite shopServer.toSelectServer someReferences penTables
        [(1, bytes "pens")] browser ∧
      fileSite.changes.post penTables (.delGod fileSite.frame.delGoods (bytes "god_id=1")) =
        some s' := by
  obtain ⟨s', hpost⟩ : ∃ s', fileSite.changes.post penTables
      (.delGod fileSite.frame.delGoods (bytes "god_id=1")) = some s' :=
    Option.isSome_iff_exists.mp (by decide)
  obtain ⟨hindex, hlinks⟩ := links_work fileSite_up (fileSite_serves rfl) (fileSite_serves rfl)
    (fileSite_serves rfl) penTables_shown browser_short
  exact ⟨s', hindex, hlinks, hpost⟩

end Cgi
