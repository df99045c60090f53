import TinyHttpd.Cgi.Links

/-!
# The browser and the site

A user opens a page, fills in its form and sends it, and the tables or the next page show what
the form is for: a record is changed, records are found, a sum is worked out and a type is
added.  The bytes of the requests and of the responses are all that passes between the browser
and the site, and other requests may come between the two.
-/

namespace Cgi

open CString Html Httpd Machine FormUrl SqlLex SqlWhere Table

/-! ## A record is changed over the wire -/

variable {refs : References} {server : SelectServer}

theorem ChangeGod.form_bounds {f : ChangeGod} (h : TypedForm f.form) :
    (submit f.form).length < postDataSize ∧ ∀ c ∈ submit f.form, c ≠ 0 := by
  have hnames : ∀ name ∈ ["god_id", "god_name", "god_type", "god_price", "god_size"],
      (bytes name).length < 40 := by decide
  obtain ⟨hnul, hlength⟩ := h.submit_bounds fun g hg =>
    hnames g.1 (List.mem_map_of_mem (f := Prod.fst) hg)
  have hcount : f.form.length = 5 := rfl
  have hsize : postDataSize = 1024 := rfl
  exact ⟨by omega, hnul⟩

/-- The page of a record is opened and leaves the tables as they are; what comes back is the
page.  Its form is filled in and sent to the same program, whatever has happened in between.
When the update is executed, it changes the record with this id to what the columns make of the
values, and the page that comes back says so. -/
theorem record_changed_on_site {site : Site} (hup : site.Up) (r : ShownCells refs server)
    {s : Tables} {types : List (Int × Bytes)} (h : ShownTypes refs s types) {id : Nat}
    (hid : (decimalNat id).length < 40) (hrow : s.goods.lookup id = some r.cells)
    (htype : r.type ∈ types.map Prod.fst) {e : GoodsEntry}
    (hchosen : ∀ t ∈ e.type, t ∈ types.map Prod.fst)
    (hsendable : (e.changed (r.record id)).Sendable) {cells : GoodsCells}
    (horder :
      (e.changed (r.record id)).encoded.order site.changes.columns = some (.change id cells))
    {m m' : Message}
    (hm : { m with
      url := queryUrl .changeGodCgi (some (bytes "god_id=" ++ decimalNat id)) }.Plain)
    (hm' : { m' with url := Program.changeGodCgi.url }.Plain) (later : Tables) :
    ∃ page parts,
      site.after s (Visit.get m .changeGodCgi (some (bytes "god_id=" ++ decimalNat id))).wire =
        some s ∧
      site.respond server s
          (Visit.get m .changeGodCgi (some (bytes "god_id=" ++ decimalNat id))).wire =
        some (responseHeader ++ page) ∧
      formParts .outside (tokenize refs page) =
        .start (codes (bytes "change_god_cgi")) (codes (bytes "POST")) :: parts ∧
      formBody e.choice parts = submit (e.changed (r.record id)).form ∧
      ∀ s', site.changes.post later
          (.changeGod site.frame.changeGod (formBody e.choice parts)) = some s' →
        site.after later (Visit.post m' .changeGodCgi (formBody e.choice parts)).wire = some s' ∧
          s'.shop = later.shop.fill (.change id cells) ∧
          site.respond server later (Visit.post m' .changeGodCgi (formBody e.choice parts)).wire =
            some (responseHeader ++ changeGodPost changeGodMessages.executed) := by
  obtain ⟨page, parts, hpage, hform, hbody⟩ :=
    changePage_request r h hid hrow htype hchosen hsendable
  have hquery : (bytes "god_id=" ++ decimalNat id).length ≤ 1010 := by
    have hname : (bytes "god_id=").length = 7 := by decide
    rw [List.length_append, hname]
    omega
  have hfits : (Visit.get m .changeGodCgi (some (bytes "god_id=" ++ decimalNat id))).Fits :=
    ⟨by decide, hm, hquery⟩
  obtain ⟨hlength, hnul⟩ := ChangeGod.form_bounds hsendable.typed
  have hfits' : (Visit.post m' .changeGodCgi (submit (e.changed (r.record id)).form)).Fits :=
    ⟨by decide, hm', hlength, hnul⟩
  have hrequest : Request.order site.changes.columns (.changeGod site.frame.changeGod
      (submit (e.changed (r.record id)).form)) = some (.change id cells) := by
    rw [Request.order, ChangeGod.scan_submit _ hsendable.typed, Option.bind_some, horder]
  refine ⟨pageBytes page, parts, hup.after_wire hfits s, ?_, hform, hbody, fun s' hpost => ?_⟩
  · rw [hup.respond_wire hfits server (hup.after_wire hfits s)]
    show ((changeGodGet server s.database _).toOption).map _ = _
    rw [Option.getD_some, hpage]
    rfl
  · rw [hbody] at hpost ⊢
    have hafter := hup.after_of_post hfits' rfl hpost
    have hscript := site.changes.report_executed hrequest hpost
    refine ⟨hafter, site.changes.post_refines hrequest hpost, ?_⟩
    rw [hup.respond_post hfits' server hafter]
    show ((site.frame.body (postData _ _)).map fun data => [Piece.text (changeGodPost (scriptBytes
      (Request.report _ (.changeGod site.frame.changeGod data))))]).map _ = _
    rw [site.frame.body_postData hlength hnul, Option.map_some, Option.map_some, hscript, pageBytes,
      List.flatMap_singleton]
    rfl

theorem record_changed_on_site_pen : ∃ page parts s',
    shopSite.after penTables (Visit.get browser .changeGodCgi (some (bytes "god_id=" ++
        decimalNat 1))).wire = some penTables ∧
      shopSite.respond plainServer penTables (Visit.get browser .changeGodCgi
        (some (bytes "god_id=" ++ decimalNat 1))).wire = some (responseHeader ++ page) ∧
      formParts .outside (tokenize someReferences page) =
        .start (codes (bytes "change_god_cgi")) (codes (bytes "POST")) :: parts ∧
      shopSite.after penTables
        (Visit.post browser .changeGodCgi (formBody greenPen.choice parts)).wire = some s' ∧
      s'.shop = penTables.shop.fill (.change (1 : Nat)
        ⟨some (bytes "green+pen"), some 1, some (-5 / 2), some (bytes "big")⟩) ∧
      shopSite.respond plainServer penTables
        (Visit.post browser .changeGodCgi (formBody greenPen.choice parts)).wire =
          some (responseHeader ++ changeGodPost changeGodMessages.executed) := by
  have hsendable : (greenPen.changed (penCellsShown.record 1)).Sendable :=
    ⟨by decide, by decide, by decide, by decide,
      by decide⟩
  have hget := browser_around.plain (by decide : queryUrl .changeGodCgi
    (some (bytes "god_id=" ++ decimalNat 1)) ≠ []) (by decide) (by decide)
  have hpost := browser_around.plain (by decide : Program.changeGodCgi.url ≠ [])
    (by decide) (by decide)
  have horder : (greenPen.changed (penCellsShown.record 1)).encoded.order
      shopSite.changes.columns = some (.change (1 : Nat)
        ⟨some (bytes "green+pen"), some 1, some (-5 / 2), some (bytes "big")⟩) := by
    decide +kernel
  obtain ⟨page, parts, hopened, hpage, hform, hbody, hchanged⟩ :=
    record_changed_on_site shopSite_up penCellsShown penTables_types (by decide) rfl
      (List.mem_singleton_self _) (fun _ ht => by cases ht) hsendable horder hget hpost penTables
  obtain ⟨s', hs'⟩ : ∃ s', shopSite.changes.post penTables
      (.changeGod shopSite.frame.changeGod
        (submit (greenPen.changed (penCellsShown.record 1)).form)) = some s' :=
    Option.isSome_iff_exists.mp (by decide +kernel)
  rw [← hbody] at hs'
  exact ⟨page, parts, s', hopened, hpage, hform, hchanged s' hs'⟩

/-! ## A search over the wire -/

/-- The list for a search, with the links of the records that it is about. -/
theorem ShownTables.search_page {server : ListServer} {s : Tables} {types : List (Int × Bytes)}
    (h : ShownTables refs server.toSelectServer s types) {f : Filters} (hsearch : f.Searchable)
    (client : Client) (frame : Frame) {body : Bytes} (hlength : body.length ≤ 480) (hnul : ∀ c ∈ body, c ≠ 0)
    (hsql : ∀ beyond, getSelectSql (some (godListData beyond body.length body)) = some f.sql) :
    ∃ list found,
      Program.godListCgi.page server.toSelectServer client frame s.database body
        (.body body.length) = some [.text list] ∧
      found = (s.database.joined.filter fun pair =>
        f.Meets server.collation pair).map columns ∧
      links (tokenize refs list) = operLinks ++
        if found = [] then [codes (bytes "god_list_cgi")]
        else found.flatMap fun g => recordLinks (decimal g.godId) := by
  have hroom : postDataSize = 1024 ∧ (bytes "&god_size=any").length = 13 := by decide
  have hinside : InBuffer (godListCgi (frame.memory.drop postDataSize) body.length body) := by
    refine (inBuffer_godListCgi_iff _ (Int.toNat_natCast _).symm).mpr ?_
    rw [cstr_eq_self hnul]
    exact ⟨by omega, by omega, .inr (by omega)⟩
  have hdata : frame.search body.length body =
      some (godListData (frame.memory.drop postDataSize) body.length body) := if_pos hinside
  have hanswer := server.list _ _ _ (hsearch.query_sql s.database server.collation)
  have hfound : ((s.database.joined.filter fun pair =>
      f.Meets server.collation pair).map columns).Sublist s.database.listing :=
    List.filter_sublist.map columns
  obtain ⟨hselect, list, hlist, hlinks⟩ := h.listPage_links hfound
  refine ⟨list, _, ?_, rfl, hlinks⟩
  have hprinted : godListPage server.toSelectServer s.database
      (some (godListData (frame.memory.drop postDataSize) body.length body)) = some list := by
    rw [godListPage, hsql]
    show (exeSelectGoods (server.answer s.database f.sql)).toOption.bind _ = _
    rw [hanswer, hselect]
    exact hlist
  show (frame.search body.length body).bind _ = _
  rw [hdata, Option.bind_some, hprinted]
  rfl

/-- The page of a search is opened and leaves the tables as they are.  Its form is filled in and
sent to the list, whatever the tables have become in between; they stay as they are again, and
the links of the list that comes back are those of the records with a type which meet what has
been put in. -/
theorem records_found_on_site {site : Site} (hup : site.Up) {server : ListServer} {s : Tables}
    {types : List (Int × Bytes)} (h : ShownTypes refs s types) {e : SearchEntry}
    (hchosen : ∀ t ∈ e.type, t ∈ types.map Prod.fst) (hsize : ∀ z ∈ e.size, z ∈ sizes)
    (hsearch : e.filters.Searchable) (hplain : ∀ g ∈ e.filters.form, Unreserved g.2)
    {m m' : Message} (hm : m.Around 100) (hm' : m'.Around 100) {later : Tables}
    {laterTypes : List (Int × Bytes)}
    (hlater : ShownTables refs server.toSelectServer later laterTypes) :
    ∃ page parts list found,
      site.after s (Visit.get m .findGodCgi none).wire = some s ∧
      site.respond server.toSelectServer s (Visit.get m .findGodCgi none).wire =
        some (responseHeader ++ page) ∧
      formParts .outside (tokenize refs page) =
        .start (codes (bytes "god_list_cgi")) (codes (bytes "POST")) :: parts ∧
      site.after later (Visit.post m' .godListCgi (formBody e.choice parts)).wire = some later ∧
      site.respond server.toSelectServer later
          (Visit.post m' .godListCgi (formBody e.choice parts)).wire =
        some (responseHeader ++ list) ∧
      found = (later.database.joined.filter fun pair =>
        e.filters.Meets server.collation pair).map columns ∧
      links (tokenize refs list) = operLinks ++
        if found = [] then [codes (bytes "god_list_cgi")]
        else found.flatMap fun g => recordLinks (decimal g.godId) := by
  obtain ⟨page, parts, hpage, hform, hbody, hsql⟩ :=
    findPage_request h server.toSelectServer hchosen hsize hsearch hplain
  obtain ⟨hlength, hnul⟩ := hsearch.tokens.body_bounds e.size.isSome
  rw [← hbody] at hlength hnul
  have hget : (Visit.get m .findGodCgi none).Fits :=
    get_fits hm (by decide) fun q hq => by cases hq
  have hroom : postDataSize = 1024 := rfl
  have hpost : (Visit.post m' .godListCgi (formBody e.choice parts)).Fits :=
    post_fits hm' (by decide) (by omega) hnul
  obtain ⟨list, found, hlist, hfound, hlinks⟩ :=
    hlater.search_page hsearch (site.changes.client later) site.frame hlength hnul hsql
  refine ⟨pageBytes page, parts, list, found, hup.after_wire hget s, ?_, hform,
    hup.after_wire hpost later, ?_, hfound, hlinks⟩
  · rw [hup.respond_wire hget server.toSelectServer (hup.after_wire hget s)]
    show ((findGodGet _ s.database).toOption).map _ = _
    rw [hpage]
    rfl
  · rw [hup.respond_post hpost server.toSelectServer (hup.after_wire hpost later)]
    show (Program.godListCgi.page _ _ _ _ _ (.body _)).map _ = _
    rw [hlist, Option.map_some, pageBytes, List.flatMap_singleton]
    rfl

theorem records_found_on_site_en : ∃ page parts list found,
    shopSite.after penTables (Visit.get browser .findGodCgi none).wire = some penTables ∧
      shopSite.respond shopServer.toSelectServer penTables
          (Visit.get browser .findGodCgi none).wire = some (responseHeader ++ page) ∧
      formParts .outside (tokenize someReferences page) =
        .start (codes (bytes "god_list_cgi")) (codes (bytes "POST")) :: parts ∧
      shopSite.after penTables (Visit.post browser .godListCgi (formBody
        (SearchEntry.choice ⟨none, some (bytes "en"), none, none, none, none⟩) parts)).wire =
          some penTables ∧
      shopSite.respond shopServer.toSelectServer penTables (Visit.post browser .godListCgi
        (formBody (SearchEntry.choice ⟨none, some (bytes "en"), none, none, none, none⟩)
          parts)).wire = some (responseHeader ++ list) ∧
      found = (penTables.database.joined.filter fun pair => (SearchEntry.filters
        ⟨none, some (bytes "en"), none, none, none, none⟩).Meets .binary pair).map columns ∧
      links (tokenize someReferences list) = operLinks ++
        if found = [] then [codes (bytes "god_list_cgi")]
        else found.flatMap fun g => recordLinks (decimal g.godId) := by
  have hsearch : (SearchEntry.filters
      ⟨none, some (bytes "en"), none, none, none, none⟩).Searchable :=
    ⟨by decide, by decide, by decide, by decide,
      by decide⟩
  exact records_found_on_site shopSite_up penTables_types (by decide) (fun _ hz => by cases hz)
    hsearch (by decide) browser_short browser_short penTables_shown

/-! ## A sum over the wire -/

/-- The page around a sum. -/
def sumPage (sum : Int) : Bytes :=
  bytes "<html>\n<head><title>MATH CAL</title>\n" ++ resultScript sum ++ bytes "</head>\n</html>\n"

/-- The form for a sum is fetched and leaves the tables as they are.  Whatever is typed into it and
sent, the tables stay as they are again, and the page that comes back has the sum of what
`math_add` reads, where that is an `int`.  It reads numerals as they are, but those with a plus
sign as 0. -/
theorem sum_on_site {site : Site} (hup : site.Up)
    (hfile : site.Serves (bytes "/cal_add.html") calAddHtml) {data1 data2 : Bytes}
    (h₁ : OneLine data1) (h₂ : OneLine data2)
    (hfits : (encode data1).length + (encode data2).length ≤ 1010) {m m' : Message}
    (hm : m.Around 100) (hm' : m'.Around 100) (refs : References) (server : SelectServer)
    (s later : Tables) :
    ∃ parts,
      site.after s { m with url := bytes "/cal_add.html" }.get = some s ∧
      site.respond server s { m with url := bytes "/cal_add.html" }.get =
        some (responseHeader ++ calAddHtml) ∧
      formParts .outside (tokenize refs calAddHtml) =
        .start (codes (bytes "cgi_bin/math_cgi")) (codes (bytes "POST")) :: parts ∧
      site.after later (Visit.post m' .mathCgi (formBody (sumChoice data1 data2) parts)).wire =
        some later ∧
      site.respond server later
          (Visit.post m' .mathCgi (formBody (sumChoice data1 data2) parts)).wire =
        (addInt (operand data1) (operand data2)).toOption.map
          (fun sum => responseHeader ++ sumPage sum) ∧
      ∀ typed v, IsNumeral typed v → IsInt v →
        operand typed = if typed.head? = some 43 then 0 else v := by
  have hbody : formBody (sumChoice data1 data2) sumForm =
      submit [("data1", data1), ("data2", data2)] := sumForm_body h₁ h₂
  have hlength : (submit [("data1", data1), ("data2", data2)]).length < postDataSize := by
    have hnames : (bytes "data1").length = 5 ∧ (bytes "data2").length = 5 ∧ postDataSize = 1024 := by
      decide
    simp only [submit, List.map_cons, List.map_nil, join, List.length_append, List.length_cons,
      hnames]
    omega
  have hnul : ∀ c ∈ submit [("data1", data1), ("data2", data2)], c ≠ 0 := by
    have hnames : ∀ name ∈ ["data1", "data2"], ∀ c ∈ bytes name, isPlain c = true := by
      decide
    refine join_ne_nul fun f hf => ?_
    obtain ⟨g, hg, rfl⟩ := List.mem_map.mp hf
    exact ⟨hnames g.1 (List.mem_map_of_mem (f := Prod.fst) hg), encode_plain⟩
  have hpost : (Visit.post m' .mathCgi (submit [("data1", data1), ("data2", data2)])).Fits :=
    post_fits hm' (by decide) hlength hnul
  obtain ⟨hafter, hrespond⟩ := hfile.respond fileUrl_pages.2.1 hm server s
  have hform := calAddHtml_form refs
  refine ⟨_, hafter, hrespond, hform, ?_, ?_, fun typed v => operand_numeral⟩
  · show site.after later (Visit.post m' .mathCgi (formBody _ sumForm)).wire = _
    rw [hbody]
    exact hup.after_wire hpost later
  · show site.respond server later (Visit.post m' .mathCgi (formBody _ sumForm)).wire = _
    rw [hbody, hup.respond_post hpost server (hup.after_wire hpost later)]
    show ((site.frame.body (postData _ _)).bind _).map _ = _
    rw [site.frame.body_postData hlength hnul, Option.bind_some, mathPage, mathAdd_submit]
    cases addInt (operand data1) (operand data2) with
    | error fault => rfl
    | ok sum =>
        show some (responseHeader ++ pageBytes [.text (sumPage sum)]) = _
        rw [pageBytes, List.flatMap_singleton]
        rfl

theorem sum_on_site_small : ∃ parts,
    fileSite.after penTables { browser with url := bytes "/cal_add.html" }.get = some penTables ∧
      fileSite.respond plainServer penTables { browser with url := bytes "/cal_add.html" }.get =
        some (responseHeader ++ calAddHtml) ∧
      formParts .outside (tokenize someReferences calAddHtml) =
        .start (codes (bytes "cgi_bin/math_cgi")) (codes (bytes "POST")) :: parts ∧
      fileSite.after penTables (Visit.post browser .mathCgi
        (formBody (sumChoice (bytes "+5") (bytes "-3")) parts)).wire = some penTables ∧
      fileSite.respond plainServer penTables (Visit.post browser .mathCgi
        (formBody (sumChoice (bytes "+5") (bytes "-3")) parts)).wire =
          some (responseHeader ++ sumPage (-3)) := by
  have hfile : fileSite.Serves (bytes "/cal_add.html") calAddHtml :=
    fileSite_serves rfl
  have hlines : OneLine (bytes "+5") ∧ OneLine (bytes "-3") := by decide
  obtain ⟨parts, hafter, hrespond, hform, hpost, hsum, hoperand⟩ :=
    sum_on_site fileSite_up hfile hlines.1 hlines.2 (by decide) browser_short browser_short
      someReferences plainServer penTables penTables
  have hfive : IsNumeral (43 :: bytes "5") (numeral (bytes "5")) :=
    .plus (by decide) (by decide)
  have hthree : IsNumeral (45 :: bytes "3") (-numeral (bytes "3")) :=
    .minus (by decide) (by decide)
  have hplus : operand (bytes "+5") = 0 := hoperand _ _ hfive (by decide)
  have hminus : operand (bytes "-3") = -3 := hoperand _ _ hthree (by decide)
  rw [hplus, hminus] at hsum
  exact ⟨parts, hafter, hrespond, hform, hpost, hsum⟩

/-! ## A type over the wire -/

/-- The pages with the types have one more. -/
theorem ShownTypes.insert {s : Tables} {types : List (Int × Bytes)} (h : ShownTypes refs s types)
    {v : Bytes} (hint : IsInt s.types.next) (hv : PlainText refs v ∧ 0 ∉ v)
    (hcount : types.length + 1 < 2 ^ 31) :
    ShownTypes refs { s with types := s.types.insert (some v) }
      (types ++ [(s.types.next, v)]) where
  rows := by
    show s.types.rows ++ [(s.types.next, some v)] = _
    rw [h.rows, List.map_append, List.map_singleton]
  ints := List.forall_mem_append.mpr ⟨h.ints, List.forall_mem_singleton.mpr hint⟩
  names := List.forall_mem_append.mpr ⟨h.names, List.forall_mem_singleton.mpr hv⟩
  count := by rwa [List.length_append]

/-- The form for a type is fetched and leaves the tables as they are.  It is filled in with a name
and sent, whatever has happened in between.  When the insert is executed, it makes a type under
the next id with what the column makes of the encoded name, and the pages for adding and for
finding records then offer it behind the types that they offered before. -/
theorem type_added_on_site {site : Site} (hup : site.Up)
    (hfile : site.Serves (bytes "/add_god_type.html") addGodTypeHtml) {typeName v : Bytes}
    (hne : typeName ≠ []) (hline : OneLine typeName) (hfits : (encode typeName).length < 100)
    (hv : site.changes.columns.godtName (encode typeName) = some v) {m m' : Message}
    (hm : m.Around 100) (hm' : m'.Around 100) (refs : References) (server : SelectServer)
    (s later : Tables) :
    ∃ parts,
      site.after s { m with url := bytes "/add_god_type.html" }.get = some s ∧
      site.respond server s { m with url := bytes "/add_god_type.html" }.get =
        some (responseHeader ++ addGodTypeHtml) ∧
      formParts .outside (tokenize refs addGodTypeHtml) =
        .start (codes (bytes "cgi_bin/add_god_type_cgi")) (codes (bytes "post")) :: parts ∧
      formBody (typeChoice typeName) parts = submit (AddType.form ⟨typeName⟩) ∧
      ∀ s', site.changes.post later
          (.addGodType site.frame.addType (formBody (typeChoice typeName) parts)) = some s' →
        site.after later
            (Visit.post m' .addGodTypeCgi (formBody (typeChoice typeName) parts)).wire = some s' ∧
        s'.shop = later.shop.fill (.addType (some v)) ∧
        site.respond server later
            (Visit.post m' .addGodTypeCgi (formBody (typeChoice typeName) parts)).wire =
          some (responseHeader ++
            addGodTypePage (submit (AddType.form ⟨typeName⟩)) addTypeMessages.executed) ∧
        ∀ types, ShownTypes refs later types → IsInt later.types.next → PlainText refs v →
          0 ∉ v → types.length + 1 < 2 ^ 31 →
          ∃ addPage findPage,
            site.respond server s' (Visit.get m .addGodShowCgi none).wire =
              some (responseHeader ++ addPage) ∧
            formParts .outside (tokenize refs addPage) =
              addForm (typeMapOf (types ++ [(later.types.next, v)])) ∧
            site.respond server s' (Visit.get m .findGodCgi none).wire =
              some (responseHeader ++ findPage) ∧
            formParts .outside (tokenize refs findPage) =
              findForm (typeMapOf (types ++ [(later.types.next, v)])) := by
  have hbody : formBody (typeChoice typeName) typeForm = submit (AddType.form ⟨typeName⟩) :=
    typeForm_body hline
  have hlength : (submit (AddType.form ⟨typeName⟩)).length < postDataSize := by
    have hname : (bytes "type_name").length = 9 ∧ postDataSize = 1024 := by decide
    simp only [submit, AddType.form, List.map_cons, List.map_nil, join, List.length_append,
      List.length_cons, hname]
    omega
  have hnul : ∀ c ∈ submit (AddType.form ⟨typeName⟩), c ≠ 0 := by
    have hname : ∀ c ∈ bytes "type_name", isPlain c = true := by decide
    refine join_ne_nul (List.forall_mem_singleton.mpr ⟨hname, encode_plain⟩)
  have hpost : (Visit.post m' .addGodTypeCgi (submit (AddType.form ⟨typeName⟩))).Fits :=
    post_fits hm' (by decide) hlength hnul
  have hscan : AddType.scan site.frame.addType (submit (AddType.form ⟨typeName⟩)) =
      some ⟨encode typeName⟩ := AddType.scan_typed _ hne hfits
  have hread := PlainText.ofText_text ⟨_, isPlainText_encode typeName⟩
  have hrequest : Request.order site.changes.columns (.addGodType site.frame.addType
      (submit (AddType.form ⟨typeName⟩))) = some (.addType (some v)) := by
    rw [Request.order, hscan, Option.bind_some, AddType.order, hread, Option.bind_some]
    exact congrArg (Option.map _) hv
  obtain ⟨hafter, hrespond⟩ := hfile.respond fileUrl_pages.2.2 hm server s
  refine ⟨_, hafter, hrespond, addGodTypeHtml_form refs, hbody, fun s' hexecuted => ?_⟩
  have hexecuted : site.changes.post later
      (.addGodType site.frame.addType (submit (AddType.form ⟨typeName⟩))) = some s' :=
    hbody ▸ hexecuted
  have hadded := hup.after_of_post hpost rfl hexecuted
  refine ⟨?_, site.changes.post_refines hrequest hexecuted, ?_,
    fun types h hint hplain hnulType hcount => ?_⟩
  · show site.after later (Visit.post m' .addGodTypeCgi (formBody _ typeForm)).wire = _
    rw [hbody]
    exact hadded
  · show site.respond server later (Visit.post m' .addGodTypeCgi (formBody _ typeForm)).wire = _
    have hscript := site.changes.report_executed hrequest hexecuted
    rw [hbody, hup.respond_post hpost server hadded]
    show ((site.frame.body (postData _ _)).map fun data => [Piece.text (addGodTypePage data
      (scriptBytes (Request.report _ (.addGodType site.frame.addType data))))]).map _ = _
    rw [site.frame.body_postData hlength hnul, Option.map_some, Option.map_some, hscript, pageBytes,
      List.flatMap_singleton]
    rfl
  · obtain ⟨sql, hsql, hquery⟩ := Option.bind_eq_some_iff.mp hexecuted
    rw [Request.sql, addType, Option.bind_some, hscan, Option.map_some] at hsql
    cases hsql
    obtain ⟨rfl, -⟩ := site.changes.addType hquery (AddType.lex_literals hread) hv
    have hshown := h.insert hint ⟨hplain, hnulType⟩ hcount
    obtain ⟨addPage, haddPage, haddForm⟩ := hup.respond_addPage hm hshown server
    obtain ⟨findPage, hfindPage, hfindForm⟩ := hup.respond_findPage hm hshown server
    exact ⟨addPage, findPage, haddPage, haddForm, hfindPage, hfindForm⟩

theorem type_added_on_site_food : ∃ parts s',
    fileSite.after penTables { browser with url := bytes "/add_god_type.html" }.get =
        some penTables ∧
      fileSite.respond plainServer penTables
          { browser with url := bytes "/add_god_type.html" }.get =
        some (responseHeader ++ addGodTypeHtml) ∧
      formParts .outside (tokenize someReferences addGodTypeHtml) =
        .start (codes (bytes "cgi_bin/add_god_type_cgi")) (codes (bytes "post")) :: parts ∧
      fileSite.after penTables (Visit.post browser .addGodTypeCgi
        (formBody (typeChoice (bytes "pet food")) parts)).wire = some s' ∧
      s'.shop = penTables.shop.fill (.addType (some (bytes "pet+food"))) ∧
      fileSite.respond plainServer penTables (Visit.post browser .addGodTypeCgi
        (formBody (typeChoice (bytes "pet food")) parts)).wire =
          some (responseHeader ++
            addGodTypePage (bytes "type_name=pet+food") addTypeMessages.executed) ∧
      ∃ addPage, fileSite.respond plainServer s' (Visit.get browser .addGodShowCgi none).wire =
          some (responseHeader ++ addPage) ∧
        formParts .outside (tokenize someReferences addPage) =
          addForm (typeMapOf [(1, bytes "pens"), (2, bytes "pet+food")]) := by
  have hfile : fileSite.Serves (bytes "/add_god_type.html") addGodTypeHtml :=
    fileSite_serves rfl
  have hname : bytes "pet food" ≠ [] := by decide
  have hstored : fileSite.changes.columns.godtName (encode (bytes "pet food")) =
      some (bytes "pet+food") := by decide
  obtain ⟨parts, hafter, hrespond, hform, hbody, hexecuted⟩ :=
    type_added_on_site fileSite_up hfile hname (by decide) (by decide) hstored
      browser_short browser_short someReferences plainServer penTables penTables
  obtain ⟨s', hs'⟩ : ∃ s', fileSite.changes.post penTables
      (.addGodType fileSite.frame.addType (submit (AddType.form ⟨bytes "pet food"⟩))) =
        some s' := Option.isSome_iff_exists.mp (by decide)
  rw [← hbody] at hs'
  obtain ⟨hpost, hshop, hadded, hpages⟩ := hexecuted s' hs'
  have hplain : PlainText someReferences (bytes "pet+food") :=
    plainText_of_notMem _ (by decide) (by decide) (by decide)
  obtain ⟨addPage, -, haddPage, haddForm, -⟩ :=
    hpages _ penTables_types (by decide) hplain (by decide) (by decide)
  exact ⟨parts, s', hafter, hrespond, hform, hpost, hshop, hadded, addPage, haddPage, haddForm⟩

end Cgi
