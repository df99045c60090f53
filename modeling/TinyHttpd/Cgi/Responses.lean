import TinyHttpd.Cgi.MathAdd
import TinyHttpd.Cgi.Navigation
import TinyHttpd.Cgi.Site

/-!
# What comes back

`Site.respond` is what a client receives for the bytes of a request.  For a program that is the
response line, an empty line and what the program prints (`respond_wire`, `respond_post`); for
a file behind the same header it is what the file holds (`Serves.respond`).
-/

namespace Cgi

open CString Html Httpd Machine

/-! ## What a program prints -/

/-- The data of a search, when it stays in `post_data`. -/
def Frame.search (f : Frame) (contentLength : Int) (stdin : Bytes) : Option Bytes :=
  let beyond := f.memory.drop postDataSize
  if InBuffer (Cgi.godListCgi beyond contentLength stdin) then
    some (godListData beyond contentLength stdin)
  else none

/-- What `math_cgi` prints. -/
def mathPage (dataString : Bytes) : Option Bytes := do
  let script ← (mathAdd (some dataString)).toOption
  return bytes "<html>\n<head><title>MATH CAL</title>\n" ++ script ++ bytes "</head>\n</html>\n"

/-- What is printed before the method is looked at. -/
def titleHead (title : String) : Bytes :=
  bytes "<html>\n\n<head><title>" ++ bytes title ++ bytes "</title>\n\n"

/-- What `add_god_cgi` and `add_god_type_cgi` print before they go to work. -/
def postedHead (title : String) (data : Bytes) : Bytes :=
  titleHead title ++ bytes "<p>Post data is:" ++ data ++ bytes "\n"

def addGodTitle : String := "Insert new goods result"

def addGodTypeTitle : String := "Insert new type result"

def delGodTitle : String := "Delete a goods"

/-- What `add_god_cgi` prints around the script of `add_goods`. -/
def addGodPage (data script : Bytes) : Bytes :=
  postedHead addGodTitle data ++ script ++
    bytes "</head>\n<p><a href=\"../index.html\">Back index</a></p>\n</body>\n</html>\n\n"

/-- What `add_god_type_cgi` prints around the script of `add_type`. -/
def addGodTypePage (data script : Bytes) : Bytes :=
  postedHead addGodTypeTitle data ++ script ++ bytes "</head>\n</html>\n\n"

/-- What `change_god_cgi` prints around the script of `change_god`. -/
def changeGodPost (script : Bytes) : Bytes :=
  titleHead "Change goods information" ++ script ++ bytes "</head>\n</html>\n\n"

/-- What `del_god_cgi` prints around the script of `del_goods`. -/
def delGodPage (script : Bytes) : Bytes :=
  titleHead delGodTitle ++ script ++ bytes "</head>\n</html>\n\n"

/-- A piece of a script, as it is printed. -/
def Out.render : Out → Bytes
  | .text s => bytes s
  | .error message => message

def scriptBytes (out : List Out) : Bytes := out.flatMap Out.render

/-- What a program prints with that answer of the library to its statement. -/
def Program.page (p : Program) (server : SelectServer) (client : Client) (f : Frame)
    (db : Database) (stdin : Bytes) : Input → Option (List Piece)
  | .refused =>
      match p with
      | .addGodCgi => some [.text (titleHead addGodTitle)]
      | .addGodTypeCgi => some [.text (titleHead addGodTypeTitle)]
      | .delGodCgi => some [.text (titleHead delGodTitle)]
      | .addGodShowCgi =>
          (exeSelectType (server.answer db mapSql)).toOption.map fun types => addPageHead types.2
      | .findGodCgi =>
          (exeSelectType (server.answer db mapSql)).toOption.map fun types => findPageHead types.2
      | _ => none
  | .page =>
      match p with
      | .addGodShowCgi => (addGodShowGet server db).toOption
      | .findGodCgi => (findGodGet server db).toOption
      | .godListCgi => (godListPage server db none).map fun page => [.text page]
      | _ => none
  | .query queryString =>
      match p with
      | .changeGodCgi => (changeGodGet server db queryString).toOption
      | .delGodCgi =>
          let script := scriptBytes (delGoodsPage client f.delGoods (some queryString))
          some [.text (delGodPage script)]
      | .mathCgi => (mathPage queryString).map fun page => [.text page]
      | _ => none
  | .body contentLength =>
      match p with
      | .addGodCgi =>
          (f.body (Cgi.addGodCgi contentLength stdin)).map fun data =>
            let script := scriptBytes (addGoodsPage client f.addGoods (some data))
            [.text (addGodPage data script)]
      | .addGodTypeCgi =>
          (f.body (Cgi.addGodTypeCgi contentLength stdin)).map fun data =>
            let script := scriptBytes (addTypePage client f.addType (some data))
            [.text (addGodTypePage data script)]
      | .changeGodCgi =>
          (f.body (Cgi.changeGodCgi contentLength stdin)).map fun data =>
            let script := scriptBytes (changeGodPage client f.changeGod (some data))
            [.text (changeGodPost script)]
      | .godListCgi => do
          let data ← f.search contentLength stdin
          let page ← godListPage server db (some data)
          return [.text page]
      | .mathCgi => do
          let data ← f.body (Cgi.mathCgi contentLength stdin)
          let page ← mathPage data
          return [.text page]
      | _ => none

/-- What a program prints that has been started from that file with that environment and
standard input, `none` where it has no meaning. -/
def Site.print (site : Site) (server : SelectServer) (path : Bytes) (environ : List Bytes)
    (stdin : Bytes) (s : Tables) : Option Bytes := do
  let p ← programAt path
  let work ← (p.main environ).toOption
  let page ← p.page server (site.changes.client s) site.frame s.database stdin work
  let _ ← site.execute path environ stdin s
  return pageBytes page

/-- The bytes that the client receives. -/
def Site.respond (site : Site) (server : SelectServer) (s : Tables) (input : Bytes) :
    Option Bytes :=
  let calls := acceptRequest site.env input
  match started calls with
  | [] => some (transmitted calls)
  | path :: _ => do
      let page ← site.print server path (childEnviron site.inherited calls) (fed calls) s
      return transmitted (acceptRequest { site.env with cgiOutput := page } input)

theorem transmitted_runCgi {env : Env} (hforks : env.forks) (sock : Fd)
    (path method query : Bytes) (n : Int) (body : Bytes) :
    transmitted (runCgi env sock path method query n body) = responseHeader ++ env.cgiOutput := by
  obtain ⟨hin, hout, hfork⟩ := hforks
  rw [runCgi, hin, hout, hfork]
  have hbody : transmitted (if strcasecmp (bytes "POST") method = 0 then
      relayBody sock .cgiInput1 n.toNat 0 body else []) = [] := by
    split
    next => exact Relay.transmitted_relayBody sock .cgiInput1 n.toNat 0 body
    next => rfl
  have hheader : httpVersion ++ bytes " 200 OK\r\n\r\n" = responseHeader := by decide
  rw [hheader]
  simp [Call.transmits, hbody, Relay.transmitted_relayOutput]

/-- A run that executes a program sends its output behind the header. -/
theorem transmitted_of_executed {env : Env} {input path : Bytes}
    (h : path ∈ executed (acceptRequest env input)) :
    transmitted (acceptRequest env input) = responseHeader ++ env.cgiOutput := by
  obtain ⟨⟨hforks, hvalue⟩, found, hroute⟩ := route_of_executed h
  rw [acceptRequest_eq, hroute, answer]
  by_cases hget : IsGet (requestMethod input)
  · rw [exeCgi, if_pos (show strcasecmp (requestMethod input) (bytes "GET") = 0 from hget)]
    simp [(requestLine_onlyRecv input).transmitted, (clearHeader_onlyRecv _ _).transmitted,
      Call.transmits, transmitted_runCgi hforks]
  · rw [exeCgi, if_neg (show ¬strcasecmp (requestMethod input) (bytes "GET") = 0 from hget)]
    dsimp only
    rw [if_neg (hvalue.resolve_left hget)]
    simp [(requestLine_onlyRecv input).transmitted, (postHeader_onlyRecv _ _).transmitted,
      Call.transmits, transmitted_runCgi hforks]

/-- The output of a program has no part in what is executed. -/
theorem Site.Up.printing {site : Site} (h : site.Up) (output : Bytes) :
    Site.Up { site with env := { site.env with cgiOutput := output } } :=
  ⟨h.forks, h.execl, h.programs⟩

/-- What a program prints that does something with the tables. -/
theorem Site.print_eq (site : Site) (server : SelectServer) {p : Program} {environ : List Bytes}
    {work : Input} (hmain : p.main environ = .ok work) {stdin : Bytes} {s s' : Tables}
    (hexecute : site.execute p.path environ stdin s = some s') :
    site.print server p.path environ stdin s =
      (p.page server (site.changes.client s) site.frame s.database stdin work).map pageBytes := by
  simp only [Site.print, programAt_path, Option.bind_eq_bind, Option.bind_some, hmain, hexecute,
    Except.toOption, Option.map_eq_bind]
  rfl

/-- What comes back for a request for a program that does something with the tables. -/
theorem Site.Up.respond_eq {site : Site} (h : site.Up) {p : Program} (hp : p ≠ .debugCgi)
    {input : Bytes} (hknown : Known (requestMethod input)) (htarget : requestTarget input = p.url)
    (hvalue : IsGet (requestMethod input) ∨ requestLength input ≠ -1)
    (hquery : IsGet (requestMethod input) → (requestQuery input).length ≤ 1010)
    (server : SelectServer) {s s' : Tables} (hafter : site.after s input = some s') :
    site.respond server s input =
      (p.page server (site.changes.client s) site.frame s.database (fed (acceptRequest site.env input))
        ((if IsGet (requestMethod input) then p.get else p.post).input (requestQuery input)
          (requestLength input))).map fun page => responseHeader ++ pageBytes page := by
  have hexecuted := h.executes hknown htarget hvalue
  have hstarts := h.starts hknown htarget hvalue
  have hmain := main_of_executed (hexecuted ▸ List.mem_singleton_self _)
    (h.partsFit htarget hquery) site.inherited hp
  have hsent (page : Bytes) :
      transmitted (acceptRequest { site.env with cgiOutput := page } input) =
        responseHeader ++ page := by
    have hprinting := (h.printing page).executes hknown htarget hvalue
    exact transmitted_of_executed (hprinting ▸ List.mem_singleton_self _)
  rw [Site.after, hstarts] at hafter
  rw [Site.respond, hstarts]
  simp only [hsent]
  rw [site.print_eq server hmain hafter, Option.map_eq_bind, Option.map_eq_bind]
  exact Option.bind_assoc ..

/-- What comes back for a GET. -/
theorem Site.Up.respond_wire {site : Site} (h : site.Up) {m : Message} {p : Program}
    {query : Option Bytes} (hfits : (Visit.get m p query).Fits) (server : SelectServer)
    {s s' : Tables} (hafter : site.after s (Visit.get m p query).wire = some s') :
    site.respond server s (Visit.get m p query).wire =
      (p.page server (site.changes.client s) site.frame s.database []
        (p.get.input (query.getD []) (requestLength (Visit.get m p query).wire))).map
          fun page => responseHeader ++ pageBytes page := by
  obtain ⟨hp, hplain, hlength⟩ := hfits
  obtain ⟨hget, htarget, hquery⟩ := get_target hplain rfl
  have hexecuted := h.executes (.inl hget) htarget (.inl hget)
  have hfed := (fed_of_executed (hexecuted ▸ List.mem_singleton_self _)).1 hget
  rw [Visit.wire, h.respond_eq hp (.inl hget) htarget (.inl hget) (fun _ => hquery ▸ hlength) server
    hafter, if_pos hget, hquery, hfed]

/-- What comes back for a POST. -/
theorem Site.Up.respond_post {site : Site} (h : site.Up) {m : Message} {p : Program}
    {body : Bytes} (hfits : (Visit.post m p body).Fits) (server : SelectServer) {s s' : Tables}
    (hafter : site.after s (Visit.post m p body).wire = some s') :
    site.respond server s (Visit.post m p body).wire =
      (p.page server (site.changes.client s) site.frame s.database body
        (p.post.input (requestQuery (Visit.post m p body).wire) body.length)).map
          fun page => responseHeader ++ pageBytes page := by
  obtain ⟨hp, hplain, hlength, -⟩ := hfits
  have hsize : postDataSize = 1024 ∧ intMax = 2147483647 := ⟨rfl, rfl⟩
  obtain ⟨hpost, htarget, hvalue⟩ := post_target hplain rfl body (by omega)
  have hget : ¬IsGet (requestMethod ({ m with url := p.url }.post body)) :=
    fun hget => not_isGet_and_isPost hget hpost
  have hfed := h.fed_post hplain rfl (by omega : body.length ≤ intMax)
  rw [Visit.wire, h.respond_eq hp (.inr hpost) htarget (.inr (by rw [hvalue]; omega))
    (fun hisGet => absurd hisGet hget) server hafter, if_neg hget, hvalue, hfed]

/-! ## Statements that are executed -/

/-- What the function with the statement prints. -/
def Request.report (client : Client) : Request → List Out
  | .addGod held dataString => addGoodsPage client held (some dataString)
  | .changeGod held dataString => changeGodPage client held (some dataString)
  | .delGod held dataString => delGoodsPage client held (some dataString)
  | .addGodType held dataString => addTypePage client held (some dataString)

def Request.messages : Request → Messages
  | .addGod .. => addGoodsMessages
  | .changeGod .. => changeGodMessages
  | .delGod .. => delGoodsMessages
  | .addGodType .. => addTypeMessages

theorem Request.report_eq (client : Client) (r : Request) :
    r.report client = r.sql.elim [] (r.messages.report client) := by
  cases r <;> rfl

/-- The script behind a statement that has been executed. -/
def Messages.executed (m : Messages) : Bytes :=
  bytes "<script language=\"javascript\">\n" ++ bytes m.success ++ bytes m.page ++
    bytes "</script>\n"

theorem Messages.report_executed (m : Messages) {client : Client} {sql : Bytes}
    (hquery : client.query sql = 0) (hrows : client.rowCount sql ≠ -1) :
    scriptBytes (m.report client sql) = m.executed := by
  have hupdate : client.exeUpdate sql = (client.rowCount sql, []) := if_neg fun h => h hquery
  simp only [scriptBytes, Messages.report, hupdate, if_neg hrows, List.append_nil,
    List.cons_append, List.nil_append, List.flatMap_cons, List.flatMap_nil, Out.render,
    Messages.executed, List.append_assoc]

/-- A request that has done what it asks for says so. -/
theorem ChangeServer.report_executed {server : ChangeServer} {r : Request} {order : Order}
    (h : r.order server.columns = some order) {s s' : Tables} (hpost : server.post s r = some s') :
    scriptBytes (r.report (server.client s)) = r.messages.executed := by
  obtain ⟨sql, hsql, hquery, -, hcount⟩ := server.post_executes h hpost
  have hexecuted : (server.client s).query sql = 0 :=
    (server.executed s sql).mpr (hquery ▸ Option.isSome_some)
  have hrows : (server.client s).rowCount sql ≠ -1 := by
    show (((server.client s).affectedRows sql : Nat) : Int).bmod (2 ^ 32) ≠ -1
    interval_cases (server.client s).affectedRows sql <;> decide
  rw [Request.report_eq, hsql, Option.elim_some, r.messages.report_executed hexecuted hrows]

/-! ## Requests that fit -/

/-- A GET of a program fits, with a query string of visible bytes. -/
theorem get_fits {m : Message} (hm : m.Around 100) {p : Program} (hp : p ≠ .debugCgi)
    {query : Option Bytes} (hquery : ∀ q ∈ query, (∀ c ∈ q, isspace c = false ∧ c ≠ 0) ∧
      q.length ≤ 60) : (Visit.get m p query).Fits := by
  have hurl : ∀ c ∈ p.url, isspace c = false ∧ c ≠ 0 := by cases p <;> decide +kernel
  obtain ⟨hne, -, hlength, -⟩ := url_facts p
  refine ⟨hp, hm.plain (List.append_ne_nil_of_left_ne_nil hne _) ?_ ?_, ?_⟩
  · cases query with
    | none => exact List.forall_mem_append.mpr ⟨hurl, List.forall_mem_nil _⟩
    | some q =>
        refine List.forall_mem_append.mpr ⟨hurl, ?_⟩
        exact List.forall_mem_cons.mpr ⟨by decide, (hquery q rfl).1⟩
  · cases query with
    | none =>
        rw [queryUrl, Option.elim_none, List.append_nil]
        omega
    | some q =>
        have hq := (hquery q rfl).2
        rw [queryUrl, Option.elim_some, List.length_append, List.length_cons]
        omega
  · cases query with
    | none => exact Nat.zero_le _
    | some q => exact (hquery q rfl).2.trans (by norm_num)

/-- A POST to a program fits, with a body that does. -/
theorem post_fits {m : Message} (hm : m.Around 100) {p : Program} (hp : p ≠ .debugCgi)
    {body : Bytes} (hlength : body.length < postDataSize) (hnul : ∀ c ∈ body, c ≠ 0) :
    (Visit.post m p body).Fits := by
  obtain ⟨hne, -, hshort, -⟩ := url_facts p
  have hurl : ∀ c ∈ p.url, isspace c = false ∧ c ≠ 0 := by cases p <;> decide +kernel
  exact ⟨hp, hm.plain hne hurl (by omega), hlength, hnul⟩

/-! ## Files -/

/-- A URL of visible bytes, without a query. -/
structure FileUrl (url : Bytes) : Prop where
  nonempty : url ≠ []
  bytes : ∀ c ∈ url, isspace c = false ∧ c ≠ 0
  noQuery : questionMark ∉ url
  noBackslash : ¬EndsInBackslash url
  short : url.length ≤ 100

instance (url : Bytes) : Decidable (FileUrl url) :=
  decidable_of_iff (url ≠ [] ∧ (∀ c ∈ url, isspace c = false ∧ c ≠ 0) ∧
      url.contains questionMark = false ∧ ¬EndsInBackslash url ∧ url.length ≤ 100)
    ⟨fun ⟨h₁, h₂, h₃, h₄, h₅⟩ => ⟨h₁, h₂, by simpa using h₃, h₄, h₅⟩,
      fun ⟨h₁, h₂, h₃, h₄, h₅⟩ => ⟨h₁, h₂, by simpa using h₃, h₄, h₅⟩⟩

theorem fileUrl_pages : FileUrl (bytes "/index.html") ∧ FileUrl (bytes "/cal_add.html") ∧
    FileUrl (bytes "/add_god_type.html") := by
  decide +kernel

/-- The file of a URL is there, without execute bits, and can be sent. -/
structure Site.Serves (site : Site) (url contents : Bytes) : Prop where
  stat : site.env.stat (bytes "htdocs" ++ url) = some ⟨false, false, false, false, contents.length⟩
  openFile : site.env.openFile (bytes "htdocs" ++ url) = some contents
  sendfile : site.env.sendfile contents (contents.length % 2 ^ 32) = some contents

/-- A GET of a file is routed to it. -/
theorem Site.Serves.route {site : Site} {url contents : Bytes} (h : site.Serves url contents)
    (hurl : FileUrl url) {m : Message} (hm : m.Around 100) :
    route site.env (requestLine { m with url := url }.get).line =
      .static (bytes "htdocs" ++ url) (bytes "htdocs" ++ url) contents.length := by
  have hplain := hm.plain hurl.nonempty hurl.bytes hurl.short
  obtain ⟨hmethod, hrequest⟩ := hplain.get_request
  have hget : IsGet (requestMethod { m with url := url }.get) := by
    rw [hmethod]
    decide
  have htarget : requestTarget { m with url := url }.get = url := by
    rw [requestTarget, target, if_pos hget, ← requestUrl, hrequest,
      splitQuery_of_notMem hurl.noQuery]
  have hpath : buildPath (requestTarget { m with url := url }.get) = bytes "htdocs" ++ url := by
    rw [htarget, buildPath_of_not_backslash hurl.noBackslash]
  have hprogram : ¬isProgram { m with url := url }.get
      ⟨false, false, false, false, contents.length⟩ = true := by
    rw [isProgram_iff, AsksForProgram, hrequest]
    rintro ((hpost | ⟨-, hquery⟩) | ⟨-, hexecutable⟩)
    · exact not_isGet_and_isPost hget hpost
    · exact hurl.noQuery hquery
    · exact Bool.false_ne_true hexecutable
  rw [route_of_known (.inl hget), hpath, h.stat]
  exact if_neg hprogram

/-- The tables do not change, and the file comes back. -/
theorem Site.Serves.respond {site : Site} {url contents : Bytes} (h : site.Serves url contents)
    (hurl : FileUrl url) {m : Message} (hm : m.Around 100) (server : SelectServer) (s : Tables) :
    site.after s { m with url := url }.get = some s ∧
      site.respond server s { m with url := url }.get = some (responseHeader ++ contents) := by
  have hroute := h.route hurl hm
  have hstarted : started (acceptRequest site.env { m with url := url }.get) = [] := by
    rw [started, fileView_starts.acceptRequest, hroute]
    rfl
  have hsent : transmitted (acceptRequest site.env { m with url := url }.get) =
      responseHeader ++ contents := by
    rw [acceptRequest_eq, hroute, answer]
    simp [(requestLine_onlyRecv _).transmitted, (clearHeader_onlyRecv _ _).transmitted,
      Call.transmits, transmitted_echoHtml h.openFile h.sendfile]
  constructor
  · rw [Site.after, hstarted]
  · rw [Site.respond, hstarted]
    dsimp only
    rw [hsent]

end Cgi
