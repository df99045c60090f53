import TinyHttpd.Cgi.FormRequests
import TinyHttpd.Cgi.Programs
import TinyHttpd.Httpd.Message
import TinyHttpd.Relay.Exact

/-!
# The site

The server hands a request to a program, and the program hands a statement to the database:
`Site.after` is what comes of the tables when the bytes of a request arrive.

For the requests of a browser the way from the bytes to the tables loses nothing: the tables
are those of the requests that `Shop` is about (`visits_refine`).
-/

namespace Cgi

open CString Html Httpd Machine

/-! ## The files of the programs -/

def Program.name : Program → String
  | .addGodCgi => "add_god_cgi"
  | .addGodShowCgi => "add_god_show_cgi"
  | .addGodTypeCgi => "add_god_type_cgi"
  | .changeGodCgi => "change_god_cgi"
  | .debugCgi => "debug_cgi"
  | .delGodCgi => "del_god_cgi"
  | .findGodCgi => "find_god_cgi"
  | .godListCgi => "god_list_cgi"
  | .mathCgi => "math_cgi"

def programs : List Program :=
  [.addGodCgi, .addGodShowCgi, .addGodTypeCgi, .changeGodCgi, .debugCgi, .delGodCgi, .findGodCgi,
    .godListCgi, .mathCgi]

/-- The URL of a program. -/
def Program.url (p : Program) : Bytes := bytes "/cgi_bin/" ++ bytes p.name

/-- Its file. -/
def Program.path (p : Program) : Bytes := bytes "htdocs" ++ p.url

/-- The program with that file. -/
def programAt (path : Bytes) : Option Program := programs.find? fun p => p.path == path

/-! ## What the programs do to the tables -/

/-- The variables of the programs before anything is stored in them, `post_data` with what is
behind it. -/
structure Frame where
  addGoods : AddGoods
  addType : AddType
  changeGod : ChangeGod
  delGoods : DelGoods
  memory : Bytes
  room : postDataSize ≤ memory.length

/-- The string in `post_data`, when the body and its NUL stay in the buffer. -/
def Frame.body (f : Frame) (stores : List Store) : Option Bytes :=
  if InBuffer stores then some (postString f.memory stores) else none

/-- The requests of a program to the database that change the tables. -/
def Program.requests (p : Program) (f : Frame) (stdin : Bytes) : Input → Option (List Request)
  | .refused => some []
  | .page => some []
  | .query queryString =>
      match p with
      | .delGodCgi => some [.delGod f.delGoods queryString]
      | _ => some []
  | .body contentLength =>
      match p with
      | .addGodCgi =>
          (f.body (Cgi.addGodCgi contentLength stdin)).map fun data => [.addGod f.addGoods data]
      | .addGodTypeCgi =>
          (f.body (Cgi.addGodTypeCgi contentLength stdin)).map fun data =>
            [.addGodType f.addType data]
      | .changeGodCgi =>
          (f.body (Cgi.changeGodCgi contentLength stdin)).map fun data =>
            [.changeGod f.changeGod data]
      | _ => some []

/-- A server with its files, its environment and its database. -/
structure Site where
  env : Env
  inherited : List Bytes
  changes : ChangeServer
  frame : Frame

/-- The tables behind a program that has been started from that file with that environment and
standard input, `none` where it has no meaning.  A statement may be executed or refused. -/
def Site.execute (site : Site) (path : Bytes) (environ : List Bytes) (stdin : Bytes) (s : Tables) :
    Option Tables :=
  match programAt path with
  | none => some s
  | some p =>
      match p.main environ with
      | .error _ => none
      | .ok work => (p.requests site.frame stdin work).bind (run site.changes.handle s)

/-- The tables behind a request. -/
def Site.after (site : Site) (s : Tables) (input : Bytes) : Option Tables :=
  let calls := acceptRequest site.env input
  match started calls with
  | [] => some s
  | path :: _ => site.execute path (childEnviron site.inherited calls) (fed calls) s

/-- The programs are there and can be started. -/
structure Site.Up (site : Site) : Prop where
  forks : site.env.forks
  execl : site.env.execl = true
  programs : ∀ p : Program, ∃ st, site.env.stat p.path = some st ∧ st.isDir = false ∧
    st.executable = true

/-! ## Visits -/

/-- What a browser asks a program for. -/
inductive Visit where
  | get (m : Message) (p : Program) (query : Option Bytes)
  | post (m : Message) (p : Program) (body : Bytes)

/-- The URL of a GET. -/
def queryUrl (p : Program) (query : Option Bytes) : Bytes :=
  p.url ++ query.elim [] fun q => questionMark :: q

/-- Its bytes. -/
def Visit.wire : Visit → Bytes
  | .get m p query => { m with url := queryUrl p query }.get
  | .post m p body => { m with url := p.url }.post body

/-- A visit whose lines, query string and body fit the buffers of the server and of the
program, which is not `debug_cgi`. -/
def Visit.Fits : Visit → Prop
  | .get m p query => p ≠ .debugCgi ∧ { m with url := queryUrl p query }.Plain ∧
      (query.getD []).length ≤ 1010
  | .post m p body => p ≠ .debugCgi ∧ { m with url := p.url }.Plain ∧ body.length < postDataSize ∧
      ∀ c ∈ body, c ≠ 0

/-- The requests to the tables that it stands for. -/
def Visit.requests (f : Frame) : Visit → List Request
  | .get _ .delGodCgi query => [.delGod f.delGoods (query.getD [])]
  | .post _ .addGodCgi body => [.addGod f.addGoods body]
  | .post _ .addGodTypeCgi body => [.addGodType f.addType body]
  | .post _ .changeGodCgi body => [.changeGod f.changeGod body]
  | _ => []

/-! ## From the bytes to the program -/

theorem programAt_path (p : Program) : programAt p.path = some p := by
  cases p <;> decide

theorem url_facts (p : Program) :
    p.url ≠ [] ∧ questionMark ∉ p.url ∧ p.url.length ≤ 26 ∧ ¬EndsInBackslash p.url := by
  cases p <;> decide

theorem buildPath_url (p : Program) : buildPath p.url = p.path :=
  buildPath_of_not_backslash (url_facts p).2.2.2

/-- A run that takes the way of a CGI program executes it. -/
theorem executed_eq {env : Env} {input found path method query : Bytes}
    (hroute : route env (requestLine input).line = .cgi found path method query)
    (hforks : Forks env .sockClient method (requestLine input).rest) :
    executed (acceptRequest env input) = [path] := by
  rw [executed, fileView_executes.acceptRequest, hroute]
  dsimp only
  rw [if_pos hforks]
  show [] ++ (exeCgiChild _ _ _ _ _).flatMap ChildCall.paths = [path]
  rw [paths_exeCgiChild, List.nil_append]

/-- A request for the file of a program, of either method. -/
theorem Site.Up.executes {site : Site} (h : site.Up) {p : Program} {input : Bytes}
    (hknown : Known (requestMethod input)) (htarget : requestTarget input = p.url)
    (hvalue : IsGet (requestMethod input) ∨ requestLength input ≠ -1) :
    executed (acceptRequest site.env input) = [p.path] := by
  obtain ⟨st, hstat, hdir, hexecutable⟩ := h.programs p
  have hpath : buildPath (requestTarget input) = p.path := by rw [htarget, buildPath_url]
  have hserved : servedPath st p.path = p.path := by
    rw [servedPath, hdir]
    rfl
  have hroute : route site.env (requestLine input).line =
      .cgi p.path p.path (requestMethod input) (requestQuery input) := by
    rw [route_of_known hknown, hpath, hstat]
    dsimp only
    rw [if_pos ((isProgram_iff input st).mpr (.inr ⟨hdir, hexecutable⟩)), hserved]
  exact executed_eq hroute ⟨h.forks, hvalue⟩

theorem Site.Up.starts {site : Site} (h : site.Up) {p : Program} {input : Bytes}
    (hknown : Known (requestMethod input)) (htarget : requestTarget input = p.url)
    (hvalue : IsGet (requestMethod input) ∨ requestLength input ≠ -1) :
    started (acceptRequest site.env input) = [p.path] := by
  rw [started_acceptRequest, if_pos h.execl, h.executes hknown htarget hvalue]

theorem Site.Up.partsFit {site : Site} (h : site.Up) {p : Program} {input : Bytes}
    (htarget : requestTarget input = p.url)
    (hquery : IsGet (requestMethod input) → (requestQuery input).length ≤ 1010) :
    PartsFit site.env input := by
  obtain ⟨-, -, hlength, hbackslash⟩ := url_facts p
  obtain ⟨st, hstat, hdir, -⟩ := h.programs p
  refine ⟨fun _ => ?_, fun _ hends => ?_, fun _ hany => ?_, fun hget _ _ => hquery hget⟩
  · rw [htarget]
    omega
  · rw [htarget] at hends
    exact absurd hends hbackslash
  · rw [htarget, buildPath_url, hstat, Option.any_some, hdir] at hany
    exact absurd hany Bool.false_ne_true

/-- The URL of a GET is cut in front of the query string. -/
theorem splitQuery_queryUrl (p : Program) (query : Option Bytes) :
    splitQuery (queryUrl p query) = (p.url, query) := by
  rw [queryUrl]
  cases query with
  | none =>
      rw [Option.elim_none, List.append_nil]
      exact splitQuery_of_notMem (url_facts p).2.1
  | some q => exact splitQuery_append q (url_facts p).2.1

/-- A GET of a program. -/
theorem get_target {m : Message} (h : m.Plain) {p : Program} {query : Option Bytes}
    (hurl : m.url = queryUrl p query) :
    IsGet (requestMethod m.get) ∧ requestTarget m.get = p.url ∧
      requestQuery m.get = query.getD [] := by
  obtain ⟨hmethod, hrequest⟩ := h.get_request
  have hget : IsGet (requestMethod m.get) := by
    rw [hmethod]
    decide
  refine ⟨hget, ?_, ?_⟩
  · rw [requestTarget, target, if_pos hget, ← requestUrl, hrequest, hurl, splitQuery_queryUrl]
  · rw [requestQuery, Httpd.query, if_pos hget, hrequest, hurl, splitQuery_queryUrl]

/-- A POST to a program. -/
theorem post_target {m : Message} (h : m.Plain) {p : Program} (hurl : m.url = p.url) (body : Bytes)
    (hbody : body.length ≤ intMax) :
    IsPost (requestMethod (m.post body)) ∧ requestTarget (m.post body) = p.url ∧
      requestLength (m.post body) = body.length := by
  obtain ⟨hmethod, hrequest, hvalue, -⟩ := h.post_request hbody
  have hpost : IsPost (requestMethod (m.post body)) := by
    rw [hmethod]
    decide
  refine ⟨hpost, ?_, hvalue⟩
  rw [requestTarget, target, if_neg fun hget => not_isGet_and_isPost hget hpost, ← requestUrl,
    hrequest, hurl]

/-- What the tables are behind a request for a program. -/
theorem Site.Up.after_eq {site : Site} (h : site.Up) {p : Program} (hp : p ≠ .debugCgi)
    {input : Bytes} (hknown : Known (requestMethod input)) (htarget : requestTarget input = p.url)
    (hvalue : IsGet (requestMethod input) ∨ requestLength input ≠ -1)
    (hquery : IsGet (requestMethod input) → (requestQuery input).length ≤ 1010) (s : Tables) :
    site.after s input =
      (p.requests site.frame (fed (acceptRequest site.env input))
        ((if IsGet (requestMethod input) then p.get else p.post).input (requestQuery input)
          (requestLength input))).bind (run site.changes.handle s) := by
  have hexecuted := h.executes hknown htarget hvalue
  have hmain := main_of_executed (hexecuted ▸ List.mem_singleton_self _)
    (h.partsFit htarget hquery) site.inherited hp
  rw [Site.after, h.starts hknown htarget hvalue]
  dsimp only
  rw [Site.execute, programAt_path]
  dsimp only
  rw [hmain]

/-- The program gets the body of a POST. -/
theorem Site.Up.fed_post {site : Site} (h : site.Up) {m : Message} (hplain : m.Plain) {p : Program}
    (hurl : m.url = p.url) {body : Bytes} (hbody : body.length ≤ intMax) :
    fed (acceptRequest site.env (m.post body)) = body := by
  obtain ⟨hpost, htarget, hvalue⟩ := post_target hplain hurl body hbody
  obtain ⟨-, -, -, hrest⟩ := hplain.post_request hbody
  have hexecuted := h.executes (.inr hpost) htarget (.inr (by rw [hvalue]; omega))
  rw [(fed_of_executed (hexecuted ▸ List.mem_singleton_self _)).2 hpost, hvalue, hrest,
    Int.toNat_natCast, fed_relayBody, List.take_length, Nat.sub_self, List.replicate_zero,
    List.append_nil]

/-- A body that leaves room for a NUL is the string in `post_data`. -/
theorem Frame.body_postData (f : Frame) {body : Bytes} (hlength : body.length < postDataSize)
    (hnul : ∀ c ∈ body, c ≠ 0) : f.body (postData body.length body) = some body := by
  have hinside : InBuffer (postData body.length body) :=
    (inBuffer_postData_iff (Int.toNat_natCast _).symm).mpr (by omega)
  rw [Frame.body, if_pos hinside, postString_postData hnul (hlength.trans_le f.room)]

/-- The tables behind one visit. -/
theorem Site.Up.after_wire {site : Site} (h : site.Up) {v : Visit} (hv : v.Fits) (s : Tables) :
    site.after s v.wire = run site.changes.handle s (v.requests site.frame) := by
  cases v with
  | get m p query =>
      obtain ⟨hp, hplain, hlength⟩ := hv
      obtain ⟨hget, htarget, hquery⟩ := get_target hplain rfl
      have hafter := h.after_eq hp (.inl hget) htarget (.inl hget) (fun _ => hquery ▸ hlength) s
      rw [Visit.wire, hafter, if_pos hget, hquery]
      cases p with
      | debugCgi => exact absurd rfl hp
      | _ => rfl
  | post m p body =>
      obtain ⟨hp, hplain, hlength, hnul⟩ := hv
      have hsize : postDataSize = 1024 ∧ intMax = 2147483647 := ⟨rfl, rfl⟩
      obtain ⟨hpost, htarget, hvalue⟩ := post_target hplain rfl body (by omega)
      have hget : ¬IsGet (requestMethod ({ m with url := p.url }.post body)) :=
        fun hget => not_isGet_and_isPost hget hpost
      have hafter := h.after_eq hp (.inr hpost) htarget (.inr (by rw [hvalue]; omega))
        (fun h => absurd h hget) s
      have hfed := h.fed_post hplain rfl (by omega : body.length ≤ intMax)
      have hbody := site.frame.body_postData hlength hnul
      rw [Visit.wire, hafter, if_neg hget, hvalue, hfed]
      cases p with
      | debugCgi => exact absurd rfl hp
      | addGodCgi =>
          show ((site.frame.body (postData _ _)).map _).bind _ = _
          rw [hbody]
          rfl
      | addGodTypeCgi =>
          show ((site.frame.body (postData _ _)).map _).bind _ = _
          rw [hbody]
          rfl
      | changeGodCgi =>
          show ((site.frame.body (postData _ _)).map _).bind _ = _
          rw [hbody]
          rfl
      | _ => rfl

/-- A visit that stands for one request, and whose statement is executed. -/
theorem Site.Up.after_of_post {site : Site} (h : site.Up) {v : Visit} (hv : v.Fits) {r : Request}
    (hr : v.requests site.frame = [r]) {s s' : Tables} (hpost : site.changes.post s r = some s') :
    site.after s v.wire = some s' := by
  rw [h.after_wire hv, hr]
  exact run_singleton.mpr (site.changes.handle_of_post hpost)

/-- For any number of visits that fit, whatever they ask for and in whatever order: the tables
behind the bytes on the wire are those behind the requests they stand for, executed or refused.
Where these are literals and their statements are executed, that is what they ask for one by
one. -/
theorem visits_refine {site : Site} (h : site.Up) {visits : List Visit}
    (hfits : ∀ v ∈ visits, v.Fits) (s : Tables) :
    run site.after s (visits.map Visit.wire) =
        run site.changes.handle s (visits.flatMap (Visit.requests site.frame)) ∧
      ∀ orders s', (visits.flatMap (Visit.requests site.frame)).mapM
          (Request.order site.changes.columns) = some orders →
        run site.changes.post s (visits.flatMap (Visit.requests site.frame)) = some s' →
        run site.after s (visits.map Visit.wire) = some s' ∧
          s'.shop = orders.foldl Shop.fill s.shop := by
  have hrun := run_map_eq_flatMap (fun v hv s => h.after_wire (hfits v hv) s) s
  refine ⟨hrun, fun orders s' horders hs' => ⟨?_, site.changes.run_refines horders hs'⟩⟩
  rw [hrun]
  exact run_mono (fun s r s' => site.changes.handle_of_post) hs'

/-- A site where every file is a program. -/
def shopSite : Site where
  env := { Env.obliging with stat := fun _ => some ⟨false, true, true, true, 5⟩ }
  inherited := [bytes "HOME=/root"]
  changes := plainTables
  frame := ⟨⟨[], [], [], []⟩, ⟨[]⟩, ⟨[], [], [], [], []⟩, ⟨[]⟩, List.replicate postDataSize 0,
    zeros_room⟩

theorem shopSite_up : shopSite.Up where
  forks := by decide
  execl := rfl
  programs _ := ⟨_, rfl, rfl, rfl⟩

/-- What a browser sends with every request. -/
def browser : Message where
  url := []
  version := bytes "HTTP/1.1"
  eol := .crlf
  front := [⟨bytes "Host: localhost", .crlf, by decide, by decide⟩]
  back := [⟨bytes "Accept: text/html", .crlf, by decide, by decide⟩]
  lengthEol := .crlf
  last := .crlf

theorem browser_around : browser.Around 1000 where
  version := by decide
  room := by decide
  headers := by decide

/-- A type and a record are added, the list is looked at, and the record is deleted. -/
def shopVisits : List Visit :=
  [.post browser .addGodTypeCgi (bytes "type_name=food"),
    .post browser .addGodCgi (bytes "god_name=pen&god_type=1&god_price=2.5&god_size=big"),
    .get browser .godListCgi none, .get browser .delGodCgi (some (bytes "god_id=1"))]

/-- A delete without an id, which is refused. -/
def refusedVisit : Visit := .get browser .delGodCgi (some (bytes "id=1"))

theorem refusedVisit_sql : (Request.delGod ⟨[]⟩ (bytes "id=1")).sql =
      some (bytes "delete from goods where god_id=;") ∧
    plainTables.query .empty (bytes "delete from goods where god_id=;") = none :=
  ⟨by decide, Option.isNone_iff_eq_none.mp (by decide)⟩

theorem visits_refine_shop : ∃ orders s',
    (shopVisits.flatMap (Visit.requests shopSite.frame)).mapM
        (Request.order shopSite.changes.columns) = some orders ∧
      run shopSite.after .empty (shopVisits.map Visit.wire) = some s' ∧
      s'.shop = orders.foldl Shop.fill Tables.empty.shop ∧
      run shopSite.after .empty ((refusedVisit :: shopVisits).map Visit.wire) = some s' := by
  have hplain : ∀ p : Program, { browser with url := p.url }.Plain := fun p =>
    browser_around.plain (url_facts p).1 (by cases p <;> decide)
      ((url_facts p).2.2.1.trans (by norm_num))
  have hfits : ∀ v ∈ shopVisits, v.Fits := by
    refine List.forall_mem_cons.mpr ⟨⟨by decide, hplain _, by decide, by decide⟩,
      List.forall_mem_cons.mpr ⟨⟨by decide, hplain _, by decide, by decide⟩,
        List.forall_mem_cons.mpr ⟨⟨by decide, ?_, by decide⟩,
          List.forall_mem_singleton.mpr ⟨by decide, ?_, by decide⟩⟩⟩⟩
    · exact browser_around.plain (by decide) (by decide) (by decide)
    · exact browser_around.plain (by decide) (by decide) (by decide)
  obtain ⟨orders, horders⟩ : ∃ orders, (shopVisits.flatMap (Visit.requests shopSite.frame)).mapM
      (Request.order shopSite.changes.columns) = some orders :=
    Option.isSome_iff_exists.mp (by decide +kernel)
  obtain ⟨s', hs'⟩ : ∃ s', run shopSite.changes.post .empty
      (shopVisits.flatMap (Visit.requests shopSite.frame)) = some s' :=
    Option.isSome_iff_exists.mp (by decide +kernel)
  have hrefused : refusedVisit.Fits :=
    ⟨by decide, browser_around.plain (by decide) (by decide) (by decide), by decide⟩
  have hhandled : shopSite.changes.handle .empty (.delGod ⟨[]⟩ (bytes "id=1")) =
      some .empty := by
    obtain ⟨hsql, hnone⟩ := refusedVisit_sql
    rw [ChangeServer.handle, hsql, Option.map_some]
    show some ((plainTables.query .empty _).getD _) = _
    rw [hnone]
    rfl
  obtain ⟨hrun, hshop⟩ := visits_refine shopSite_up hfits .empty
  obtain ⟨hall, -⟩ := visits_refine shopSite_up (List.forall_mem_cons.mpr ⟨hrefused, hfits⟩) .empty
  obtain ⟨hafter, hfilled⟩ := hshop orders s' horders hs'
  refine ⟨orders, s', horders, hafter, hfilled, ?_⟩
  rw [hall, List.flatMap_cons]
  refine run_cons.mpr ⟨_, hhandled, ?_⟩
  exact hrun.symm.trans hafter

end Cgi
