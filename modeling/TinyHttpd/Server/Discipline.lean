import TinyHttpd.Httpd.Route
import TinyHttpd.Server.Machine

/-!
# The descriptors of one handler

A handler whose calls all succeed from `stat` on follows the discipline of
descriptors and closes its connection once.  The error paths that report a failure
close it twice: `echo_error_to_client` closes what `accept_request` closes again.
-/

namespace Server

open CString Httpd Descriptors

/-- Calls that follow the discipline from what is held, end with what is held then,
and close the connection that often. -/
structure Follows (held : Fd → Bool) (calls : List Call) (held' : Fd → Bool) (closes : Nat) :
    Prop where
  disciplined : Disciplined held (calls.flatMap ops)
  after : heldAfter held (calls.flatMap ops) = held'
  closes : (calls.flatMap ops).count (.release .sockClient) = closes

theorem follows_nil (held : Fd → Bool) : Follows held [] held 0 :=
  ⟨trivial, rfl, rfl⟩

theorem Follows.append {h₁ h₂ h₃ : Fd → Bool} {a b : List Call} {m n : Nat}
    (ha : Follows h₁ a h₂ m) (hb : Follows h₂ b h₃ n) : Follows h₁ (a ++ b) h₃ (m + n) := by
  refine ⟨?_, ?_, ?_⟩
  · rw [List.flatMap_append, disciplined_append, ha.after]
    exact ⟨ha.disciplined, hb.disciplined⟩
  · rw [List.flatMap_append, heldAfter_append, ha.after]
    exact hb.after
  · rw [List.flatMap_append, List.count_append, ha.closes, hb.closes]

theorem Follows.cons {h₁ h₂ h₃ : Fd → Bool} {c : Call} {b : List Call} {m n : Nat}
    (ha : Follows h₁ [c] h₂ m) (hb : Follows h₂ b h₃ n) : Follows h₁ (c :: b) h₃ (m + n) :=
  ha.append hb

/-- Calls that only use what is held. -/
theorem follows_of_uses {held : Fd → Bool} {calls : List Call}
    (h : ∀ c ∈ calls, UsesOnly held (ops c)) : Follows held calls held 0 := by
  have huses : UsesOnly held (calls.flatMap ops) := by
    intro op hop
    obtain ⟨c, hc, hop⟩ := List.mem_flatMap.mp hop
    exact h c hc op hop
  exact ⟨huses.disciplined.1, huses.disciplined.2,
    List.count_eq_zero.mpr (huses.not_mem_release _)⟩

theorem uses_one {held : Fd → Bool} {fd : Fd} (h : held fd = true) : UsesOnly held [.use fd] := by
  intro op hop
  exact ⟨fd, List.mem_singleton.mp hop, h⟩

theorem OnlyRecv.follows {held : Fd → Bool} {sock : Fd} {calls : List Call}
    (h : OnlyRecv sock calls) (hsock : held sock = true) : Follows held calls held 0 := by
  apply follows_of_uses
  intro c hc
  obtain ⟨peek, got, rfl⟩ := h c hc
  exact uses_one hsock

/-- Two calls that use one descriptor each. -/
theorem follows_pair {held : Fd → Bool} {a b : Call} {x y : Fd} (ha : ops a = [.use x])
    (hb : ops b = [.use y]) (hx : held x = true) (hy : held y = true) :
    Follows held [a, b] held 0 := by
  apply follows_of_uses
  intro c hc
  obtain rfl | hc := List.mem_cons.mp hc
  · rw [ha]
    exact uses_one hx
  · rw [List.mem_singleton.mp hc, hb]
    exact uses_one hy

theorem relayBody_follows {held : Fd → Bool} {sock pipe : Fd} (hsock : held sock = true)
    (hpipe : held pipe = true) : ∀ (n : Nat) (c : UInt8) (input : Bytes),
      Follows held (relayBody sock pipe n c input) held 0
  | 0, _, _ => follows_nil held
  | n + 1, c, [] =>
      (follows_pair rfl rfl hsock hpipe).append (relayBody_follows hsock hpipe n c [])
  | n + 1, _, b :: input =>
      (follows_pair rfl rfl hsock hpipe).append (relayBody_follows hsock hpipe n b input)

theorem relayOutput_follows {held : Fd → Bool} {pipe sock : Fd} (hpipe : held pipe = true)
    (hsock : held sock = true) : ∀ output : Bytes,
      Follows held (relayOutput pipe sock output) held 0
  | [] => follows_of_uses fun c hc => by
      rw [List.mem_singleton.mp hc]
      exact uses_one hpipe
  | c :: output =>
      (follows_pair rfl rfl hpipe hsock).append (relayOutput_follows hpipe hsock output)

/-! ## The answers -/

/-- The connection is all the handler has open. -/
def connected (x : Fd) : Bool := x == .sockClient

/-- The handler has nothing open. -/
def disconnected (_ : Fd) : Bool := false

/-- A short list of calls follows the discipline when evaluation says so. -/
theorem follows_of_eval {held held' : Fd → Bool} {calls : List Call} {n : Nat}
    (hd : Disciplined held (calls.flatMap ops))
    (ha : ∀ x, heldAfter held (calls.flatMap ops) x = held' x)
    (hn : (calls.flatMap ops).count (.release .sockClient) = n) : Follows held calls held' n :=
  ⟨hd, funext ha, hn⟩

theorem close_follows : Follows connected [.close .sockClient] disconnected 1 :=
  follows_of_eval ⟨rfl, trivial⟩ (fun x => by cases x <;> rfl) rfl

/-- What is held behind the close of the connection. -/
def hungUp (held : Fd → Bool) (x : Fd) : Bool := x != .sockClient && held x

/-- An error page and the close behind it, whatever else is open. -/
theorem echoErrorToClient_follows_of_held {held : Fd → Bool} (h : held .sockClient = true)
    (code : Nat) : Follows held (echoErrorToClient .sockClient code) (hungUp held) 1 := by
  have hclose : Follows held [.close .sockClient] (hungUp held) 1 :=
    follows_of_eval ⟨h, trivial⟩ (fun _ => rfl) rfl
  refine Follows.append (m := 0) (follows_of_uses ?_) hclose
  have hpage (status page : String) :
      ∀ c ∈ errorPage .sockClient status page, UsesOnly held (ops c) := by
    intro c hc
    have hsend : ∃ data, c = .send .sockClient data := by
      simp only [errorPage, List.mem_cons, List.not_mem_nil, or_false] at hc
      rcases hc with rfl | rfl | rfl | rfl <;> exact ⟨_, rfl⟩
    obtain ⟨data, rfl⟩ := hsend
    exact uses_one h
  split
  next => exact hpage _ _
  next => exact hpage _ _
  next => exact hpage _ _
  next => exact fun c hc => absurd hc List.not_mem_nil

theorem hungUp_connected : hungUp connected = disconnected := by
  funext x
  cases x <;> rfl

theorem echoErrorToClient_follows (code : Nat) :
    Follows connected (echoErrorToClient .sockClient code) disconnected 1 := by
  rw [← hungUp_connected]
  exact echoErrorToClient_follows_of_held rfl code

/-- Nothing fails from `stat` on. -/
def Unfailing (env : Env) (input : Bytes) : Route → Prop
  | .refused => True
  | .missing _ => True
  | .static _ file size => ∃ contents, env.openFile file = some contents ∧
      (env.sendfile contents (size % 2 ^ 32)).isSome
  | .cgi _ _ method _ => (IsGet method ∨ (postHeader .sockClient input).value ≠ -1) ∧
      env.pipeInput = true ∧ env.pipeOutput = true ∧ env.fork = true

/-- A file that is opened and sent is closed, and the connection stays. -/
theorem echoHtml_follows {env : Env} {path contents : Bytes} {size : Nat}
    (hopen : env.openFile path = some contents)
    (hsend : (env.sendfile contents (size % 2 ^ 32)).isSome) :
    Follows connected (echoHtml env .sockClient path size) connected 0 := by
  obtain ⟨sent, hsent⟩ := Option.isSome_iff_exists.mp hsend
  rw [echoHtml]
  dsimp only
  rw [hopen]
  dsimp only
  rw [hsent]
  exact follows_of_eval ⟨rfl, rfl, rfl, rfl, rfl, trivial⟩ (fun x => by cases x <;> rfl) rfl

/-- The connection and the pipe ends of the parent. -/
def relaying (x : Fd) : Bool := x == .sockClient || x == .cgiInput1 || x == .cgiOutput0

/-- A program that gets its pipes and its process leaves the connection. -/
theorem runCgi_follows {env : Env} (path method query : Bytes) (n : Int) (input : Bytes)
    (hin : env.pipeInput = true) (hout : env.pipeOutput = true) (hfork : env.fork = true) :
    Follows connected (runCgi env .sockClient path method query n input) connected 0 := by
  have hbody : Follows relaying (if strcasecmp (bytes "POST") method = 0 then
      relayBody .sockClient .cgiInput1 n.toNat 0 input else []) relaying 0 := by
    split
    next => exact relayBody_follows rfl rfl _ _ _
    next => exact follows_nil _
  have hrelay : Follows relaying (relayOutput .cgiOutput0 .sockClient env.cgiOutput) relaying 0 :=
    relayOutput_follows rfl rfl env.cgiOutput
  have hend : Follows relaying [.close .cgiInput1, .close .cgiOutput0, .waitpid] connected 0 :=
    follows_of_eval ⟨rfl, rfl, trivial⟩ (fun x => by cases x <;> rfl) rfl
  rw [runCgi]
  simp only [hin, hout, hfork, Bool.not_true, Bool.false_eq_true, if_false]
  have hsend : Follows connected [.send .sockClient (httpVersion ++ bytes " 200 OK\r\n\r\n")]
      connected 0 :=
    follows_of_eval ⟨rfl, trivial⟩ (fun _ => rfl) rfl
  have hstart (child : List ChildCall) : Follows connected
      [.pipe .cgiInput0 .cgiInput1 true, .pipe .cgiOutput0 .cgiOutput1 true, .fork (some child),
        .close .cgiInput0, .close .cgiOutput1] relaying 0 :=
    follows_of_eval ⟨rfl, rfl, rfl, rfl, rfl, rfl, rfl, rfl, rfl, rfl, trivial⟩
      (fun x => by cases x <;> rfl) rfl
  exact hsend.cons ((((hstart _).append hbody).append hrelay).append hend)

theorem exeCgi_follows {env : Env} (path : Bytes) {method : Bytes} (query input : Bytes)
    (hlen : IsGet method ∨ (postHeader .sockClient input).value ≠ -1)
    (hin : env.pipeInput = true) (hout : env.pipeOutput = true) (hfork : env.fork = true) :
    Follows connected (exeCgi env .sockClient path method query input) connected 0 := by
  rw [exeCgi]
  split
  next =>
      exact (OnlyRecv.follows (clearHeader_onlyRecv _ _) rfl).append
        (runCgi_follows path method query 0 _ hin hout hfork)
  next hg =>
      dsimp only
      rw [if_neg (hlen.resolve_left hg)]
      exact (OnlyRecv.follows (postHeader_onlyRecv _ _) rfl).append
        (runCgi_follows path method query _ _ hin hout hfork)

/-- A handler that meets no failure from `stat` on follows the discipline and closes
its connection once. -/
theorem acceptRequest_follows {env : Env} {input : Bytes}
    (h : Unfailing env (requestLine input).rest (route env (requestLine input).line)) :
    Follows connected (acceptRequest env input) disconnected 1 := by
  have hstat (path : Bytes) (found : Bool) : Follows connected [.stat path found] connected 0 :=
    follows_of_eval trivial (fun _ => rfl) rfl
  have hclear : Follows connected (clearHeader .sockClient (requestLine input).rest).calls
      connected 0 :=
    OnlyRecv.follows (clearHeader_onlyRecv _ _) rfl
  have hline : Follows connected (requestLine input).calls connected 0 :=
    OnlyRecv.follows (requestLine_onlyRecv input) rfl
  rw [acceptRequest_eq]
  refine hline.append (n := 1) ?_
  cases hroute : route env (requestLine input).line with
  | refused => exact echoErrorToClient_follows 400
  | missing path => exact ((hstat path false).cons hclear).append (echoErrorToClient_follows 404)
  | static path file size =>
      rw [hroute] at h
      obtain ⟨contents, hopen, hsend⟩ := h
      exact (((hstat path true).cons hclear).append (echoHtml_follows hopen hsend)).append
        close_follows
  | cgi path file method query =>
      rw [hroute] at h
      obtain ⟨hlen, hin, hout, hfork⟩ := h
      exact ((hstat path true).cons
        (exeCgi_follows file query _ hlen hin hout hfork)).append close_follows

end Server
