import TinyHttpd.Httpd.BodyRelay

/-!
# What a run shows of files and children

A run of a handler makes few calls that name a file or start a child, and `route` knows
them all.  A projection of the calls that sees no others is a `FileView`, and what it sees
of a run is worked out once, in `FileView.acceptRequest`.
-/

namespace Httpd

open CString

/-- A projection of the calls that sees no bytes, no pipes and no descriptors. -/
structure FileView {β : Type} (f : Call → List β) : Prop where
  recv : ∀ fd peek got, f (.recv fd peek got) = []
  send : ∀ fd data, f (.send fd data) = []
  sendfile : ∀ out inp count sent, f (.sendfile out inp count sent) = []
  pipe : ∀ read write ok, f (.pipe read write ok) = []
  noFork : f (.fork none) = []
  write : ∀ fd c, f (.write fd c) = []
  read : ∀ fd got, f (.read fd got) = []
  close : ∀ fd, f (.close fd) = []
  waitpid : f .waitpid = []

/-- The number `exe_cgi` puts into the environment of a child that is not started by a
GET. -/
def announcedLength (sock : Fd) (method input : Bytes) : Int :=
  if IsGet method then 0 else (postHeader sock input).value

/-- `exe_cgi` gets as far as a child. -/
def Forks (env : Env) (sock : Fd) (method input : Bytes) : Prop :=
  env.forks ∧ (IsGet method ∨ (postHeader sock input).value ≠ -1)

instance (env : Env) (sock : Fd) (method input : Bytes) :
    Decidable (Forks env sock method input) :=
  inferInstanceAs (Decidable (_ ∧ (_ ∨ _)))

namespace FileView

variable {β : Type} {f : Call → List β}

theorem onlyRecv (hf : FileView f) {sock : Fd} {calls : List Call} (h : OnlyRecv sock calls) :
    calls.flatMap f = [] :=
  h.flatMap_eq_nil fun peek got => hf.recv sock peek got

theorem echoErrorToClient (hf : FileView f) (sock : Fd) (code : Nat) :
    (Httpd.echoErrorToClient sock code).flatMap f = [] := by
  have hpage (status page : String) : (errorPage sock status page).flatMap f = [] := by
    simp [errorPage, hf.send]
  unfold Httpd.echoErrorToClient
  rw [List.flatMap_append]
  split
  next => simp [badRequest, hpage, hf.close]
  next => simp [notFound, hpage, hf.close]
  next => simp [serverError, hpage, hf.close]
  next => simp [hf.close]

/-- Of a static file the `open` is seen. -/
theorem echoHtml (hf : FileView f) (env : Env) (sock : Fd) (path : Bytes) (size : Nat) :
    (Httpd.echoHtml env sock path size).flatMap f =
      f (.openFile path (env.openFile path).isSome) := by
  rw [Httpd.echoHtml]
  cases env.openFile path with
  | none => simp [hf.echoErrorToClient]
  | some contents =>
      dsimp only
      split
      next => simp [hf.echoErrorToClient, hf.send, hf.sendfile, hf.close]
      next => simp [hf.send, hf.sendfile, hf.close]

/-- Of `exe_cgi` after the header, the child is seen. -/
theorem runCgi (hf : FileView f) (env : Env) (sock : Fd) (path method query : Bytes) (n : Int)
    (input : Bytes) :
    (Httpd.runCgi env sock path method query n input).flatMap f =
      if env.forks then f (.fork (some (exeCgiChild env path method query n))) else [] := by
  have hbody : (if strcasecmp (bytes "POST") method = 0 then
      relayBody sock .cgiInput1 n.toNat 0 input else []).flatMap f = [] := by
    split
    next => exact flatMap_relayBody_eq_nil (hf.recv sock false) (hf.write _) _ _ _
    next => rfl
  have houtput : (relayOutput .cgiOutput0 sock env.cgiOutput).flatMap f = [] :=
    flatMap_relayOutput_eq_nil (hf.read _) (fun c => hf.send sock [c]) _
  rw [Httpd.runCgi]
  cases hin : env.pipeInput with
  | false => simp [Env.forks, hin, hf.send, hf.pipe, hf.echoErrorToClient]
  | true =>
      cases hout : env.pipeOutput with
      | false => simp [Env.forks, hout, hf.send, hf.pipe, hf.close, hf.echoErrorToClient]
      | true =>
          cases hfork : env.fork with
          | false =>
              simp [Env.forks, hfork, hf.send, hf.pipe, hf.close, hf.noFork,
                hf.echoErrorToClient]
          | true =>
              simp [Env.forks, hin, hout, hfork, hf.send, hf.pipe, hf.close, hf.waitpid, hbody,
                houtput]

/-- Of `exe_cgi`, its child is seen. -/
theorem exeCgi (hf : FileView f) (env : Env) (sock : Fd) (path method query input : Bytes) :
    (Httpd.exeCgi env sock path method query input).flatMap f =
      if Forks env sock method input then
        f (.fork (some (exeCgiChild env path method query (announcedLength sock method input))))
      else [] := by
  rw [Httpd.exeCgi, announcedLength]
  by_cases hget : IsGet method
  · have hforks : Forks env sock method input ↔ env.forks := and_iff_left (.inl hget)
    rw [if_pos (show strcasecmp method (bytes "GET") = 0 from hget), if_pos hget]
    simp only [hforks]
    rw [List.flatMap_append, hf.onlyRecv (clearHeader_onlyRecv sock input), List.nil_append,
      hf.runCgi]
  · have hheader := hf.onlyRecv (postHeader_onlyRecv sock input)
    rw [if_neg (show ¬strcasecmp method (bytes "GET") = 0 from hget), if_neg hget]
    dsimp only
    by_cases hvalue : (postHeader sock input).value = -1
    · have hforks : ¬Forks env sock method input := fun h => h.2.elim hget fun hne => hne hvalue
      rw [if_pos hvalue, if_neg hforks, List.flatMap_append, hheader, hf.echoErrorToClient,
        List.nil_append]
    · have hforks : Forks env sock method input ↔ env.forks := and_iff_left (.inr hvalue)
      rw [if_neg hvalue, List.flatMap_append, hheader, List.nil_append, hf.runCgi]
      simp only [hforks]

/-- Of a run, the `stat` of its path is seen, and the `open` or the child of its route. -/
theorem acceptRequest (hf : FileView f) (env : Env) (input : Bytes) :
    (Httpd.acceptRequest env input).flatMap f =
      match route env (requestLine input).line with
      | .refused => []
      | .missing path => f (.stat path false)
      | .static path file _ =>
          f (.stat path true) ++ f (.openFile file (env.openFile file).isSome)
      | .cgi path file method query =>
          f (.stat path true) ++
            if Forks env .sockClient method (requestLine input).rest then
              f (.fork (some (exeCgiChild env file method query
                (announcedLength .sockClient method (requestLine input).rest))))
            else [] := by
  have hclear := hf.onlyRecv (clearHeader_onlyRecv .sockClient (requestLine input).rest)
  rw [acceptRequest_eq, List.flatMap_append, hf.onlyRecv (requestLine_onlyRecv input),
    List.nil_append]
  cases route env (requestLine input).line with
  | refused => exact hf.echoErrorToClient .sockClient 400
  | missing path => simp [answer, hclear, hf.echoErrorToClient]
  | static path file size => simp [answer, hclear, hf.echoHtml, hf.close]
  | cgi path file method query => simp [answer, hf.exeCgi, hf.close]

end FileView

end Httpd
