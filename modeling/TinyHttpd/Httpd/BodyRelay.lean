import TinyHttpd.Httpd.Route

/-!
# The body on its way to the program

`exe_cgi` writes as many bytes into the program's standard input as the client has
announced.  It does not look at what `recv` returns, so the last byte that arrived, or the
NUL the variable starts with, stands in for every byte that did not.
-/

namespace Httpd

open CString

/-! ## The bytes that go in and the bytes that come out -/

/-- The bytes a call puts into the program's standard input. -/
def Call.feeds : Call → Bytes
  | .write .cgiInput1 c => [c]
  | _ => []

/-- The bytes a run puts into the program's standard input. -/
def fed (calls : List Call) : Bytes := calls.flatMap Call.feeds

@[simp] theorem fed_nil : fed [] = [] := rfl

@[simp] theorem fed_cons (c : Call) (calls : List Call) :
    fed (c :: calls) = c.feeds ++ fed calls := rfl

@[simp] theorem fed_append (a b : List Call) : fed (a ++ b) = fed a ++ fed b :=
  List.flatMap_append

theorem OnlyRecv.fed {sock : Fd} {calls : List Call} (h : OnlyRecv sock calls) :
    fed calls = [] :=
  h.flatMap_eq_nil fun _ _ => rfl

/-- The bytes a call takes from the client. -/
def Call.receives : Call → Bytes
  | .recv _ false (some c) => [c]
  | _ => []

/-- The bytes a run takes from the client. -/
def received (calls : List Call) : Bytes := calls.flatMap Call.receives

@[simp] theorem received_nil : received [] = [] := rfl

@[simp] theorem received_cons (c : Call) (calls : List Call) :
    received (c :: calls) = c.receives ++ received calls := rfl

@[simp] theorem received_append (a b : List Call) : received (a ++ b) = received a ++ received b :=
  List.flatMap_append

/-! ## The loop over the body -/

/-- The loop takes what there is of the announced bytes. -/
theorem received_relayBody (sock pipe : Fd) :
    ∀ (n : Nat) (c : UInt8) (body : Bytes), received (relayBody sock pipe n c body) = body.take n
  | 0, _, _ => rfl
  | n + 1, c, [] => by simp [relayBody, Call.receives, received_relayBody sock pipe n c []]
  | n + 1, _, b :: body => by
      simp [relayBody, Call.receives, received_relayBody sock pipe n b body]

/-- It writes as many bytes as are announced; the last one stands in for the missing. -/
theorem fed_relayBody (sock : Fd) :
    ∀ (n : Nat) (c : UInt8) (body : Bytes), fed (relayBody sock .cgiInput1 n c body) =
      body.take n ++ List.replicate (n - body.length) (body.getLastD c)
  | 0, _, _ => by simp [relayBody]
  | n + 1, c, [] => by
      simp [relayBody, Call.feeds, fed_relayBody sock n c [], List.replicate_succ]
  | n + 1, c, b :: body => by
      rw [relayBody, fed_cons, fed_cons, fed_relayBody sock n b body, List.getLastD_cons]
      simp [Call.feeds]

theorem fed_relayOutput (pipe sock : Fd) (output : Bytes) :
    fed (relayOutput pipe sock output) = [] :=
  flatMap_relayOutput_eq_nil (fun _ => rfl) (fun _ => rfl) output

theorem received_relayOutput (pipe sock : Fd) (output : Bytes) :
    received (relayOutput pipe sock output) = [] :=
  flatMap_relayOutput_eq_nil (fun _ => rfl) (fun _ => rfl) output

/-- The loop invents nothing exactly when the announced bytes are all there. -/
theorem relayBody_prefix_iff (sock : Fd) (n : Nat) (c : UInt8) (body : Bytes) :
    fed (relayBody sock .cgiInput1 n c body) <+:
      received (relayBody sock .cgiInput1 n c body) ↔ n ≤ body.length := by
  rw [fed_relayBody, received_relayBody]
  constructor
  · intro h
    have hlen := h.length_le
    rw [List.length_append, List.length_replicate] at hlen
    omega
  · intro h
    rw [Nat.sub_eq_zero_of_le h]
    simp

/-! ## The whole of `exe_cgi` -/

/-- Both pipes and the child are there. -/
def Env.forks (env : Env) : Prop :=
  env.pipeInput = true ∧ env.pipeOutput = true ∧ env.fork = true

instance (env : Env) : Decidable env.forks := inferInstanceAs (Decidable (_ ∧ _ ∧ _))

/-- `exe_cgi` has the body loop where it has a child, and no other call moves bytes
between the client and the program's standard input. -/
theorem fed_runCgi (env : Env) (sock : Fd) (path method query : Bytes) (n : Int) (body : Bytes)
    (hpost : IsPost method) :
    fed (runCgi env sock path method query n body) =
        (if env.forks then fed (relayBody sock .cgiInput1 n.toNat 0 body) else []) ∧
      received (runCgi env sock path method query n body) =
        if env.forks then received (relayBody sock .cgiInput1 n.toNat 0 body) else [] := by
  have hloop : strcasecmp (bytes "POST") method = 0 := by
    rw [IsPost, strcasecmp_eq_zero] at hpost
    rw [strcasecmp_eq_zero, hpost]
  rw [runCgi, if_pos hloop]
  cases hin : env.pipeInput with
  | false => simp [Env.forks, hin, echoErrorToClient, serverError, errorPage, Call.feeds,
      Call.receives]
  | true =>
      cases hout : env.pipeOutput with
      | false => simp [Env.forks, hout, echoErrorToClient, serverError, errorPage, Call.feeds,
          Call.receives]
      | true =>
          cases hfork : env.fork with
          | false => simp [Env.forks, hfork, echoErrorToClient, serverError, errorPage,
              Call.feeds, Call.receives]
          | true => simp [Env.forks, hin, hout, hfork, Call.feeds, Call.receives,
              fed_relayOutput, received_relayOutput]

/-- For every announced length and every end of the stream: what reaches the program is
a prefix of what the client has sent exactly when there is no program to reach, or the
stream holds the announced bytes. -/
theorem body_not_invented_iff (env : Env) (sock : Fd) (path method query : Bytes) (n : Int)
    (body : Bytes) (hpost : IsPost method) :
    fed (runCgi env sock path method query n body) <+:
        received (runCgi env sock path method query n body) ↔
      (env.forks → n ≤ body.length) := by
  obtain ⟨hfed, hreceived⟩ := fed_runCgi env sock path method query n body hpost
  rw [hfed, hreceived]
  by_cases hforks : env.forks
  · rw [if_pos hforks, if_pos hforks, relayBody_prefix_iff, imp_iff_right hforks]
    exact Int.toNat_le
  · rw [if_neg hforks, if_neg hforks]
    exact iff_of_true (List.prefix_refl _) fun h => absurd h hforks

/-- A body that arrives. -/
theorem body_not_invented_whole :
    fed (runCgi Env.obliging .sockClient (bytes "htdocs/math_cgi") (bytes "POST") [] 3
        (bytes "a=1")) <+:
      received (runCgi Env.obliging .sockClient (bytes "htdocs/math_cgi") (bytes "POST") [] 3
        (bytes "a=1")) :=
  (body_not_invented_iff Env.obliging .sockClient _ _ _ _ _ (by decide +kernel)).mpr
    fun _ => by decide +kernel

/-- Of two announced bytes one arrives, and the program gets it twice. -/
theorem body_invented :
    exeCgi Env.obliging .sockClient (bytes "htdocs/math_cgi") (bytes "POST") []
        (bytes "Content-Length: 2\r\n\r\na") =
      (postHeader .sockClient (bytes "Content-Length: 2\r\n\r\na")).calls ++
        runCgi Env.obliging .sockClient (bytes "htdocs/math_cgi") (bytes "POST") [] 2
          (bytes "a") ∧
    IsPost (bytes "POST") ∧
    fed (runCgi Env.obliging .sockClient (bytes "htdocs/math_cgi") (bytes "POST") [] 2
      (bytes "a")) = bytes "aa" ∧
    received (runCgi Env.obliging .sockClient (bytes "htdocs/math_cgi") (bytes "POST") [] 2
      (bytes "a")) = bytes "a" ∧
    ¬ bytes "aa" <+: bytes "a" := by
  decide +kernel

end Httpd
