import TinyHttpd.Httpd.LineReader
import TinyHttpd.Httpd.Status

/-!
# Requests that break off

`get_line` ends a line where the stream ends, and returns its length.  Nothing behind it
tells such a line from one that came with its line end, so a request that breaks off is
answered for what has arrived of it.
-/

namespace Httpd

open CString

/-- The stream ends before an empty line: with its line ends made line feeds, no line feed
follows another. -/
def Incomplete (input : Bytes) : Prop := ¬[lf, lf] <:+: normalize input

instance (input : Bytes) : Decidable (Incomplete input) := inferInstanceAs (Decidable (¬_))

/-- No `200`, no file, no program. -/
structure NotActedOn (es : List Event) : Prop where
  status : .status (bytes "200") ∉ es
  file : .fileOpened ∉ es
  program : .programStarted ∉ es

/-- What has arrived is refused: the method is not served, the path does not exist, the body
for a program is announced with the length -1, or the file cannot be opened. -/
def Refuses (env : Env) (input : Bytes) : Prop :=
  Known (requestMethod input) → ∀ st ∈ env.stat (buildPath (requestTarget input)),
    if isProgram input st then
      IsPost (requestMethod input) ∧ (postHeader .sockClient (requestLine input).rest).value = -1
    else env.openFile (servedPath st (buildPath (requestTarget input))) = none

/-- An error page is nothing of that. -/
theorem notActedOn_errorEvents {code : Bytes} (hcode : bytes "200" ≠ code) :
    NotActedOn (errorEvents code) where
  status := by simp [errorEvents, hcode]
  file := by simp [errorEvents]
  program := by simp [errorEvents]

theorem notActedOn_echoHtml_iff (env : Env) (sock : Fd) (path : Bytes) (size : Nat) :
    NotActedOn (events (echoHtml env sock path size)) ↔ env.openFile path = none := by
  rw [events_echoHtml]
  cases env.openFile path with
  | none => exact iff_of_true (notActedOn_errorEvents (by decide)) rfl
  | some contents =>
      refine iff_of_false (fun h => ?_) nofun
      dsimp only at h
      cases hsend : env.sendfile contents (size % 2 ^ 32) with
      | none =>
          rw [hsend] at h
          exact h.file (List.mem_cons_self ..)
      | some sent =>
          rw [hsend] at h
          exact h.file (List.mem_cons_self ..)

/-- `exe_cgi` sends its `200` before it has a program. -/
theorem not_notActedOn_runCgi (env : Env) (sock : Fd) (path method query : Bytes) (n : Int)
    (input : Bytes) : ¬NotActedOn (events (runCgi env sock path method query n input)) := by
  intro h
  rw [events_runCgi] at h
  exact h.status (List.mem_cons_self ..)

theorem notActedOn_exeCgi_iff (env : Env) (sock : Fd) (path method query input : Bytes) :
    NotActedOn (events (exeCgi env sock path method query input)) ↔
      ¬IsGet method ∧ (postHeader sock input).value = -1 := by
  rw [events_exeCgi]
  by_cases hg : IsGet method
  · rw [if_pos hg]
    exact iff_of_false (not_notActedOn_runCgi _ _ _ _ _ _ _) fun h => h.1 hg
  · rw [if_neg hg]
    split
    next h => exact iff_of_true (notActedOn_errorEvents (by decide)) ⟨hg, h⟩
    next h => exact iff_of_false (not_notActedOn_runCgi _ _ _ _ _ _ _) fun hall => h hall.2

/-- A stream that breaks off is not acted on exactly when what has arrived of it is
refused. -/
theorem incomplete_not_acted_on_iff (env : Env) (input : Bytes) :
    (Incomplete input → NotActedOn (events (acceptRequest env input))) ↔
      (Incomplete input → Refuses env input) := by
  refine imp_congr_right fun _ => ?_
  rw [events_acceptRequest]
  by_cases hknown : Known (requestMethod input)
  · rw [route_of_known hknown, Refuses, imp_iff_right hknown]
    cases env.stat (buildPath (requestTarget input)) with
    | none => exact iff_of_true (notActedOn_errorEvents (by decide)) nofun
    | some st =>
        have hmethod : ¬IsGet (requestMethod input) ↔ IsPost (requestMethod input) :=
          ⟨hknown.resolve_left, fun hpost hget => not_isGet_and_isPost hget hpost⟩
        simp only [Option.mem_def, Option.some.injEq, forall_eq']
        cases isProgram input st with
        | true =>
            rw [← hmethod]
            exact notActedOn_exeCgi_iff env .sockClient _ _ _ _
        | false => exact notActedOn_echoHtml_iff env .sockClient _ _
  · rw [route_of_not_known hknown]
    exact iff_of_true (notActedOn_errorEvents (by decide)) fun h => absurd h hknown

/-- A request line without an end gets the page, and a form post that breaks off behind it
starts the program. -/
theorem incomplete_acted_on :
    (Incomplete (bytes "GET /x") ∧
        events (acceptRequest Env.obliging (bytes "GET /x")) =
          [.fileOpened, .status (bytes "200"), .fileSent]) ∧
      Incomplete (bytes "POST /x HTTP/1.0\r\nContent-Len") ∧
        events (acceptRequest Env.obliging (bytes "POST /x HTTP/1.0\r\nContent-Len")) =
          [.status (bytes "200"), .programStarted] := by
  decide +kernel

end Httpd
