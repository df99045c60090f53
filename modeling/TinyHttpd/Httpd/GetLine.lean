import TinyHttpd.Httpd.Syscall
import TinyHttpd.Lib.Numeral

/-!
# Reading lines from the client

`get_line` and the two loops that read a header block with it: `clear_header`,
and the loop of `exe_cgi` that looks for the length of the body.

The two loops differ only in what they keep of a line, so both are
`readHeader` at a function that folds the lines.  `readHeader` runs on fuel, one
unit more than the client's bytes; every line takes a byte from the client, so
the fuel never runs out (`readHeader_eq`).
-/

namespace Httpd

open CString

/-! ## `get_line` -/

/-- What one call of `get_line` returns: the bytes it stored, what the client
still has to send, and the calls it made. -/
structure Chunk where
  line : Bytes
  rest : Bytes
  calls : List Call
deriving DecidableEq

/-- What follows a carriage return: a line feed behind it is peeked at and then
taken, anything else stays. -/
def skipLf (sock : Fd) : Bytes → Bytes × List Call
  | [] => ([], [.recv sock true none])
  | d :: input =>
      if d = lf then (input, [.recv sock true (some d), .recv sock false (some d)])
      else (d :: input, [.recv sock true (some d)])

/-- The loop of `get_line` with room for that many more bytes.  A failed `recv`
stores nothing and ends the line; a carriage return is stored as a line feed. -/
def getLineLoop (sock : Fd) : Nat → Bytes → Chunk
  | 0, input => ⟨[], input, []⟩
  | _ + 1, [] => ⟨[], [], [.recv sock false none]⟩
  | room + 1, c :: input =>
      if c = cr then
        ⟨[lf], (skipLf sock input).1, .recv sock false (some c) :: (skipLf sock input).2⟩
      else if c = lf then ⟨[c], input, [.recv sock false (some c)]⟩
      else
        let k := getLineLoop sock room input
        ⟨c :: k.line, k.rest, .recv sock false (some c) :: k.calls⟩

/-- `get_line`.  The number it returns is the length of the line. -/
def getLine (sock : Fd) (maxLen : Nat) (input : Bytes) : Chunk :=
  getLineLoop sock (maxLen - 1) input

/-! ## The header loops -/

/-- What a header loop ends with: the value it kept, what the client still has
to send, and the calls it made. -/
structure Header (α : Type) where
  value : α
  rest : Bytes
  calls : List Call

/-- The loop around `get_line` that ends at an empty line or at end of stream. -/
def headerLoop {α : Type} (sock : Fd) (see : α → Bytes → α) : Nat → α → Bytes → Header α
  | 0, a, input => ⟨a, input, []⟩
  | fuel + 1, a, input =>
      let k := getLine sock commSize input
      if 0 < k.line.length ∧ strcmp k.line (bytes "\n") ≠ 0 then
        let h := headerLoop sock see fuel (see a k.line) k.rest
        ⟨h.value, h.rest, k.calls ++ h.calls⟩
      else ⟨see a k.line, k.rest, k.calls⟩

/-- The header loop with fuel for every byte. -/
def readHeader {α : Type} (sock : Fd) (see : α → Bytes → α) (a : α) (input : Bytes) : Header α :=
  headerLoop sock see (input.length + 1) a input

/-- `clear_header`. -/
def clearHeader (sock : Fd) (input : Bytes) : Header Unit :=
  readHeader sock (fun _ _ => ()) () input

/-- The body of the loop in `exe_cgi` that looks for the field.  The buffer is
cleared before each line, and the comparison covers as many bytes as
`Content-Length` has, one less than the literal it is compared with. -/
def seeContentLength (contentLength : Int) (line : Bytes) : Int :=
  let buf := line ++ List.replicate (commSize - line.length) 0
  if strncasecmp buf (bytes "Content-Length:") (bytes "Content-Length").length = 0 then
    atoi (buf.drop 16)
  else contentLength

/-- The header loop of `exe_cgi` for a POST. -/
def postHeader (sock : Fd) (input : Bytes) : Header Int :=
  readHeader sock seeContentLength 0 input

/-! ## One byte of `get_line` -/

/-- A byte ends a line, as a CR or as an LF, or it ends none. -/
theorem lineEnd_cases (c : UInt8) : c = cr ∨ c = lf ∨ c ≠ cr ∧ c ≠ lf := by
  by_cases hc : c = cr
  · exact .inl hc
  · exact .inr ((Classical.em (c = lf)).imp_right fun hl => ⟨hc, hl⟩)

@[simp] theorem getLineLoop_zero (sock : Fd) (input : Bytes) :
    getLineLoop sock 0 input = ⟨[], input, []⟩ := rfl

@[simp] theorem getLineLoop_cr (sock : Fd) (room : Nat) (input : Bytes) :
    getLineLoop sock (room + 1) (cr :: input) =
      ⟨[lf], (skipLf sock input).1, .recv sock false (some cr) :: (skipLf sock input).2⟩ := by
  simp [getLineLoop]

@[simp] theorem getLineLoop_lf (sock : Fd) (room : Nat) (input : Bytes) :
    getLineLoop sock (room + 1) (lf :: input) = ⟨[lf], input, [.recv sock false (some lf)]⟩ := by
  simp [getLineLoop]

/-- A byte that ends no line is stored. -/
theorem getLineLoop_cons (sock : Fd) (room : Nat) {c : UInt8} (input : Bytes) (hcr : c ≠ cr)
    (hlf : c ≠ lf) :
    getLineLoop sock (room + 1) (c :: input) =
      ⟨c :: (getLineLoop sock room input).line, (getLineLoop sock room input).rest,
        .recv sock false (some c) :: (getLineLoop sock room input).calls⟩ := by
  simp [getLineLoop, hcr, hlf]

/-! ## Progress -/

theorem skipLf_length (sock : Fd) (input : Bytes) :
    (skipLf sock input).1.length ≤ input.length := by
  cases input with
  | nil => simp [skipLf]
  | cons d input =>
      by_cases h : d = lf
      · simp [skipLf, h]
      · simp [skipLf, h]

/-- The client's bytes never grow, and a line that is not empty has taken one. -/
theorem getLineLoop_rest_length (sock : Fd) :
    ∀ (room : Nat) (input : Bytes), (getLineLoop sock room input).rest.length ≤ input.length ∧
      ((getLineLoop sock room input).line ≠ [] →
        (getLineLoop sock room input).rest.length < input.length)
  | 0, input => by simp [getLineLoop]
  | room + 1, [] => by simp [getLineLoop]
  | room + 1, c :: input => by
      have hskip := skipLf_length sock input
      have ih := getLineLoop_rest_length sock room input
      rcases lineEnd_cases c with rfl | rfl | ⟨hc, hl⟩
      · simp only [getLineLoop_cr, List.length_cons]
        omega
      · simp
      · simp only [getLineLoop_cons sock room input hc hl, List.length_cons]
        omega

theorem getLine_rest_length_lt {sock : Fd} {maxLen : Nat} {input : Bytes}
    (h : (getLine sock maxLen input).line ≠ []) :
    (getLine sock maxLen input).rest.length < input.length :=
  (getLineLoop_rest_length sock (maxLen - 1) input).2 h

/-- Fuel beyond the client's bytes changes nothing. -/
theorem headerLoop_fuel {α : Type} (sock : Fd) (see : α → Bytes → α) :
    ∀ (n m : Nat) (a : α) (input : Bytes), input.length < n → input.length < m →
      headerLoop sock see n a input = headerLoop sock see m a input
  | 0, _, _, _, h, _ => absurd h (by omega)
  | _, 0, _, _, _, h => absurd h (by omega)
  | n + 1, m + 1, a, input, hn, hm => by
      rw [headerLoop, headerLoop]
      split
      next hgo =>
          have hne : (getLine sock commSize input).line ≠ [] :=
            List.ne_nil_of_length_pos hgo.1
          have hlt := getLine_rest_length_lt hne
          rw [headerLoop_fuel sock see n m _ _ (by omega) (by omega)]
      next => rfl

/-- One round of a header loop. -/
theorem readHeader_eq {α : Type} (sock : Fd) (see : α → Bytes → α) (a : α) (input : Bytes) :
    readHeader sock see a input =
      let k := getLine sock commSize input
      if 0 < k.line.length ∧ strcmp k.line (bytes "\n") ≠ 0 then
        let h := readHeader sock see (see a k.line) k.rest
        ⟨h.value, h.rest, k.calls ++ h.calls⟩
      else ⟨see a k.line, k.rest, k.calls⟩ := by
  conv_lhs => rw [readHeader, headerLoop]
  dsimp only
  split
  next hgo =>
      have hlt := getLine_rest_length_lt (List.ne_nil_of_length_pos hgo.1)
      rw [readHeader, headerLoop_fuel sock see input.length _ _ _ hlt (Nat.lt_succ_self _)]
  next => rfl

/-- What every line preserves holds of the value a header loop ends with. -/
theorem headerLoop_value {α : Type} {P : α → Prop} (sock : Fd) {see : α → Bytes → α}
    (hsee : ∀ a line, P a → P (see a line)) :
    ∀ (fuel : Nat) (a : α) (input : Bytes), P a → P (headerLoop sock see fuel a input).value
  | 0, _, _, ha => ha
  | fuel + 1, a, input, ha => by
      rw [headerLoop]
      split
      next => exact headerLoop_value sock hsee fuel _ _ (hsee a _ ha)
      next => exact hsee a _ ha

/-- The length a header announces is an `int`. -/
theorem isInt_postHeader (sock : Fd) (input : Bytes) : IsInt (postHeader sock input).value := by
  refine headerLoop_value sock (fun a line ha => ?_) _ 0 input (by decide)
  rw [seeContentLength]
  split
  next => exact isInt_atoi _
  next => exact ha

/-! ## Reading makes no other call -/

/-- Every call is a `recv` on the socket. -/
def OnlyRecv (sock : Fd) (calls : List Call) : Prop :=
  ∀ c ∈ calls, ∃ peek got, c = .recv sock peek got

theorem onlyRecv_nil (sock : Fd) : OnlyRecv sock [] := by
  intro c hc
  cases hc

theorem OnlyRecv.cons {sock : Fd} {calls : List Call} (peek : Bool) (got : Option UInt8)
    (h : OnlyRecv sock calls) : OnlyRecv sock (.recv sock peek got :: calls) := by
  intro c hc
  cases hc with
  | head => exact ⟨peek, got, rfl⟩
  | tail _ hc => exact h c hc

theorem OnlyRecv.append {sock : Fd} {a b : List Call} (ha : OnlyRecv sock a)
    (hb : OnlyRecv sock b) : OnlyRecv sock (a ++ b) := by
  intro c hc
  cases List.mem_append.mp hc with
  | inl hc => exact ha c hc
  | inr hc => exact hb c hc

/-- A projection of the calls that sees no `recv` sees nothing. -/
theorem OnlyRecv.flatMap_eq_nil {β : Type} {sock : Fd} {calls : List Call}
    (h : OnlyRecv sock calls) {f : Call → List β} (hf : ∀ peek got, f (.recv sock peek got) = []) :
    calls.flatMap f = [] := by
  rw [List.flatMap_eq_nil_iff]
  intro c hc
  obtain ⟨peek, got, rfl⟩ := h c hc
  exact hf peek got

theorem skipLf_onlyRecv (sock : Fd) (input : Bytes) : OnlyRecv sock (skipLf sock input).2 := by
  cases input with
  | nil => exact (onlyRecv_nil sock).cons _ _
  | cons d input =>
      by_cases hd : d = lf
      · simpa [skipLf, hd] using ((onlyRecv_nil sock).cons _ _).cons _ _
      · simpa [skipLf, hd] using (onlyRecv_nil sock).cons _ _

theorem getLineLoop_onlyRecv (sock : Fd) :
    ∀ (room : Nat) (input : Bytes), OnlyRecv sock (getLineLoop sock room input).calls
  | 0, _ => onlyRecv_nil sock
  | _ + 1, [] => (onlyRecv_nil sock).cons _ _
  | room + 1, c :: input => by
      rcases lineEnd_cases c with rfl | rfl | ⟨hc, hl⟩
      · rw [getLineLoop_cr]
        exact (skipLf_onlyRecv sock input).cons _ _
      · rw [getLineLoop_lf]
        exact (onlyRecv_nil sock).cons _ _
      · rw [getLineLoop_cons sock room input hc hl]
        exact (getLineLoop_onlyRecv sock room input).cons _ _

theorem getLine_onlyRecv (sock : Fd) (maxLen : Nat) (input : Bytes) :
    OnlyRecv sock (getLine sock maxLen input).calls :=
  getLineLoop_onlyRecv sock (maxLen - 1) input

theorem headerLoop_onlyRecv {α : Type} (sock : Fd) (see : α → Bytes → α) :
    ∀ (fuel : Nat) (a : α) (input : Bytes), OnlyRecv sock (headerLoop sock see fuel a input).calls
  | 0, _, _ => onlyRecv_nil sock
  | fuel + 1, a, input => by
      rw [headerLoop]
      have hline := getLine_onlyRecv sock commSize input
      dsimp only
      split
      next => exact hline.append (headerLoop_onlyRecv sock see fuel _ _)
      next => exact hline

theorem clearHeader_onlyRecv (sock : Fd) (input : Bytes) :
    OnlyRecv sock (clearHeader sock input).calls :=
  headerLoop_onlyRecv sock _ _ _ _

theorem postHeader_onlyRecv (sock : Fd) (input : Bytes) :
    OnlyRecv sock (postHeader sock input).calls :=
  headerLoop_onlyRecv sock _ _ _ _

end Httpd
