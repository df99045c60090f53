import TinyHttpd.Httpd.HeaderBlock
import TinyHttpd.Httpd.LineReader

/-!
# Both header loops on any stream

The loop of `clear_header` and that of `exe_cgi` make the same test on the same lines, so
they take the same part of the stream, whatever they keep of it.  A chunk that `get_line`
returns may end in the middle of a line, and the loops may take the rest of that line for
an empty one and stop early.  They never stop late: the chunk with the terminator of the
first empty line is that terminator alone (`behindEmptyLine_getLineLoop`).
-/

namespace Httpd

open CString

/-! ## Runs -/

/-- A run of a header loop from a value and a stream, up to the line that ends it. -/
inductive HeaderRun {α : Type} (sock : Fd) (see : α → Bytes → α) : α → Bytes → α → Bytes → Prop
  | stop {a : α} {input : Bytes} :
      ¬(0 < (getLine sock commSize input).line.length ∧
        strcmp (getLine sock commSize input).line (bytes "\n") ≠ 0) →
      HeaderRun sock see a input (see a (getLine sock commSize input).line)
        (getLine sock commSize input).rest
  | next {a a' : α} {input rest : Bytes} :
      (0 < (getLine sock commSize input).line.length ∧
        strcmp (getLine sock commSize input).line (bytes "\n") ≠ 0) →
      HeaderRun sock see (see a (getLine sock commSize input).line)
        (getLine sock commSize input).rest a' rest →
      HeaderRun sock see a input a' rest

section Loops

variable {α β : Type} (sock : Fd)

/-- With fuel for the stream, a loop is a run that ends. -/
theorem headerRun_headerLoop (see : α → Bytes → α) :
    ∀ (fuel : Nat) (a : α) (input : Bytes), input.length < fuel →
      HeaderRun sock see a input (headerLoop sock see fuel a input).value
        (headerLoop sock see fuel a input).rest
  | 0, _, _, h => absurd h (Nat.not_lt_zero _)
  | fuel + 1, a, input, h => by
      rw [headerLoop]
      dsimp only
      split
      next hgo =>
          have hlt := getLine_rest_length_lt (List.ne_nil_of_length_pos hgo.1)
          exact .next hgo (headerRun_headerLoop see fuel _ _ (by omega))
      next hstop => exact .stop hstop

/-- There is no other run. -/
theorem HeaderRun.eq_readHeader {sock : Fd} {see : α → Bytes → α} {a a' : α}
    {input rest : Bytes} (h : HeaderRun sock see a input a' rest) :
    a' = (readHeader sock see a input).value ∧ rest = (readHeader sock see a input).rest := by
  induction h with
  | stop hstop =>
      rw [readHeader_eq]
      dsimp only
      rw [if_neg hstop]
      exact ⟨rfl, rfl⟩
  | next hgo _ ih =>
      rw [readHeader_eq]
      dsimp only
      rw [if_pos hgo]
      exact ih

/-- Every stream has one run, that of `readHeader`. -/
theorem headerRun_iff (see : α → Bytes → α) (a a' : α) (input rest : Bytes) :
    HeaderRun sock see a input a' rest ↔
      a' = (readHeader sock see a input).value ∧ rest = (readHeader sock see a input).rest := by
  constructor
  · exact HeaderRun.eq_readHeader
  · rintro ⟨rfl, rfl⟩
    exact headerRun_headerLoop sock see _ a input (Nat.lt_succ_self _)

/-- What a loop keeps of the lines does not change where it stops. -/
theorem headerLoop_rest_eq (see : α → Bytes → α) (see' : β → Bytes → β) :
    ∀ (fuel : Nat) (a : α) (b : β) (input : Bytes),
      (headerLoop sock see fuel a input).rest = (headerLoop sock see' fuel b input).rest
  | 0, _, _, _ => rfl
  | fuel + 1, a, b, input => by
      rw [headerLoop, headerLoop]
      dsimp only
      split
      next => exact headerLoop_rest_eq see see' fuel _ _ _
      next => rfl

/-- What a loop leaves is the end of the stream. -/
theorem headerLoop_rest_suffix (see : α → Bytes → α) :
    ∀ (fuel : Nat) (a : α) (input : Bytes), (headerLoop sock see fuel a input).rest <:+ input
  | 0, _, input => List.suffix_refl input
  | fuel + 1, a, input => by
      obtain ⟨front, hfront, -⟩ := getLineLoop_front sock (commSize - 1) input
      have hrest : (getLine sock commSize input).rest <:+ input := ⟨front, hfront.symm⟩
      rw [headerLoop]
      dsimp only
      split
      next => exact (headerLoop_rest_suffix see fuel _ _).trans hrest
      next => exact hrest

end Loops

/-! ## The first empty line -/

/-- What is behind the first empty line of a stream that is cut into lines at CR LF, LF and
lone CR, when there is one.  The stream is at the start of a line, or inside one. -/
def behindEmptyLine : Bool → Bytes → Option Bytes
  | _, [] => none
  | start, [c] => if (c = cr ∨ c = lf) ∧ start = true then some [] else none
  | start, c :: d :: s =>
      if c = cr ∧ d = lf then if start then some s else behindEmptyLine true s
      else if c = cr ∨ c = lf then if start then some (d :: s) else behindEmptyLine true (d :: s)
      else behindEmptyLine false (d :: s)

example : behindEmptyLine true (bytes "a\r\nb\r\rbody") = some (bytes "body") := by
  decide +kernel

/-- A terminator ends a line, which is empty at its start. -/
theorem behindEmptyLine_cr (sock : Fd) (start : Bool) (s : Bytes) :
    behindEmptyLine start (cr :: s) =
      if start then some (skipLf sock s).1 else behindEmptyLine true (skipLf sock s).1 := by
  cases s with
  | nil => cases start <;> rfl
  | cons d s =>
      by_cases hd : d = lf
      · simp [behindEmptyLine, skipLf, hd]
      · simp [behindEmptyLine, skipLf, hd]

theorem behindEmptyLine_lf (start : Bool) (s : Bytes) :
    behindEmptyLine start (lf :: s) = if start then some s else behindEmptyLine true s := by
  cases s with
  | nil => cases start <;> rfl
  | cons d s => simp [behindEmptyLine]

theorem behindEmptyLine_cons (start : Bool) {c : UInt8} (s : Bytes) (hcr : c ≠ cr)
    (hlf : c ≠ lf) : behindEmptyLine start (c :: s) = behindEmptyLine false s := by
  cases s with
  | nil => simp [behindEmptyLine, hcr, hlf]
  | cons d s => simp [behindEmptyLine, hcr, hlf]

theorem skipLf_suffix (sock : Fd) (s : Bytes) : (skipLf sock s).1 <:+ s := by
  cases s with
  | nil => exact List.suffix_refl _
  | cons d s =>
      by_cases hd : d = lf
      · simp [skipLf, hd]
      · simp [skipLf, hd]

/-- What is behind the first empty line is the end of the stream. -/
theorem behindEmptyLine_suffix {body : Bytes} : ∀ {start : Bool} {s : Bytes},
    behindEmptyLine start s = some body → body <:+ s := by
  intro start s h
  induction hlen : s.length using Nat.strong_induction_on generalizing start s with
  | _ n ih =>
      cases s with
      | nil => cases h
      | cons c s =>
          have hcons : s <:+ c :: s := List.suffix_cons c s
          rcases lineEnd_cases c with rfl | rfl | ⟨hcr, hlf⟩
          · have hskip := skipLf_suffix .sockClient s
            rw [behindEmptyLine_cr .sockClient] at h
            split at h
            next =>
                cases h
                exact hskip.trans hcons
            next =>
                have hle := hskip.length_le
                exact (ih _ (by rw [← hlen]; exact Nat.lt_succ_of_le hle) h rfl).trans
                  (hskip.trans hcons)
          · rw [behindEmptyLine_lf] at h
            split at h
            next =>
                cases h
                exact hcons
            next => exact (ih _ (by rw [← hlen]; exact Nat.lt_succ_self _) h rfl).trans hcons
          · rw [behindEmptyLine_cons _ _ hcr hlf] at h
            exact (ih _ (by rw [← hlen]; exact Nat.lt_succ_self _) h rfl).trans hcons

/-- A chunk is the terminator of the first empty line, or leaves that line to come. -/
theorem behindEmptyLine_getLineLoop (sock : Fd) {body : Bytes} :
    ∀ (room : Nat) (start : Bool) (input : Bytes), behindEmptyLine start input = some body →
      (start = true ∧ (getLineLoop sock room input).line = [lf] ∧
          (getLineLoop sock room input).rest = body) ∨
        ∃ start', behindEmptyLine start' (getLineLoop sock room input).rest = some body
  | 0, start, _, h => .inr ⟨start, h⟩
  | _ + 1, _, [], h => by cases h
  | room + 1, start, c :: input, h => by
      rcases lineEnd_cases c with rfl | rfl | ⟨hcr, hlf⟩
      · rw [behindEmptyLine_cr sock] at h
        rw [getLineLoop_cr]
        split at h
        next hstart => exact .inl ⟨hstart, rfl, Option.some.inj h⟩
        next => exact .inr ⟨true, h⟩
      · rw [behindEmptyLine_lf] at h
        rw [getLineLoop_lf]
        split at h
        next hstart => exact .inl ⟨hstart, rfl, Option.some.inj h⟩
        next => exact .inr ⟨true, h⟩
      · rw [behindEmptyLine_cons _ _ hcr hlf] at h
        rw [getLineLoop_cons sock room input hcr hlf]
        rcases behindEmptyLine_getLineLoop sock room false input h with ⟨hstart, -⟩ | hlater
        · cases hstart
        · exact .inr hlater

/-- A header loop takes nothing from behind the first empty line. -/
theorem behindEmptyLine_suffix_rest {α : Type} (sock : Fd) (see : α → Bytes → α) {body : Bytes} :
    ∀ (fuel : Nat) (start : Bool) (a : α) (input : Bytes),
      behindEmptyLine start input = some body →
        body <:+ (headerLoop sock see fuel a input).rest
  | 0, _, _, _, h => behindEmptyLine_suffix h
  | fuel + 1, start, a, input, h => by
      rw [headerLoop]
      dsimp only
      rcases behindEmptyLine_getLineLoop sock (commSize - 1) start input h with
        ⟨-, hline, hrest⟩ | ⟨start', hlater⟩
      · rw [← getLine] at hline hrest
        rw [hline, hrest, if_neg chunk_ends]
      · rw [← getLine] at hlater
        split
        next => exact behindEmptyLine_suffix_rest sock see fuel start' _ _ hlater
        next => exact behindEmptyLine_suffix hlater

/-! ## Both loops -/

/-- For every stream, both header loops come to an end, and they leave the same end of the
stream unread.  When the stream has an empty line, all that is behind the first one is in
what they leave. -/
theorem header_loops_agree (sock : Fd) (stream : Bytes) :
    ∃ rest, (∀ u rest', HeaderRun sock (fun _ _ => ()) () stream u rest' ↔ rest' = rest) ∧
      (∃ n, ∀ n' rest', HeaderRun sock seeContentLength 0 stream n' rest' ↔
        n' = n ∧ rest' = rest) ∧
      (clearHeader sock stream).rest = rest ∧ (postHeader sock stream).rest = rest ∧
      rest <:+ stream ∧ ∀ body, behindEmptyLine true stream = some body → body <:+ rest := by
  have hagree : (clearHeader sock stream).rest = (postHeader sock stream).rest :=
    headerLoop_rest_eq sock _ _ _ _ _ _
  refine ⟨(postHeader sock stream).rest, fun u rest' => ?_,
    ⟨(postHeader sock stream).value,
      fun n' rest' => headerRun_iff sock seeContentLength 0 n' stream rest'⟩, hagree, rfl,
    headerLoop_rest_suffix sock _ _ _ _,
    fun body h => behindEmptyLine_suffix_rest sock _ _ true _ _ h⟩
  rw [headerRun_iff, ← clearHeader, hagree]
  exact and_iff_right rfl

end Httpd
