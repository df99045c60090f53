import TinyHttpd.Httpd.HeaderBlock
import TinyHttpd.Httpd.Status
import Mathlib.Data.List.Induction

/-!
# The length of a body

The loop of `exe_cgi` takes every line that starts with the fourteen bytes of
`Content-Length` for the field and reads a number from the seventeenth byte on;
the last such line wins, and no such line leaves a 0.  Only -1 counts as missing.

A line is looked at here in two ways: as the field it is (`fieldValue?`) and as
what the loop makes of it (`begins`, `reading`).
-/

namespace Httpd

open CString

/-! ## Lines as fields -/

/-- `' '` or `'\t'`. -/
def isBlank (c : UInt8) : Bool := c == 32 || c == 9

/-- The line starts with the name, in any letter case. -/
def begins (text : Bytes) : Bool :=
  (text.take 14).map tolower == bytes "content-length"

/-- The name and nothing more is the field's name. -/
def named (text : Bytes) : Bool := begins text && (text.drop 14).head? == some 58

/-- The value of a `Content-Length` field: blanks and a numeral of an `int`. -/
def fieldValue? (text : Bytes) : Option Nat :=
  let digits := (text.drop 15).dropWhile isBlank
  if named text ∧ digits ≠ [] ∧ IsDigits digits ∧ numeral digits ≤ intMax then
    some (numeral digits)
  else none

/-- The fields of a block. -/
def fields (lines : List HeaderLine) : List Nat := lines.filterMap fun l => fieldValue? l.text

/-- The last line of a block that passes the test. -/
def lastLine? (p : Bytes → Bool) (lines : List HeaderLine) : Option HeaderLine :=
  lines.reverse.find? fun l => p l.text

/-! ## Lines as the loop sees them -/

/-- The number at the fixed offset. -/
def reading (text : Bytes) : Int := atoi (text.drop 16)

theorem lf_notMem_name : lf ∉ bytes "content-length" := by
  decide

theorem take_buffer_eq (text zeros : Bytes) :
    ((text ++ lf :: zeros).take 14).map tolower = bytes "content-length" ↔ begins text = true := by
  rw [begins, beq_iff_eq]
  by_cases h : 14 ≤ text.length
  · rw [List.take_append_of_le_length h]
  · -- The line feed would have to be one of the bytes of the name.
    have hshort : ∀ {x : Bytes}, x.length < 14 → x.map tolower ≠ bytes "content-length" := by
      intro x hx heq
      have hlen := congrArg List.length heq
      rw [List.length_map, show (bytes "content-length").length = 14 from rfl] at hlen
      omega
    refine iff_of_false (fun heq => ?_) (hshort (by rw [List.length_take]; omega))
    refine lf_notMem_name (heq ▸ List.mem_map.mpr ⟨lf, ?_, rfl⟩)
    rw [List.take_append, List.take_of_length_le (by omega)]
    have hpos : 14 - text.length = (14 - text.length - 1) + 1 := by omega
    rw [hpos, List.take_succ_cons]
    exact List.mem_append_right _ (List.mem_cons_self ..)

/-- One line in the loop. -/
theorem seeContentLength_line (a : Int) (text : Bytes) :
    seeContentLength a (text ++ [lf]) = if begins text then reading text else a := by
  have hends : ∀ (n k : Nat), ∀ c ∈ (lf :: List.replicate n 0).drop k, EndsNumber c := by
    intro n k c hc
    cases List.mem_of_mem_drop hc with
    | head => exact ⟨rfl, by decide, by decide⟩
    | tail _ hc =>
        rw [List.eq_of_mem_replicate hc]
        exact ⟨rfl, by decide, by decide⟩
  unfold seeContentLength
  dsimp only
  rw [List.append_assoc, List.singleton_append]
  generalize commSize - (text ++ [lf]).length = n
  have hsame : strncasecmp (text ++ lf :: List.replicate n 0) (bytes "Content-Length:")
      (bytes "Content-Length").length = 0 ↔ begins text = true := by
    rw [strncasecmp_eq_zero _ _ _ (by decide +kernel) (by decide +kernel), ← take_buffer_eq text]
    exact Iff.rfl
  by_cases h : begins text = true
  · rw [if_pos (hsame.mpr h), if_pos h, reading, List.drop_append]
    exact atoi_append_end (hends n _)
  · rw [if_neg (fun heq => h (hsame.mp heq)), if_neg h]

/-- The variable `content_length` behind a header block. -/
def contentLength (sock : Fd) (last : Eol) (body : Bytes) (lines : List HeaderLine) : Int :=
  (postHeader sock (blockWire lines last ++ body)).value

/-- What the loop makes of a block: the reading of the last line that begins like
the field, or 0. -/
theorem contentLength_eq (sock : Fd) (last : Eol) (body : Bytes) (lines : List HeaderLine)
    (hshort : ∀ l ∈ lines, l.text.length < 1023) :
    contentLength sock last body lines =
      ((lastLine? begins lines).map fun l => reading l.text).getD 0 := by
  have hlast (a : Int) : seeContentLength a [lf] = a := seeContentLength_line a []
  rw [contentLength, postHeader, readHeader_value_short sock _ last body lines 0 hshort, hlast]
  simp only [seeContentLength_line]
  clear hshort
  unfold lastLine?
  induction lines using List.reverseRecOn with
  | nil => rfl
  | append_singleton lines l ih =>
      rw [List.foldl_append, List.foldl_cons, List.foldl_nil, List.reverse_append,
        List.reverse_singleton, List.singleton_append, List.find?_cons]
      cases h : begins l.text with
      | true => simp
      | false => simpa using ih

/-! ## A field at the fixed offset -/

/-- The byte behind the colon is a blank or a `0`. -/
def separated (text : Bytes) : Bool := (text.drop 15).head?.any fun c => isBlank c || c == 48

theorem isBlank_isspace {c : UInt8} (h : isBlank c = true) : isspace c = true := by
  rw [isBlank, Bool.or_eq_true, beq_iff_eq, beq_iff_eq] at h
  rcases h with rfl | rfl <;> rfl

/-- The loop drops one byte behind the colon.  That is a blank, or a digit that
counts unless it is a `0`. -/
theorem reading_field {text : Bytes} {n : Nat} (h : fieldValue? text = some n) :
    reading text = n ↔ separated text = true := by
  have htail : text.drop 16 = (text.drop 15).tail := by rw [List.tail_drop]
  rw [fieldValue?] at h
  rw [reading, separated, htail]
  generalize text.drop 15 = value at h ⊢
  split at h
  next hfield =>
      obtain ⟨-, hne, hdigits, hmax⟩ := hfield
      cases value with
      | nil => exact absurd rfl hne
      | cons c value =>
          rw [List.tail_cons, List.head?_cons, Option.any_some]
          cases hc : isBlank c with
          | true =>
              rw [List.dropWhile_cons_of_pos hc] at h hdigits hmax
              refine iff_of_true ?_ rfl
              have hblanks : ∀ d ∈ value.takeWhile isBlank, isspace d = true :=
                fun d hd => isBlank_isspace (List.mem_takeWhile_imp hd)
              rw [← List.takeWhile_append_dropWhile (p := isBlank) (l := value),
                atoi_digits hblanks hdigits hmax]
              exact_mod_cast Option.some.inj h
          | false =>
              rw [List.dropWhile_cons_of_neg (by simp [hc])] at h hdigits hmax
              have hle : numeral value ≤ numeral (c :: value) := Nat.le_add_left ..
              have hread : atoi value = numeral value :=
                atoi_digits (w := []) (fun d hd => absurd hd List.not_mem_nil) hdigits.tail
                  (hle.trans hmax)
              rw [hread, ← Option.some.inj h, Bool.false_or, beq_iff_eq, Nat.cast_inj]
              exact numeral_tail_eq (hdigits c (List.mem_cons_self ..))
  next => cases h

theorem named_begins {text : Bytes} (h : named text = true) : begins text = true := by
  rw [named, Bool.and_eq_true] at h
  exact h.1

theorem fieldValue?_named {text : Bytes} {n : Nat} (h : fieldValue? text = some n) :
    named text = true := by
  rw [fieldValue?] at h
  split at h
  next hfield => exact hfield.1
  next => cases h

/-! ## Look-alikes -/

/-- The name of the line only starts like the field's name. -/
def lookalike (text : Bytes) : Bool := begins text && !named text

/-- A weaker test that is passed by a line of the stronger one stops there too. -/
theorem lastLine?_named {lines : List HeaderLine} {l : HeaderLine}
    (h : lastLine? begins lines = some l) (hl : named l.text = true) :
    lastLine? named lines = some l := by
  rw [lastLine?, List.find?_eq_some_iff_append] at h ⊢
  obtain ⟨-, front, back, heq, hfront⟩ := h
  refine ⟨hl, front, back, heq, fun k hk => ?_⟩
  have hk' := hfront k hk
  cases hn : named k.text with
  | true => simp [named_begins hn] at hk'
  | false => rfl

theorem lastLine?_filter (lines : List HeaderLine) :
    lastLine? begins (lines.filter fun l => !lookalike l.text) = lastLine? named lines := by
  rw [lastLine?, lastLine?, ← List.filter_reverse, List.find?_filter]
  congr 1
  funext l
  cases hn : named l.text with
  | true => simp [lookalike, hn, named_begins hn]
  | false => cases hb : begins l.text <;> simp [lookalike, hn, hb]

/-! ## The law -/

/-- The run answers with an error and starts no program. -/
def Rejected (calls : List Call) : Prop :=
  (∃ code, (events calls).head? = some (.status code) ∧ code ≠ bytes "200") ∧
    .programStarted ∉ events calls

theorem rejected_exeCgi_iff (env : Env) (sock : Fd) (path method query input : Bytes)
    (hm : ¬IsGet method) :
    Rejected (exeCgi env sock path method query input) ↔ (postHeader sock input).value = -1 := by
  rw [exeCgi]
  rw [if_neg (show ¬ strcasecmp method (bytes "GET") = 0 from hm)]
  dsimp only
  split
  next h =>
      rw [Rejected, events_append, (postHeader_onlyRecv sock input).events, List.nil_append,
        events_serverError]
      exact iff_of_true ⟨⟨bytes "500", rfl, by decide⟩, by decide⟩ h
  next h =>
      rw [Rejected, events_append, (postHeader_onlyRecv sock input).events, List.nil_append,
        events_runCgi]
      refine iff_of_false ?_ h
      rintro ⟨⟨code, hhead, hcode⟩, -⟩
      cases hhead
      exact hcode rfl

/-- What a reader of `Content-Length` owes: the value of the only field, no regard
for names that merely begin like it, and a refusal where there is no field. -/
structure LengthRead (env : Env) (sock : Fd) (path method query : Bytes) (last : Eol)
    (body : Bytes) (lines : List HeaderLine) : Prop where
  field : ∀ n, fields lines = [n] → contentLength sock last body lines = n
  lookalikes : contentLength sock last body lines =
    contentLength sock last body (lines.filter fun l => !lookalike l.text)
  absent : fields lines = [] →
    Rejected (exeCgi env sock path method query (blockWire lines last ++ body))

/-- When the last line that begins like the field gives the right number at the
fixed offset: it is the field and has a blank or a `0` behind the colon, or it is
another line that happens to read the same; a block without a field is refused
where that line reads -1. -/
structure ReadableAtOffset (lines : List HeaderLine) : Prop where
  field : ∀ n, fields lines = [n] → ∃ l, lastLine? begins lines = some l ∧
    if fieldValue? l.text = some n then separated l.text = true else reading l.text = n
  lookalikes : ∀ l, lastLine? begins lines = some l → lookalike l.text = true →
    reading l.text = ((lastLine? named lines).map fun l => reading l.text).getD 0
  absent : fields lines = [] → ∃ l, lastLine? begins lines = some l ∧ reading l.text = -1

theorem field_iff {lines : List HeaderLine} {n : Nat} (hn : fields lines = [n]) :
    ((lastLine? begins lines).map fun l => reading l.text).getD 0 = (n : Int) ↔
      ∃ l, lastLine? begins lines = some l ∧
        if fieldValue? l.text = some n then separated l.text = true else reading l.text = n := by
  cases hl : lastLine? begins lines with
  | none =>
      -- The field itself begins like the field.
      have hfield : n ∈ fields lines := hn ▸ List.mem_singleton_self n
      obtain ⟨l, hmem, hl'⟩ := List.mem_filterMap.mp hfield
      rw [lastLine?, List.find?_eq_none] at hl
      have := hl l (List.mem_reverse.mpr hmem)
      exact absurd (named_begins (fieldValue?_named hl')) this
  | some l =>
      rw [Option.map_some, Option.getD_some]
      constructor
      · intro h
        refine ⟨l, rfl, ?_⟩
        split
        next hv => exact (reading_field hv).mp h
        next => exact h
      · rintro ⟨k, hk, hif⟩
        cases hk
        split at hif
        next hv => exact (reading_field hv).mpr hif
        next => exact hif

theorem lookalikes_iff (lines : List HeaderLine) :
    ((lastLine? begins lines).map fun l => reading l.text).getD 0 =
        ((lastLine? named lines).map fun l => reading l.text).getD 0 ↔
      ∀ l, lastLine? begins lines = some l → lookalike l.text = true →
        reading l.text = ((lastLine? named lines).map fun l => reading l.text).getD 0 := by
  cases hl : lastLine? begins lines with
  | none =>
      have hnone : lastLine? named lines = none := by
        rw [lastLine?, List.find?_eq_none] at hl ⊢
        exact fun l hmem hn => hl l hmem (named_begins hn)
      simp [hnone]
  | some l =>
      rw [Option.map_some, Option.getD_some]
      constructor
      · intro h k hk _
        cases hk
        exact h
      · intro h
        cases hn : named l.text with
        | true => simp [lastLine?_named hl hn]
        | false =>
            have hb : begins l.text = true := by
              rw [lastLine?, List.find?_eq_some_iff_append] at hl
              exact hl.1
            exact h l rfl (by simp [lookalike, hb, hn])

theorem absent_iff (lines : List HeaderLine) :
    ((lastLine? begins lines).map fun l => reading l.text).getD 0 = -1 ↔
      ∃ l, lastLine? begins lines = some l ∧ reading l.text = -1 := by
  cases lastLine? begins lines with
  | none => simp
  | some l => simp

/-- `exe_cgi` reads the length of a POST body right when the fixed offset happens to
fit, and only then. -/
theorem contentLength_read_iff (env : Env) (sock : Fd) (path method query : Bytes) (last : Eol)
    (body : Bytes) (lines : List HeaderLine) (hm : ¬IsGet method)
    (hshort : ∀ l ∈ lines, l.text.length < 1023) :
    LengthRead env sock path method query last body lines ↔ ReadableAtOffset lines := by
  have hvalue := contentLength_eq sock last body lines hshort
  have hfiltered : contentLength sock last body (lines.filter fun l => !lookalike l.text) =
      ((lastLine? named lines).map fun l => reading l.text).getD 0 := by
    rw [contentLength_eq sock last body _ fun l hl => hshort l (List.mem_filter.mp hl).1,
      lastLine?_filter]
  have hreject := rejected_exeCgi_iff env sock path method query (blockWire lines last ++ body) hm
  rw [← contentLength, hvalue, absent_iff] at hreject
  constructor
  · intro h
    refine ⟨fun n hn => ?_, ?_, fun hn => hreject.mp (h.absent hn)⟩
    · exact (field_iff hn).mp (hvalue ▸ h.field n hn)
    · exact (lookalikes_iff lines).mp (by rw [← hvalue, ← hfiltered]; exact h.lookalikes)
  · intro h
    refine ⟨fun n hn => ?_, ?_, fun hn => hreject.mpr (h.absent hn)⟩
    · rw [hvalue]
      exact (field_iff hn).mpr (h.field n hn)
    · rw [hvalue, hfiltered]
      exact (lookalikes_iff lines).mpr h.lookalikes

/-- A header line ended by CR LF. -/
def crlfLine (text : Bytes) (nonempty : text ≠ []) (unbroken : Unbroken text) : HeaderLine :=
  ⟨text, .crlf, nonempty, unbroken⟩

/-- The usual form of the field. -/
def spacedLine : HeaderLine :=
  crlfLine (bytes "content-length: 12") (by decide +kernel) (by decide +kernel)

/-- The field without a blank. -/
def tightLine : HeaderLine :=
  crlfLine (bytes "Content-Length:5") (by decide +kernel) (by decide +kernel)

theorem contentLength_read_spaced :
    LengthRead .obliging .sockClient (bytes "htdocs/x") (bytes "POST") [] .crlf (bytes "a=b")
      [spacedLine] :=
  (contentLength_read_iff .obliging .sockClient (bytes "htdocs/x") (bytes "POST") [] .crlf
    (bytes "a=b") [spacedLine] (by decide +kernel) (by decide +kernel)).mpr
    { field := by
        intro n hn
        have h12 : fields [spacedLine] = [12] := by decide +kernel
        cases h12.symm.trans hn
        exact ⟨spacedLine, rfl, by decide +kernel⟩
      lookalikes := by
        intro l hl hlook
        cases hl
        exact absurd hlook (by decide +kernel)
      absent := fun h => absurd h (by decide +kernel) }

/-- Without a blank behind the colon the first digit is lost. -/
theorem contentLength_tight :
    fields [tightLine] = [5] ∧ contentLength .sockClient .crlf (bytes "a=b&c") [tightLine] = 0 := by
  decide +kernel

end Httpd
