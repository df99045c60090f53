import TinyHttpd.Httpd.GetLine

/-!
# Where the header loops stop

A header block is a list of lines and an empty line.  `get_line` cuts a line
into chunks of 1023 bytes, and the chunk that holds the end of the line is never
an empty line by itself, with one exception: when the text of the line fills its
chunks exactly, its terminator comes back alone and reads as the empty line that
ends the header.  `readHeader_text` follows a loop over one line, and
`readHeader_rest_eq_body` over a block.
-/

namespace Httpd

open CString

/-! ## Blocks -/

/-- A line terminator. -/
inductive Eol where
  | crlf
  | lf
deriving DecidableEq, Repr

/-- Its bytes. -/
def Eol.wire : Eol → Bytes
  | .crlf => [CString.cr, CString.lf]
  | .lf => [CString.lf]

/-- A text that no terminator interrupts. -/
def Unbroken (text : Bytes) : Prop := ∀ c ∈ text, c ≠ cr ∧ c ≠ lf

instance (text : Bytes) : Decidable (Unbroken text) :=
  inferInstanceAs (Decidable (∀ c ∈ text, _))

/-- A header line as the client sends it. -/
structure HeaderLine where
  text : Bytes
  eol : Eol
  /-- An empty line would end the block. -/
  nonempty : text ≠ []
  unbroken : Unbroken text

/-- The bytes of a header line. -/
def HeaderLine.wire (l : HeaderLine) : Bytes := l.text ++ l.eol.wire

/-- The bytes of a header block: its lines and an empty line. -/
def blockWire (lines : List HeaderLine) (last : Eol) : Bytes :=
  lines.flatMap HeaderLine.wire ++ last.wire

theorem blockWire_cons (l : HeaderLine) (lines : List HeaderLine) (last : Eol) :
    blockWire (l :: lines) last = l.wire ++ blockWire lines last := by
  simp [blockWire]

theorem Eol.wire_length_pos (e : Eol) : 0 < e.wire.length := by
  cases e <;> decide

/-! ## One chunk -/

theorem Unbroken.tail {c : UInt8} {text : Bytes} (h : Unbroken (c :: text)) : Unbroken text :=
  fun d hd => h d (List.mem_cons_of_mem _ hd)

theorem Unbroken.drop {text : Bytes} (h : Unbroken text) (n : Nat) : Unbroken (text.drop n) :=
  fun d hd => h d (List.mem_of_mem_drop hd)

/-- A terminator is read as a line feed, whichever it is. -/
theorem getLineLoop_eol (sock : Fd) (room : Nat) (e : Eol) (tail : Bytes) :
    (getLineLoop sock (room + 1) (e.wire ++ tail)).line = [lf] ∧
      (getLineLoop sock (room + 1) (e.wire ++ tail)).rest = tail := by
  cases e with
  | crlf =>
      show (getLineLoop sock (room + 1) (cr :: lf :: tail)).line = _ ∧ _
      rw [getLineLoop_cr]
      exact ⟨rfl, rfl⟩
  | lf =>
      show (getLineLoop sock (room + 1) (lf :: tail)).line = _ ∧ _
      rw [getLineLoop_lf]
      exact ⟨rfl, rfl⟩

/-- A line that fits comes back with a line feed for its terminator. -/
theorem getLineLoop_fits (sock : Fd) (e : Eol) (tail : Bytes) :
    ∀ (text : Bytes) (room : Nat), Unbroken text → text.length < room →
      (getLineLoop sock room (text ++ e.wire ++ tail)).line = text ++ [lf] ∧
        (getLineLoop sock room (text ++ e.wire ++ tail)).rest = tail
  | _, 0, _, h => absurd h (Nat.not_lt_zero _)
  | [], room + 1, _, _ => by simpa using getLineLoop_eol sock room e tail
  | c :: text, room + 1, hu, h => by
      obtain ⟨hcr, hlf⟩ := hu c (List.mem_cons_self ..)
      have ih := getLineLoop_fits sock e tail text room hu.tail (by simpa using h)
      simp only [List.cons_append, getLineLoop_cons sock room _ hcr hlf]
      exact ⟨by rw [ih.1], ih.2⟩

/-- A line that does not fit is cut where the room ends. -/
theorem getLineLoop_cut (sock : Fd) (tail : Bytes) :
    ∀ (text : Bytes) (room : Nat), Unbroken text → room ≤ text.length →
      (getLineLoop sock room (text ++ tail)).line = text.take room ∧
        (getLineLoop sock room (text ++ tail)).rest = text.drop room ++ tail
  | _, 0, _, _ => by simp
  | [], room + 1, _, h => absurd h (by simp)
  | c :: text, room + 1, hu, h => by
      obtain ⟨hcr, hlf⟩ := hu c (List.mem_cons_self ..)
      have ih := getLineLoop_cut sock tail text room hu.tail (by simpa using h)
      simp only [List.cons_append, getLineLoop_cons sock room _ hcr hlf]
      exact ⟨by rw [ih.1, List.take_succ_cons], by rw [ih.2, List.drop_succ_cons]⟩

/-- The test of the header loops, on a chunk that starts with a byte of text. -/
theorem chunk_goes_on {c : UInt8} (chunk : Bytes) (hlf : c ≠ lf) :
    0 < (c :: chunk).length ∧ strcmp (c :: chunk) (bytes "\n") ≠ 0 := by
  refine ⟨by simp, fun h => ?_⟩
  rw [strcmp_eq_zero, cstr_cons, show cstr (bytes "\n") = [lf] from rfl] at h
  split at h
  next => simp at h
  next => exact hlf (List.cons.inj h).1

/-- The test of the header loops, on an empty line. -/
theorem chunk_ends : ¬(0 < ([lf] : Bytes).length ∧ strcmp [lf] (bytes "\n") ≠ 0) := by
  decide

/-! ## The loops over a line -/

section Loops

variable {α : Type} (sock : Fd) (see : α → Bytes → α)

/-- A chunk of text keeps a header loop going. -/
theorem readHeader_goes_on (a : α) {input : Bytes} {c : UInt8} {chunk : Bytes}
    (hline : (getLine sock commSize input).line = c :: chunk) (hlf : c ≠ lf) :
    (readHeader sock see a input).value =
        (readHeader sock see (see a (c :: chunk)) (getLine sock commSize input).rest).value ∧
      (readHeader sock see a input).rest =
        (readHeader sock see (see a (c :: chunk)) (getLine sock commSize input).rest).rest := by
  rw [readHeader_eq]
  simp only [hline]
  rw [if_pos (chunk_goes_on chunk hlf)]
  exact ⟨rfl, rfl⟩

/-- An empty line ends a header loop. -/
theorem readHeader_eol (a : α) (e : Eol) (tail : Bytes) :
    (readHeader sock see a (e.wire ++ tail)).value = see a [lf] ∧
      (readHeader sock see a (e.wire ++ tail)).rest = tail := by
  obtain ⟨hline, hrest⟩ := getLineLoop_eol sock (commSize - 2) e tail
  have hget : getLine sock commSize (e.wire ++ tail) =
      getLineLoop sock (commSize - 2 + 1) (e.wire ++ tail) := rfl
  rw [readHeader_eq]
  simp only [hget, hline, hrest]
  rw [if_neg chunk_ends]
  exact ⟨rfl, rfl⟩

/-- A line shorter than the buffer is seen whole. -/
theorem readHeader_short (a : α) (l : HeaderLine) (h : l.text.length < commSize - 1)
    (tail : Bytes) :
    (readHeader sock see a (l.wire ++ tail)).value =
        (readHeader sock see (see a (l.text ++ [lf])) tail).value ∧
      (readHeader sock see a (l.wire ++ tail)).rest =
        (readHeader sock see (see a (l.text ++ [lf])) tail).rest := by
  obtain ⟨hline, hrest⟩ := getLineLoop_fits sock l.eol tail l.text _ l.unbroken h
  obtain ⟨c, text, htext⟩ := List.exists_cons_of_ne_nil l.nonempty
  have hlf : c ≠ lf := (l.unbroken c (by rw [htext]; exact List.mem_cons_self ..)).2
  have hget : (getLine sock commSize (l.wire ++ tail)).line = c :: (text ++ [lf]) := by
    rw [getLine, HeaderLine.wire, hline, htext, List.cons_append]
  have hgo := readHeader_goes_on sock see a hget hlf
  rwa [getLine, HeaderLine.wire, hrest, ← List.cons_append, ← htext] at hgo

/-- A header loop over the text of a line, chunk by chunk.  It stops behind the
line when the text fills its chunks exactly, and goes on there otherwise. -/
theorem readHeader_text (e : Eol) (tail : Bytes) :
    ∀ (n : Nat) (a : α) (text : Bytes), text.length ≤ n → text ≠ [] → Unbroken text →
      ∃ a', (readHeader sock see a (text ++ e.wire ++ tail)).rest =
        if commSize - 1 ∣ text.length then tail else (readHeader sock see a' tail).rest
  | 0, _, text, hn, hne, _ => absurd (List.length_eq_zero_iff.mp (Nat.le_zero.mp hn)) hne
  | n + 1, a, text, hn, hne, hu => by
      obtain ⟨c, text', htext⟩ := List.exists_cons_of_ne_nil hne
      have hlf : c ≠ lf := (hu c (by rw [htext]; exact List.mem_cons_self ..)).2
      have hpos : 0 < text.length := List.length_pos_iff.mpr hne
      by_cases hfit : text.length < commSize - 1
      · have hdvd : ¬ commSize - 1 ∣ text.length := Nat.not_dvd_of_pos_of_lt hpos hfit
        have hl := readHeader_short sock see a ⟨text, e, hne, hu⟩ hfit tail
        exact ⟨_, by rw [if_neg hdvd]; exact hl.2⟩
      · have hcut := getLineLoop_cut sock (e.wire ++ tail) text (commSize - 1) hu (by omega)
        have hchunk : text.take (commSize - 1) = c :: text'.take (commSize - 2) := by
          rw [htext]; rfl
        have hgo := readHeader_goes_on sock see a (hcut.1.trans hchunk) hlf
        have hrest := hgo.2
        rw [getLine, hcut.2, ← List.append_assoc, ← List.append_assoc] at hrest
        rw [hrest]
        by_cases hend : text.drop (commSize - 1) = []
        · -- The text is used up, and its terminator is read alone.
          have hlen : text.length = commSize - 1 := by
            have := List.drop_eq_nil_iff.mp hend
            omega
          refine ⟨a, ?_⟩
          rw [hend, List.nil_append, if_pos (hlen ▸ dvd_refl _)]
          exact (readHeader_eol sock see _ e tail).2
        · have hdrop : (text.drop (commSize - 1)).length = text.length - (commSize - 1) :=
            List.length_drop ..
          have hsize : commSize - 1 = 1023 := rfl
          obtain ⟨a', ih⟩ := readHeader_text e tail n (see a (c :: text'.take (commSize - 2)))
            (text.drop (commSize - 1)) (by omega) hend (hu.drop _)
          have hdvd : commSize - 1 ∣ text.length - (commSize - 1) ↔ commSize - 1 ∣ text.length :=
            Nat.dvd_sub_iff_left (by omega) (dvd_refl _)
          refine ⟨a', ?_⟩
          rw [ih, hdrop]
          simp only [hdvd]

/-- What a header loop leaves of a block: everything behind the first line whose
text fills its chunks exactly, and the body alone when there is none. -/
theorem readHeader_rest_eq_body (last : Eol) (body : Bytes) :
    ∀ (lines : List HeaderLine) (a : α),
      (readHeader sock see a (blockWire lines last ++ body)).rest = body ↔
        ∀ l ∈ lines, ¬ commSize - 1 ∣ l.text.length
  | [], a => by simpa [blockWire] using (readHeader_eol sock see a last body).2
  | l :: lines, a => by
      obtain ⟨a', h⟩ := readHeader_text sock see l.eol (blockWire lines last ++ body)
        l.text.length a l.text le_rfl l.nonempty l.unbroken
      have hwire : blockWire (l :: lines) last ++ body =
          l.text ++ l.eol.wire ++ (blockWire lines last ++ body) := by
        rw [blockWire_cons, HeaderLine.wire, List.append_assoc]
      rw [hwire, h, List.forall_mem_cons]
      by_cases hdvd : commSize - 1 ∣ l.text.length
      · -- At least the empty line stays unread in front of the body.
        have hlen : 0 < (blockWire lines last).length := by
          have hlast := last.wire_length_pos
          rw [blockWire, List.length_append]
          omega
        rw [if_pos hdvd]
        refine iff_of_false (fun heq => ?_) (fun hall => hall.1 hdvd)
        have hzero := List.append_left_eq_self.mp heq
        rw [hzero] at hlen
        exact absurd hlen (Nat.lt_irrefl 0)
      · rw [if_neg hdvd, readHeader_rest_eq_body last body lines a']
        exact (and_iff_right hdvd).symm

/-- What a header loop keeps of a block of short lines. -/
theorem readHeader_value_short (last : Eol) (body : Bytes) :
    ∀ (lines : List HeaderLine) (a : α), (∀ l ∈ lines, l.text.length < commSize - 1) →
      (readHeader sock see a (blockWire lines last ++ body)).value =
        see (lines.foldl (fun a l => see a (l.text ++ [lf])) a) [lf]
  | [], a, _ => (readHeader_eol sock see a last body).1
  | l :: lines, a, hshort => by
      have hl := readHeader_short sock see a l (hshort l (List.mem_cons_self ..))
        (blockWire lines last ++ body)
      rw [blockWire_cons, List.append_assoc, hl.1, List.foldl_cons]
      exact readHeader_value_short last body lines _
        fun k hk => hshort k (List.mem_cons_of_mem _ hk)

end Loops

/-! ## Both loops over a block -/

/-- Both header loops leave exactly the body, however long the lines are, unless
the text of some line is a whole number of 1023-byte chunks. -/
theorem headerLoops_stop_at_body (sock : Fd) (lines : List HeaderLine) (last : Eol)
    (body : Bytes) :
    ((clearHeader sock (blockWire lines last ++ body)).rest = body ∧
        (postHeader sock (blockWire lines last ++ body)).rest = body) ↔
      ∀ l ∈ lines, ¬ 1023 ∣ l.text.length := by
  rw [clearHeader, postHeader, readHeader_rest_eq_body, readHeader_rest_eq_body]
  exact and_self_iff

/-- A header line of 1023 bytes, none of them NUL. -/
def fullLine : HeaderLine where
  text := List.replicate 1023 97
  eol := .crlf
  nonempty := by decide
  unbroken := by
    intro c hc
    rw [List.eq_of_mem_replicate hc]
    decide

/-- After a line of 1023 bytes both loops stop in front of the empty line. -/
theorem headerLoops_stop_early :
    (0 : UInt8) ∉ fullLine.text ∧
      (clearHeader .sockClient (blockWire [fullLine] .crlf ++ bytes "body")).rest ≠ bytes "body" ∧
      (postHeader .sockClient (blockWire [fullLine] .crlf ++ bytes "body")).rest ≠
        bytes "body" := by
  have hdvd : ¬ ∀ l ∈ [fullLine], ¬ commSize - 1 ∣ l.text.length := by
    intro hall
    have hlen : fullLine.text.length = commSize - 1 := List.length_replicate
    exact hall fullLine (List.mem_singleton_self _) (by rw [hlen])
  refine ⟨fun h0 => ?_, fun h => hdvd ?_, fun h => hdvd ?_⟩
  · exact absurd (List.eq_of_mem_replicate h0) (by decide)
  · exact (readHeader_rest_eq_body _ _ _ _ _ _).mp h
  · exact (readHeader_rest_eq_body _ _ _ _ _ _).mp h

end Httpd
