import TinyHttpd.Httpd.Buffers
import TinyHttpd.Httpd.RequestLine

/-!
# The indices of the scanning loops

`accept_request` scans the request line with an index into `buffer` and one into `method` or
`url`.  Each of its three loops looks at `buffer[j]` before it looks at `j`.  Here the loops
keep their indices, with every index of `buffer` they evaluate and every store they make.
The words they copy are those of `copyWord`, and the bounds are read off that.
-/

namespace Httpd

open CString

/-! ## The loops -/

/-- `buffer[j]`.  Behind the last byte of the buffer lies some byte of the stack. -/
def byteAt (buffer : Bytes) (past : UInt8) (j : Nat) : UInt8 := buffer.getD j past

/-- What a loop leaves: its two indices, the indices at which it evaluated `buffer`, and the
bytes it stored with their indices. -/
structure Scan where
  i : Nat
  j : Nat
  reads : List Nat
  stores : List (UInt8 × Nat)

/-- A loop that copies a word into an array of `size` bytes. -/
def copyLoop (buffer : Bytes) (past : UInt8) (size i j : Nat) : Scan :=
  if isspace (byteAt buffer past j) = false ∧ i < size - 1 ∧ j < commSize then
    let s := copyLoop buffer past size (i + 1) (j + 1)
    -- The condition evaluates `buffer[j]` once, the assignment once more.
    ⟨s.i, s.j, j :: j :: s.reads, (byteAt buffer past j, i) :: s.stores⟩
  else ⟨i, j, [j], []⟩
termination_by commSize - j

/-- The loop over the white space between the method and the URL. -/
def skipLoop (buffer : Bytes) (past : UInt8) (i j : Nat) : Scan :=
  if isspace (byteAt buffer past j) = true ∧ j < commSize then
    let s := skipLoop buffer past i (j + 1)
    ⟨s.i, s.j, j :: s.reads, s.stores⟩
  else ⟨i, j, [j], []⟩
termination_by commSize - j

/-- What the three loops did with `buffer`, `method` and `url`. -/
structure LineScan where
  reads : List Nat
  method : List (UInt8 × Nat)
  url : List (UInt8 × Nat)

/-- The scan of the request line. -/
def scanLoops (buffer : Bytes) (past : UInt8) : LineScan :=
  let method := copyLoop buffer past (commSize / 10) 0 0
  let gap := skipLoop buffer past method.i method.j
  let url := copyLoop buffer past commSize 0 gap.j
  ⟨method.reads ++ gap.reads ++ url.reads, method.stores, url.stores⟩

/-- The buffer behind `get_line`: it was zeroed before the call. -/
def lineBuffer (line : Bytes) : Bytes := line ++ List.replicate (commSize - line.length) 0

/-- A zeroed array of `size` bytes behind some stores. -/
def storeAll (size : Nat) (stores : List (UInt8 × Nat)) : Bytes :=
  stores.foldl (fun array p => array.set p.2 p.1) (List.replicate size 0)

theorem length_lineBuffer {line : Bytes} (hlen : line.length ≤ 1023) :
    (lineBuffer line).length = commSize := by
  have hsize : commSize = 1024 := rfl
  rw [lineBuffer, List.length_append, List.length_replicate]
  omega

/-! ## A loop copies a word -/

/-- Where a copying loop stops it leaves the rest of the buffer. -/
theorem copyWord_stop {room : Nat} {buffer : Bytes}
    (h : room = 0 ∨ ∀ c ∈ buffer.head?, isspace c = true) : copyWord room buffer = ([], buffer) := by
  cases room with
  | zero => rfl
  | succ room =>
      cases buffer with
      | nil => rfl
      | cons c buffer =>
          rcases h with h | h
          · exact absurd h (Nat.succ_ne_zero room)
          · rw [copyWord, if_pos (h c rfl)]

theorem copyWord_space (room : Nat) {c : UInt8} (buffer : Bytes) (hc : isspace c = true) :
    copyWord room (c :: buffer) = ([], c :: buffer) :=
  copyWord_stop (.inr fun _ hd => Option.some.inj hd ▸ hc)

theorem copyWord_step {room : Nat} {c : UInt8} {buffer : Bytes} (hc : isspace c = false) :
    copyWord (room + 1) (c :: buffer) =
      (c :: (copyWord room buffer).1, (copyWord room buffer).2) := by
  rw [copyWord, hc]
  rfl

theorem drop_eq_byteAt_cons {buffer : Bytes} {j : Nat} (past : UInt8) (hj : j < buffer.length) :
    buffer.drop j = byteAt buffer past j :: buffer.drop (j + 1) := by
  rw [byteAt, ← List.getElem_eq_getD past]
  exact List.drop_eq_getElem_cons hj

/-- A loop that stops has read one byte. -/
theorem mem_singleton_iff_between {j k : Nat} : k ∈ [j] ↔ j ≤ k ∧ k ≤ j := by
  rw [List.mem_singleton]
  omega

/-- What a copying loop does from the indices `i` and `j` with room for that many bytes. -/
structure Copied (buffer : Bytes) (room i j : Nat) (s : Scan) : Prop where
  length : s.j = j + (copyWord room (buffer.drop j)).1.length
  rest : buffer.drop s.j = (copyWord room (buffer.drop j)).2
  stores : s.stores = (copyWord room (buffer.drop j)).1.zipIdx i
  reads : ∀ k, k ∈ s.reads ↔ j ≤ k ∧ k ≤ s.j
  bound : s.j ≤ commSize

theorem copied_copyLoop {buffer : Bytes} (past : UInt8) (hbuffer : buffer.length = commSize)
    (size i j : Nat) (hj : j ≤ commSize) :
    Copied buffer (size - 1 - i) i j (copyLoop buffer past size i j) := by
  fun_induction copyLoop buffer past size i j with
  | case1 i j h s ih =>
      obtain ⟨hspace, hi, hlt⟩ := h
      have hrec : Copied buffer (size - 1 - (i + 1)) (i + 1) (j + 1) s := ih hlt
      have hlength := hrec.length
      have hroom : size - 1 - i = size - 1 - (i + 1) + 1 := by omega
      have hcopy : copyWord (size - 1 - i) (buffer.drop j) =
          (byteAt buffer past j :: (copyWord (size - 1 - (i + 1)) (buffer.drop (j + 1))).1,
            (copyWord (size - 1 - (i + 1)) (buffer.drop (j + 1))).2) := by
        rw [drop_eq_byteAt_cons past (hbuffer ▸ hlt), hroom, copyWord_step hspace]
      refine ⟨?_, ?_, ?_, fun k => ?_, hrec.bound⟩
      · rw [hcopy, List.length_cons, hlength]
        omega
      · rw [hcopy]
        exact hrec.rest
      · rw [hcopy, hrec.stores]
        rfl
      · dsimp only
        rw [List.mem_cons, List.mem_cons, hrec.reads]
        omega
  | case2 i j h =>
      have hstop : copyWord (size - 1 - i) (buffer.drop j) = ([], buffer.drop j) := by
        refine copyWord_stop ?_
        rcases Nat.lt_or_ge j buffer.length with hlt | hge
        · rw [drop_eq_byteAt_cons past hlt]
          cases hspace : isspace (byteAt buffer past j) with
          | true => exact .inr fun c hc => Option.some.inj hc ▸ hspace
          | false =>
              have hfull : ¬i < size - 1 := fun hi => h ⟨hspace, hi, hbuffer ▸ hlt⟩
              exact .inl (by omega)
        · rw [List.drop_eq_nil_of_le hge]
          exact .inr fun c hc => absurd hc (Option.not_mem_none c)
      refine ⟨?_, ?_, ?_, fun k => ?_, hj⟩
      · rw [hstop]
        rfl
      · rw [hstop]
      · rw [hstop]
        rfl
      · exact mem_singleton_iff_between

/-- What the loop over white space does from the index `j`. -/
structure Skipped (buffer : Bytes) (j : Nat) (s : Scan) : Prop where
  le : j ≤ s.j
  rest : buffer.drop s.j = (buffer.drop j).dropWhile isspace
  reads : ∀ k, k ∈ s.reads ↔ j ≤ k ∧ k ≤ s.j
  bound : s.j ≤ commSize

theorem skipped_skipLoop {buffer : Bytes} (past : UInt8) (hbuffer : buffer.length = commSize)
    (i j : Nat) (hj : j ≤ commSize) : Skipped buffer j (skipLoop buffer past i j) := by
  fun_induction skipLoop buffer past i j with
  | case1 j h s ih =>
      obtain ⟨hspace, hlt⟩ := h
      have hrec : Skipped buffer (j + 1) s := ih hlt
      have hle := hrec.le
      refine ⟨Nat.le_of_succ_le hle, ?_, fun k => ?_, hrec.bound⟩
      · have hdrop := drop_eq_byteAt_cons past (hbuffer ▸ hlt : j < buffer.length)
        rw [hdrop, List.dropWhile_cons_of_pos hspace]
        exact hrec.rest
      · dsimp only
        rw [List.mem_cons, hrec.reads]
        omega
  | case2 j h =>
      refine ⟨le_rfl, ?_, fun k => ?_, hj⟩
      · rcases Nat.lt_or_ge j buffer.length with hlt | hge
        · have hspace : ¬isspace (byteAt buffer past j) = true := fun hs => h ⟨hs, hbuffer ▸ hlt⟩
          rw [drop_eq_byteAt_cons past hlt, List.dropWhile_cons_of_neg hspace]
        · rw [List.drop_eq_nil_of_le hge]
          rfl
      · exact mem_singleton_iff_between

/-! ## The three loops -/

/-- The buffer behind the method and the white space that follows it. -/
def behindGap (buffer : Bytes) : Bytes :=
  (copyWord (commSize / 10 - 1) buffer).2.dropWhile isspace

/-- What the three loops do with a full buffer. -/
structure Scanned (buffer : Bytes) (s : LineScan) : Prop where
  method : s.method = (copyWord (commSize / 10 - 1) buffer).1.zipIdx
  url : s.url = (copyWord (commSize - 1) (behindGap buffer)).1.zipIdx
  reads : ∃ last ≤ commSize, (∀ k, k ∈ s.reads ↔ k ≤ last) ∧
    buffer.drop last = (copyWord (commSize - 1) (behindGap buffer)).2

theorem scanned_scanLoops {buffer : Bytes} (past : UInt8) (hbuffer : buffer.length = commSize) :
    Scanned buffer (scanLoops buffer past) := by
  let m := copyLoop buffer past (commSize / 10) 0 0
  let g := skipLoop buffer past m.i m.j
  let u := copyLoop buffer past commSize 0 g.j
  have hm : Copied buffer (commSize / 10 - 1) 0 0 m :=
    copied_copyLoop past hbuffer (commSize / 10) 0 0 (Nat.zero_le _)
  have hg : Skipped buffer m.j g := skipped_skipLoop past hbuffer m.i m.j hm.bound
  have hu : Copied buffer (commSize - 1) 0 g.j u :=
    copied_copyLoop past hbuffer commSize 0 g.j hg.bound
  have hgap : buffer.drop g.j = behindGap buffer := by
    rw [hg.rest, hm.rest, List.drop_zero, behindGap]
  refine ⟨hm.stores, ?_, u.j, hu.bound, fun k => ?_, ?_⟩
  · rw [← hgap]
    exact hu.stores
  · have hle := hg.le
    have hlength := hu.length
    change k ∈ m.reads ++ g.reads ++ u.reads ↔ k ≤ u.j
    rw [List.mem_append, List.mem_append, hm.reads, hg.reads, hu.reads]
    omega
  · rw [← hgap]
    exact hu.rest

/-! ## White space behind the target -/

/-- A word with enough room is the first word. -/
theorem copyWord_eq_words : ∀ {room : Nat} {buffer : Bytes}, buffer.length ≤ room →
    copyWord room buffer = (firstWord buffer, behindWord buffer)
  | 0, buffer, h => by
      rw [List.eq_nil_of_length_eq_zero (Nat.le_zero.mp h)]
      rfl
  | _ + 1, [], _ => rfl
  | room + 1, c :: buffer, h => by
      cases hc : isspace c with
      | true => simp [copyWord, firstWord, behindWord, hc]
      | false =>
          rw [copyWord_step hc, copyWord_eq_words (Nat.le_of_succ_le_succ h),
            firstWord_cons buffer hc, behindWord_cons buffer hc]

theorem length_copyWord_rest_le : ∀ (room : Nat) (buffer : Bytes),
    (copyWord room buffer).2.length ≤ buffer.length
  | 0, _ => le_rfl
  | _ + 1, [] => le_rfl
  | room + 1, c :: buffer => by
      cases hc : isspace c with
      | true => rw [copyWord_space _ buffer hc]
      | false =>
          rw [copyWord_step hc]
          exact Nat.le_succ_of_le (length_copyWord_rest_le room buffer)

/-- The loop over the method makes room for the URL: it takes a byte, or the next one does. -/
theorem length_behindGap_lt {buffer : Bytes} (hbuffer : buffer ≠ []) :
    (behindGap buffer).length < buffer.length := by
  obtain ⟨c, buffer, rfl⟩ := List.exists_cons_of_ne_nil hbuffer
  have hspaces : ∀ rest : Bytes, (rest.dropWhile isspace).length < rest.length + 1 :=
    fun rest => Nat.lt_succ_of_le (List.dropWhile_suffix isspace).length_le
  rw [behindGap, List.length_cons]
  cases hc : isspace c with
  | true =>
      rw [copyWord_space _ buffer hc, List.dropWhile_cons_of_pos hc]
      exact hspaces buffer
  | false =>
      have hroom : commSize / 10 - 1 = 100 + 1 := rfl
      rw [hroom, copyWord_step hc]
      have hrest := length_copyWord_rest_le 100 buffer
      have hgap := hspaces (copyWord 100 buffer).2
      dsimp only
      omega

/-- What is behind the method in the line: its first word is cut behind 101 bytes. -/
def targetPart (line : Bytes) : Bytes :=
  (line.drop (min 101 (firstWord line).length)).dropWhile isspace

theorem copyWord_rest_padded (n : Nat) : ∀ (room : Nat) (line : Bytes),
    ∃ m, (copyWord room (line ++ List.replicate n 0)).2 =
      line.drop (min room (firstWord line).length) ++ List.replicate m 0
  | 0, line => ⟨n, by simp [copyWord]⟩
  | room + 1, [] => by
      obtain ⟨i, m, h⟩ := copyWord_zeros (room + 1) n
      exact ⟨m, by simp [h]⟩
  | room + 1, c :: line => by
      cases hc : isspace c with
      | true => exact ⟨n, by simp [copyWord, firstWord, hc]⟩
      | false =>
          obtain ⟨m, h⟩ := copyWord_rest_padded n room line
          refine ⟨m, ?_⟩
          rw [List.cons_append, copyWord_step hc, h, firstWord_cons line hc, List.length_cons,
            Nat.add_min_add_right, List.drop_succ_cons]

theorem behindGap_lineBuffer (line : Bytes) :
    ∃ m, behindGap (lineBuffer line) = targetPart line ++ List.replicate m 0 := by
  obtain ⟨m, h⟩ := copyWord_rest_padded (commSize - line.length) (commSize / 10 - 1) line
  refine ⟨m, ?_⟩
  rw [behindGap, lineBuffer, h, dropWhile_isspace_padded]
  rfl

theorem behindWord_ne_nil_iff (line : Bytes) :
    behindWord line ≠ [] ↔ ∃ c ∈ line, isspace c = true := by
  rw [behindWord, Ne, List.dropWhile_eq_nil_iff]
  simp

/-- The index stays inside the buffer when white space stops the loop over the URL. -/
theorem reads_inside_iff {line : Bytes} (past : UInt8) (hlen : line.length ≤ 1023) :
    (∀ j ∈ (scanLoops (lineBuffer line) past).reads, j < 1024) ↔
      ∃ c ∈ targetPart line, isspace c = true := by
  have hbuffer := length_lineBuffer hlen
  have hsize : commSize = 1024 := rfl
  obtain ⟨last, hlast, hreads, hdrop⟩ := (scanned_scanLoops past hbuffer).reads
  have hroom : (behindGap (lineBuffer line)).length ≤ commSize - 1 := by
    have hne : lineBuffer line ≠ [] := List.ne_nil_of_length_pos (hbuffer.symm ▸ Nat.succ_pos 1023)
    have hlt := length_behindGap_lt hne
    omega
  have hinside : (∀ j ∈ (scanLoops (lineBuffer line) past).reads, j < 1024) ↔ last < 1024 :=
    ⟨fun h => h last ((hreads last).mpr le_rfl),
      fun h j hj => ((hreads j).mp hj).trans_lt h⟩
  have hrest : last < 1024 ↔ (lineBuffer line).drop last ≠ [] := by
    rw [Ne, List.drop_eq_nil_iff]
    omega
  obtain ⟨m, hgap⟩ := behindGap_lineBuffer line
  rw [hinside, hrest, hdrop, copyWord_eq_words hroom, behindWord_ne_nil_iff, hgap]
  constructor
  · rintro ⟨c, hc, hspace⟩
    rcases List.mem_append.mp hc with htarget | hzero
    · exact ⟨c, htarget, hspace⟩
    · rw [List.eq_of_mem_replicate hzero] at hspace
      exact absurd hspace (by decide)
  · rintro ⟨c, hc, hspace⟩
    exact ⟨c, List.mem_append_left _ hc, hspace⟩

/-! ## The stores -/

theorem foldl_set_zipIdx (w : Bytes) : ∀ (front : Bytes) (room : Nat), w.length ≤ room →
    (w.zipIdx front.length).foldl (fun array p => array.set p.2 p.1)
      (front ++ List.replicate room 0) = front ++ w ++ List.replicate (room - w.length) 0 := by
  induction w with
  | nil =>
      intro front room _
      rw [List.append_nil]
      rfl
  | cons c w ih =>
      intro front room hroom
      cases room with
      | zero => exact absurd hroom (Nat.not_succ_le_zero _)
      | succ room =>
          have hset : (front ++ List.replicate (room + 1) 0).set front.length c =
              (front ++ [c]) ++ List.replicate room 0 := by
            rw [List.set_append_right _ _ le_rfl, Nat.sub_self, List.replicate_succ,
              List.set_cons_zero, List.append_assoc, List.singleton_append]
          have hlength : front.length + 1 = (front ++ [c]).length := by
            rw [List.length_append, List.length_singleton]
          rw [List.zipIdx_cons, List.foldl_cons, hset, hlength,
            ih (front ++ [c]) room (Nat.le_of_succ_le_succ hroom), List.length_cons,
            Nat.add_sub_add_right, List.append_assoc front [c] w, List.singleton_append]

/-- Stores of a word from the front of a zeroed array on. -/
theorem storeAll_zipIdx {w : Bytes} {size : Nat} (hw : w.length ≤ size) :
    storeAll size w.zipIdx = w ++ List.replicate (size - w.length) 0 :=
  foldl_set_zipIdx w [] size hw

theorem cstr_append_zeros (w : Bytes) (n : Nat) : cstr (w ++ List.replicate n 0) = cstr w := by
  induction w with
  | nil => exact cstr_zeros n
  | cons c w ih => rw [List.cons_append, cstr_cons, cstr_cons, ih]

/-- The arrays the indexed loops fill hold the strings that the scan of the line returns. -/
theorem scanRequestLine_eq_stored {line : Bytes} (past : UInt8) (hlen : line.length ≤ 1023) :
    scanRequestLine line =
      (cstr (storeAll (commSize / 10) (scanLoops (lineBuffer line) past).method),
        cstr (storeAll commSize (scanLoops (lineBuffer line) past).url)) := by
  have hscan := scanned_scanLoops past (length_lineBuffer hlen)
  have hmethod := length_copyWord_le (commSize / 10 - 1) (lineBuffer line)
  have hurl := length_copyWord_le (commSize - 1) (behindGap (lineBuffer line))
  rw [hscan.method, hscan.url, storeAll_zipIdx (hmethod.trans (Nat.sub_le _ _)),
    storeAll_zipIdx (hurl.trans (Nat.sub_le _ _)), cstr_append_zeros, cstr_append_zeros]
  rfl

/-! ## The bounds -/

/-- An array keeps its terminating NUL: the stores stay below its last element. -/
structure KeepsLast (size : Nat) (stores : List (UInt8 × Nat)) : Prop where
  below : ∀ p ∈ stores, p.2 < size - 1
  nul : (storeAll size stores)[size - 1]? = some 0

/-- The scan stays inside its three arrays. -/
structure InBounds (s : LineScan) : Prop where
  buffer : ∀ j ∈ s.reads, j < 1024
  method : KeepsLast 102 s.method
  url : KeepsLast 1024 s.url

theorem keepsLast_zipIdx {size : Nat} {w : Bytes} (hsize : 0 < size) (hw : w.length ≤ size - 1) :
    KeepsLast size w.zipIdx where
  below := by
    rintro ⟨c, i⟩ hp
    have hi := (List.mem_zipIdx hp).2.1
    dsimp only
    omega
  nul := by
    rw [storeAll_zipIdx (hw.trans (Nat.sub_le _ _)), List.getElem?_append_right hw,
      List.getElem?_replicate, if_pos (by omega)]

/-- For every line of at most 1023 bytes in the zeroed buffer, and whatever lies behind the
buffer: the scan stays inside its arrays exactly when there is white space behind the start
of the target. -/
theorem scan_inBounds_iff {line : Bytes} (past : UInt8) (hlen : line.length ≤ 1023) :
    InBounds (scanLoops (lineBuffer line) past) ↔ ∃ c ∈ targetPart line, isspace c = true := by
  have hscan := scanned_scanLoops past (length_lineBuffer hlen)
  have hmethod : KeepsLast 102 (scanLoops (lineBuffer line) past).method := by
    rw [hscan.method]
    exact keepsLast_zipIdx (by decide) (length_copyWord_le _ _)
  have hurl : KeepsLast 1024 (scanLoops (lineBuffer line) past).url := by
    rw [hscan.url]
    exact keepsLast_zipIdx (by decide) (length_copyWord_le _ _)
  rw [← reads_inside_iff past hlen]
  exact ⟨fun h => h.buffer, fun h => ⟨h, hmethod, hurl⟩⟩

theorem scan_inBounds_get :
    InBounds (scanLoops (lineBuffer (bytes "GET / HTTP/1.0\n")) 0) :=
  (scan_inBounds_iff 0 (by decide +kernel)).mpr ⟨32, by decide +kernel, by decide⟩

/-- A line with no target, as `get_line` leaves it: `buffer[1024]` is evaluated. -/
theorem scan_past_buffer :
    (requestLine (bytes "GET\r\n")).line = bytes "GET\n" ∧ (bytes "GET\n").length ≤ 1023 ∧
      ∀ past, ¬InBounds (scanLoops (lineBuffer (bytes "GET\n")) past) := by
  have hlen : (bytes "GET\n").length ≤ 1023 := by decide +kernel
  refine ⟨by decide +kernel, hlen, fun past h => ?_⟩
  obtain ⟨c, hc, -⟩ := (reads_inside_iff past hlen).mp h.buffer
  have htarget : targetPart (bytes "GET\n") = [] := by decide +kernel
  rw [htarget] at hc
  exact absurd hc List.not_mem_nil

end Httpd
