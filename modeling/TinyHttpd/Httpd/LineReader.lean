import TinyHttpd.Httpd.GetLine

/-!
# The lines of a stream

`get_line` call after call until one returns 0.  Between them the calls return the whole
stream with its line ends made line feeds: each call takes the front of the stream up to a
place where `normalize` can be cut (`normalize_getLineLoop`), and stores what that front
becomes.
-/

namespace Httpd

open CString

/-! ## Line ends -/

/-- Every CR LF pair and every remaining CR becomes one LF. -/
def normalize : Bytes → Bytes
  | [] => []
  | [c] => if c = cr then [lf] else [c]
  | c :: d :: s =>
      if c = cr then
        if d = lf then lf :: normalize s else lf :: normalize (d :: s)
      else c :: normalize (d :: s)

theorem normalize_cons {c : UInt8} (s : Bytes) (hc : c ≠ cr) :
    normalize (c :: s) = c :: normalize s := by
  cases s with
  | nil => simp [normalize, hc]
  | cons d s => simp [normalize, hc]

/-- A CR takes the LF behind it along. -/
theorem normalize_cr (sock : Fd) (s : Bytes) :
    normalize (cr :: s) = lf :: normalize (skipLf sock s).1 := by
  cases s with
  | nil => rfl
  | cons d s =>
      by_cases hd : d = lf
      · simp [normalize, skipLf, hd]
      · simp [normalize, skipLf, hd]

/-! ## One call -/

/-- What one call stores in `buf`, index by index: the bytes of the line, and a NUL. -/
def Chunk.stores (k : Chunk) : List (UInt8 × Nat) := (k.line ++ [0]).zipIdx

/-- A call returns what the front it takes becomes. -/
theorem normalize_getLineLoop (sock : Fd) :
    ∀ (room : Nat) (input : Bytes), normalize input =
      (getLineLoop sock room input).line ++ normalize (getLineLoop sock room input).rest
  | 0, _ => rfl
  | _ + 1, [] => rfl
  | room + 1, c :: input => by
      have ih := normalize_getLineLoop sock room input
      rcases lineEnd_cases c with rfl | rfl | ⟨hc, hl⟩
      · rw [getLineLoop_cr, normalize_cr sock]
        rfl
      · rw [getLineLoop_lf, normalize_cons input lf_ne_cr]
        rfl
      · rw [getLineLoop_cons sock room input hc hl, normalize_cons input hc, ih]
        rfl

theorem getLineLoop_length (sock : Fd) :
    ∀ (room : Nat) (input : Bytes), (getLineLoop sock room input).line.length ≤ room
  | 0, _ => le_rfl
  | _ + 1, [] => Nat.zero_le _
  | room + 1, c :: input => by
      have ih := getLineLoop_length sock room input
      rcases lineEnd_cases c with rfl | rfl | ⟨hc, hl⟩
      · simp
      · simp
      · rw [getLineLoop_cons sock room input hc hl]
        exact Nat.succ_le_succ ih

/-- With room for a byte, nothing is stored only where nothing comes. -/
theorem getLineLoop_eq_nil_iff (sock : Fd) (room : Nat) (input : Bytes) :
    (getLineLoop sock (room + 1) input).line = [] ↔ input = [] := by
  cases input with
  | nil => simp [getLineLoop]
  | cons c input =>
      refine iff_of_false (fun h => ?_) (List.cons_ne_nil c input)
      rcases lineEnd_cases c with rfl | rfl | ⟨hc, hl⟩
      · simp at h
      · simp at h
      · rw [getLineLoop_cons sock room input hc hl] at h
        cases h

/-- An LF ends the line. -/
theorem getLineLoop_lf_last (sock : Fd) :
    ∀ (room : Nat) (input : Bytes), lf ∉ (getLineLoop sock room input).line.dropLast
  | 0, _ => List.not_mem_nil
  | _ + 1, [] => List.not_mem_nil
  | room + 1, c :: input => by
      have ih := getLineLoop_lf_last sock room input
      rcases lineEnd_cases c with rfl | rfl | ⟨hc, hl⟩
      · simp
      · simp
      · rw [getLineLoop_cons sock room input hc hl]
        cases hline : (getLineLoop sock room input).line with
        | nil => simp
        | cons d line =>
            rw [hline] at ih
            simp only [List.dropLast_cons_cons, List.mem_cons, not_or]
            exact ⟨Ne.symm hl, ih⟩

/-- A line that does not end in LF fills its room, or ends with the stream. -/
theorem getLineLoop_open (sock : Fd) :
    ∀ (room : Nat) (input : Bytes), (getLineLoop sock room input).line.getLast? ≠ some lf →
      (getLineLoop sock room input).line.length = room ∨ (getLineLoop sock room input).rest = []
  | 0, _ => fun _ => .inl rfl
  | _ + 1, [] => fun _ => .inr rfl
  | room + 1, c :: input => by
      have ih := getLineLoop_open sock room input
      rcases lineEnd_cases c with rfl | rfl | ⟨hc, hl⟩
      · simp
      · simp
      · rw [getLineLoop_cons sock room input hc hl]
        intro hlast
        have hlast' : (getLineLoop sock room input).line.getLast? ≠ some lf := by
          intro h
          exact hlast (by simp [List.getLast?_cons, h])
        rcases ih hlast' with hfull | hend
        · exact .inl (by rw [List.length_cons, hfull])
        · exact .inr hend

/-- A call takes a front of the stream, which does not end between a CR and its LF. -/
theorem getLineLoop_front (sock : Fd) :
    ∀ (room : Nat) (input : Bytes), ∃ front,
      input = front ++ (getLineLoop sock room input).rest ∧
        ¬(front.getLast? = some cr ∧ (getLineLoop sock room input).rest.head? = some lf)
  | 0, input => ⟨[], rfl, nofun⟩
  | _ + 1, [] => ⟨[], rfl, nofun⟩
  | room + 1, c :: input => by
      obtain ⟨front, hfront, hpair⟩ := getLineLoop_front sock room input
      rcases lineEnd_cases c with rfl | rfl | ⟨hc, hl⟩
      · rw [getLineLoop_cr]
        cases input with
        | nil => exact ⟨[cr], rfl, by simp [skipLf]⟩
        | cons d input =>
            by_cases hd : d = lf
            · exact ⟨[cr, d], by simp [skipLf, hd], by simp [hd]⟩
            · exact ⟨[cr], by simp [skipLf, hd], by simp [skipLf, hd]⟩
      · exact ⟨[lf], by simp, by simp⟩
      · rw [getLineLoop_cons sock room input hc hl]
        refine ⟨c :: front, by rw [List.cons_append, ← hfront], ?_⟩
        rintro ⟨hcr, hlf⟩
        cases front with
        | nil => exact hc (Option.some.inj hcr)
        | cons d front => exact hpair ⟨by rwa [List.getLast?_cons_cons] at hcr, hlf⟩

/-- The stores stay below a bound that the line stays below. -/
theorem Chunk.stores_lt {k : Chunk} {bound : Nat} (h : k.line.length < bound) :
    ∀ p ∈ k.stores, p.2 < bound := by
  rintro ⟨c, i⟩ hp
  have hi := (List.mem_zipIdx hp).2.1
  rw [List.length_append, List.length_singleton] at hi
  dsimp only
  omega

/-- What one call does, on any stream. -/
structure LineRead (maxLen : Nat) (input : Bytes) (k : Chunk) : Prop where
  bytes : k.line.length ≤ maxLen - 1
  stores : ∀ p ∈ k.stores, p.2 < maxLen
  exhausted : k.line.length = 0 ↔ input = []
  ended : lf ∉ k.line.dropLast
  unended : k.line.getLast? ≠ some lf → k.line.length = maxLen - 1 ∨ k.rest = []
  front : ∃ front, input = front ++ k.rest ∧
    ¬(front.getLast? = some cr ∧ k.rest.head? = some lf)

theorem lineRead_getLine (sock : Fd) {maxLen : Nat} (hmax : 2 ≤ maxLen) (input : Bytes) :
    LineRead maxLen input (getLine sock maxLen input) where
  bytes := getLineLoop_length sock (maxLen - 1) input
  stores := Chunk.stores_lt (by
    have h := getLineLoop_length sock (maxLen - 1) input
    rw [getLine]
    omega)
  exhausted := by
    obtain ⟨room, rfl⟩ := Nat.exists_eq_add_of_le' hmax
    rw [List.length_eq_zero_iff]
    exact getLineLoop_eq_nil_iff sock room input
  ended := getLineLoop_lf_last sock (maxLen - 1) input
  unended := getLineLoop_open sock (maxLen - 1) input
  front := getLineLoop_front sock (maxLen - 1) input

/-! ## Call after call -/

/-- The calls up to the first one that returns 0, at most that many. -/
def linesLoop (sock : Fd) (maxLen : Nat) : Nat → Bytes → List Chunk
  | 0, _ => []
  | fuel + 1, input =>
      let k := getLine sock maxLen input
      if k.line.length = 0 then [k] else k :: linesLoop sock maxLen fuel k.rest

/-- The calls up to the first one that returns 0. -/
def lines (sock : Fd) (maxLen : Nat) (input : Bytes) : List Chunk :=
  linesLoop sock maxLen (input.length + 1) input

/-- The last call of all returns 0, and those before it do not. -/
theorem linesLoop_ends (sock : Fd) (maxLen : Nat) :
    ∀ (fuel : Nat) (input : Bytes), input.length < fuel →
      ∃ ks k, linesLoop sock maxLen fuel input = ks ++ [k] ∧ k.line.length = 0 ∧
        ∀ k' ∈ ks, k'.line.length ≠ 0
  | 0, _, h => absurd h (Nat.not_lt_zero _)
  | fuel + 1, input, h => by
      rw [linesLoop]
      split
      next hzero => exact ⟨[], _, rfl, hzero, nofun⟩
      next hmore =>
          have hlt := getLine_rest_length_lt (List.ne_nil_of_length_pos (Nat.pos_of_ne_zero hmore))
          obtain ⟨ks, k, hks, hzero, hnonzero⟩ :=
            linesLoop_ends sock maxLen fuel (getLine sock maxLen input).rest (by omega)
          exact ⟨_ :: ks, k, by rw [hks, List.cons_append], hzero,
            List.forall_mem_cons.mpr ⟨hmore, hnonzero⟩⟩

/-- The lines together are the stream. -/
theorem linesLoop_flatten (sock : Fd) {maxLen : Nat} (hmax : 2 ≤ maxLen) :
    ∀ (fuel : Nat) (input : Bytes), input.length < fuel →
      (linesLoop sock maxLen fuel input).flatMap Chunk.line = normalize input
  | 0, _, h => absurd h (Nat.not_lt_zero _)
  | fuel + 1, input, h => by
      rw [linesLoop]
      split
      next hzero =>
          have hempty := (lineRead_getLine sock hmax input).exhausted.mp hzero
          rw [List.flatMap_singleton, List.eq_nil_of_length_eq_zero hzero, hempty]
          rfl
      next hmore =>
          have hlt := getLine_rest_length_lt (List.ne_nil_of_length_pos (Nat.pos_of_ne_zero hmore))
          rw [List.flatMap_cons, linesLoop_flatten sock hmax fuel _ (by omega)]
          exact (normalize_getLineLoop sock (maxLen - 1) input).symm

/-- Reading a stream line by line ends with a call that returns 0, and loses and invents
nothing: the lines make up the stream with its line ends made LF.  Each call stores within
its buffer, returns 0 at the end of the stream only, has LF as its last byte only, and
stops short of it only where the buffer or the stream ends. -/
theorem lines_exact (sock : Fd) {maxLen : Nat} (hmax : 2 ≤ maxLen) (s : Bytes) :
    (∃ ks k, lines sock maxLen s = ks ++ [k] ∧ k.line.length = 0 ∧
        ∀ k' ∈ ks, k'.line.length ≠ 0) ∧
      (lines sock maxLen s).flatMap Chunk.line = normalize s ∧
      ∀ input, LineRead maxLen input (getLine sock maxLen input) :=
  ⟨linesLoop_ends sock maxLen _ s (Nat.lt_succ_self _),
    linesLoop_flatten sock hmax _ s (Nat.lt_succ_self _), lineRead_getLine sock hmax⟩

/-- Two bytes at a time. -/
theorem lines_exact_pairs :
    (lines .sockClient 3 (bytes "ab\r\n\rc")).flatMap Chunk.line = bytes "ab\n\nc" :=
  ((lines_exact .sockClient (by decide) (bytes "ab\r\n\rc")).2.1).trans (by decide +kernel)

end Httpd
