import TinyHttpd.Httpd.Route

/-!
# The words of a request line

`accept_request` copies the method and the URL out of a buffer that is zeroed behind the
line.  A NUL is not white space, so the loops run on into the zeros, and it is the zeros
they copy there that end `method` and `url` as C strings.  On a line without NUL bytes the
two strings are its first two words, as long as the first one fits.
-/

namespace Httpd

open CString

/-! ## The copying loops -/

/-- The longest prefix without white space. -/
def firstWord (line : Bytes) : Bytes := line.takeWhile (!isspace ·)

/-- What is behind it. -/
def behindWord (line : Bytes) : Bytes := line.dropWhile (!isspace ·)

/-- The next word, empty where there is none. -/
def secondWord (line : Bytes) : Bytes := firstWord ((behindWord line).dropWhile isspace)

theorem firstWord_cons {c : UInt8} (line : Bytes) (hc : isspace c = false) :
    firstWord (c :: line) = c :: firstWord line := by
  simp [firstWord, hc]

theorem behindWord_cons {c : UInt8} (line : Bytes) (hc : isspace c = false) :
    behindWord (c :: line) = behindWord line := by
  simp [behindWord, hc]

theorem length_firstWord_le (line : Bytes) : (firstWord line).length ≤ line.length :=
  (List.takeWhile_prefix _).length_le

theorem mem_of_mem_dropWhile {p : UInt8 → Bool} {c : UInt8} {line : Bytes}
    (h : c ∈ line.dropWhile p) : c ∈ line :=
  (List.dropWhile_suffix p).mem h

theorem length_secondWord_le (line : Bytes) : (secondWord line).length ≤ line.length := by
  have hspaces := (List.dropWhile_suffix isspace (l := behindWord line)).length_le
  have hword := (List.dropWhile_suffix (!isspace ·) (l := line)).length_le
  exact (length_firstWord_le _).trans (hspaces.trans hword)

/-- The loops copy zeros as they copy anything else. -/
theorem copyWord_zeros : ∀ room n : Nat,
    ∃ i m, copyWord room (List.replicate n 0) = (List.replicate i 0, List.replicate m 0)
  | 0, n => ⟨0, n, rfl⟩
  | _ + 1, 0 => ⟨0, 0, rfl⟩
  | room + 1, n + 1 => by
      obtain ⟨i, m, h⟩ := copyWord_zeros room n
      exact ⟨i + 1, m, by simp [copyWord, List.replicate_succ, isspace, h]⟩

theorem cstr_zeros (n : Nat) : cstr (List.replicate n 0) = [] := by
  cases n with
  | zero => rfl
  | succ n => rfl

/-- With room for the first word of a line without NUL bytes, a loop leaves that word as
a C string, and goes on in front of the white space behind it or in the zeros. -/
theorem copyWord_padded (n : Nat) : ∀ {line : Bytes} {room : Nat}, (0 : UInt8) ∉ line →
    (firstWord line).length ≤ room →
    ∃ m, cstr (copyWord room (line ++ List.replicate n 0)).1 = firstWord line ∧
      (copyWord room (line ++ List.replicate n 0)).2 = behindWord line ++ List.replicate m 0
  | [], room, _, _ => by
      obtain ⟨i, m, h⟩ := copyWord_zeros room n
      exact ⟨m, by simp [h, cstr_zeros, firstWord, behindWord]⟩
  | c :: line, room, hnul, hroom => by
      rw [List.mem_cons, not_or] at hnul
      cases hc : isspace c with
      | true =>
          refine ⟨n, ?_⟩
          cases room with
          | zero => simp [copyWord, firstWord, behindWord, hc]
          | succ room => simp [copyWord, firstWord, behindWord, hc]
      | false =>
          rw [firstWord_cons line hc] at hroom ⊢
          rw [behindWord_cons line hc]
          cases room with
          | zero => simp at hroom
          | succ room =>
              obtain ⟨m, hword, hrest⟩ := copyWord_padded n hnul.2 (Nat.le_of_succ_le_succ hroom)
              refine ⟨m, ?_, ?_⟩
              · simp [copyWord, hc, cstr_cons, Ne.symm hnul.1, hword]
              · simp [copyWord, hc, hrest]

/-- A word longer than the room is cut. -/
theorem copyWord_cut (rest : Bytes) : ∀ {line : Bytes} {room : Nat},
    room ≤ (firstWord line).length → (copyWord room (line ++ rest)).1 = line.take room
  | _, 0, _ => by simp [copyWord]
  | [], room + 1, h => absurd h (by simp [firstWord])
  | c :: line, room + 1, h => by
      cases hc : isspace c with
      | true => simp [firstWord, hc] at h
      | false =>
          rw [firstWord_cons line hc] at h
          have ih := copyWord_cut rest (Nat.le_of_succ_le_succ h)
          simp [copyWord, hc, ih]

/-- Zeros are not white space. -/
theorem dropWhile_isspace_padded (line : Bytes) (n : Nat) :
    (line ++ List.replicate n 0).dropWhile isspace =
      line.dropWhile isspace ++ List.replicate n 0 := by
  induction line with
  | nil =>
      cases n with
      | zero => rfl
      | succ n => exact List.dropWhile_cons_of_neg (by decide)
  | cons c line ih =>
      cases hc : isspace c with
      | true => simpa [hc] using ih
      | false => simp [hc]

theorem scanRequestLine_words {line : Bytes} (hlen : line.length < commSize)
    (hnul : (0 : UInt8) ∉ line) (hfits : (firstWord line).length ≤ commSize / 10 - 1) :
    scanRequestLine line = (firstWord line, secondWord line) := by
  obtain ⟨m, hmethod, hrest⟩ := copyWord_padded (commSize - line.length) hnul hfits
  have hnul' : (0 : UInt8) ∉ (behindWord line).dropWhile isspace :=
    fun h => hnul (mem_of_mem_dropWhile (mem_of_mem_dropWhile h))
  have hroom : (secondWord line).length ≤ commSize - 1 := by
    have hsecond := length_secondWord_le line
    omega
  obtain ⟨m', hurl, -⟩ := copyWord_padded m hnul' hroom
  rw [scanRequestLine]
  dsimp only
  rw [hmethod, hrest, dropWhile_isspace_padded, hurl]
  rfl

/-! ## Long methods -/

theorem IsGet.length {method : Bytes} (h : IsGet method) : (cstr method).length = 3 := by
  rw [IsGet, strcasecmp_eq_zero] at h
  have hlength := congrArg List.length h
  rwa [List.length_map] at hlength

theorem IsPost.length {method : Bytes} (h : IsPost method) : (cstr method).length = 4 := by
  rw [IsPost, strcasecmp_eq_zero] at h
  have hlength := congrArg List.length h
  rwa [List.length_map] at hlength

/-- A method as long as its array is none that the server knows. -/
theorem unknown_of_long {line : Bytes} (hnul : (0 : UInt8) ∉ line)
    (hlong : commSize / 10 - 1 < (firstWord line).length) :
    ¬IsGet (scanRequestLine line).1 ∧ ¬IsPost (scanRequestLine line).1 := by
  have hplain : cstr (line.take (commSize / 10 - 1)) = line.take (commSize / 10 - 1) :=
    cstr_eq_self fun _ hc h0 => hnul (List.mem_of_mem_take (h0 ▸ hc))
  have hmethod : (scanRequestLine line).1 = line.take (commSize / 10 - 1) := by
    rw [scanRequestLine]
    dsimp only
    rw [copyWord_cut _ hlong.le, hplain]
  have hlength : (cstr (scanRequestLine line).1).length = commSize / 10 - 1 := by
    have hle := length_firstWord_le line
    rw [hmethod, hplain, List.length_take]
    omega
  exact ⟨fun h => absurd (hlength.symm.trans h.length) (by decide),
    fun h => absurd (hlength.symm.trans h.length) (by decide)⟩

/-! ## The first `?` -/

/-- `?`. -/
abbrev questionMark : UInt8 := 63

theorem splitQuery_of_notMem {url : Bytes} (h : questionMark ∉ url) :
    splitQuery url = (url, none) := by
  induction url with
  | nil => rfl
  | cons c url ih =>
      rw [List.mem_cons, not_or] at h
      rw [splitQuery, if_neg (Ne.symm h.1), ih h.2]

theorem splitQuery_append {url : Bytes} (query : Bytes) (h : questionMark ∉ url) :
    splitQuery (url ++ questionMark :: query) = (url, some query) := by
  induction url with
  | nil => rfl
  | cons c url ih =>
      rw [List.mem_cons, not_or] at h
      rw [List.cons_append, splitQuery, if_neg (Ne.symm h.1), ih h.2]

/-- How a GET cuts a URL. -/
structure CutAtQuery (token url query : Bytes) : Prop where
  plain : questionMark ∉ url
  joined : questionMark ∈ token → url ++ questionMark :: query = token
  whole : questionMark ∉ token → url = token ∧ query = []

theorem cutAtQuery_splitTarget {method : Bytes} (hget : IsGet method) (token : Bytes) :
    CutAtQuery token (splitTarget method token).1 (splitTarget method token).2.1 := by
  rw [splitTarget_eq, target, query, if_pos hget, if_pos hget]
  by_cases hmem : questionMark ∈ token
  · obtain ⟨url, query, rfl, hurl⟩ := List.eq_append_cons_of_mem hmem
    rw [splitQuery_append query hurl]
    exact ⟨hurl, fun _ => rfl, fun h => absurd hmem h⟩
  · rw [splitQuery_of_notMem hmem]
    exact ⟨hmem, fun h => absurd h hmem, fun _ => ⟨rfl, rfl⟩⟩

/-! ## Request lines -/

/-- On a line without NUL bytes, the method and the URL are the first two words of the
line when the first one fits its array, and the request is refused otherwise.  A GET cuts
the second one at its first `?`. -/
theorem requestLine_parsed {line : Bytes} (hlen : line.length ≤ 1023)
    (hnul : (0 : UInt8) ∉ line) :
    ((firstWord line).length ≤ 101 →
        scanRequestLine line = (firstWord line, secondWord line)) ∧
      (101 < (firstWord line).length → ∀ env input, (requestLine input).line = line →
        acceptRequest env input =
          (requestLine input).calls ++ echoErrorToClient .sockClient 400) ∧
      (IsGet (scanRequestLine line).1 →
        CutAtQuery (secondWord line)
          (splitTarget (scanRequestLine line).1 (scanRequestLine line).2).1
          (splitTarget (scanRequestLine line).1 (scanRequestLine line).2).2.1) := by
  have hshort := scanRequestLine_words (Nat.lt_succ_of_le hlen) hnul
  refine ⟨hshort, fun hlong env input hline => ?_, fun hget => ?_⟩
  · rw [acceptRequest_eq, hline, route]
    dsimp only
    rw [if_pos (unknown_of_long hnul hlong), answer]
  · by_cases hfits : (firstWord line).length ≤ 101
    · rw [hshort hfits] at hget ⊢
      exact cutAtQuery_splitTarget hget (secondWord line)
    · exact absurd hget (unknown_of_long hnul (Nat.lt_of_not_le hfits)).1

theorem requestLine_parsed_query :
    scanRequestLine (bytes "GET  /a?b?c HTTP/1.0\n") = (bytes "GET", bytes "/a?b?c") ∧
      CutAtQuery (bytes "/a?b?c") (bytes "/a") (bytes "b?c") := by
  have hlen : (bytes "GET  /a?b?c HTTP/1.0\n").length ≤ 1023 := by decide +kernel
  have hnul : 0 ∉ bytes "GET  /a?b?c HTTP/1.0\n" := by decide +kernel
  have h := requestLine_parsed hlen hnul
  exact ⟨h.1 (by decide +kernel), h.2.2 (by decide +kernel)⟩

end Httpd
