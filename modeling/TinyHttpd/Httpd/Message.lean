import TinyHttpd.Httpd.ContentLength
import TinyHttpd.Httpd.RequestLine

/-!
# The requests of a browser

A browser sends a request line, some header lines, an empty line, and for a POST the body,
whose length one of the header lines announces.  When every line fits the line buffer and no
other line begins with `Content-Length`, the handler takes all of it as it is meant: the
method, the URL, the length, and what is behind the header.
-/

namespace Httpd

open CString

/-- What a request has besides its method and its body. -/
structure Message where
  url : Bytes
  version : Bytes
  eol : Eol
  /-- The header lines in front of the one with the length, and behind it. -/
  front : List HeaderLine
  back : List HeaderLine
  lengthEol : Eol
  last : Eol

/-- The request line. -/
def Message.line (m : Message) (method : String) : Bytes :=
  bytes method ++ 32 :: m.url ++ 32 :: m.version

theorem unbroken_decimalNat (n : Nat) : Unbroken (decimalNat n) := by
  intro c hc
  have hdigit := isDigits_decimalNat n c hc
  constructor
  · rintro rfl
    exact absurd hdigit (by decide)
  · rintro rfl
    exact absurd hdigit (by decide)

theorem unbroken_append {a b : Bytes} (ha : Unbroken a) (hb : Unbroken b) : Unbroken (a ++ b) :=
  List.forall_mem_append.mpr ⟨ha, hb⟩

/-- The header line that announces that many bytes. -/
def lengthLine (n : Nat) (eol : Eol) : HeaderLine where
  text := bytes "Content-Length: " ++ decimalNat n
  eol := eol
  nonempty := List.append_ne_nil_of_left_ne_nil (by decide) _
  unbroken := unbroken_append (by decide +kernel) (unbroken_decimalNat n)

/-- A GET. -/
def Message.get (m : Message) : Bytes :=
  m.line "GET" ++ m.eol.wire ++ blockWire (m.front ++ m.back) m.last

/-- A POST. -/
def Message.post (m : Message) (body : Bytes) : Bytes :=
  m.line "POST" ++ m.eol.wire ++
    (blockWire (m.front ++ lengthLine body.length m.lengthEol :: m.back) m.last ++ body)

/-- The URL is one word, and every line fits and means no other length. -/
structure Message.Plain (m : Message) : Prop where
  nonempty : m.url ≠ []
  url : ∀ c ∈ m.url, isspace c = false ∧ c ≠ 0
  version : ∀ c ∈ m.version, c ≠ cr ∧ c ≠ lf ∧ c ≠ 0
  short : (m.line "POST").length < 1023
  headers : ∀ l ∈ m.front ++ m.back, l.text.length < 1023 ∧ begins l.text = false

/-- What a message has besides its URL fits around a URL of that many bytes. -/
structure Message.Around (m : Message) (n : Nat) : Prop where
  version : ∀ c ∈ m.version, c ≠ cr ∧ c ≠ lf ∧ c ≠ 0
  room : n + m.version.length + 6 < 1023
  headers : ∀ l ∈ m.front ++ m.back, l.text.length < 1023 ∧ begins l.text = false

theorem Message.Around.plain {m : Message} {n : Nat} (h : m.Around n) {url : Bytes} (hne : url ≠ [])
    (hurl : ∀ c ∈ url, isspace c = false ∧ c ≠ 0) (hlength : url.length ≤ n) :
    { m with url := url }.Plain where
  nonempty := hne
  url := hurl
  version := h.version
  short := by
    have hname : (bytes "POST").length = 4 := by decide
    have hroom := h.room
    simp only [Message.line, List.length_append, List.length_cons, hname]
    omega
  headers := h.headers

/-! ## The request line -/

theorem Message.Plain.unbroken_line {m : Message} (h : m.Plain) {method : String}
    (hmethod : ∀ c ∈ bytes method, isspace c = false ∧ c ≠ 0) :
    Unbroken (m.line method) ∧ (0 : UInt8) ∉ m.line method := by
  have hword : ∀ {c : UInt8}, isspace c = false → c ≠ cr ∧ c ≠ lf := by
    intro c hc
    constructor
    · rintro rfl
      exact absurd hc (by decide)
    · rintro rfl
      exact absurd hc (by decide)
  have hall : ∀ c ∈ m.line method, c ≠ cr ∧ c ≠ lf ∧ c ≠ 0 := by
    refine List.forall_mem_append.mpr ⟨List.forall_mem_append.mpr ⟨fun c hc => ?_, ?_⟩, ?_⟩
    · obtain ⟨hspace, hnul⟩ := hmethod c hc
      exact ⟨(hword hspace).1, (hword hspace).2, hnul⟩
    · refine List.forall_mem_cons.mpr ⟨by decide, fun c hc => ?_⟩
      obtain ⟨hspace, hnul⟩ := h.url c hc
      exact ⟨(hword hspace).1, (hword hspace).2, hnul⟩
    · exact List.forall_mem_cons.mpr ⟨by decide, h.version⟩
  exact ⟨fun c hc => ⟨(hall c hc).1, (hall c hc).2.1⟩, fun hnul => (hall 0 hnul).2.2 rfl⟩

/-- A word in front of a blank. -/
theorem firstWord_append {word : Bytes} (h : ∀ c ∈ word, isspace c = false) (rest : Bytes) :
    firstWord (word ++ 32 :: rest) = word ∧ behindWord (word ++ 32 :: rest) = 32 :: rest := by
  have hall : ∀ c ∈ word, (!isspace c) = true := fun c hc => by rw [h c hc]; rfl
  have htake : firstWord (32 :: rest) = [] := rfl
  have hdrop : behindWord (32 :: rest) = 32 :: rest := rfl
  rw [firstWord, behindWord, List.takeWhile_append_of_pos hall, List.dropWhile_append_of_pos hall,
    ← firstWord, ← behindWord, htake, hdrop, List.append_nil]
  exact ⟨rfl, rfl⟩

/-- What the handler reads of a request line and what is behind it. -/
theorem Message.Plain.requestLine {m : Message} (h : m.Plain) (method : String)
    (hmethod : ∀ c ∈ bytes method, isspace c = false ∧ c ≠ 0)
    (hlength : (bytes method).length ≤ 4) (tail : Bytes) :
    requestMethod (m.line method ++ m.eol.wire ++ tail) = bytes method ∧
      requestUrl (m.line method ++ m.eol.wire ++ tail) = m.url ∧
      (Httpd.requestLine (m.line method ++ m.eol.wire ++ tail)).rest = tail := by
  obtain ⟨hunbroken, hnul⟩ := h.unbroken_line hmethod
  have hshort : (m.line method).length < commSize - 1 := by
    have hsize : commSize = 1024 := rfl
    have hpost := h.short
    have hname : (bytes "POST").length = 4 := by decide
    rw [Message.line] at hpost ⊢
    simp only [List.length_append, List.length_cons] at hpost ⊢
    omega
  obtain ⟨hline, hrest⟩ :=
    getLineLoop_fits .sockClient m.eol tail (m.line method) (commSize - 1) hunbroken hshort
  have hget : Httpd.requestLine (m.line method ++ m.eol.wire ++ tail) =
      getLineLoop .sockClient (commSize - 1) (m.line method ++ m.eol.wire ++ tail) := rfl
  have hscan : scanRequestLine (m.line method ++ [lf]) = (bytes method, m.url) := by
    have hword : firstWord (m.line method ++ [lf]) = bytes method ∧
        behindWord (m.line method ++ [lf]) = 32 :: (m.url ++ 32 :: (m.version ++ [lf])) := by
      rw [Message.line, List.append_assoc, List.append_assoc, List.cons_append, List.cons_append]
      exact firstWord_append (fun c hc => (hmethod c hc).1) _
    have hsecond : secondWord (m.line method ++ [lf]) = m.url := by
      obtain ⟨c, url, hurl⟩ := List.exists_cons_of_ne_nil h.nonempty
      have hc : ¬isspace c = true := by
        rw [(h.url c (hurl ▸ List.mem_cons_self ..)).1]
        exact Bool.false_ne_true
      rw [secondWord, hword.2, List.dropWhile_cons_of_pos (by decide), hurl, List.cons_append,
        List.dropWhile_cons_of_neg hc, ← List.cons_append, ← hurl]
      exact (firstWord_append (fun c hc => (h.url c hc).1) _).1
    have hnul' : (0 : UInt8) ∉ m.line method ++ [lf] := by
      rw [List.mem_append, not_or]
      exact ⟨hnul, by decide⟩
    rw [scanRequestLine_words (by rw [List.length_append, List.length_singleton]; omega) hnul'
      (by rw [hword.1]; exact hlength.trans (by decide)), hword.1, hsecond]
  rw [requestMethod, requestUrl, hget, hline, hrest, hscan]
  exact ⟨rfl, rfl, rfl⟩

/-! ## The header of a POST -/

theorem begins_lengthLine (n : Nat) (eol : Eol) : begins (lengthLine n eol).text = true := by
  have hname : ((bytes "Content-Length: ").take 14).map tolower = bytes "content-length" := by
    decide
  rw [begins, lengthLine, List.take_append_of_le_length (by decide), hname]
  exact beq_self_eq_true _

theorem reading_lengthLine {n : Nat} (h : n ≤ intMax) (eol : Eol) :
    reading (lengthLine n eol).text = n := by
  have hdrop : (lengthLine n eol).text.drop 16 = decimalNat n := by
    rw [lengthLine, List.drop_append_of_le_length (by decide)]
    rfl
  rw [reading, hdrop]
  have hatoi := atoi_digits (w := []) (List.forall_mem_nil _) (isDigits_decimalNat n)
    (by rw [numeral_decimalNat]; exact h)
  rw [List.nil_append] at hatoi
  rw [hatoi, numeral_decimalNat]

/-- Of a block in which one line announces a length, that length is taken. -/
theorem contentLength_block {front back : List HeaderLine} {n : Nat} (hn : n ≤ intMax)
    (hheaders : ∀ l ∈ front ++ back, l.text.length < 1023 ∧ begins l.text = false)
    (sock : Fd) (eol last : Eol) (body : Bytes) :
    (postHeader sock (blockWire (front ++ lengthLine n eol :: back) last ++ body)).value = n ∧
      (postHeader sock (blockWire (front ++ lengthLine n eol :: back) last ++ body)).rest =
        body := by
  have hlength : (lengthLine n eol).text.length < 1023 := by
    have hname : (bytes "Content-Length: ").length = 16 := by decide
    have hmax : intMax = 2147483647 := rfl
    have hdigits : (decimalNat n).length ≤ 10 := length_decimalNat_le (by omega)
    rw [lengthLine, List.length_append, hname]
    omega
  have hshort : ∀ l ∈ front ++ lengthLine n eol :: back, l.text.length < 1023 := by
    intro l hl
    rcases List.mem_append.mp hl with hfront | hback
    · exact (hheaders l (List.mem_append_left _ hfront)).1
    · rcases List.mem_cons.mp hback with rfl | hback
      · exact hlength
      · exact (hheaders l (List.mem_append_right _ hback)).1
  have hlast : lastLine? begins (front ++ lengthLine n eol :: back) = some (lengthLine n eol) := by
    refine List.find?_eq_some_iff_append.mpr ⟨begins_lengthLine n eol, back.reverse,
      front.reverse, by simp, fun l hl => ?_⟩
    rw [(hheaders l (List.mem_append_right _ (List.mem_reverse.mp hl))).2]
    rfl
  constructor
  · show contentLength sock last body (front ++ lengthLine n eol :: back) = n
    rw [contentLength_eq sock last body _ hshort, hlast, Option.map_some, Option.getD_some,
      reading_lengthLine hn]
  · refine (readHeader_rest_eq_body sock _ last body _ _).mpr fun l hl hdvd => ?_
    have hpos := List.length_pos_iff.mpr l.nonempty
    exact Nat.not_dvd_of_pos_of_lt hpos (hshort l hl) hdvd

/-! ## What the handler takes -/

/-- A GET. -/
theorem Message.Plain.get_request {m : Message} (h : m.Plain) :
    requestMethod m.get = bytes "GET" ∧ requestUrl m.get = m.url := by
  obtain ⟨hmethod, hurl, -⟩ := h.requestLine "GET" (by decide +kernel) (by decide +kernel)
    (blockWire (m.front ++ m.back) m.last)
  exact ⟨hmethod, hurl⟩

/-- A POST. -/
theorem Message.Plain.post_request {m : Message} (h : m.Plain) {body : Bytes}
    (hbody : body.length ≤ intMax) :
    requestMethod (m.post body) = bytes "POST" ∧ requestUrl (m.post body) = m.url ∧
      (postHeader .sockClient (Httpd.requestLine (m.post body)).rest).value = body.length ∧
      (postHeader .sockClient (Httpd.requestLine (m.post body)).rest).rest = body := by
  obtain ⟨hmethod, hurl, hrest⟩ := h.requestLine "POST" (by decide +kernel) (by decide +kernel)
    (blockWire (m.front ++ lengthLine body.length m.lengthEol :: m.back) m.last ++ body)
  refine ⟨hmethod, hurl, ?_⟩
  rw [Message.post, hrest]
  exact contentLength_block hbody h.headers .sockClient m.lengthEol m.last body

end Httpd
