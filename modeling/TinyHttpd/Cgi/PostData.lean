import Mathlib.Data.List.Infix
import TinyHttpd.Httpd.BodyRelay

/-!
# The body in the buffer of a CGI program

The programs read as many bytes as `CONTENT_LENGTH` says into `post_data`, which has 1024
bytes.  Four of them put a NUL behind the last one; `god_list_cgi` has a zeroed buffer
instead, and appends a field to it.  The number comes from the client through `exe_cgi`,
and neither side compares it with the size of the buffer.
-/

namespace Cgi

open CString Httpd

/-- `sizeof(post_data)`. -/
def postDataSize : Nat := 1024

/-! ## The stores -/

/-- A store into `post_data`: an index, and a byte. -/
abbrev Store := Nat × UInt8

/-- `for(; i<content_length; ++i) read(0, &post_data[i], 1);` with that many rounds to go.
A `read` at the end of standard input stores nothing. -/
def bodyStores : Nat → Nat → Bytes → List Store
  | 0, _, _ => []
  | n + 1, i, [] => bodyStores n (i + 1) []
  | n + 1, i, c :: stdin => (i, c) :: bodyStores n (i + 1) stdin

/-- The body, and the NUL behind it. -/
def postData (contentLength : Int) (stdin : Bytes) : List Store :=
  bodyStores contentLength.toNat 0 stdin ++ [(contentLength.toNat, 0)]

/-- The POST branch of `add_god_cgi`. -/
def addGodCgi (contentLength : Int) (stdin : Bytes) : List Store := postData contentLength stdin

/-- The POST branch of `add_god_type_cgi`. -/
def addGodTypeCgi (contentLength : Int) (stdin : Bytes) : List Store :=
  postData contentLength stdin

/-- The POST branch of `change_god_cgi`. -/
def changeGodCgi (contentLength : Int) (stdin : Bytes) : List Store :=
  postData contentLength stdin

/-- The POST branch of `math_cgi`. -/
def mathCgi (contentLength : Int) (stdin : Bytes) : List Store := postData contentLength stdin

/-- The memory from the start of the buffer on, behind the stores. -/
def afterStores (memory : Bytes) (stores : List Store) : Bytes :=
  stores.foldl (fun memory s => memory.set s.1 s.2) memory

/-- `strcat(post_data, text)`, on a string of that length. -/
def strcatStores (length : Nat) (text : Bytes) : List Store :=
  ((text ++ [0]).zipIdx length).map Prod.swap

/-- The POST branch of `god_list_cgi`, with what the memory behind the buffer holds. -/
def godListCgi (beyond : Bytes) (contentLength : Int) (stdin : Bytes) : List Store :=
  let body := bodyStores contentLength.toNat 0 stdin
  let text := cstr (afterStores (List.replicate postDataSize 0 ++ beyond) body)
  let appended := bytes "&god_size=any"
  if bytes "god_size" <:+: text then body ++ [(text.length, 0)]
  else body ++ strcatStores text.length appended ++ [(text.length + appended.length, 0)]

/-- Every store is into the buffer. -/
def InBuffer (stores : List Store) : Prop := ∀ s ∈ stores, s.1 < postDataSize

instance (stores : List Store) : Decidable (InBuffer stores) :=
  inferInstanceAs (Decidable (∀ s ∈ stores, _))

/-! ## What the loop stores -/

theorem inBuffer_append (a b : List Store) :
    InBuffer (a ++ b) ↔ InBuffer a ∧ InBuffer b := List.forall_mem_append

theorem inBuffer_singleton (i : Nat) (c : UInt8) : InBuffer [(i, c)] ↔ i < postDataSize :=
  List.forall_mem_singleton

/-- On a standard input that lasts, the loop stores at every index. -/
theorem inBuffer_bodyStores_iff :
    ∀ (n i : Nat) (stdin : Bytes), n ≤ stdin.length → i ≤ postDataSize →
      (InBuffer (bodyStores n i stdin) ↔ i + n ≤ postDataSize)
  | 0, i, _, _, hi => iff_of_true (by exact nofun) hi
  | n + 1, i, [], h, _ => absurd h (by simp)
  | n + 1, i, c :: stdin, h, hi => by
      rw [bodyStores, InBuffer, List.forall_mem_cons]
      by_cases hlt : i < postDataSize
      · have ih := inBuffer_bodyStores_iff n (i + 1) stdin (by simpa using h) hlt
        rw [InBuffer] at ih
        rw [and_iff_right hlt, ih]
        omega
      · exact iff_of_false (fun hall => hlt hall.1) (by omega)

/-- The loop puts the input over the front of the memory. -/
theorem afterStores_bodyStores :
    ∀ (n : Nat) (front stdin memory : Bytes), n ≤ stdin.length → n ≤ memory.length →
      afterStores (front ++ memory) (bodyStores n front.length stdin) =
        front ++ stdin.take n ++ memory.drop n
  | 0, front, stdin, memory, _, _ => by simp [bodyStores, afterStores]
  | n + 1, front, [], _, h, _ => absurd h (by simp)
  | n + 1, front, c :: stdin, [], _, h => absurd h (by simp)
  | n + 1, front, c :: stdin, d :: memory, h, hm => by
      have ih := afterStores_bodyStores n (front ++ [c]) stdin memory (by simpa using h)
        (by simpa using hm)
      rw [List.length_append, List.length_singleton] at ih
      have hset : (front ++ d :: memory).set front.length c = front ++ [c] ++ memory := by simp
      rw [bodyStores, afterStores, List.foldl_cons, hset, ← afterStores, ih]
      simp

/-- Every store is into an array of that size. -/
def InArray (size : Nat) (stores : List Store) : Prop := ∀ s ∈ stores, s.1 < size

instance (size : Nat) (stores : List Store) : Decidable (InArray size stores) :=
  inferInstanceAs (Decidable (∀ s ∈ stores, _))

theorem inArray_strcatStores_iff (size length : Nat) (text : Bytes) :
    InArray size (strcatStores length text) ↔ length + text.length < size := by
  constructor
  · intro h
    refine h (length + text.length, 0) ?_
    rw [strcatStores, List.mem_map]
    refine ⟨(0, length + text.length), ?_, rfl⟩
    rw [List.mem_zipIdx_iff_le_and_getElem?_sub]
    simp
  · intro h s hs
    obtain ⟨⟨c, i⟩, hmem, rfl⟩ := List.mem_map.mp hs
    have hi := (List.mem_zipIdx hmem).2.1
    rw [List.length_append, List.length_singleton] at hi
    show i < size
    omega

theorem inBuffer_strcatStores_iff (length : Nat) (text : Bytes) :
    InBuffer (strcatStores length text) ↔ length + text.length < postDataSize :=
  inArray_strcatStores_iff postDataSize length text

/-! ## The two kinds of buffer -/

/-- The four programs with a NUL behind the body. -/
theorem inBuffer_postData_iff {contentLength : Int} {stdin : Bytes}
    (hstdin : stdin.length = contentLength.toNat) :
    InBuffer (postData contentLength stdin) ↔ contentLength < postDataSize := by
  rw [postData, inBuffer_append, inBuffer_singleton,
    inBuffer_bodyStores_iff _ 0 stdin hstdin.ge (Nat.zero_le _)]
  have hsize : postDataSize = 1024 := rfl
  omega

/-- The C string in the zeroed buffer behind the body is that of the body, unless the body
fills the buffer without a NUL. -/
theorem cstr_afterStores {n : Nat} {stdin : Bytes} (beyond : Bytes) (hstdin : stdin.length = n)
    (hn : n ≤ postDataSize) :
    cstr (afterStores (List.replicate postDataSize 0 ++ beyond) (bodyStores n 0 stdin)) =
      cstr stdin ∨ postDataSize ≤ (cstr stdin).length ∧ postDataSize ≤
        (cstr (afterStores (List.replicate postDataSize 0 ++ beyond)
          (bodyStores n 0 stdin))).length := by
  have hmemory := afterStores_bodyStores n [] stdin (List.replicate postDataSize 0 ++ beyond)
    hstdin.ge (by rw [List.length_append, List.length_replicate]; omega)
  rw [List.nil_append, List.nil_append, List.length_nil] at hmemory
  rw [hmemory, List.take_of_length_le hstdin.le, cstr, List.takeWhile_append]
  split
  next hnone =>
      -- There is no NUL in the body.
      have hall : cstr stdin = stdin := (List.takeWhile_prefix _).eq_of_length hnone
      rcases Nat.lt_or_eq_of_le hn with hlt | rfl
      · refine .inl ?_
        rw [hall, List.drop_append_of_le_length (by rw [List.length_replicate]; omega),
          List.drop_replicate]
        obtain ⟨k, hk⟩ := Nat.exists_eq_add_of_lt hlt
        rw [show postDataSize - n = k + 1 by omega, List.replicate_succ]
        simp
      · refine .inr ⟨by rw [hall, hstdin], ?_⟩
        rw [List.length_append, hstdin]
        exact Nat.le_add_right ..
  next => exact .inl rfl

/-- `god_list_cgi`. -/
theorem inBuffer_godListCgi_iff {contentLength : Int} {stdin : Bytes} (beyond : Bytes)
    (hstdin : stdin.length = contentLength.toNat) :
    InBuffer (godListCgi beyond contentLength stdin) ↔
      contentLength ≤ postDataSize ∧ (cstr stdin).length < postDataSize ∧
        (bytes "god_size" <:+: cstr stdin ∨
          (cstr stdin).length + (bytes "&god_size=any").length < postDataSize) := by
  have hbody := inBuffer_bodyStores_iff contentLength.toNat 0 stdin hstdin.ge (Nat.zero_le _)
  rw [Nat.zero_add] at hbody
  by_cases hfits : contentLength.toNat ≤ postDataSize
  · have hlength : contentLength ≤ postDataSize := by omega
    rw [and_iff_right hlength, godListCgi]
    rcases cstr_afterStores beyond hstdin hfits with htext | ⟨hlong, hlong'⟩
    · rw [htext]
      split
      next hsize =>
          rw [inBuffer_append, inBuffer_singleton, hbody, and_iff_right hfits]
          exact ⟨fun h => ⟨h, .inl hsize⟩, fun h => h.1⟩
      next hsize =>
          rw [inBuffer_append, inBuffer_append, inBuffer_singleton, hbody, and_iff_right hfits,
            inBuffer_strcatStores_iff, and_self]
          exact ⟨fun h => ⟨by omega, .inr h⟩, fun h => h.2.resolve_left hsize⟩
    · refine iff_of_false (fun h => ?_) (fun h => absurd h.1 (Nat.not_lt.mpr hlong))
      split at h
      next =>
          rw [inBuffer_append, inBuffer_singleton] at h
          exact absurd h.2 (Nat.not_lt.mpr hlong')
      next =>
          rw [inBuffer_append, inBuffer_append, inBuffer_singleton] at h
          exact absurd h.2 (Nat.not_lt.mpr (hlong'.trans (Nat.le_add_right ..)))
  · refine iff_of_false (fun h => hfits (hbody.mp ?_)) (fun h => hfits (by omega))
    rw [godListCgi] at h
    split at h
    next => exact ((inBuffer_append _ _).mp h).1
    next => exact ((inBuffer_append _ _).mp ((inBuffer_append _ _).mp h).1).1

/-! ## From the request to the buffer -/

theorem fork_notMem_relayBody (sock pipe : Fd) (child : Option (List ChildCall)) (n : Nat)
    (c : UInt8) (body : Bytes) : .fork child ∉ relayBody sock pipe n c body := by
  intro h
  rcases mem_relayBody h with ⟨got, heq⟩ | ⟨b, heq⟩
  · cases heq
  · cases heq

theorem fork_notMem_relayOutput (pipe sock : Fd) (child : Option (List ChildCall))
    (output : Bytes) : .fork child ∉ relayOutput pipe sock output := by
  intro h
  rcases mem_relayOutput h with ⟨got, heq⟩ | ⟨c, heq⟩
  · cases heq
  · cases heq

/-- The one child of `exe_cgi`. -/
theorem fork_mem_runCgi {env : Env} {sock : Fd} {path method query body : Bytes} {n : Int}
    {child : List ChildCall} (h : .fork (some child) ∈ runCgi env sock path method query n body) :
    env.forks ∧ child = exeCgiChild env path method query n := by
  rw [runCgi] at h
  cases hin : env.pipeInput with
  | false => simp [hin, echoErrorToClient, serverError, errorPage] at h
  | true =>
      cases hout : env.pipeOutput with
      | false => simp [hin, hout, echoErrorToClient, serverError, errorPage] at h
      | true =>
          cases hfork : env.fork with
          | false => simp [hin, hout, hfork, echoErrorToClient, serverError, errorPage] at h
          | true =>
              refine ⟨⟨hin, hout, hfork⟩, ?_⟩
              simpa [hin, hout, hfork, fork_notMem_relayBody, fork_notMem_relayOutput] using h

/-- The environment of that child announces the length. -/
theorem putenv_mem_exeCgiChild {env : Env} {path method query value : Bytes} {n : Int}
    (hpost : IsPost method)
    (h : .putenv (bytes "CONTENT_LENGTH=" ++ value) ∈ exeCgiChild env path method query n) :
    value = decimal n := by
  have hget : ¬strcasecmp (bytes "GET") method = 0 := by
    intro hget
    refine not_isGet_and_isPost ?_ hpost
    rw [strcasecmp_eq_zero] at hget
    rw [IsGet, strcasecmp_eq_zero, hget]
  have hmethod : bytes "CONTENT_LENGTH=" ++ value ≠ bytes "REQUEST_METHOD=" ++ method := by
    intro heq
    have hhead : (67 : UInt8) = 82 := (List.cons.inj heq).1
    exact absurd hhead (by decide)
  have hexit : .putenv (bytes "CONTENT_LENGTH=" ++ value) ∉
      if env.execl then [] else [ChildCall.exit 1] := by
    split <;> simp
  simpa [exeCgiChild, hget, hmethod, hexit] using h

/-- What a program started for a POST gets from `exe_cgi`: the announced length in its
environment, and as many bytes on its standard input. -/
theorem exeCgi_passes {env : Env} {sock : Fd} {path method query input : Bytes}
    {child : List ChildCall} {value : Bytes} (hpost : IsPost method)
    (hfork : .fork (some child) ∈ exeCgi env sock path method query input)
    (hentry : .putenv (bytes "CONTENT_LENGTH=" ++ value) ∈ child) :
    atoi value = (postHeader sock input).value ∧
      (fed (exeCgi env sock path method query input)).length =
        (postHeader sock input).value.toNat := by
  have hget : ¬strcasecmp method (bytes "GET") = 0 := fun hget => not_isGet_and_isPost hget hpost
  have hheader : .fork (some child) ∉ (postHeader sock input).calls := by
    intro hmem
    obtain ⟨peek, got, heq⟩ := postHeader_onlyRecv sock input _ hmem
    cases heq
  rw [exeCgi, if_neg hget] at hfork ⊢
  dsimp only at hfork ⊢
  split at hfork
  next =>
      refine absurd ((List.mem_append.mp hfork).resolve_left hheader) ?_
      simp [echoErrorToClient, serverError, errorPage]
  next hpassed =>
      obtain ⟨hforks, rfl⟩ := fork_mem_runCgi ((List.mem_append.mp hfork).resolve_left hheader)
      have hvalue := putenv_mem_exeCgiChild hpost hentry
      rw [if_neg hpassed, fed_append, (postHeader_onlyRecv sock input).fed, List.nil_append,
        (fed_runCgi env sock path method query _ _ hpost).1, if_pos hforks, fed_relayBody, hvalue,
        atoi_decimal (isInt_postHeader sock input)]
      refine ⟨rfl, ?_⟩
      rw [List.length_append, List.length_take, List.length_replicate]
      omega

/-- For every POST that `exe_cgi` passes on: four of the programs stay in their buffer
exactly for lengths below its size.  `god_list_cgi` does for lengths up to its size whose
body, as a C string, leaves room for a NUL, and for the field where it is appended. -/
theorem post_data_bounded_iff {env : Env} {sock : Fd} {path method query input : Bytes}
    {child : List ChildCall} {value stdin : Bytes} {n : Int} (hpost : IsPost method)
    (hfork : .fork (some child) ∈ exeCgi env sock path method query input)
    (hentry : .putenv (bytes "CONTENT_LENGTH=" ++ value) ∈ child)
    (hn : (postHeader sock input).value = n)
    (hstdin : fed (exeCgi env sock path method query input) = stdin) :
    (InBuffer (addGodCgi (atoi value) stdin) ↔ n < 1024) ∧
      (InBuffer (addGodTypeCgi (atoi value) stdin) ↔ n < 1024) ∧
      (InBuffer (changeGodCgi (atoi value) stdin) ↔ n < 1024) ∧
      (InBuffer (mathCgi (atoi value) stdin) ↔ n < 1024) ∧
      ∀ beyond, InBuffer (godListCgi beyond (atoi value) stdin) ↔
        n ≤ 1024 ∧ (cstr stdin).length < 1024 ∧
          (bytes "god_size" <:+: cstr stdin ∨ (cstr stdin).length + 13 < 1024) := by
  obtain ⟨hvalue, hlength⟩ := exeCgi_passes hpost hfork hentry
  rw [hn] at hvalue hlength
  rw [hstdin] at hlength
  rw [hvalue]
  have hplain := inBuffer_postData_iff hlength
  exact ⟨hplain, hplain, hplain, hplain, fun beyond => inBuffer_godListCgi_iff beyond hlength⟩

/-- The header block and the body of a POST with a body of that many bytes. -/
def longForm (n : Nat) : Bytes :=
  bytes "Content-Length: " ++ decimalNat n ++ bytes "\r\n\r\n" ++ List.replicate n 97

/-- The calls for it. -/
def longFormCalls (n : Nat) : List Call :=
  exeCgi Env.obliging .sockClient (bytes "htdocs/cgi_bin/add_god_cgi") (bytes "POST") []
    (longForm n)

/-- The child that gets it. -/
def longFormChild (n : Nat) : List ChildCall :=
  exeCgiChild Env.obliging (bytes "htdocs/cgi_bin/add_god_cgi") (bytes "POST") [] n

theorem post_data_bounded_small :
    InBuffer (addGodCgi (atoi (decimalNat 3)) (fed (longFormCalls 3))) := by
  have hfork : .fork (some (longFormChild 3)) ∈ longFormCalls 3 := by decide +kernel
  have hentry : .putenv (bytes "CONTENT_LENGTH=" ++ decimalNat 3) ∈ longFormChild 3 := by
    decide +kernel
  have hn : (postHeader .sockClient (longForm 3)).value = 3 := by decide +kernel
  have hpost : IsPost (bytes "POST") := by decide
  exact (post_data_bounded_iff hpost hfork hentry hn rfl).1.mpr (by decide)

/-- A body as long as the buffer: the NUL behind it is out of it. -/
theorem post_data_overrun :
    IsPost (bytes "POST") ∧ .fork (some (longFormChild 1024)) ∈ longFormCalls 1024 ∧
      .putenv (bytes "CONTENT_LENGTH=" ++ decimalNat 1024) ∈ longFormChild 1024 ∧
      ¬InBuffer (addGodCgi (atoi (decimalNat 1024)) (fed (longFormCalls 1024))) := by
  decide +kernel

end Cgi
