import TinyHttpd.Lib.CString

/-!
# The lexical rules of MySQL

A lexer for SQL text in the default mode of a MySQL server: backslashes escape in
strings, double quotes are string quotes.  It reads byte by byte and never looks ahead.
A token comes out with the byte behind it, so a `State` holds what has been read of the
current token.

Strings and numbers keep their source text.  What the lexer puts out as a number or as a
single-quoted string is one on its own (`lex_good`), and the text of two neighbours is
lexed piece by piece where their common boundary is one (`lex_append`).
-/

namespace SqlLex

open CString

/-! ## Tokens -/

inductive Quote where
  | single
  | double
  | national
  | backtick
deriving DecidableEq, Repr

/-- The byte that opens and closes. -/
def Quote.delimiter : Quote → UInt8
  | .single => 39
  | .double => 34
  | .national => 39
  | .backtick => 96

/-- A backslash takes the next byte with it. -/
def Quote.escapes : Quote → Bool
  | .backtick => false
  | _ => true

inductive Token where
  /-- An integer, decimal or floating-point literal. -/
  | number (text : Bytes)
  /-- A hexadecimal or bit-value literal. -/
  | bits (text : Bytes)
  /-- What stands between quotes, as it stands there. -/
  | quoted (q : Quote) (raw : Bytes)
  /-- A keyword or an identifier. -/
  | word (text : Bytes)
  | operator (text : Bytes)
  /-- Text that is no token, or a quote or comment left open. -/
  | error
deriving DecidableEq, Repr

/-! ## Character classes -/

/-- A byte of an identifier. -/
def isword (c : UInt8) : Bool :=
  isdigit c || (97 ≤ c && c ≤ 122) || (65 ≤ c && c ≤ 90) || c == 95 || c == 36 || 128 ≤ c

def isxdigit (c : UInt8) : Bool :=
  isdigit c || (97 ≤ c && c ≤ 102) || (65 ≤ c && c ≤ 70)

def iscntrl (c : UInt8) : Bool := c < 32 || c == 127

/-- A byte of the host in `user@host`. -/
def ishost (c : UInt8) : Bool := (isword c && c < 128) || c == 46

/-- `<`, `>`, `=` and `!`. -/
def iscompare (c : UInt8) : Bool := c == 60 || c == 62 || c == 61 || c == 33

/-! ## Numbers -/

/-- How much of a number there is. -/
inductive NumberState where
  /-- A single `0`. -/
  | zero
  | int
  /-- A single point. -/
  | point
  | frac
  /-- An integer and an `e`. -/
  | mark
  /-- The same and a sign. -/
  | sign
  /-- A fraction and an `e`. -/
  | fracMark
  /-- The same and a sign. -/
  | fracSign
  | exp
  /-- `0x`. -/
  | hexMark
  | hex
  /-- `0b`. -/
  | binMark
  | bin
deriving DecidableEq, Repr

/-- The state behind the first byte. -/
def NumberState.first (c : UInt8) : Option NumberState :=
  if c = 48 then some .zero
  else if isdigit c then some .int
  else if c = 46 then some .point
  else none

/-- The state behind one more byte. -/
def NumberState.next : NumberState → UInt8 → Option NumberState
  | .zero, c =>
      if isdigit c then some .int
      else if c = 46 then some .frac
      else if c = 101 || c = 69 then some .mark
      else if c = 120 then some .hexMark
      else if c = 98 then some .binMark
      else none
  | .int, c =>
      if isdigit c then some .int
      else if c = 46 then some .frac
      else if c = 101 || c = 69 then some .mark
      else none
  | .point, c => if isdigit c then some .frac else none
  | .frac, c =>
      if isdigit c then some .frac
      else if c = 101 || c = 69 then some .fracMark
      else none
  | .mark, c =>
      if isdigit c then some .exp
      else if c = 43 || c = 45 then some .sign
      else none
  | .sign, c => if isdigit c then some .exp else none
  | .fracMark, c =>
      if isdigit c then some .exp
      else if c = 43 || c = 45 then some .fracSign
      else none
  | .fracSign, c => if isdigit c then some .exp else none
  | .exp, c => if isdigit c then some .exp else none
  | .hexMark, c => if isxdigit c then some .hex else none
  | .hex, c => if isxdigit c then some .hex else none
  | .binMark, c => if c = 48 || c = 49 then some .bin else none
  | .bin, c => if c = 48 || c = 49 then some .bin else none

/-- A number may end here. -/
def NumberState.accepts : NumberState → Bool
  | .zero | .int | .frac | .exp => true
  | _ => false

/-- The tokens of a text that ends here. -/
def NumberState.ending (text : Bytes) : NumberState → List Token
  | .zero | .int | .frac | .exp => [.number text]
  | .hex | .bin => [.bits text]
  | .mark | .hexMark | .binMark => [.word text]
  | .sign => [.word text.dropLast, .operator (text.drop (text.length - 1))]
  | .fracMark | .fracSign => [.error]
  | .point => [.operator text]

/-- From a state over a text. -/
def NumberState.run : NumberState → Bytes → Option NumberState
  | q, [] => some q
  | q, c :: text => (q.next c).bind fun q' => q'.run text

/-- The state behind a text, if it can be the beginning of a number. -/
def numberState : Bytes → Option NumberState
  | [] => none
  | c :: text => (NumberState.first c).bind fun q => q.run text

/-- The text is a number. -/
def isNumber (text : Bytes) : Bool := (numberState text).any NumberState.accepts

/-! ## The text of a string -/

/-- Between single quotes, the text is a whole string: a backslash takes the next byte
with it, a quote comes twice, and nothing is left over. -/
def isQuotable : Bytes → Bool
  | [] => true
  | 92 :: _ :: text => isQuotable text
  | 39 :: 39 :: text => isQuotable text
  | c :: text => c != 92 && c != 39 && isQuotable text

/-! ## The lexer -/

/-- What the lexer has read of the current token. -/
inductive Mode where
  | start
  | word (text : Bytes)
  /-- The point behind a word. -/
  | dotted
  | number (q : NumberState) (text : Bytes)
  | operator (text : Bytes)
  /-- `--`. -/
  | dashes
  | line
  /-- `/*`. -/
  | commentOpen
  /-- Inside a comment, with a star as the last byte or not. -/
  | comment (star : Bool)
  /-- The version number behind `/*!`. -/
  | version (digits : Bytes)
  | quoted (q : Quote) (raw : Bytes)
  /-- Behind a backslash. -/
  | escaped (q : Quote) (raw : Bytes)
  /-- Behind a quote that ends the string, unless another follows. -/
  | closing (q : Quote) (raw : Bytes)
  /-- Inside `x'…'` or `b'…'`. -/
  | radix (hex : Bool) (text : Bytes)
  /-- `@`. -/
  | atSign
  /-- `@@`. -/
  | system
  | host (text : Bytes)
  | backslash
deriving DecidableEq

/-- The `executing` flag is set inside `/*! … */`, whose text is executed. -/
structure State where
  mode : Mode
  executing : Bool
deriving DecidableEq

/-- The server's version, as a comment may ask for it. -/
def serverVersion : Nat := 50706

/-- The mode behind a byte that begins a token. -/
def fresh (c : UInt8) : Mode :=
  match NumberState.first c with
  | some q => .number q [c]
  | none =>
      if isspace c then .start
      else if isword c then .word [c]
      else if c = 39 then .quoted .single []
      else if c = 34 then .quoted .double []
      else if c = 96 then .quoted .backtick []
      else if c = 35 then .line
      else if c = 64 then .atSign
      else if c = 92 then .backslash
      else .operator [c]

/-- The tokens of a text that ends here. -/
def ending : Mode → List Token
  | .start => []
  | .word text => [.word text]
  | .dotted => [.operator [46]]
  | .number q text => q.ending text
  | .operator text => [.operator text]
  | .dashes => []
  | .line => []
  | .commentOpen => [.error]
  | .comment _ => [.error]
  | .version _ => [.error]
  | .quoted _ _ => [.error]
  | .escaped _ _ => [.error]
  | .closing q raw => [.quoted q raw]
  | .radix _ _ => [.error]
  | .atSign => [.operator [64]]
  | .system => [.operator [64]]
  | .host text => [.word text]
  | .backslash => [.error]

/-- The byte begins a new token. -/
def breakAt (m : Mode) (c : UInt8) : Mode × List Token := (fresh c, ending m)

/-- The byte belongs to the operator before it: `<=`, `<=>`, `>>`, `!=`, `:=`, `&&`, `||`
and their like. -/
def joins (text : Bytes) (c : UInt8) : Bool :=
  (iscompare c && (text == [60] || text == [62] || text == [61] || text == [33])) ||
    (iscompare c && c != 60 && text.length == 2 && text.head? == some 60) ||
    (c == 61 && text == [58]) || (c == 38 && text == [38]) || (c == 124 && text == [124])

def stepOperator (text : Bytes) (c : UInt8) : Mode × List Token :=
  if text = [45] ∧ c = 45 then (.dashes, [])
  else if text = [47] ∧ c = 42 then (.commentOpen, [])
  else if joins text c then (.operator (text ++ [c]), [])
  else breakAt (.operator text) c

def stepWord (text : Bytes) (c : UInt8) : Mode × List Token :=
  if isword c then (.word (text ++ [c]), [])
  else if c = 46 then (.dotted, [.word text])
  else if c = 39 ∧ (text = [120] ∨ text = [88]) then (.radix true [], [])
  else if c = 39 ∧ (text = [98] ∨ text = [66]) then (.radix false [], [])
  else if c = 39 ∧ (text = [110] ∨ text = [78]) then (.quoted .national [], [])
  else breakAt (.word text) c

def stepNumber (q : NumberState) (text : Bytes) (c : UInt8) : Mode × List Token :=
  match q.next c with
  | some q' => (.number q' (text ++ [c]), [])
  | none =>
      match q with
      | .zero | .int | .hex | .bin =>
          -- An identifier may begin with digits.
          if isword c then (.word (text ++ [c]), []) else breakAt (.number q text) c
      | .mark | .hexMark | .binMark => stepWord text c
      | .sign =>
          let (m, tokens) := stepOperator (text.drop (text.length - 1)) c
          (m, .word text.dropLast :: tokens)
      | .point =>
          if isword c then (.word [c], ending (.number q text)) else breakAt (.number q text) c
      | _ => breakAt (.number q text) c

/-- One more byte, outside of what the `executing` flag decides. -/
def stepMode : Mode → UInt8 → Mode × List Token
  | .start, c => breakAt .start c
  | .word text, c => stepWord text c
  | .dotted, c => if isword c then (.word [c], ending .dotted) else breakAt .dotted c
  | .number q text, c => stepNumber q text c
  | .operator text, c => stepOperator text c
  | .dashes, c =>
      if c = 10 then (.start, [])
      else if isspace c || iscntrl c then (.line, [])
      else
        let (m, tokens) := stepOperator [45] c
        (m, .operator [45] :: tokens)
  | .line, c => if c = 10 then (.start, []) else (.line, [])
  | .commentOpen, c => (.comment (c = 42), [])
  | .comment _, c => (.comment (c = 42), [])
  | .version digits, c =>
      match numberState digits with
      | some q => stepNumber q digits c
      | none => breakAt .start c
  | .quoted q raw, c =>
      if c = 92 && q.escapes then (.escaped q raw, [])
      else if c = q.delimiter then (.closing q raw, [])
      else (.quoted q (raw ++ [c]), [])
  | .escaped q raw, c => (.quoted q (raw ++ [92, c]), [])
  | .closing q raw, c =>
      if c = q.delimiter then (.quoted q (raw ++ [c, c]), []) else breakAt (.closing q raw) c
  | .radix hex text, c =>
      if c = 39 then (.start, if hex && text.length % 2 = 1 then [.error] else [.bits text])
      else if if hex then isxdigit c else c = 48 || c = 49 then (.radix hex (text ++ [c]), [])
      else breakAt (.radix hex text) c
  | .atSign, c =>
      if c = 64 then (.system, [.operator [64]])
      else if ishost c then (.host [c], [.operator [64]])
      else breakAt .atSign c
  | .system, c => if isword c then (.word [c], [.operator [64]]) else breakAt .system c
  | .host text, c => if ishost c then (.host (text ++ [c]), []) else breakAt (.host text) c
  | .backslash, c =>
      if c = 78 then (.start, [.operator [92, 78]]) else breakAt .backslash c

/-- One more byte. -/
def step (s : State) (c : UInt8) : State × List Token :=
  match s.mode with
  | .operator [42] =>
      if s.executing && c = 47 then (⟨.start, false⟩, [])
      else
        let (m, tokens) := stepMode s.mode c
        (⟨m, s.executing⟩, tokens)
  | .comment true =>
      if c = 47 then (⟨.start, false⟩, []) else (⟨.comment (c = 42), s.executing⟩, [])
  | .commentOpen =>
      if c = 33 then (⟨.version [], s.executing⟩, [])
      else (⟨.comment (c = 42), s.executing⟩, [])
  | .version digits =>
      if isdigit c then
        if digits.length = 4 then
          -- The text is executed by every server from that version on.
          if (digits ++ [c]).foldl (fun n d => 10 * n + (d.toNat - 48)) 0 ≤ serverVersion then
            (⟨.start, true⟩, [])
          else (⟨.comment false, s.executing⟩, [])
        else (⟨.version (digits ++ [c]), s.executing⟩, [])
      else
        let (m, tokens) := stepMode (.version digits) c
        (⟨m, true⟩, tokens)
  | m =>
      let (m', tokens) := stepMode m c
      (⟨m', s.executing⟩, tokens)

/-- The state behind a text, and the tokens on the way. -/
def run : State → Bytes → State × List Token
  | s, [] => (s, [])
  | s, c :: text =>
      let (s', tokens) := step s c
      let (t, tokens') := run s' text
      (t, tokens ++ tokens')

/-- The tokens at the end of the text. -/
def finish (s : State) : List Token := ending s.mode ++ if s.executing then [.error] else []

def State.initial : State := ⟨.start, false⟩

/-- The tokens of a text. -/
def lex (text : Bytes) : List Token := (run .initial text).2 ++ finish (run .initial text).1

theorem run_cons (s : State) (c : UInt8) (text : Bytes) :
    run s (c :: text) =
      ((run (step s c).1 text).1, (step s c).2 ++ (run (step s c).1 text).2) := rfl

theorem run_append (s : State) (a b : Bytes) :
    run s (a ++ b) = ((run (run s a).1 b).1, (run s a).2 ++ (run (run s a).1 b).2) := by
  induction a generalizing s with
  | nil => rfl
  | cons c a ih => simp only [List.cons_append, run, ih, List.append_assoc]

/-! ## Numbers and strings are so on their own -/

theorem numberState_snoc {text : Bytes} {q : NumberState} (h : numberState text = some q)
    (c : UInt8) : numberState (text ++ [c]) = q.next c := by
  cases text with
  | nil => cases h
  | cons d text =>
      obtain ⟨q₀, hq₀, hrun⟩ := Option.bind_eq_some_iff.mp h
      rw [List.cons_append, numberState, hq₀, Option.bind_some]
      clear h hq₀
      induction text generalizing q₀ with
      | nil =>
          cases hrun
          simp [NumberState.run]
      | cons e text ih =>
          obtain ⟨q₁, hq₁, hrun⟩ := Option.bind_eq_some_iff.mp hrun
          rw [List.cons_append, NumberState.run, hq₁, Option.bind_some]
          exact ih q₁ hrun

theorem isQuotable_append {a : Bytes} (h : isQuotable a = true) (b : Bytes) :
    isQuotable (a ++ b) = isQuotable b := by
  induction a using isQuotable.induct with
  | case1 => rfl
  | case2 c a ih => exact ih h
  | case3 a ih => exact ih h
  | case4 c a hescape hquote ih =>
      rw [isQuotable] at h
      · simp only [Bool.and_eq_true] at h
        rw [List.cons_append, isQuotable, ih h.2, h.1.1, h.1.2]
        · rfl
        · rintro d b' rfl hb'
          exact absurd h.1.1 (by decide)
        · rintro b' rfl hb'
          exact absurd h.1.2 (by decide)
      · exact hescape
      · exact hquote

/-- A number is a number, and a string whole, on its own. -/
def Token.Good : Token → Prop
  | .number text => isNumber text = true
  | .quoted .single raw => isQuotable raw = true
  | _ => True

/-- The same of what has been read of a token. -/
def Mode.Good : Mode → Prop
  | .number q text => numberState text = some q
  | .quoted .single raw => isQuotable raw = true
  | .escaped .single raw => isQuotable raw = true
  | .closing .single raw => isQuotable raw = true
  | _ => True

/-- The same of the outcome of a step. -/
def Good (r : Mode × List Token) : Prop := r.1.Good ∧ ∀ t ∈ r.2, t.Good

theorem good_fresh (c : UInt8) : (fresh c).Good := by
  rw [fresh]
  split
  next q hq =>
      simp only [Mode.Good, numberState, NumberState.run, hq, Option.bind_some]
  next =>
      split_ifs <;> trivial

theorem good_number_ending {q : NumberState} {text : Bytes} (h : numberState text = some q) :
    ∀ t ∈ q.ending text, t.Good := by
  have hnumber : q.accepts = true → (Token.number text).Good := by
    intro hq
    rw [Token.Good, isNumber, h]
    exact hq
  cases q with
  | zero | int | frac | exp => exact List.forall_mem_singleton.mpr (hnumber rfl)
  | hex | bin | mark | hexMark | binMark | fracMark | fracSign | point =>
      exact List.forall_mem_singleton.mpr trivial
  | sign => exact List.forall_mem_cons.mpr ⟨trivial, List.forall_mem_singleton.mpr trivial⟩

theorem good_ending {m : Mode} (h : m.Good) : ∀ t ∈ ending m, t.Good := by
  cases m with
  | number q text => exact good_number_ending h
  | closing q raw =>
      intro t ht
      cases List.mem_singleton.mp ht
      cases q with
      | single => exact h
      | double | national | backtick => trivial
  | start | dashes | line => exact nofun
  | _ => exact List.forall_mem_singleton.mpr trivial

theorem good_breakAt {m : Mode} (h : m.Good) (c : UInt8) : Good (breakAt m c) :=
  ⟨good_fresh c, good_ending h⟩

theorem good_stepOperator (text : Bytes) (c : UInt8) : Good (stepOperator text c) := by
  rw [stepOperator]
  split_ifs
  · exact ⟨trivial, nofun⟩
  · exact ⟨trivial, nofun⟩
  · exact ⟨trivial, nofun⟩
  · exact good_breakAt (m := .operator text) trivial c

theorem good_stepWord (text : Bytes) (c : UInt8) : Good (stepWord text c) := by
  rw [stepWord]
  split_ifs
  · exact ⟨trivial, nofun⟩
  · exact ⟨trivial, by simp [Token.Good]⟩
  · exact ⟨trivial, nofun⟩
  · exact ⟨trivial, nofun⟩
  · exact ⟨trivial, nofun⟩
  · exact good_breakAt (m := .word text) trivial c

/-- A token in front of a good outcome. -/
theorem Good.cons {r : Mode × List Token} (h : Good r) {t : Token} (ht : t.Good) :
    Good (r.1, t :: r.2) :=
  ⟨h.1, List.forall_mem_cons.mpr ⟨ht, h.2⟩⟩

theorem good_stepNumber {q : NumberState} {text : Bytes} (h : numberState text = some q)
    (c : UInt8) : Good (stepNumber q text c) := by
  have hbreak : Good (breakAt (.number q text) c) := good_breakAt (m := .number q text) h c
  unfold stepNumber
  split
  next q' hq' => exact ⟨(numberState_snoc h c).trans hq', nofun⟩
  next =>
      cases q with
      | zero | int | hex | bin =>
          dsimp only
          split_ifs
          · exact ⟨trivial, nofun⟩
          · exact hbreak
      | mark | hexMark | binMark => exact good_stepWord text c
      | sign => exact (good_stepOperator _ c).cons (t := .word _) trivial
      | point =>
          dsimp only
          split_ifs
          · exact ⟨trivial, good_ending (m := .number .point text) h⟩
          · exact hbreak
      | frac | exp | fracMark | fracSign => exact hbreak

/-- One byte of a string. -/
theorem isQuotable_snoc {raw : Bytes} (h : isQuotable raw = true) {c : UInt8} (hescape : c ≠ 92)
    (hquote : c ≠ 39) : isQuotable (raw ++ [c]) = true := by
  rw [isQuotable_append h]
  simp [isQuotable, hescape, hquote]

/-- One byte between quotes. -/
theorem good_quoted {q : Quote} {raw : Bytes} (h : (Mode.quoted q raw).Good) (c : UInt8) :
    Good (stepMode (.quoted q raw) c) := by
  rw [stepMode]
  split_ifs with hescape hquote
  · cases q <;> exact ⟨h, nofun⟩
  · cases q <;> exact ⟨h, nofun⟩
  · cases q with
    | single =>
        have hc : c ≠ 92 := by
          rintro rfl
          exact hescape rfl
        exact ⟨isQuotable_snoc h hc hquote, nofun⟩
    | double | national | backtick => exact ⟨trivial, nofun⟩

/-- One byte behind a backslash. -/
theorem good_escaped {q : Quote} {raw : Bytes} (h : (Mode.escaped q raw).Good) (c : UInt8) :
    Good (stepMode (.escaped q raw) c) := by
  cases q with
  | single => exact ⟨(isQuotable_append h [92, c]).trans rfl, nofun⟩
  | double | national | backtick => exact ⟨trivial, nofun⟩

/-- One byte behind a quote. -/
theorem good_closing {q : Quote} {raw : Bytes} (h : (Mode.closing q raw).Good) (c : UInt8) :
    Good (stepMode (.closing q raw) c) := by
  rw [stepMode]
  split_ifs with hquote
  · subst hquote
    cases q with
    | single => exact ⟨(isQuotable_append h [39, 39]).trans rfl, nofun⟩
    | double | national | backtick => exact ⟨trivial, nofun⟩
  · exact good_breakAt h c

theorem good_stepMode {m : Mode} (h : m.Good) (c : UInt8) : Good (stepMode m c) := by
  have hbreak : Good (breakAt m c) := good_breakAt h c
  cases m with
  | start => exact hbreak
  | word text => exact good_stepWord text c
  | dotted =>
      rw [stepMode]
      split_ifs
      · exact ⟨trivial, good_ending (m := .dotted) trivial⟩
      · exact hbreak
  | number q text => exact good_stepNumber h c
  | operator text => exact good_stepOperator text c
  | dashes =>
      rw [stepMode]
      split_ifs
      · exact ⟨trivial, nofun⟩
      · exact ⟨trivial, nofun⟩
      · exact (good_stepOperator _ c).cons (t := .operator _) trivial
  | line =>
      rw [stepMode]
      split_ifs
      · exact ⟨trivial, nofun⟩
      · exact ⟨trivial, nofun⟩
  | commentOpen => exact ⟨trivial, nofun⟩
  | comment star => exact ⟨trivial, nofun⟩
  | version digits =>
      rw [stepMode]
      split
      next q hq => exact good_stepNumber hq c
      next => exact good_breakAt (m := .start) trivial c
  | quoted q raw => exact good_quoted h c
  | escaped q raw => exact good_escaped h c
  | closing q raw => exact good_closing h c
  | radix hex text =>
      rw [stepMode]
      split_ifs
      all_goals first
        | exact hbreak
        | exact ⟨trivial, List.forall_mem_singleton.mpr trivial⟩
        | exact ⟨trivial, nofun⟩
  | atSign =>
      rw [stepMode]
      split_ifs
      · exact ⟨trivial, List.forall_mem_singleton.mpr trivial⟩
      · exact ⟨trivial, List.forall_mem_singleton.mpr trivial⟩
      · exact hbreak
  | system =>
      rw [stepMode]
      split_ifs
      · exact ⟨trivial, List.forall_mem_singleton.mpr trivial⟩
      · exact hbreak
  | host text =>
      rw [stepMode]
      split_ifs
      · exact ⟨trivial, nofun⟩
      · exact hbreak
  | backslash =>
      rw [stepMode]
      split_ifs
      · exact ⟨trivial, List.forall_mem_singleton.mpr trivial⟩
      · exact hbreak

theorem good_step {s : State} (h : s.mode.Good) (c : UInt8) :
    (step s c).1.mode.Good ∧ ∀ t ∈ (step s c).2, t.Good := by
  have hmode : Good (stepMode s.mode c) := good_stepMode h c
  rw [step]
  split
  next hs =>
      split_ifs
      · exact ⟨trivial, nofun⟩
      · exact hmode
  next => split_ifs <;> exact ⟨trivial, nofun⟩
  next => split_ifs <;> exact ⟨trivial, nofun⟩
  next digits hs =>
      rw [hs] at hmode
      split_ifs
      · exact ⟨trivial, nofun⟩
      · exact ⟨trivial, nofun⟩
      · exact ⟨trivial, nofun⟩
      · exact hmode
  next => exact hmode

theorem good_run {s : State} (h : s.mode.Good) (text : Bytes) :
    (run s text).1.mode.Good ∧ ∀ t ∈ (run s text).2, t.Good := by
  induction text generalizing s with
  | nil => exact ⟨h, nofun⟩
  | cons c text ih =>
      obtain ⟨hmode, htokens⟩ := good_step h c
      obtain ⟨hend, hrest⟩ := ih hmode
      exact ⟨hend, List.forall_mem_append.mpr ⟨htokens, hrest⟩⟩

/-- Whatever the text, its numbers and strings are such on their own. -/
theorem lex_good (text : Bytes) : ∀ t ∈ lex text, t.Good := by
  obtain ⟨hmode, htokens⟩ := good_run (s := .initial) trivial text
  refine List.forall_mem_append.mpr ⟨htokens, List.forall_mem_append.mpr
    ⟨good_ending hmode, ?_⟩⟩
  split_ifs
  · exact List.forall_mem_singleton.mpr trivial
  · exact nofun

/-! ## Boundaries -/

/-- The byte begins a new token, outside of any comment. -/
def Breaks (s : State) (c : UInt8) : Prop :=
  s.executing = false ∧ step s c = (⟨fresh c, false⟩, ending s.mode)

instance (s : State) (c : UInt8) : Decidable (Breaks s c) := inferInstanceAs (Decidable (_ ∧ _))

theorem run_of_breaks {s : State} {c : UInt8} (h : Breaks s c) (text : Bytes) :
    run s (c :: text) =
      ((run .initial (c :: text)).1, ending s.mode ++ (run .initial (c :: text)).2) := by
  have hinitial : step .initial c = (⟨fresh c, false⟩, []) := rfl
  rw [run_cons, run_cons, h.2, hinitial, List.nil_append]

/-- Two texts are lexed one by one where the second begins a new token. -/
theorem lex_append {a b : Bytes} (hclosed : (run .initial a).1.executing = false)
    (h : ∀ c ∈ b.head?, Breaks (run .initial a).1 c) : lex (a ++ b) = lex a ++ lex b := by
  have hfinish : finish (run .initial a).1 = ending (run .initial a).1.mode := by
    simp [finish, hclosed]
  cases b with
  | nil =>
      have hnil : lex [] = [] := rfl
      rw [hnil, List.append_nil, List.append_nil]
  | cons c b => simp only [lex, run_append, hfinish, run_of_breaks (h c rfl), List.append_assoc]

/-! ## Literals -/

theorem run_number {q q' : NumberState} {text : Bytes} (h : q.run text = some q')
    (front : Bytes) :
    run ⟨.number q front, false⟩ text = (⟨.number q' (front ++ text), false⟩, []) := by
  induction text generalizing q front with
  | nil =>
      cases h
      simp [run]
  | cons c text ih =>
      obtain ⟨q₁, hq₁, hrun⟩ := Option.bind_eq_some_iff.mp h
      have hstep : step ⟨.number q front, false⟩ c = (⟨.number q₁ (front ++ [c]), false⟩, []) := by
        simp [step, stepMode, stepNumber, hq₁]
      simp [run_cons, hstep, ih hrun]

/-- Behind a number. -/
theorem run_of_isNumber {text : Bytes} (h : isNumber text = true) :
    ∃ q, q.accepts = true ∧ run .initial text = (⟨.number q text, false⟩, []) := by
  cases text with
  | nil => cases h
  | cons c text =>
      obtain ⟨q', hq', haccepts⟩ := (Option.any_eq_true ..).mp h
      obtain ⟨q, hq, hrun⟩ := Option.bind_eq_some_iff.mp hq'
      have hfirst : step .initial c = (⟨.number q [c], false⟩, []) := by
        simp [step, State.initial, stepMode, breakAt, fresh, hq, ending]
      refine ⟨q', haccepts, ?_⟩
      rw [run_cons, hfirst, run_number hrun]
      rfl

theorem run_quotable {text : Bytes} (h : isQuotable text = true) (raw : Bytes) :
    run ⟨.quoted .single raw, false⟩ text = (⟨.quoted .single (raw ++ text), false⟩, []) := by
  induction text using isQuotable.induct generalizing raw with
  | case1 => simp [run]
  | case2 c text ih =>
      have hescape : step ⟨.quoted .single raw, false⟩ 92 =
          (⟨.escaped .single raw, false⟩, []) := rfl
      have hnext : step ⟨.escaped .single raw, false⟩ c =
          (⟨.quoted .single (raw ++ [92, c]), false⟩, []) := rfl
      simp [run_cons, hescape, hnext, ih h]
  | case3 text ih =>
      have hquote : step ⟨.quoted .single raw, false⟩ 39 =
          (⟨.closing .single raw, false⟩, []) := rfl
      have hnext : step ⟨.closing .single raw, false⟩ 39 =
          (⟨.quoted .single (raw ++ [39, 39]), false⟩, []) := rfl
      simp [run_cons, hquote, hnext, ih h]
  | case4 c text hescape hquote ih =>
      rw [isQuotable] at h
      · simp only [Bool.and_eq_true, bne_iff_ne] at h
        have hstep : step ⟨.quoted .single raw, false⟩ c =
            (⟨.quoted .single (raw ++ [c]), false⟩, []) := by
          simp [step, stepMode, h.1.1, Quote.delimiter, h.1.2]
        simp [run_cons, hstep, ih h.2]
      · exact hescape
      · exact hquote

/-- A string literal. -/
def quote (text : Bytes) : Bytes := 39 :: text ++ [39]

/-- Behind a string literal. -/
theorem run_of_isQuotable {text : Bytes} (h : isQuotable text = true) :
    run .initial (quote text) = (⟨.closing .single text, false⟩, []) := by
  have hopen : step .initial 39 = (⟨.quoted .single [], false⟩, []) := by decide
  have hclose : step ⟨.quoted .single text, false⟩ 39 = (⟨.closing .single text, false⟩, []) := rfl
  simp [quote, run_cons, run_append, hopen, run_quotable h, hclose, run]

theorem lex_number {text : Bytes} (h : isNumber text = true) : lex text = [.number text] := by
  obtain ⟨q, hq, hrun⟩ := run_of_isNumber h
  rw [lex, hrun, finish]
  cases q <;> first | rfl | cases hq

theorem NumberState.run_digits {q : NumberState} (hq : q = .zero ∨ q = .int) {text : Bytes}
    (h : ∀ c ∈ text, isdigit c = true) : ∃ q', q.run text = some q' ∧ q'.accepts = true := by
  induction text generalizing q with
  | nil =>
      refine ⟨q, rfl, ?_⟩
      rcases hq with rfl | rfl <;> rfl
  | cons c text ih =>
      obtain ⟨hc, htext⟩ := List.forall_mem_cons.mp h
      have hnext : q.next c = some .int := by
        rcases hq with rfl | rfl <;> simp [NumberState.next, hc]
      obtain ⟨q', hrun, haccepts⟩ := ih (.inr rfl) htext
      exact ⟨q', by rw [NumberState.run, hnext]; exact hrun, haccepts⟩

/-- A run of digits is a number. -/
theorem isNumber_of_digits {text : Bytes} (hne : text ≠ [])
    (h : ∀ c ∈ text, isdigit c = true) : isNumber text = true := by
  cases text with
  | nil => exact absurd rfl hne
  | cons c text =>
      obtain ⟨hc, htext⟩ := List.forall_mem_cons.mp h
      obtain ⟨q, hfirst, hq⟩ : ∃ q, NumberState.first c = some q ∧ (q = .zero ∨ q = .int) := by
        rw [NumberState.first, if_pos hc]
        split
        next => exact ⟨.zero, rfl, .inl rfl⟩
        next => exact ⟨.int, rfl, .inr rfl⟩
      obtain ⟨q', hrun, haccepts⟩ := NumberState.run_digits hq htext
      rw [isNumber, numberState, hfirst, Option.bind_some, hrun]
      exact haccepts

theorem lex_quote {text : Bytes} (h : isQuotable text = true) :
    lex (quote text) = [.quoted .single text] := by
  rw [lex, run_of_isQuotable h]
  rfl

end SqlLex
