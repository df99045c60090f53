import Mathlib.Data.Rat.Defs
import TinyHttpd.Lib.Like
import TinyHttpd.Lib.Numeral
import TinyHttpd.Lib.SqlLex

/-!
# The condition of a select

Comparisons of columns with literals, and how `and` puts them together: their tokens, a
parser for these, and what a row makes of them.  A comparison with `NULL` is neither true
nor false, and a row is selected when the whole is true.

The parser knows numerals without an exponent and strings without escapes, and finds every
condition in its own tokens (`parseWhere_tokens`).
-/

namespace SqlWhere

open CString SqlLex Like

/-! ## Literals -/

/-- Digits with at most one point. -/
def isDecimal (text : Bytes) : Bool := isNumber text && text.all fun c => isdigit c || c == 46

/-- A numeral, and whether there is a minus in front of it. -/
structure Decimal where
  negative : Bool
  text : Bytes
  decimal : isDecimal text = true

def Decimal.ofText (negative : Bool) (text : Bytes) : Option Decimal :=
  if h : isDecimal text = true then some ⟨negative, text, h⟩ else none

theorem Decimal.ofText_text (d : Decimal) : ofText d.negative d.text = some d :=
  dif_pos d.decimal

def Decimal.sign (d : Decimal) : Bytes := if d.negative then bytes "-" else []

/-- Without the minus. -/
def Decimal.magnitude (d : Decimal) : Rat :=
  let fraction := (d.text.dropWhile isdigit).drop 1
  numeral (d.text.takeWhile isdigit) + numeral fraction / 10 ^ fraction.length

def Decimal.value (d : Decimal) : Rat := if d.negative then -d.magnitude else d.magnitude

/-- The numeral a text is. -/
def Decimal.read : Bytes → Option Decimal
  | [] => none
  | c :: text => if c = 45 then ofText true text else ofText false (c :: text)

/-- The number a text is a numeral of. -/
def numeralValue (text : Bytes) : Option Rat := (Decimal.read text).map Decimal.value

theorem Decimal.of_read {text : Bytes} {d : Decimal} (h : read text = some d) :
    text = d.sign ++ d.text := by
  cases text with
  | nil => cases h
  | cons c text =>
      rw [read] at h
      split at h
      next hc =>
          obtain ⟨hdecimal, hd⟩ := Option.dite_none_right_eq_some.mp h
          cases hd
          rw [hc]
          rfl
      next =>
          obtain ⟨hdecimal, hd⟩ := Option.dite_none_right_eq_some.mp h
          cases hd
          rfl

/-- No quote and no backslash, so that a string has its source text for a value. -/
def isPlainText (text : Bytes) : Bool := text.all fun c => c != 39 && c != 92

structure PlainText where
  text : Bytes
  plain : isPlainText text = true

def PlainText.ofText (text : Bytes) : Option PlainText :=
  if h : isPlainText text = true then some ⟨text, h⟩ else none

theorem PlainText.ofText_text (t : PlainText) : ofText t.text = some t := dif_pos t.plain

theorem isQuotable_of_plain {text : Bytes} (h : isPlainText text = true) :
    isQuotable text = true := by
  induction text with
  | nil => rfl
  | cons c text ih =>
      rw [isPlainText, List.all_cons, Bool.and_eq_true] at h
      obtain ⟨hc, htext⟩ := h
      have hsingle : isQuotable [c] = true := by simpa [isQuotable, and_comm] using hc
      exact (isQuotable_append hsingle text).trans (ih htext)

/-! ## Conditions -/

/-- The columns with numbers and those with text, and their names. -/
structure Schema (ν τ : Type) where
  number : Bytes → Option ν
  text : Bytes → Option τ
  numberName : ν → Bytes
  textName : τ → Bytes
  number_numberName : ∀ c, number (numberName c) = some c
  text_textName : ∀ c, text (textName c) = some c

variable {ν τ : Type}

/-- A column, or a numeral. -/
inductive Term (ν : Type) where
  | column (c : ν)
  | literal (d : Decimal)

inductive Comparison where
  | equal
  | atLeast
  | atMost

inductive Condition (ν τ : Type) where
  | compare (op : Comparison) (a b : Term ν)
  | between (a low high : Term ν)
  | equalText (c : τ) (t : PlainText)
  | like (c : τ) (pattern : PlainText)

/-! ## Tokens -/

def Decimal.tokens (d : Decimal) : List Token :=
  if d.negative then [.operator (bytes "-"), .number d.text] else [.number d.text]

def Term.tokens (s : Schema ν τ) : Term ν → List Token
  | .column c => [.word (s.numberName c)]
  | .literal d => d.tokens

def Comparison.symbol : Comparison → Bytes
  | .equal => bytes "="
  | .atLeast => bytes ">="
  | .atMost => bytes "<="

def Condition.tokens (s : Schema ν τ) : Condition ν τ → List Token
  | .compare op a b => a.tokens s ++ .operator op.symbol :: b.tokens s
  | .between a low high =>
      a.tokens s ++ .word (bytes "between") :: (low.tokens s ++
        .word (bytes "and") :: high.tokens s)
  | .equalText c t => [.word (s.textName c), .operator (bytes "="), .quoted .single t.text]
  | .like c pattern =>
      [.word (s.textName c), .word (bytes "like"), .quoted .single pattern.text]

/-- Further conditions. -/
def andTokens (s : Schema ν τ) (conditions : List (Condition ν τ)) : List Token :=
  conditions.flatMap fun c => .word (bytes "and") :: c.tokens s

/-! ## The parser -/

def parseTerm (s : Schema ν τ) : List Token → Option (Term ν × List Token)
  | .word name :: rest => (s.number name).map fun c => (.column c, rest)
  | .number text :: rest => (Decimal.ofText false text).map fun d => (.literal d, rest)
  | .operator sign :: .number text :: rest =>
      if sign = bytes "-" then (Decimal.ofText true text).map fun d => (.literal d, rest)
      else none
  | _ => none

def Comparison.ofSymbol (symbol : Bytes) : Option Comparison :=
  if symbol = bytes "=" then some .equal
  else if symbol = bytes ">=" then some .atLeast
  else if symbol = bytes "<=" then some .atMost
  else none

/-- The word, and what is behind it. -/
def parseWord (word : String) : List Token → Option (List Token)
  | .word text :: rest => if text = bytes word then some rest else none
  | _ => none

/-- A comparison of text, with a string as its third token. -/
def parseText (s : Schema ν τ) : List Token → Option (Condition ν τ × List Token)
  | .word name :: .operator op :: .quoted .single raw :: rest =>
      if op = bytes "=" then
        (s.text name).bind fun c => (PlainText.ofText raw).map fun t => (.equalText c t, rest)
      else none
  | .word name :: .word op :: .quoted .single raw :: rest =>
      if op = bytes "like" then
        (s.text name).bind fun c => (PlainText.ofText raw).map fun t => (.like c t, rest)
      else none
  | _ => none

/-- What is behind the first term of a comparison of numbers. -/
def parseNumber (s : Schema ν τ) (a : Term ν) :
    List Token → Option (Condition ν τ × List Token)
  | .operator op :: rest =>
      (Comparison.ofSymbol op).bind fun op => (parseTerm s rest).map fun (b, rest) =>
        (.compare op a b, rest)
  | tokens =>
      (parseWord "between" tokens).bind fun rest => (parseTerm s rest).bind fun (low, rest) =>
        (parseWord "and" rest).bind fun rest => (parseTerm s rest).map fun (high, rest) =>
          (.between a low high, rest)

def parseCondition (s : Schema ν τ) (tokens : List Token) :
    Option (Condition ν τ × List Token) :=
  (parseText s tokens).or ((parseTerm s tokens).bind fun (a, rest) => parseNumber s a rest)

/-- That many further conditions at most. -/
def parseAnd (s : Schema ν τ) : Nat → List Token → Option (List (Condition ν τ) × List Token)
  | 0, tokens => some ([], tokens)
  | n + 1, tokens =>
      match parseWord "and" tokens with
      | none => some ([], tokens)
      | some rest =>
          (parseCondition s rest).bind fun (c, rest) => (parseAnd s n rest).map fun (cs, rest) =>
            (c :: cs, rest)

/-- Nothing, or a semicolon. -/
def IsEnd (tokens : List Token) : Prop := tokens = [] ∨ tokens = [.operator (bytes ";")]

instance (tokens : List Token) : Decidable (IsEnd tokens) := inferInstanceAs (Decidable (_ ∨ _))

/-- What comes behind the tables of a select. -/
def parseWhere (s : Schema ν τ) (tokens : List Token) : Option (List (Condition ν τ)) :=
  match parseWord "where" tokens with
  | none => if IsEnd tokens then some [] else none
  | some rest =>
      (parseCondition s rest).bind fun (c, rest) =>
        (parseAnd s rest.length rest).bind fun (cs, rest) =>
          if IsEnd rest then some (c :: cs) else none

/-! ## Every condition is found -/

theorem parseTerm_tokens (s : Schema ν τ) (a : Term ν) (rest : List Token) :
    parseTerm s (a.tokens s ++ rest) = some (a, rest) := by
  cases a with
  | column c =>
      show (s.number (s.numberName c)).map _ = _
      rw [s.number_numberName]
      rfl
  | literal d =>
      have hd := d.ofText_text
      obtain ⟨negative, text, hdecimal⟩ := d
      cases negative with
      | false => exact congrArg (Option.map _) hd
      | true => exact congrArg (Option.map _) hd

theorem Comparison.ofSymbol_symbol (op : Comparison) : ofSymbol op.symbol = some op := by
  cases op <;> rfl

theorem parseWord_word (word : String) (rest : List Token) :
    parseWord word (.word (bytes word) :: rest) = some rest := if_pos rfl

/-- A comparison of numbers is not taken for one of text. -/
theorem parseText_compare (s : Schema ν τ) (op : Token) (a b : Term ν) (rest : List Token) :
    parseText s (a.tokens s ++ op :: (b.tokens s ++ rest)) = none := by
  rcases a with c | ⟨_ | _, text, hdecimal⟩
  · rcases b with c' | ⟨_ | _, text', hdecimal'⟩ <;> cases op <;> rfl
  · rfl
  · rfl

theorem parseNumber_compare (s : Schema ν τ) (op : Comparison) (a b : Term ν)
    (rest : List Token) :
    parseNumber s a (.operator op.symbol :: (b.tokens s ++ rest)) =
      some (.compare op a b, rest) := by
  show (Comparison.ofSymbol op.symbol).bind _ = _
  rw [op.ofSymbol_symbol, Option.bind_some, parseTerm_tokens]
  rfl

theorem parseNumber_between (s : Schema ν τ) (a low high : Term ν) (rest : List Token) :
    parseNumber s a (.word (bytes "between") :: (low.tokens s ++
      .word (bytes "and") :: (high.tokens s ++ rest))) = some (.between a low high, rest) := by
  rw [parseNumber.eq_def]
  dsimp only
  rw [parseWord_word, Option.bind_some, parseTerm_tokens, Option.bind_some, parseWord_word,
    Option.bind_some, parseTerm_tokens]
  rfl

theorem parseCondition_tokens (s : Schema ν τ) (c : Condition ν τ) (rest : List Token) :
    parseCondition s (c.tokens s ++ rest) = some (c, rest) := by
  cases c with
  | compare op a b =>
      have htokens : (Condition.compare op a b : Condition ν τ).tokens s ++ rest =
          a.tokens s ++ .operator op.symbol :: (b.tokens s ++ rest) := by
        simp [Condition.tokens]
      rw [htokens, parseCondition, parseText_compare, Option.none_or, parseTerm_tokens,
        Option.bind_some]
      exact parseNumber_compare s op a b rest
  | between a low high =>
      have htokens : (Condition.between a low high : Condition ν τ).tokens s ++ rest =
          a.tokens s ++ .word (bytes "between") :: (low.tokens s ++
            .word (bytes "and") :: (high.tokens s ++ rest)) := by
        simp [Condition.tokens]
      rw [htokens, parseCondition, parseText_compare, Option.none_or, parseTerm_tokens,
        Option.bind_some]
      exact parseNumber_between s a low high rest
  | equalText c t =>
      have htext : parseText s ((Condition.equalText c t : Condition ν τ).tokens s ++ rest) =
          some (.equalText c t, rest) := by
        simp [Condition.tokens, parseText, s.text_textName, t.ofText_text]
      rw [parseCondition, htext, Option.some_or]
  | like c pattern =>
      have htext : parseText s ((Condition.like c pattern : Condition ν τ).tokens s ++ rest) =
          some (.like c pattern, rest) := by
        simp [Condition.tokens, parseText, s.text_textName, pattern.ofText_text]
      rw [parseCondition, htext, Option.some_or]

theorem parseAnd_tokens (s : Schema ν τ) {cs : List (Condition ν τ)} {n : Nat}
    (hn : cs.length ≤ n) {rest : List Token} (hrest : parseWord "and" rest = none) :
    parseAnd s n (andTokens s cs ++ rest) = some (cs, rest) := by
  induction cs generalizing n with
  | nil =>
      cases n with
      | zero => rfl
      | succ n =>
          show parseAnd s (n + 1) rest = _
          rw [parseAnd, hrest]
  | cons c cs ih =>
      cases n with
      | zero => cases hn
      | succ n =>
          have htokens : andTokens s (c :: cs) ++ rest =
              .word (bytes "and") :: (c.tokens s ++ (andTokens s cs ++ rest)) := by
            simp [andTokens]
          rw [htokens, parseAnd, parseWord_word]
          dsimp only
          rw [parseCondition_tokens, Option.bind_some, ih (Nat.le_of_succ_le_succ hn)]
          rfl

theorem length_le_andTokens (s : Schema ν τ) (cs : List (Condition ν τ)) :
    cs.length ≤ (andTokens s cs).length := by
  induction cs with
  | nil => exact le_rfl
  | cons c cs ih =>
      rw [andTokens, List.flatMap_cons, ← andTokens, List.length_append, List.length_cons,
        List.length_cons]
      omega

/-- What the tokens of some conditions say is these conditions. -/
theorem parseWhere_tokens (s : Schema ν τ) (c : Condition ν τ) (cs : List (Condition ν τ))
    {rest : List Token} (hrest : IsEnd rest) :
    parseWhere s (.word (bytes "where") :: (c.tokens s ++ (andTokens s cs ++ rest))) =
      some (c :: cs) := by
  have hlength : cs.length ≤ (andTokens s cs ++ rest).length := by
    rw [List.length_append]
    exact (length_le_andTokens s cs).trans (Nat.le_add_right ..)
  have hand : parseWord "and" rest = none := by
    rcases hrest with rfl | rfl <;> rfl
  rw [parseWhere, parseWord_word]
  dsimp only
  rw [parseCondition_tokens, Option.bind_some, parseAnd_tokens s hlength hand, Option.bind_some,
    if_pos hrest]

/-! ## Rows -/

/-- What the columns of a row hold; `none` is `NULL`. -/
structure Row (ν τ : Type) where
  number : ν → Option Rat
  text : τ → Option Bytes

/-- How the server compares text: the bytes that `LIKE` does not tell apart, and the strings
that `=` does not. -/
structure Collation where
  same : UInt8 → UInt8 → Bool
  equal : Bytes → Bytes → Bool

/-- Byte by byte. -/
def Collation.binary : Collation := ⟨(· == ·), (· == ·)⟩

/-- `%` and `_`. -/
def wildcards : Wildcards UInt8 := ⟨37, 95⟩

/-- The value of a comparison; `none` is neither true nor false. -/
abbrev Truth := Option Bool

def Truth.and : Truth → Truth → Truth
  | some false, _ => some false
  | _, some false => some false
  | some true, some true => some true
  | _, _ => none

theorem Truth.and_eq_true (a b : Truth) :
    a.and b = some true ↔ a = some true ∧ b = some true := by
  rcases a with _ | _ | _ <;> rcases b with _ | _ | _ <;> decide

def Term.eval (r : Row ν τ) : Term ν → Option Rat
  | .column c => r.number c
  | .literal d => some d.value

def Comparison.holds : Comparison → Rat → Rat → Bool
  | .equal, x, y => x == y
  | .atLeast, x, y => y ≤ x
  | .atMost, x, y => x ≤ y

def compareTerms (r : Row ν τ) (op : Comparison) (a b : Term ν) : Truth :=
  (a.eval r).bind fun x => (b.eval r).map fun y => op.holds x y

/-- A column that is `NULL` compares with nothing. -/
theorem compareTerms_literal {r : Row ν τ} {op : Comparison} {c : ν} {d : Decimal} :
    compareTerms r op (.column c) (.literal d) = some true ↔
      ∃ x ∈ r.number c, op.holds x d.value = true := by
  rw [compareTerms, Term.eval]
  cases r.number c with
  | none => simp
  | some x => simp [Term.eval]

def Condition.eval (k : Collation) (r : Row ν τ) : Condition ν τ → Truth
  | .compare op a b => compareTerms r op a b
  | .between a low high =>
      (compareTerms r .atLeast a low).and (compareTerms r .atMost a high)
  | .equalText c t => (r.text c).map fun x => k.equal x t.text
  | .like c pattern => (r.text c).map fun x => Like.like wildcards k.same pattern.text x

/-- The row is selected. -/
def selects (k : Collation) (conditions : List (Condition ν τ)) (r : Row ν τ) : Bool :=
  (conditions.map (·.eval k r)).foldr Truth.and (some true) == some true

/-- Every condition is true of a row that is selected, and only of such. -/
theorem selects_iff {k : Collation} {conditions : List (Condition ν τ)} {r : Row ν τ} :
    selects k conditions r = true ↔ ∀ c ∈ conditions, c.eval k r = some true := by
  rw [selects, beq_iff_eq]
  induction conditions with
  | nil => exact iff_of_true rfl nofun
  | cons c conditions ih =>
      rw [List.map_cons, List.foldr_cons, Truth.and_eq_true, ih, List.forall_mem_cons]

end SqlWhere
