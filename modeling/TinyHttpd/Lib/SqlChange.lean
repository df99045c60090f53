import TinyHttpd.Lib.SqlTemplate
import TinyHttpd.Lib.SqlWhere

/-!
# Statements that change a table

Inserts of one row of literals, updates of columns to literals, and deletes: their tokens,
and a parser that finds every such statement in its own tokens (`parseChange_tokens`).  The
conditions of the last two are those of a select.

A statement that is put together from texts and literals has the tokens of these, when no
token reaches from one into the next (`lex_literalSegments`).
-/

namespace SqlWhere

open CString SqlLex

variable {ν τ α : Type}

/-! ## Statements -/

inductive Literal where
  | number (d : Decimal)
  | string (t : PlainText)

/-- A statement that changes the rows of a table. -/
inductive Change (ν τ : Type) where
  | insert (table : Bytes) (columns : List Bytes) (values : List Literal)
  | update (table : Bytes) (sets : List (Bytes × Literal)) (conditions : List (Condition ν τ))
  | delete (table : Bytes) (conditions : List (Condition ν τ))

/-- It names a column, gives each column a value, and says which rows it is about. -/
def Change.Full : Change ν τ → Prop
  | .insert _ columns values => columns ≠ [] ∧ values ≠ []
  | .update _ sets conditions => sets ≠ [] ∧ conditions ≠ []
  | .delete _ conditions => conditions ≠ []

/-! ## Tokens -/

def Literal.tokens : Literal → List Token
  | .number d => d.tokens
  | .string t => [.quoted .single t.text]

/-- One after the other, with commas between them. -/
def commaTokens (f : α → List Token) : List α → List Token
  | [] => []
  | [a] => f a
  | a :: as => f a ++ .operator (bytes ",") :: commaTokens f as

def columnTokens (name : Bytes) : List Token := [.word name]

def setTokens (set : Bytes × Literal) : List Token :=
  .word set.1 :: .operator (bytes "=") :: set.2.tokens

/-- The conditions of a statement. -/
def whereTokens (s : Schema ν τ) : List (Condition ν τ) → List Token
  | [] => []
  | c :: cs => .word (bytes "where") :: (c.tokens s ++ andTokens s cs)

def Change.tokens (s : Schema ν τ) : Change ν τ → List Token
  | .insert table columns values =>
      [.word (bytes "insert"), .word (bytes "into"), .word table, .operator (bytes "(")] ++
        commaTokens columnTokens columns ++
        [.operator (bytes ")"), .word (bytes "value"), .operator (bytes "(")] ++
        commaTokens Literal.tokens values ++ [.operator (bytes ")"), .operator (bytes ";")]
  | .update table sets conditions =>
      [.word (bytes "update"), .word table, .word (bytes "set")] ++ commaTokens setTokens sets ++
        whereTokens s conditions ++ [.operator (bytes ";")]
  | .delete table conditions =>
      [.word (bytes "delete"), .word (bytes "from"), .word table] ++ whereTokens s conditions ++
        [.operator (bytes ";")]

/-! ## The parser -/

def parseLiteral : List Token → Option (Literal × List Token)
  | .number text :: rest => (Decimal.ofText false text).map fun d => (.number d, rest)
  | .operator sign :: .number text :: rest =>
      if sign = bytes "-" then (Decimal.ofText true text).map fun d => (.number d, rest) else none
  | .quoted .single raw :: rest => (PlainText.ofText raw).map fun t => (.string t, rest)
  | _ => none

/-- The operator, and what is behind it. -/
def parseOperator (op : String) : List Token → Option (List Token)
  | .operator text :: rest => if text = bytes op then some rest else none
  | _ => none

def parseName : List Token → Option (Bytes × List Token)
  | .word name :: rest => some (name, rest)
  | _ => none

def parseSet (tokens : List Token) : Option ((Bytes × Literal) × List Token) :=
  (parseName tokens).bind fun (name, rest) => (parseOperator "=" rest).bind fun rest =>
    (parseLiteral rest).map fun (value, rest) => ((name, value), rest)

/-- Up to that many, with commas between them. -/
def parseCommas (p : List Token → Option (α × List Token)) :
    Nat → List Token → Option (List α × List Token)
  | 0, _ => none
  | n + 1, tokens =>
      (p tokens).bind fun (a, rest) =>
        match parseOperator "," rest with
        | none => some ([a], rest)
        | some rest => (parseCommas p n rest).map fun (as, rest) => (a :: as, rest)

def parseList (p : List Token → Option (α × List Token)) (tokens : List Token) :
    Option (List α × List Token) :=
  parseCommas p tokens.length tokens

def parseInsert (tokens : List Token) : Option (Change ν τ) :=
  (parseWord "insert" tokens).bind fun rest => (parseWord "into" rest).bind fun rest =>
    (parseName rest).bind fun (table, rest) => (parseOperator "(" rest).bind fun rest =>
      (parseList parseName rest).bind fun (columns, rest) =>
        (parseOperator ")" rest).bind fun rest => (parseWord "value" rest).bind fun rest =>
          (parseOperator "(" rest).bind fun rest =>
            (parseList parseLiteral rest).bind fun (values, rest) =>
              (parseOperator ")" rest).bind fun rest =>
                if IsEnd rest then some (.insert table columns values) else none

def parseUpdate (s : Schema ν τ) (tokens : List Token) : Option (Change ν τ) :=
  (parseWord "update" tokens).bind fun rest => (parseName rest).bind fun (table, rest) =>
    (parseWord "set" rest).bind fun rest => (parseList parseSet rest).bind fun (sets, rest) =>
      (parseWhere s rest).map fun conditions => .update table sets conditions

def parseDelete (s : Schema ν τ) (tokens : List Token) : Option (Change ν τ) :=
  (parseWord "delete" tokens).bind fun rest => (parseWord "from" rest).bind fun rest =>
    (parseName rest).bind fun (table, rest) =>
      (parseWhere s rest).map fun conditions => .delete table conditions

/-- A statement that changes a table. -/
def parseChange (s : Schema ν τ) (tokens : List Token) : Option (Change ν τ) :=
  (parseInsert tokens).or ((parseUpdate s tokens).or (parseDelete s tokens))

/-! ## Every statement is found -/

theorem parseLiteral_tokens (a : Literal) (rest : List Token) :
    parseLiteral (a.tokens ++ rest) = some (a, rest) := by
  cases a with
  | string t => exact congrArg (Option.map _) t.ofText_text
  | number d =>
      have hd := d.ofText_text
      obtain ⟨negative, text, hdecimal⟩ := d
      cases negative with
      | false => exact congrArg (Option.map _) hd
      | true => exact congrArg (Option.map _) hd

theorem parseOperator_operator (op : String) (rest : List Token) :
    parseOperator op (.operator (bytes op) :: rest) = some rest := if_pos rfl

theorem parseName_column (name : Bytes) (rest : List Token) :
    parseName (columnTokens name ++ rest) = some (name, rest) := rfl

theorem parseSet_tokens (set : Bytes × Literal) (rest : List Token) :
    parseSet (setTokens set ++ rest) = some (set, rest) := by
  have hname : parseName (setTokens set ++ rest) =
      some (set.1, .operator (bytes "=") :: (set.2.tokens ++ rest)) := rfl
  rw [parseSet, hname, Option.bind_some]
  dsimp only
  rw [parseOperator_operator, Option.bind_some, parseLiteral_tokens]
  rfl

/-- No comma comes first. -/
def EndsList (tokens : List Token) : Prop := parseOperator "," tokens = none

/-- A list of what a parser finds is found as a whole. -/
theorem parseCommas_tokens {p : List Token → Option (α × List Token)} {f : α → List Token}
    (hp : ∀ a rest, p (f a ++ rest) = some (a, rest)) {rest : List Token}
    (hrest : EndsList rest) :
    ∀ {as : List α} {n : Nat}, as ≠ [] → as.length ≤ n →
      parseCommas p n (commaTokens f as ++ rest) = some (as, rest)
  | [], _, hne, _ => absurd rfl hne
  | a :: as, 0, _, hn => absurd hn (Nat.not_succ_le_zero _)
  | [a], n + 1, _, _ => by
      rw [commaTokens, parseCommas, hp, Option.bind_some]
      dsimp only
      rw [show parseOperator "," rest = none from hrest]
  | a :: b :: as, n + 1, _, hn => by
      have hrec := parseCommas_tokens hp hrest (List.cons_ne_nil b as) (Nat.le_of_succ_le_succ hn)
      have htokens : commaTokens f (a :: b :: as) ++ rest =
          f a ++ (.operator (bytes ",") :: (commaTokens f (b :: as) ++ rest)) := by
        simp [commaTokens]
      rw [htokens, parseCommas, hp, Option.bind_some]
      dsimp only
      rw [parseOperator_operator]
      dsimp only
      rw [hrec]
      rfl

theorem length_le_commaTokens {f : α → List Token} (hf : ∀ a, 0 < (f a).length) :
    ∀ as : List α, as.length ≤ (commaTokens f as).length
  | [] => le_rfl
  | [a] => hf a
  | a :: b :: as => by
      have hrec := length_le_commaTokens hf (b :: as)
      have htokens : (commaTokens f (a :: b :: as)).length =
          (f a).length + ((commaTokens f (b :: as)).length + 1) := by
        rw [commaTokens, List.length_append, List.length_cons]
        exact nofun
      rw [htokens, List.length_cons]
      omega

theorem parseList_tokens {p : List Token → Option (α × List Token)} {f : α → List Token}
    (hp : ∀ a rest, p (f a ++ rest) = some (a, rest)) (hf : ∀ a, 0 < (f a).length)
    {rest : List Token} (hrest : EndsList rest) {as : List α} (hne : as ≠ []) :
    parseList p (commaTokens f as ++ rest) = some (as, rest) := by
  refine parseCommas_tokens hp hrest hne ?_
  rw [List.length_append]
  exact (length_le_commaTokens hf as).trans (Nat.le_add_right ..)

theorem length_tokens_pos (a : Literal) : 0 < a.tokens.length := by
  rcases a with ⟨_ | _, text, hdecimal⟩ | t <;> exact Nat.succ_pos _

theorem parseWhere_whereTokens (s : Schema ν τ) {conditions : List (Condition ν τ)}
    (hne : conditions ≠ []) :
    parseWhere s (whereTokens s conditions ++ [.operator (bytes ";")]) = some conditions := by
  cases conditions with
  | nil => exact absurd rfl hne
  | cons c cs =>
      have htokens : whereTokens s (c :: cs) ++ [.operator (bytes ";")] =
          .word (bytes "where") :: (c.tokens s ++ (andTokens s cs ++ [.operator (bytes ";")])) := by
        simp [whereTokens]
      rw [htokens]
      exact parseWhere_tokens s c cs (.inr rfl)

theorem endsList_close (rest : List Token) : EndsList (.operator (bytes ")") :: rest) := rfl

theorem endsList_where (s : Schema ν τ) (conditions : List (Condition ν τ)) :
    EndsList (whereTokens s conditions ++ [.operator (bytes ";")]) := by
  cases conditions <;> rfl

/-- What the tokens of a statement say is this statement. -/
theorem parseChange_tokens (s : Schema ν τ) (c : Change ν τ) (h : c.Full) :
    parseChange s (c.tokens s) = some c := by
  cases c with
  | insert table columns values =>
      obtain ⟨hcolumns, hvalues⟩ := h
      have htokens : (Change.insert table columns values : Change ν τ).tokens s =
          .word (bytes "insert") :: .word (bytes "into") :: .word table ::
            .operator (bytes "(") :: (commaTokens columnTokens columns ++
              (.operator (bytes ")") :: .word (bytes "value") :: .operator (bytes "(") ::
                (commaTokens Literal.tokens values ++
                  [.operator (bytes ")"), .operator (bytes ";")]))) := by
        simp [Change.tokens]
      have hinsert : parseInsert ((Change.insert table columns values : Change ν τ).tokens s) =
          some (.insert table columns values : Change ν τ) := by
        rw [htokens, parseInsert, parseWord_word, Option.bind_some, parseWord_word,
          Option.bind_some, parseName, Option.bind_some]
        dsimp only
        rw [parseOperator_operator, Option.bind_some,
          parseList_tokens parseName_column (fun _ => Nat.one_pos) (endsList_close _) hcolumns,
          Option.bind_some]
        dsimp only
        rw [parseOperator_operator, Option.bind_some, parseWord_word, Option.bind_some,
          parseOperator_operator, Option.bind_some,
          parseList_tokens parseLiteral_tokens length_tokens_pos (endsList_close _) hvalues,
          Option.bind_some]
        dsimp only
        rw [parseOperator_operator, Option.bind_some, if_pos (.inr rfl)]
      rw [parseChange, hinsert, Option.some_or]
  | update table sets conditions =>
      obtain ⟨hsets, hconditions⟩ := h
      have htokens : (Change.update table sets conditions).tokens s =
          .word (bytes "update") :: .word table :: .word (bytes "set") ::
            (commaTokens setTokens sets ++
              (whereTokens s conditions ++ [.operator (bytes ";")])) := by
        simp [Change.tokens]
      have hupdate : parseUpdate s ((Change.update table sets conditions).tokens s) =
          some (.update table sets conditions) := by
        rw [htokens, parseUpdate, parseWord_word, Option.bind_some, parseName, Option.bind_some]
        dsimp only
        rw [parseWord_word, Option.bind_some, parseList_tokens parseSet_tokens
          (fun _ => Nat.succ_pos _) (endsList_where s conditions) hsets, Option.bind_some]
        dsimp only
        rw [parseWhere_whereTokens s hconditions, Option.map_some]
      have hinsert : (parseInsert ((Change.update table sets conditions).tokens s) :
          Option (Change ν τ)) = none := by
        rw [htokens]
        rfl
      rw [parseChange, hinsert, Option.none_or, hupdate, Option.some_or]
  | delete table conditions =>
      have htokens : (Change.delete table conditions).tokens s =
          .word (bytes "delete") :: .word (bytes "from") :: .word table ::
            (whereTokens s conditions ++ [.operator (bytes ";")]) := by
        simp [Change.tokens]
      have hdelete : parseDelete s ((Change.delete table conditions).tokens s) =
          some (.delete table conditions) := by
        rw [htokens, parseDelete, parseWord_word, Option.bind_some, parseWord_word,
          Option.bind_some, parseName, Option.bind_some]
        dsimp only
        rw [parseWhere_whereTokens s h, Option.map_some]
      have hothers : (parseInsert ((Change.delete table conditions).tokens s) :
          Option (Change ν τ)) = none ∧
            parseUpdate s ((Change.delete table conditions).tokens s) = none := by
        rw [htokens]
        exact ⟨rfl, rfl⟩
      rw [parseChange, hothers.1, hothers.2, Option.none_or, Option.none_or, hdelete]

/-! ## Statements of texts and literals -/

/-- The text of a literal. -/
def Literal.source : Literal → Bytes
  | .number d => d.sign ++ d.text
  | .string t => quote t.text

/-- A literal with a text in front of it. -/
def literalSegment (part : String × Literal) : Segment :=
  match part.2 with
  | .number d => ⟨bytes part.1 ++ d.sign, some (.number d.text)⟩
  | .string t => ⟨bytes part.1, some (.string t.text)⟩

/-- Texts with a literal behind each, and a last text. -/
def literalSegments (parts : List (String × Literal)) (closing : String) : List Segment :=
  parts.map literalSegment ++ [⟨bytes closing, none⟩]

/-- No token reaches from the text into a literal. -/
def Introduces (text : String) : Prop :=
  ∀ sign ∈ [[], bytes "-"], Segment.Opens ⟨bytes text ++ sign, none⟩ ∧
    lex (bytes text ++ sign) = lex (bytes text) ++ lex sign

instance (text : String) : Decidable (Introduces text) :=
  inferInstanceAs (Decidable (∀ sign ∈ [[], bytes "-"], _))

/-- No token reaches from a literal into the text. -/
def Ends (text : String) : Prop := (bytes text).head?.any isseparator = true

instance (text : String) : Decidable (Ends text) := inferInstanceAs (Decidable (_ = _))

theorem Introduces.literal {text : String} (h : Introduces text) (a : Literal) :
    (literalSegment (text, a)).Opens ∧ (∀ f ∈ fields [literalSegment (text, a)], f.Fits) ∧
      (literalSegment (text, a)).tokens = lex (bytes text) ++ a.tokens := by
  cases a with
  | string t =>
      obtain ⟨hopens, -⟩ := h [] (List.mem_cons_self ..)
      rw [List.append_nil] at hopens
      exact ⟨hopens, List.forall_mem_singleton.mpr (isQuotable_of_plain t.plain), rfl⟩
  | number d =>
      have hnumber : isNumber d.text = true := by
        have hdecimal := d.decimal
        rw [isDecimal, Bool.and_eq_true] at hdecimal
        exact hdecimal.1
      have hsign : d.sign ∈ [[], bytes "-"] ∧ lex d.sign ++ [.number d.text] = d.tokens := by
        obtain ⟨_ | _, digits, hdecimal⟩ := d
        · exact ⟨List.mem_cons_self .., rfl⟩
        · exact ⟨List.mem_cons_of_mem _ (List.mem_cons_self ..), rfl⟩
      obtain ⟨hopens, hlex⟩ := h d.sign hsign.1
      refine ⟨hopens, List.forall_mem_singleton.mpr hnumber, ?_⟩
      show lex (bytes text ++ d.sign) ++ [.number d.text] = lex (bytes text) ++ d.tokens
      rw [hlex, List.append_assoc, hsign.2]

theorem Ends.follows {text : String} (h : Ends text) (a : Literal) :
    (literalSegment (text, a)).Follows := by
  cases a with
  | string t => exact h
  | number d =>
      obtain ⟨c, hc, hsep⟩ := (Option.any_eq_true _ _).mp h
      have hhead : (bytes text ++ d.sign).head? = some c := by
        rw [List.head?_append, hc, Option.some_or]
      show (bytes text ++ d.sign).head?.any isseparator = true
      rw [hhead]
      exact hsep

/-- Such a statement has the tokens of its texts and literals. -/
theorem lex_literalSegments {text closing : String} {parts : List (String × Literal)}
    (htext : Introduces text) (hparts : ∀ p ∈ parts, Introduces p.1 ∧ Ends p.1)
    (hclosing : Segment.Opens ⟨bytes closing, none⟩ ∧ Ends closing) (a : Literal) :
    lex (render (literalSegments ((text, a) :: parts) closing)) =
      ((text, a) :: parts).flatMap (fun p => lex (bytes p.1) ++ p.2.tokens) ++
        lex (bytes closing) := by
  have hall : ∀ p ∈ (text, a) :: parts, Introduces p.1 :=
    List.forall_mem_cons.mpr ⟨htext, fun p hp => (hparts p hp).1⟩
  have hwell : WellFormed (literalSegments ((text, a) :: parts) closing) := by
    refine ⟨(htext.literal a).1, List.forall_mem_append.mpr ⟨fun r hr => ?_, ?_⟩⟩
    · obtain ⟨p, hp, rfl⟩ := List.mem_map.mp hr
      exact ⟨((hparts p hp).1.literal p.2).1, (hparts p hp).2.follows p.2⟩
    · exact List.forall_mem_singleton.mpr hclosing
  have hfits : ∀ f ∈ fields (literalSegments ((text, a) :: parts) closing), f.Fits := by
    intro f hf
    obtain ⟨r, hr, hfield⟩ := List.mem_filterMap.mp hf
    rcases List.mem_append.mp hr with hr | hr
    · obtain ⟨p, hp, rfl⟩ := List.mem_map.mp hr
      refine ((hall p hp).literal p.2).2.1 f ?_
      exact List.mem_filterMap.mpr ⟨_, List.mem_singleton_self _, hfield⟩
    · cases List.mem_singleton.mp hr
      cases hfield
  rw [lex_render hwell hfits, literalSegments, tokens, List.flatMap_append, List.flatMap_singleton,
    List.flatMap_map]
  congr 1
  · exact List.flatMap_congr fun p hp => ((hall p hp).literal p.2).2.2
  · exact List.append_nil _

theorem render_literalSegment (p : String × Literal) :
    (literalSegment p).render = bytes p.1 ++ p.2.source := by
  obtain ⟨text, d | t⟩ := p
  · exact List.append_assoc ..
  · rfl

theorem render_literalSegments (parts : List (String × Literal)) (closing : String) :
    render (literalSegments parts closing) =
      parts.flatMap (fun p => bytes p.1 ++ p.2.source) ++ bytes closing := by
  rw [literalSegments, render, List.flatMap_append, List.flatMap_singleton, List.flatMap_map]
  congr 1
  · exact List.flatMap_congr fun p _ => render_literalSegment p
  · exact List.append_nil _

end SqlWhere
