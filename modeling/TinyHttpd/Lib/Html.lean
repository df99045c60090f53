import TinyHttpd.Lib.HtmlText

/-!
# The tokens of an HTML page

`pieces` is the state machine of the tokenizer, which finds the tags and the comments and
keeps text and the values of attributes as they are written.  `Piece.tokens` reads the
character references in these.

What a comment or a declaration says is not kept.  The states for the inside of a `script`
and of its like are left out: the construction of the tree, not the tokenizer, enters them
after the start tag.

A page is put together from parts.  `ReadsWhen` says when a part is read as some tokens,
whatever comes behind it; parts follow each other by `ReadsWhen.comp`.  A text in front of
an end tag is read as it is when it is plain (`readsWhen_text`), and one between the quotes
of an attribute when there is no quote in it besides (`readsWhen_value`).
-/

namespace Html

open CString

/-! ## Tags and comments -/

/-- A tag; the values of its attributes are bytes at first, and characters in the end. -/
structure Tag (α : Type) where
  closing : Bool
  name : Text
  attributes : List (Text × α)
  selfClosing : Bool
deriving DecidableEq

/-- A piece of the page as it is written; a declaration is a comment too. -/
inductive Piece where
  | text (raw : Bytes)
  | tag (t : Tag Bytes)
  | comment
deriving DecidableEq

/-- Where the tokenizer is in a tag. -/
inductive Place where
  | name
  | beforeName
  | attributeName (n : Text)
  | afterName (n : Text)
  | beforeValue (n : Text)
  | value (quote : UInt8) (n : Text) (raw : Bytes)
  | unquoted (n : Text) (raw : Bytes)
  | afterValue
  | selfClosing
deriving DecidableEq

/-- How much of the end of a comment has been read. -/
inductive CommentPlace where
  | start
  | startDash
  | body
  | endDash
  | endDashes
  | endBang
deriving DecidableEq

/-- The states.  `data raw` has read the text `raw`, `tagOpen raw` a `<` behind it,
`endTagOpen raw` a `</`, and `declaration dash` a `<!`, or a `<!-`. -/
inductive State where
  | data (raw : Bytes)
  | tagOpen (raw : Bytes)
  | endTagOpen (raw : Bytes)
  | declaration (dash : Bool)
  | bogusComment
  | comment (place : CommentPlace)
  | tag (t : Tag Bytes) (place : Place)
deriving DecidableEq

def isSpace (c : UInt8) : Bool := c == 9 || c == 10 || c == 12 || c == 32

/-- A byte of a name. -/
def nameChar (c : UInt8) : Nat := if c = 0 then 0xFFFD else (tolower c).toNat

/-- The tag with an attribute more; of two with one name the first one counts. -/
def Tag.commit (t : Tag Bytes) (n : Text) (raw : Bytes) : Tag Bytes :=
  if n ∈ t.attributes.map Prod.fst then t
  else { t with attributes := t.attributes ++ [(n, raw)] }

/-- A byte between the attributes. -/
def attributesStep (t : Tag Bytes) (c : UInt8) : List Piece × State :=
  if isSpace c then ([], .tag t .beforeName)
  else if c = 47 then ([], .tag t .selfClosing)
  else if c = 62 then ([.tag t], .data [])
  else ([], .tag t (.attributeName [nameChar c]))

/-- A byte in or behind the name of an attribute; `next` is where a byte of a name leads. -/
def nameStep (t : Tag Bytes) (n : Text) (next : State) (c : UInt8) : List Piece × State :=
  if isSpace c then ([], .tag t (.afterName n))
  else if c = 61 then ([], .tag t (.beforeValue n))
  else if c = 47 then ([], .tag (t.commit n []) .selfClosing)
  else if c = 62 then ([.tag (t.commit n [])], .data [])
  else ([], next)

/-- A byte in a tag. -/
def tagStep (t : Tag Bytes) : Place → UInt8 → List Piece × State
  | .name, c =>
      if isSpace c then ([], .tag t .beforeName)
      else if c = 47 then ([], .tag t .selfClosing)
      else if c = 62 then ([.tag t], .data [])
      else ([], .tag { t with name := t.name ++ [nameChar c] } .name)
  | .beforeName, c => attributesStep t c
  | .attributeName n, c => nameStep t n (.tag t (.attributeName (n ++ [nameChar c]))) c
  | .afterName n, c => nameStep t n (.tag (t.commit n []) (.attributeName [nameChar c])) c
  | .beforeValue n, c =>
      if isSpace c then ([], .tag t (.beforeValue n))
      else if c = 34 ∨ c = 39 then ([], .tag t (.value c n []))
      else if c = 62 then ([.tag (t.commit n [])], .data [])
      else ([], .tag t (.unquoted n [c]))
  | .value quote n raw, c =>
      if c = quote then ([], .tag (t.commit n raw) .afterValue)
      else ([], .tag t (.value quote n (raw ++ [c])))
  | .unquoted n raw, c =>
      if isSpace c then ([], .tag (t.commit n raw) .beforeName)
      else if c = 62 then ([.tag (t.commit n raw)], .data [])
      else ([], .tag t (.unquoted n (raw ++ [c])))
  | .afterValue, c => attributesStep t c
  | .selfClosing, c =>
      if c = 62 then ([.tag { t with selfClosing := true }], .data []) else attributesStep t c

/-- A byte in a comment. -/
def commentStep : CommentPlace → UInt8 → List Piece × State
  | .start, c =>
      if c = 45 then ([], .comment .startDash)
      else if c = 62 then ([.comment], .data [])
      else ([], .comment .body)
  | .startDash, c =>
      if c = 45 then ([], .comment .endDashes)
      else if c = 62 then ([.comment], .data [])
      else ([], .comment .body)
  | .body, c => ([], .comment (if c = 45 then .endDash else .body))
  | .endDash, c => ([], .comment (if c = 45 then .endDashes else .body))
  | .endDashes, c =>
      if c = 62 then ([.comment], .data [])
      else ([], .comment (if c = 33 then .endBang else if c = 45 then .endDashes else .body))
  | .endBang, c =>
      if c = 62 then ([.comment], .data [])
      else ([], .comment (if c = 45 then .endDash else .body))

/-- A byte of text, unless it is `<`. -/
def dataStep (raw : Bytes) (c : UInt8) : List Piece × State :=
  if c = 60 then ([], .tagOpen raw) else ([], .data (raw ++ [c]))

/-- One byte: the piece it ends, if there is one, and the next state. -/
def step : State → UInt8 → List Piece × State
  | .data raw, c => dataStep raw c
  | .tagOpen raw, c =>
      if isLetter c then ([.text raw], .tag ⟨false, [nameChar c], [], false⟩ .name)
      else if c = 47 then ([], .endTagOpen raw)
      else if c = 33 then ([.text raw], .declaration false)
      else if c = 63 then ([.text raw], .bogusComment)
      else dataStep (raw ++ [60]) c
  | .endTagOpen raw, c =>
      if isLetter c then ([.text raw], .tag ⟨true, [nameChar c], [], false⟩ .name)
      else ([.text raw], if c = 62 then .data [] else .bogusComment)
  | .declaration dash, c =>
      if c = 45 then ([], if dash then .comment .start else .declaration true)
      else if c = 62 then ([.comment], .data [])
      else ([], .bogusComment)
  | .bogusComment, c => if c = 62 then ([.comment], .data []) else ([], .bogusComment)
  | .comment place, c => commentStep place c
  | .tag t place, c => tagStep t place c

/-- The end of the page. -/
def finish : State → List Piece
  | .data raw => [.text raw]
  | .tagOpen raw => [.text (raw ++ [60])]
  | .endTagOpen raw => [.text (raw ++ [60, 47])]
  | .tag _ _ => []
  | .declaration _ => [.comment]
  | .bogusComment => [.comment]
  | .comment _ => [.comment]

/-- The pieces from a state on. -/
def pieces : State → Bytes → List Piece
  | s, [] => finish s
  | s, c :: b => (step s c).1 ++ pieces (step s c).2 b

/-- The pieces that end in a part of the page, and the state behind it. -/
def feed : State → Bytes → List Piece × State
  | s, [] => ([], s)
  | s, c :: b =>
      let (out, next) := step s c
      let (outs, last) := feed next b
      (out ++ outs, last)

theorem pieces_append (s : State) (a b : Bytes) :
    pieces s (a ++ b) = (feed s a).1 ++ pieces (feed s a).2 b := by
  induction a generalizing s with
  | nil => rfl
  | cons c a ih =>
      rw [List.cons_append, pieces, ih, ← List.append_assoc]
      rfl

/-! ## Tokens -/

inductive Token where
  | char (c : Nat)
  | tag (t : Tag Text)
  | comment
deriving DecidableEq

def Tag.read (refs : References) (t : Tag Bytes) : Tag Text where
  closing := t.closing
  name := t.name
  attributes := t.attributes.map fun a => (a.1, characters refs true a.2)
  selfClosing := t.selfClosing

/-- The tokens of a piece. -/
def Piece.tokens (refs : References) : Piece → List Token
  | .text raw => (characters refs false raw).map .char
  | .tag t => [.tag (t.read refs)]
  | .comment => [.comment]

/-- The tokens from a state on. -/
def tokensFrom (refs : References) (s : State) (b : Bytes) : List Token :=
  (pieces s b).flatMap (Piece.tokens refs)

/-- The tokens of the rest of a page, from a state on. -/
def read (refs : References) (s : State) (b : Bytes) : List Token :=
  tokensFrom refs s (newlines b)

/-- The tokens of a page. -/
def tokenize (refs : References) (page : Bytes) : List Token := read refs (.data []) page

/-! ## Text without references -/

/-- No reference is in the piece, and no NUL where it would be replaced. -/
def Piece.Literal : Piece → Prop
  | .text raw => 38 ∉ raw
  | .tag t => ∀ a ∈ t.attributes, 38 ∉ a.2 ∧ 0 ∉ a.2
  | .comment => True

instance : DecidablePred Piece.Literal
  | .text raw => inferInstanceAs (Decidable (38 ∉ raw))
  | .tag t => inferInstanceAs (Decidable (∀ a ∈ t.attributes, 38 ∉ a.2 ∧ 0 ∉ a.2))
  | .comment => inferInstanceAs (Decidable True)

/-- The tokens of a piece as it is written. -/
def Piece.literal : Piece → List Token
  | .text raw => (codes raw).map .char
  | .tag t =>
      [.tag ⟨t.closing, t.name, t.attributes.map fun a => (a.1, codes a.2), t.selfClosing⟩]
  | .comment => [.comment]

theorem Piece.Literal.tokens {p : Piece} (h : p.Literal) (refs : References) :
    p.tokens refs = p.literal := by
  cases p with
  | text raw => exact congrArg _ (characters_text (unreferenced_of_notMem refs h))
  | tag t =>
      refine congrArg (fun attributes => [Token.tag ⟨_, _, attributes, _⟩]) ?_
      refine List.map_congr_left fun a ha => ?_
      rw [characters_value (unreferenced_of_notMem refs (h a ha).1) (h a ha).2]
  | comment => rfl

/-- A part of the page leads from one state to another and has these tokens, whatever the
references are. -/
structure Writes (s : State) (a : Bytes) (ts : List Token) (last : State) : Prop where
  noCr : cr ∉ a
  literal : ∀ p ∈ (feed s a).1, p.Literal
  tokens : (feed s a).1.flatMap Piece.literal = ts
  state : (feed s a).2 = last

instance (s : State) (a : Bytes) (ts : List Token) (last : State) :
    Decidable (Writes s a ts last) :=
  decidable_of_iff (cr ∉ a ∧ (∀ p ∈ (feed s a).1, p.Literal) ∧
      (feed s a).1.flatMap Piece.literal = ts ∧ (feed s a).2 = last)
    ⟨fun ⟨h₁, h₂, h₃, h₄⟩ => ⟨h₁, h₂, h₃, h₄⟩, fun ⟨h₁, h₂, h₃, h₄⟩ => ⟨h₁, h₂, h₃, h₄⟩⟩

theorem Writes.read {s last : State} {a : Bytes} {ts : List Token} (h : Writes s a ts last)
    (refs : References) (b : Bytes) : read refs s (a ++ b) = ts ++ read refs last b := by
  obtain ⟨hcr, hliteral, rfl, rfl⟩ := h
  have htokens : (feed s a).1.flatMap (Piece.tokens refs) = (feed s a).1.flatMap Piece.literal :=
    List.flatMap_congr fun p hp => (hliteral p hp).tokens refs
  rw [Html.read, newlines_append_left hcr, tokensFrom, pieces_append, List.flatMap_append,
    htokens]
  rfl

/-! ## Parts of a page -/

/-- The part leads from one state to the other, and exactly under the condition it has these
tokens. -/
def ReadsWhen (refs : References) (s last : State) (a : Bytes) (ts : List Token) (P : Prop) :
    Prop := ∀ b us, read refs s (a ++ b) = ts ++ us ↔ P ∧ read refs last b = us

theorem Writes.readsWhen {s last : State} {a : Bytes} {ts : List Token} (h : Writes s a ts last)
    (refs : References) : ReadsWhen refs s last a ts True := by
  intro b us
  rw [h.read, List.append_right_inj, true_and]

/-- One part behind another; the condition of the first may be used for the second. -/
theorem ReadsWhen.comp {refs : References} {s next last : State} {a b : Bytes}
    {ts us : List Token} {P Q : Prop} (ha : ReadsWhen refs s next a ts P)
    (hb : P → ReadsWhen refs next last b us Q) :
    ReadsWhen refs s last (a ++ b) (ts ++ us) (P ∧ Q) := by
  intro r vs
  rw [List.append_assoc, List.append_assoc, ha, and_assoc]
  exact and_congr_right fun hp => hb hp r vs

theorem ReadsWhen.congr {refs : References} {s last : State} {a b : Bytes} {ts us : List Token}
    {P Q : Prop} (h : ReadsWhen refs s last a ts P) (hbytes : b = a) (htokens : us = ts)
    (hiff : P ↔ Q) : ReadsWhen refs s last b us Q := by
  subst hbytes htokens
  exact fun r vs => (h r vs).trans (and_congr_left' hiff)

/-- A loop that prints one part for each item. -/
theorem ReadsWhen.flatMap {α : Type} {refs : References} {s : State} {print : α → Bytes}
    {tokens : α → List Token} {P : α → Prop} {items : List α}
    (h : ∀ x ∈ items, ReadsWhen refs s s (print x) (tokens x) (P x)) :
    ReadsWhen refs s s (items.flatMap print) (items.flatMap tokens) (∀ x ∈ items, P x) := by
  induction items with
  | nil =>
      intro b us
      exact (and_iff_right fun x hx => absurd hx List.not_mem_nil).symm
  | cons x items ih =>
      obtain ⟨hx, hitems⟩ := List.forall_mem_cons.mp h
      rw [List.flatMap_cons, List.flatMap_cons]
      exact (hx.comp fun _ => ih hitems).congr rfl rfl List.forall_mem_cons.symm

/-! ## Inside of markup -/

/-- A tag is kept: the step stays in it or ends it, and its attributes are still there. -/
def Tag.Kept (t : Tag Bytes) (result : List Piece × State) : Prop :=
  ∃ u : Tag Bytes, t.attributes <+: u.attributes ∧
    ((∃ place, result = ([], .tag u place)) ∨ result = ([.tag u], .data []))

theorem Tag.kept_stay {t u : Tag Bytes} (h : t.attributes <+: u.attributes) (place : Place) :
    t.Kept ([], .tag u place) := ⟨u, h, .inl ⟨place, rfl⟩⟩

theorem Tag.kept_end {t u : Tag Bytes} (h : t.attributes <+: u.attributes) :
    t.Kept ([.tag u], .data []) := ⟨u, h, .inr rfl⟩

theorem Tag.commit_attributes (t : Tag Bytes) (n : Text) (raw : Bytes) :
    t.attributes <+: (t.commit n raw).attributes := by
  rw [Tag.commit]
  split
  next => exact List.prefix_rfl
  next => exact List.prefix_append _ _

theorem attributesStep_kept (t : Tag Bytes) (c : UInt8) : t.Kept (attributesStep t c) := by
  rw [attributesStep]
  split_ifs
  · exact Tag.kept_stay List.prefix_rfl _
  · exact Tag.kept_stay List.prefix_rfl _
  · exact Tag.kept_end List.prefix_rfl
  · exact Tag.kept_stay List.prefix_rfl _

theorem nameStep_kept {t u : Tag Bytes} (h : t.attributes <+: u.attributes) (n : Text)
    (place : Place) (c : UInt8) : t.Kept (nameStep t n (.tag u place) c) := by
  have hcommit := t.commit_attributes n []
  rw [nameStep]
  split_ifs
  · exact Tag.kept_stay List.prefix_rfl _
  · exact Tag.kept_stay List.prefix_rfl _
  · exact Tag.kept_stay hcommit _
  · exact Tag.kept_end hcommit
  · exact Tag.kept_stay h _

/-- The step of a tag. -/
theorem tagStep_kept (t : Tag Bytes) (place : Place) (c : UInt8) : t.Kept (tagStep t place c) := by
  have hrfl : t.attributes <+: t.attributes := List.prefix_rfl
  have hcommit := t.commit_attributes
  cases place with
  | name =>
      rw [tagStep]
      split_ifs
      · exact Tag.kept_stay hrfl _
      · exact Tag.kept_stay hrfl _
      · exact Tag.kept_end hrfl
      · exact Tag.kept_stay (u := { t with name := t.name ++ [nameChar c] }) hrfl _
  | beforeName => exact attributesStep_kept t c
  | attributeName n => exact nameStep_kept hrfl n _ c
  | afterName n => exact nameStep_kept (hcommit n []) n _ c
  | beforeValue n =>
      rw [tagStep]
      split_ifs
      · exact Tag.kept_stay hrfl _
      · exact Tag.kept_stay hrfl _
      · exact Tag.kept_end (hcommit n [])
      · exact Tag.kept_stay hrfl _
  | value quote n raw =>
      rw [tagStep]
      split_ifs
      · exact Tag.kept_stay (hcommit n raw) _
      · exact Tag.kept_stay hrfl _
  | unquoted n raw =>
      rw [tagStep]
      split_ifs
      · exact Tag.kept_stay (hcommit n raw) _
      · exact Tag.kept_end (hcommit n raw)
      · exact Tag.kept_stay hrfl _
  | afterValue => exact attributesStep_kept t c
  | selfClosing =>
      rw [tagStep]
      split_ifs
      · exact Tag.kept_end hrfl
      · exact attributesStep_kept t c

/-- The first piece after the state of a tag is this tag, if the page does not end before. -/
theorem pieces_tag (t : Tag Bytes) (place : Place) (b : Bytes) :
    pieces (.tag t place) b = [] ∨
      ∃ u rest, t.attributes <+: u.attributes ∧ pieces (.tag t place) b = .tag u :: rest := by
  induction b generalizing t place with
  | nil => exact .inl rfl
  | cons c b ih =>
      obtain ⟨u, hu, hstep⟩ := tagStep_kept t place c
      rw [pieces, step]
      rcases hstep with ⟨next, hstep⟩ | hstep
      · rw [hstep]
        rcases ih u next with hnil | ⟨v, rest, hv, hpieces⟩
        · exact .inl hnil
        · exact .inr ⟨v, rest, hu.trans hv, hpieces⟩
      · rw [hstep]
        exact .inr ⟨u, _, hu, rfl⟩

/-- The states of comments and declarations. -/
def State.inComment : State → Bool
  | .declaration _ => true
  | .bogusComment => true
  | .comment _ => true
  | _ => false

/-- A byte stays in a comment or ends it. -/
theorem step_comment {s : State} (h : s.inComment) (c : UInt8) :
    (∃ next : State, next.inComment ∧ step s c = ([], next)) ∨
      step s c = ([.comment], .data []) := by
  cases s with
  | data raw => cases h
  | tagOpen raw => cases h
  | endTagOpen raw => cases h
  | tag t place => cases h
  | declaration dash =>
      rw [step]
      split_ifs
      · exact .inl ⟨_, rfl, rfl⟩
      · exact .inl ⟨_, rfl, rfl⟩
      · exact .inr rfl
      · exact .inl ⟨_, rfl, rfl⟩
  | bogusComment =>
      rw [step]
      split_ifs
      · exact .inr rfl
      · exact .inl ⟨_, rfl, rfl⟩
  | comment place =>
      rw [step]
      cases place <;> rw [commentStep]
      case body => exact .inl ⟨_, rfl, rfl⟩
      case endDash => exact .inl ⟨_, rfl, rfl⟩
      all_goals
        split_ifs <;> first | exact .inr rfl | exact .inl ⟨_, rfl, rfl⟩

/-- The first piece after the state of a comment is a comment. -/
theorem pieces_comment {s : State} (h : s.inComment) (b : Bytes) :
    ∃ rest, pieces s b = .comment :: rest := by
  induction b generalizing s with
  | nil =>
      cases s with
      | declaration dash => exact ⟨[], rfl⟩
      | bogusComment => exact ⟨[], rfl⟩
      | comment place => exact ⟨[], rfl⟩
      | _ => cases h
  | cons c b ih =>
      rw [pieces]
      rcases step_comment h c with ⟨next, hnext, hstep⟩ | hstep
      · rw [hstep]
        exact ih hnext
      · rw [hstep]
        exact ⟨_, rfl⟩

/-- How many characters are in front of the tokens. -/
def lead : List Token → Nat
  | .char _ :: ts => lead ts + 1
  | _ => 0

theorem lead_chars_append (cs : Text) (ts : List Token) :
    lead (cs.map .char ++ ts) = cs.length + lead ts := by
  induction cs with
  | nil => exact (Nat.zero_add _).symm
  | cons c cs ih =>
      rw [List.map_cons, List.cons_append, lead, ih, List.length_cons]
      omega

/-- In markup no character comes first. -/
theorem lead_markup (refs : References) {s : State}
    (h : s.inComment ∨ ∃ t place, s = .tag t place) (b : Bytes) :
    lead (tokensFrom refs s b) = 0 := by
  rcases h with h | ⟨t, place, rfl⟩
  · obtain ⟨rest, hpieces⟩ := pieces_comment h b
    rw [tokensFrom, hpieces]
    rfl
  · rcases pieces_tag t place b with hnil | ⟨u, rest, -, hpieces⟩
    · rw [tokensFrom, hnil]
      rfl
    · rw [tokensFrom, hpieces]
      rfl

/-! ## Text between tags -/

/-- The byte opens a tag or a comment behind `<`. -/
def isOpener (c : UInt8) : Bool := isLetter c || c == 47 || c == 33 || c == 63

/-- No `<` in the text opens a tag or a comment. -/
def Unopened : Bytes → Prop
  | [] => True
  | c :: b => (c = 60 → ∀ d ∈ b.head?, isOpener d = false) ∧ Unopened b

instance decidableUnopened : (b : Bytes) → Decidable (Unopened b)
  | [] => inferInstanceAs (Decidable True)
  | c :: b =>
      have := decidableUnopened b
      inferInstanceAs (Decidable ((c = 60 → ∀ d ∈ b.head?, isOpener d = false) ∧ Unopened b))

/-- A byte that does not end the name of a tag. -/
def isNameByte (c : UInt8) : Bool := !isSpace c && c != cr && c != 47 && c != 62

/-- A name that a tag can have. -/
def isTagName : Bytes → Bool
  | [] => false
  | c :: b => isLetter c && b.all isNameByte

/-- An end tag, as it is written. -/
def endTag (name : Bytes) : Bytes := [60, 47] ++ name ++ [62]

/-- Its token. -/
def endToken (name : Bytes) : Token := .tag ⟨true, name.map nameChar, [], false⟩

theorem pieces_name {b : Bytes} (h : b.all isNameByte) (t : Tag Bytes) (r : Bytes) :
    pieces (.tag t .name) (b ++ 62 :: r) =
      .tag { t with name := t.name ++ b.map nameChar } :: pieces (.data []) r := by
  induction b generalizing t with
  | nil =>
      rw [List.map_nil, List.append_nil]
      rfl
  | cons c b ih =>
      rw [List.all_cons, Bool.and_eq_true] at h
      have hc : isSpace c = false ∧ c ≠ cr ∧ c ≠ 47 ∧ c ≠ 62 := by
        simpa [isNameByte, and_assoc] using h.1
      rw [List.cons_append, pieces, step, tagStep, if_neg (by simp [hc.1]), if_neg hc.2.2.1,
        if_neg hc.2.2.2, List.nil_append, ih h.2]
      simp

theorem pieces_endTag {name : Bytes} (h : isTagName name) (raw r : Bytes) :
    pieces (.data raw) (endTag name ++ r) =
      .text raw :: .tag ⟨true, name.map nameChar, [], false⟩ :: pieces (.data []) r := by
  cases name with
  | nil => cases h
  | cons c b =>
      obtain ⟨hc, hb⟩ := Bool.and_eq_true_iff.mp h
      have hrest : pieces (.endTagOpen raw) (c :: (b ++ 62 :: r)) =
          .text raw :: .tag ⟨true, (c :: b).map nameChar, [], false⟩ :: pieces (.data []) r := by
        rw [pieces, step, if_pos hc, pieces_name hb]
        rfl
      rw [← hrest, endTag]
      simp [pieces, step, dataStep, isLetter, tolower]

/-- A byte of text. -/
theorem pieces_textByte {c : UInt8} {b : Bytes} (h : c = 60 → ∀ d ∈ b.head?, isOpener d = false)
    (raw : Bytes) : pieces (.data raw) (c :: b) = pieces (.data (raw ++ [c])) b := by
  rw [pieces, step, dataStep]
  split
  next hc =>
      subst hc
      cases b with
      | nil => rfl
      | cons d b =>
          have hd := h rfl d rfl
          simp only [isOpener, Bool.or_eq_false_iff, beq_eq_false_iff_ne] at hd
          obtain ⟨⟨⟨hletter, h47⟩, h33⟩, h63⟩ := hd
          rw [List.nil_append, pieces, step, if_neg (by simp [hletter]), if_neg h47, if_neg h33,
            if_neg h63]
          rfl
  next => rfl

/-- A `<` opens nothing with the `<` of what follows. -/
theorem notOpener_append {f b : Bytes} (hb : b.head? = some 60)
    (hf : ∀ d ∈ f.head?, isOpener d = false) : ∀ d ∈ (f ++ b).head?, isOpener d = false := by
  intro d hd
  cases f with
  | nil =>
      rw [List.nil_append, hb, Option.mem_some_iff] at hd
      rw [← hd]
      rfl
  | cons e f => exact hf d hd

/-- A text that opens nothing is read to its end. -/
theorem pieces_text {f b : Bytes} (hf : Unopened f) (hb : b.head? = some 60) (raw : Bytes) :
    pieces (.data raw) (f ++ b) = pieces (.data (raw ++ f)) b := by
  induction f generalizing raw with
  | nil => rw [List.nil_append, List.append_nil]
  | cons c f ih =>
      rw [List.cons_append, pieces_textByte fun hc => notOpener_append hb (hf.1 hc), ih hf.2,
        List.append_assoc]
      rfl

/-- Behind an opener comes markup, unless it is `</>`, which is nothing. -/
theorem pieces_opener {d : UInt8} (hd : isOpener d) (raw : Bytes) (e : UInt8) (b : Bytes) :
    ∃ s rest, pieces (.tagOpen raw) (d :: e :: b) = .text raw :: pieces s rest ∧
      ((s.inComment ∨ ∃ t place, s = .tag t place) ∨ (s = .data [] ∧ e = 62 ∧ rest = b)) := by
  rw [pieces, step]
  split_ifs with hletter h47 h33 h63
  · exact ⟨_, _, rfl, .inl (.inr ⟨_, _, rfl⟩)⟩
  · rw [pieces, step]
    split_ifs with hletter h62
    · exact ⟨_, _, rfl, .inl (.inr ⟨_, _, rfl⟩)⟩
    · exact ⟨_, _, rfl, .inr ⟨rfl, h62, rfl⟩⟩
    · exact ⟨_, _, rfl, .inl (.inl rfl)⟩
  · exact ⟨_, _, rfl, .inl (.inl rfl)⟩
  · exact ⟨_, _, rfl, .inl (.inl rfl)⟩
  · simp [isOpener, hletter, h47, h33, h63] at hd

/-- In front of what an opener opens there is only the text before it. -/
theorem lead_opener (refs : References) {d : UInt8} (hd : isOpener d) (raw : Bytes) (e : UInt8)
    (b : Bytes) :
    lead (tokensFrom refs (.data raw) (60 :: d :: e :: b)) ≤ raw.length ∨
      (e = 62 ∧ lead (tokensFrom refs (.data raw) (60 :: d :: e :: b)) ≤
        raw.length + lead (tokensFrom refs (.data []) b)) := by
  obtain ⟨s, rest, hpieces, hs⟩ := pieces_opener hd raw e b
  have hraw := length_characters_le refs false raw
  have hlead : lead (tokensFrom refs (.data raw) (60 :: d :: e :: b)) =
      (characters refs false raw).length +
        lead (tokensFrom refs s rest) := by
    rw [tokensFrom, pieces, step, dataStep, if_pos rfl, List.nil_append, hpieces,
      List.flatMap_cons, Piece.tokens, lead_chars_append, tokensFrom]
  rw [hlead]
  rcases hs with hmarkup | ⟨rfl, he, rfl⟩
  · rw [lead_markup refs hmarkup]
    exact .inl hraw
  · exact .inr ⟨he, Nat.add_le_add_right hraw _⟩

theorem lead_text_opener (refs : References) {d : UInt8} (hd : isOpener d) (name r raw f : Bytes) :
    lead (tokensFrom refs (.data raw) (60 :: d :: (f ++ (endTag name ++ r)))) ≤ raw.length ∨
      ∃ rest, f = 62 :: rest ∧
        lead (tokensFrom refs (.data raw) (60 :: d :: (f ++ (endTag name ++ r)))) ≤
          raw.length + lead (tokensFrom refs (.data []) (rest ++ (endTag name ++ r))) := by
  cases f with
  | nil =>
      rcases lead_opener refs hd raw 60 ([47] ++ name ++ [62] ++ r) with hle | ⟨h62, -⟩
      · exact .inl hle
      · cases h62
  | cons e f =>
      rcases lead_opener refs hd raw e (f ++ (endTag name ++ r)) with hle | ⟨rfl, hle⟩
      · exact .inl hle
      · exact .inr ⟨f, rfl, hle⟩

/-- In front of an end tag there are at most as many characters as bytes, and fewer if a tag
or a comment is opened. -/
theorem lead_text (refs : References) {name : Bytes} (hname : isTagName name) (r raw f : Bytes) :
    lead (tokensFrom refs (.data raw) (f ++ (endTag name ++ r))) ≤ raw.length + f.length ∧
      (¬Unopened f →
        lead (tokensFrom refs (.data raw) (f ++ (endTag name ++ r))) < raw.length + f.length) := by
  induction hn : f.length using Nat.strong_induction_on generalizing raw f with
  | _ n ih =>
      subst hn
      cases f with
      | nil =>
          rw [List.nil_append, tokensFrom, pieces_endTag hname, List.flatMap_cons, Piece.tokens,
            lead_chars_append]
          exact ⟨length_characters_le refs false raw, fun h => absurd trivial h⟩
      | cons c f =>
          rw [List.cons_append]
          by_cases hc : c = 60 → ∀ d ∈ f.head?, isOpener d = false
          · obtain ⟨hle, hlt⟩ := ih f.length (Nat.lt_succ_self _) (raw ++ [c]) f rfl
            rw [List.length_append, List.length_singleton] at hle hlt
            rw [tokensFrom, pieces_textByte fun h60 => notOpener_append rfl (hc h60), ← tokensFrom,
              List.length_cons]
            refine ⟨by omega, fun hopened => ?_⟩
            have := hlt fun hf => hopened ⟨hc, hf⟩
            omega
          · push Not at hc
            obtain ⟨rfl, d, hd, hopener⟩ := hc
            -- Then the text in front of the `<` is all that comes first, or `</>` is left out.
            suffices hlt : lead (tokensFrom refs (.data raw) (60 :: (f ++ (endTag name ++ r)))) <
                raw.length + (60 :: f).length from ⟨hlt.le, fun _ => hlt⟩
            cases f with
            | nil => cases hd
            | cons d' f =>
                cases hd
                rw [List.cons_append, List.length_cons, List.length_cons]
                rcases lead_text_opener refs (Bool.eq_true_of_not_eq_false hopener) name r raw f with
                  hle | ⟨rest, rfl, hle⟩
                · omega
                · have hshort : rest.length < (60 :: d :: 62 :: rest).length := by
                    simp only [List.length_cons]
                    omega
                  have hrest := (ih rest.length hshort [] rest rfl).1
                  rw [List.length_nil] at hrest
                  rw [List.length_cons]
                  omega

/-- The text is read as it is written. -/
structure PlainText (refs : References) (f : Bytes) : Prop where
  noCr : cr ∉ f
  unopened : Unopened f
  unreferenced : Unreferenced refs f

theorem tokensFrom_text (refs : References) {name f : Bytes} (hname : isTagName name)
    (hf : Unopened f) (r : Bytes) :
    tokensFrom refs (.data []) (f ++ (endTag name ++ r)) =
      (characters refs false f).map .char ++ endToken name :: tokensFrom refs (.data []) r := by
  rw [tokensFrom, pieces_text hf rfl, List.nil_append, pieces_endTag hname, List.flatMap_cons,
    List.flatMap_cons, tokensFrom]
  rfl

theorem chars_endToken_inj {a b : Text} {name : Bytes} {ts us : List Token} :
    a.map .char ++ endToken name :: ts = b.map .char ++ endToken name :: us ↔ a = b ∧ ts = us := by
  constructor
  · intro h
    have hlead := congrArg lead h
    rw [lead_chars_append, lead_chars_append] at hlead
    have hlength : a.length = b.length := Nat.add_right_cancel hlead
    obtain ⟨hchars, htail⟩ := List.append_inj h (by simpa using hlength)
    exact ⟨(List.map_inj_right fun _ _ h => Token.char.inj h).mp hchars, (List.cons.inj htail).2⟩
  · rintro ⟨rfl, rfl⟩
    rfl

theorem cr_notMem_endTag {name : Bytes} (h : isTagName name) : cr ∉ endTag name := by
  cases name with
  | nil => cases h
  | cons c b =>
      obtain ⟨hc, hb⟩ := Bool.and_eq_true_iff.mp h
      rw [endTag, List.mem_append, List.mem_append]
      rintro ((h | h) | h)
      · exact absurd h (by decide)
      · rcases List.mem_cons.mp h with rfl | h
        · exact absurd hc (by decide)
        · exact absurd (List.all_eq_true.mp hb cr h) (by decide)
      · exact absurd h (by decide)

/-- The characters in front of an end tag are as many as those of another text only if they are
this text. -/
theorem tokensFrom_text_iff (refs : References) {name : Bytes} (hname : isTagName name)
    {g f : Bytes} (hle : g.length ≤ f.length) (r : Bytes) (ts : List Token) :
    tokensFrom refs (.data []) (g ++ (endTag name ++ r)) =
        (codes f).map .char ++ endToken name :: ts ↔
      g = f ∧ (Unopened f ∧ Unreferenced refs f) ∧ tokensFrom refs (.data []) r = ts := by
  constructor
  · intro h
    have hunopened : Unopened g := by
      by_contra hopened
      have hlt := (lead_text refs hname r [] g).2 hopened
      rw [h, lead_chars_append, length_codes, List.length_nil] at hlt
      omega
    rw [tokensFrom_text refs hname hunopened, chars_endToken_inj] at h
    obtain ⟨hcharacters, hrest⟩ := h
    have hunreferenced : Unreferenced refs g := by
      by_contra hreferenced
      have hlt := length_characters_lt hreferenced
      rw [hcharacters, length_codes] at hlt
      omega
    rw [characters_text hunreferenced, codes_inj] at hcharacters
    subst hcharacters
    exact ⟨rfl, ⟨hunopened, hunreferenced⟩, hrest⟩
  · rintro ⟨rfl, ⟨hunopened, hunreferenced⟩, rfl⟩
    rw [tokensFrom_text refs hname hunopened, characters_text hunreferenced]

theorem plainText_iff {refs : References} {f : Bytes} :
    PlainText refs f ↔ cr ∉ f ∧ Unopened f ∧ Unreferenced refs f :=
  ⟨fun ⟨h₁, h₂, h₃⟩ => ⟨h₁, h₂, h₃⟩, fun ⟨h₁, h₂, h₃⟩ => ⟨h₁, h₂, h₃⟩⟩

instance (refs : References) (f : Bytes) : Decidable (PlainText refs f) :=
  decidable_of_iff _ plainText_iff.symm

/-- A text in front of an end tag is read as it is exactly when it is plain. -/
theorem readsWhen_text (refs : References) {name : Bytes} (hname : isTagName name) (f : Bytes) :
    ReadsWhen refs (.data []) (.data []) (f ++ endTag name)
      ((codes f).map .char ++ [endToken name]) (PlainText refs f) := by
  intro r ts
  have hhead : (endTag name ++ r).head? ≠ some lf := by
    intro h
    cases h
  rw [List.append_assoc, List.append_assoc, List.singleton_append, read, newlines_append hhead,
    newlines_append_left (cr_notMem_endTag hname),
    tokensFrom_text_iff refs hname (length_newlines_le f), newlines_eq_self_iff, plainText_iff,
    ← and_assoc (a := cr ∉ f)]
  rfl

/-! ## The value of an attribute -/

theorem pieces_value {quote : UInt8} {v : Bytes} (h : quote ∉ v) (t : Tag Bytes) (n : Text)
    (raw b : Bytes) : pieces (.tag t (.value quote n raw)) (v ++ b) =
      pieces (.tag t (.value quote n (raw ++ v))) b := by
  induction v generalizing raw with
  | nil => rw [List.nil_append, List.append_nil]
  | cons c v ih =>
      obtain ⟨hc, hv⟩ := not_or.mp (mt List.mem_cons.mpr h)
      rw [List.cons_append, pieces, step, tagStep, if_neg (Ne.symm hc), List.nil_append, ih hv,
        List.append_assoc]
      rfl

theorem Tag.commit_first {t : Tag Bytes} (h : t.attributes = []) (n : Text) (raw : Bytes) :
    t.commit n raw = { t with attributes := [(n, raw)] } := by
  rw [Tag.commit, h]
  rfl

/-- A quote in a text ends the value in front of it. -/
theorem tokensFrom_value_cut (refs : References) {t : Tag Bytes} (ht : t.attributes = [])
    {quote : UInt8} {a : Bytes} (ha : quote ∉ a) (n : Text) (raw b : Bytes) :
    tokensFrom refs (.tag t (.value quote n raw)) (a ++ quote :: b) = [] ∨
      ∃ (u : Tag Text) (more : List (Text × Text)) (ts : List Token),
        u.attributes = (n, characters refs true (raw ++ a)) :: more ∧
          tokensFrom refs (.tag t (.value quote n raw)) (a ++ quote :: b) = .tag u :: ts := by
  have hpieces : pieces (.tag t (.value quote n raw)) (a ++ quote :: b) =
      pieces (.tag (t.commit n (raw ++ a)) .afterValue) b := by
    rw [pieces_value ha, pieces, step, tagStep, if_pos rfl, List.nil_append]
  rw [tokensFrom, hpieces]
  rcases pieces_tag (t.commit n (raw ++ a)) .afterValue b with hnil | ⟨u, rest, hu, hfirst⟩
  · rw [hnil]
    exact .inl rfl
  · rw [Tag.commit_first ht] at hu
    obtain ⟨more, hmore⟩ := hu
    rw [hfirst]
    refine .inr ⟨u.read refs, more.map fun x => (x.1, characters refs true x.2), _, ?_, rfl⟩
    rw [Tag.read, ← hmore]
    rfl

/-- A plain text between the quotes of the first attribute is read as it is exactly when it
has no quote in it. -/
theorem readsWhen_value (refs : References) {t : Tag Bytes} (ht : t.attributes = []) {n : Text}
    {raw v : Bytes} (hraw : 38 ∉ raw ∧ 0 ∉ raw) (hv : PlainText refs v) (hnul : 0 ∉ v) :
    ReadsWhen refs (.tag t (.value 34 n raw)) (.data []) (v ++ [34, 62])
      [.tag ⟨t.closing, t.name, [(n, codes (raw ++ v))], t.selfClosing⟩] (34 ∉ v) := by
  intro r ts
  rw [List.append_assoc, List.singleton_append, read, newlines_append_left hv.noCr, newlines_append_left (by decide)]
  by_cases hquote : 34 ∈ v
  · refine iff_of_false (fun h => ?_) fun h => h.1 hquote
    obtain ⟨a, b, rfl, ha⟩ := List.eq_append_cons_of_mem hquote
    rw [List.append_assoc, List.cons_append] at h
    rcases tokensFrom_value_cut refs ht ha n raw (b ++ ([34, 62] ++ newlines r)) with
      hnil | ⟨u, more, us, hu, hfirst⟩
    · rw [hnil] at h
      cases h
    · rw [hfirst, List.cons.injEq, Token.tag.injEq] at h
      rw [h.1, List.cons.injEq, Prod.mk.injEq] at hu
      have hlength := congrArg List.length hu.1.2
      have hle := length_characters_le refs true (raw ++ a)
      rw [← hlength] at hle
      simp only [length_codes, List.length_append, List.length_cons] at hle
      omega
  · have htag : tokensFrom refs (.tag t (.value 34 n raw)) (v ++ ([34, 62] ++ newlines r)) =
        .tag ((t.commit n (raw ++ v)).read refs) :: read refs (.data []) r := by
      rw [tokensFrom, pieces_value hquote]
      rfl
    have hvalue : characters refs true (raw ++ v) = codes (raw ++ v) := by
      refine characters_value (hv.unreferenced.append_left hraw.1) fun h0 => ?_
      exact (List.mem_append.mp h0).elim hraw.2 hnul
    rw [htag, Tag.commit_first ht, Tag.read, List.map_singleton, hvalue, List.cons_inj_right]
    exact (and_iff_right hquote).symm

end Html
