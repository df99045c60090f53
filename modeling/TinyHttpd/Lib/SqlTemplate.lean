import TinyHttpd.Lib.SqlLex

/-!
# Statements from templates

A template is fixed text with fields in it, each a number or the text of a string.  The
statement has the template's tokens, with one literal for each field, exactly when each
field is one on its own (`lex_render_iff`): the lexer never makes up for a field that is
not.
-/

namespace SqlLex

open CString

/-! ## Fields -/

/-- A field with the text put in for it. -/
inductive Field where
  /-- Without quotes around it. -/
  | number (text : Bytes)
  /-- Between single quotes. -/
  | string (text : Bytes)
deriving DecidableEq

def Field.render : Field → Bytes
  | .number text => text
  | .string text => quote text

/-- The one literal the field should be. -/
def Field.token : Field → Token
  | .number text => .number text
  | .string text => .quoted .single text

/-- The field is one literal on its own. -/
def Field.Fits : Field → Prop
  | .number text => isNumber text = true
  | .string text => isQuotable text = true

theorem Field.fits_of_good {f : Field} (h : f.token.Good) : f.Fits := by
  cases f with
  | number text => exact h
  | string text => exact h

theorem Field.lex_render {f : Field} (h : f.Fits) : lex f.render = [f.token] := by
  cases f with
  | number text => exact lex_number h
  | string text => exact lex_quote h

/-! ## Text next to a field -/

/-- A byte that ends whatever token is before it. -/
def isseparator (c : UInt8) : Bool := c == 32 || c == 44 || c == 41 || c == 59

/-- A byte that no operator goes on with. -/
def isplain (c : UInt8) : Bool :=
  !(iscompare c || c == 38 || c == 124 || c == 45 || c == 42 || c == 47)

/-- At most an operator has been read of the current token. -/
def State.ready (s : State) : Bool :=
  !s.executing &&
    match s.mode with
    | .start => true
    | .operator _ => true
    | _ => false

theorem joins_of_isplain {c : UInt8} (h : isplain c = true) (text : Bytes) :
    joins text c = false := by
  simp only [isplain, Bool.not_eq_true', Bool.or_eq_false_iff, beq_eq_false_iff_ne] at h
  obtain ⟨⟨⟨⟨⟨hcompare, hand⟩, hor⟩, -⟩, -⟩, -⟩ := h
  have hequal : c ≠ 61 := by
    rintro rfl
    cases hcompare
  simp [joins, hcompare, hand, hor, hequal]

/-- Behind an operator, or nothing. -/
theorem breaks_of_ready {s : State} (hs : s.ready = true) {c : UInt8} (hc : isplain c = true) :
    Breaks s c := by
  obtain ⟨mode, executing⟩ := s
  simp only [State.ready, Bool.and_eq_true, Bool.not_eq_true'] at hs
  obtain ⟨rfl, hmode⟩ := hs
  refine ⟨rfl, ?_⟩
  cases mode with
  | start => rfl
  | operator text =>
      have hplain := hc
      simp only [isplain, Bool.not_eq_true', Bool.or_eq_false_iff, beq_eq_false_iff_ne] at hplain
      have hstep : stepOperator text c = breakAt (.operator text) c := by
        simp [stepOperator, hplain, joins_of_isplain hc]
      rw [step]
      split <;> simp_all [stepMode, breakAt]
  | _ => cases hmode

/-- Behind a number. -/
theorem breaks_of_number {q : NumberState} (hq : q.accepts = true) (text : Bytes) {c : UInt8}
    (hword : isword c = false) (hpoint : c ≠ 46) : Breaks ⟨.number q text, false⟩ c := by
  have hdigit : isdigit c = false := by
    simp only [isword, Bool.or_eq_false_iff] at hword
    exact hword.1.1.1.1.1
  have hletter : ∀ d : UInt8, isword d = true → c ≠ d := by
    rintro d hd rfl
    rw [hd] at hword
    cases hword
  have he := hletter 101 rfl
  have hE := hletter 69 rfl
  have hx := hletter 120 rfl
  have hb := hletter 98 rfl
  refine ⟨rfl, ?_⟩
  cases q with
  | zero =>
      simp [step, stepMode, stepNumber, NumberState.next, hdigit, hpoint, he, hE, hx, hb, hword,
        breakAt]
  | int =>
      simp [step, stepMode, stepNumber, NumberState.next, hdigit, hpoint, he, hE, hword, breakAt]
  | frac => simp [step, stepMode, stepNumber, NumberState.next, hdigit, he, hE, breakAt]
  | exp => simp [step, stepMode, stepNumber, NumberState.next, hdigit, breakAt]
  | _ => cases hq

/-- Behind a string. -/
theorem breaks_of_closing (text : Bytes) {c : UInt8} (hc : c ≠ 39) :
    Breaks ⟨.closing .single text, false⟩ c := by
  refine ⟨rfl, ?_⟩
  simp [step, stepMode, Quote.delimiter, hc, breakAt]

/-- Behind a field. -/
theorem Field.breaks {f : Field} (h : f.Fits) {c : UInt8} (hc : isseparator c = true) :
    Breaks (run .initial f.render).1 c := by
  have hcases : c = 32 ∨ c = 44 ∨ c = 41 ∨ c = 59 := by simpa [isseparator, or_assoc] using hc
  cases f with
  | number text =>
      obtain ⟨q, hq, hrun⟩ := run_of_isNumber h
      rw [Field.render, hrun]
      rcases hcases with rfl | rfl | rfl | rfl <;>
        exact breaks_of_number hq text (by decide) (by decide)
  | string text =>
      rw [Field.render, run_of_isQuotable h]
      rcases hcases with rfl | rfl | rfl | rfl <;> exact breaks_of_closing text (by decide)

theorem isplain_of_first {c : UInt8} {q : NumberState} (h : NumberState.first c = some q) :
    isplain c = true := by
  by_contra hplain
  simp only [isplain, iscompare, Bool.not_eq_true, Bool.not_eq_false', Bool.or_eq_true,
    beq_iff_eq, or_assoc] at hplain
  rcases hplain with rfl | rfl | rfl | rfl | rfl | rfl | rfl | rfl | rfl <;> cases h

/-- A field opens with a digit, a point or a quote. -/
theorem Field.isplain_head {f : Field} (h : f.Fits) : ∀ c ∈ f.render.head?, isplain c = true := by
  intro c hc
  cases f with
  | number text =>
      cases text with
      | nil => cases hc
      | cons d text =>
          cases hc
          obtain ⟨q', hq', -⟩ := (Option.any_eq_true ..).mp h
          obtain ⟨q, hq, -⟩ := Option.bind_eq_some_iff.mp hq'
          exact isplain_of_first hq
  | string text =>
      cases hc
      rfl

/-! ## Templates -/

/-- Fixed text, and the field behind it. -/
structure Segment where
  text : Bytes
  field : Option Field

/-- The text of an optional field. -/
def renderField (f : Option Field) : Bytes := (f.map Field.render).getD []

def Segment.render (s : Segment) : Bytes := s.text ++ renderField s.field

/-- The template's tokens, with a literal for the field. -/
def Segment.tokens (s : Segment) : List Token := lex s.text ++ s.field.toList.map Field.token

def render (segments : List Segment) : Bytes := segments.flatMap Segment.render

def tokens (segments : List Segment) : List Token := segments.flatMap Segment.tokens

def fields (segments : List Segment) : List Field := segments.filterMap Segment.field

/-- No token of the text reaches into what comes behind it. -/
def Segment.Opens (s : Segment) : Prop := (run .initial s.text).1.ready = true

/-- No token from before reaches into the text. -/
def Segment.Follows (s : Segment) : Prop := s.text.head?.any isseparator = true

instance (s : Segment) : Decidable s.Opens := inferInstanceAs (Decidable (_ = _))

instance (s : Segment) : Decidable s.Follows := inferInstanceAs (Decidable (_ = _))

/-- Fixed text and fields do not run into each other. -/
def WellFormed : List Segment → Prop
  | [] => True
  | s :: rest => s.Opens ∧ ∀ r ∈ rest, r.Opens ∧ r.Follows

theorem wellFormed_tail {s : Segment} {rest : List Segment} (h : WellFormed (s :: rest)) :
    WellFormed rest := by
  cases rest with
  | nil => trivial
  | cons r rest =>
      exact ⟨(h.2 r (List.mem_cons_self ..)).1, fun r' hr' => h.2 r' (List.mem_cons_of_mem _ hr')⟩

theorem isplain_of_isseparator {c : UInt8} (h : isseparator c = true) : isplain c = true := by
  have hcases : c = 32 ∨ c = 44 ∨ c = 41 ∨ c = 59 := by simpa [isseparator, or_assoc] using h
  rcases hcases with rfl | rfl | rfl | rfl <;> rfl

theorem ready_closed {s : State} (h : s.ready = true) : s.executing = false := by
  rw [State.ready, Bool.and_eq_true, Bool.not_eq_true'] at h
  exact h.1

/-- A segment whose field fits. -/
theorem Segment.lex_render {s : Segment} (hopens : s.Opens) (hfits : ∀ f ∈ s.field, f.Fits) :
    lex s.render = s.tokens ∧ (run .initial s.render).1.executing = false ∧
      ∀ c, isseparator c = true → Breaks (run .initial s.render).1 c := by
  obtain ⟨text, field⟩ := s
  have hready : (run .initial text).1.ready = true := hopens
  cases field with
  | none =>
      simp only [Segment.render, Segment.tokens, renderField, Option.map_none, Option.getD_none,
        List.append_nil, Option.toList_none, List.map_nil]
      exact ⟨trivial, ready_closed hready,
        fun c hc => breaks_of_ready hready (isplain_of_isseparator hc)⟩
  | some f =>
      have hf : f.Fits := hfits f rfl
      have hhead : ∀ c ∈ f.render.head?, Breaks (run .initial text).1 c :=
        fun c hc => breaks_of_ready hready (f.isplain_head hf c hc)
      have hstate : (run .initial (text ++ f.render)).1 = (run .initial f.render).1 := by
        cases hrender : f.render with
        | nil =>
            exfalso
            cases f with
            | number text =>
                cases (hrender : text = [])
                cases hf
            | string text => cases hrender
        | cons c rest =>
            rw [run_append, run_of_breaks (hhead c (by rw [hrender]; rfl))]
      refine ⟨?_, ?_, fun c hc => ?_⟩
      · exact (lex_append (ready_closed hready) hhead).trans
          (congrArg (lex text ++ ·) (f.lex_render hf))
      · rw [Segment.render, renderField, Option.map_some, Option.getD_some, hstate]
        exact (f.breaks hf (c := 32) rfl).1
      · rw [Segment.render, renderField, Option.map_some, Option.getD_some, hstate]
        exact f.breaks hf hc

theorem Segment.head_render {s : Segment} (h : s.Follows) (rest : Bytes) :
    ∀ c ∈ (s.render ++ rest).head?, isseparator c = true := by
  obtain ⟨text, field⟩ := s
  cases text with
  | nil => cases h
  | cons d text =>
      rintro c ⟨⟩
      exact h

/-- Where every field is a literal on its own, the statement has the template's tokens. -/
theorem lex_render {segments : List Segment} (h : WellFormed segments)
    (hfits : ∀ f ∈ fields segments, f.Fits) : lex (render segments) = tokens segments := by
  induction segments with
  | nil => rfl
  | cons s rest ih =>
      have hs : ∀ f ∈ s.field, f.Fits := by
        intro f hf
        exact hfits f (List.mem_filterMap.mpr ⟨s, List.mem_cons_self .., hf⟩)
      have hrest : ∀ f ∈ fields rest, f.Fits := by
        intro f hf
        obtain ⟨r, hr, hfr⟩ := List.mem_filterMap.mp hf
        exact hfits f (List.mem_filterMap.mpr ⟨r, List.mem_cons_of_mem _ hr, hfr⟩)
      obtain ⟨hlex, hclosed, hbreaks⟩ := Segment.lex_render h.1 hs
      have hhead : ∀ c ∈ (render rest).head?, Breaks (run .initial s.render).1 c := by
        intro c hc
        cases rest with
        | nil => cases hc
        | cons r rest =>
            exact hbreaks c (Segment.head_render (h.2 r (List.mem_cons_self ..)).2 _ c hc)
      calc lex (render (s :: rest))
          = lex s.render ++ lex (render rest) := lex_append hclosed hhead
        _ = s.tokens ++ tokens rest := by rw [hlex, ih (wellFormed_tail h) hrest]

/-- The statement has the template's tokens, one literal for each field, exactly when
every field is a literal on its own. -/
theorem lex_render_iff {segments : List Segment} (h : WellFormed segments) :
    lex (render segments) = tokens segments ↔ ∀ f ∈ fields segments, f.Fits := by
  constructor
  · intro hlex f hf
    obtain ⟨s, hs, hfield⟩ := List.mem_filterMap.mp hf
    -- The field's literal came out of the lexer.
    refine f.fits_of_good (lex_good (render segments) f.token ?_)
    rw [hlex]
    refine List.mem_flatMap.mpr ⟨s, hs, List.mem_append_right _ ?_⟩
    rw [hfield]
    exact List.mem_singleton.mpr rfl
  · exact lex_render h

end SqlLex
