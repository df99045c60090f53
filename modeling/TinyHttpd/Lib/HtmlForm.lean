import TinyHttpd.Lib.FormUrl
import TinyHttpd.Lib.Html
import TinyHttpd.Lib.Numeral

/-!
# The forms and the links of an HTML page

`formParts` finds the forms of a page and the controls in them, `FormPart.entries` is what a
control has when a user has filled the form in, and `formBody` is what is sent.

The controls are text inputs, radio buttons, and selects whose options have values.  Buttons
send nothing, and every other type of input counts as text.  A character that the page has
no byte for is sent as a reference.

As with `ReadsWhen`, a page is put together from parts: `Shows` says what a part shows of a
form, whatever comes behind it.  What is always the same in a page is `Fixed`, which can be
decided; between it are values of attributes (`shows_input`) and options (`shows_option`).
-/

namespace Html

open CString

/-! ## The parts of a form -/

/-- The start of a form, or one of its controls. -/
inductive FormPart where
  | start (action method : Text)
  | text (name value : Text) (readonly : Bool)
  | radio (name value : Text) (checked : Bool)
  | select (name : Text) (options : List (Text × Bool))
deriving DecidableEq

/-- Outside of a form, in one, or in a select of one with the options so far. -/
inductive Region where
  | outside
  | form
  | select (name : Option Text) (options : List (Text × Bool))
deriving DecidableEq

def Tag.attribute (t : Tag Text) (name : String) : Option Text :=
  t.attributes.lookup (codes (bytes name))

def Tag.has (t : Tag Text) (name : String) : Bool := (t.attribute name).isSome

/-- The name of a control; the empty one is none. -/
def Tag.controlName (t : Tag Text) : Option Text := (t.attribute "name").filter fun n => n != []

def Tag.opens (t : Tag Text) (name : String) : Bool := !t.closing && t.name == codes (bytes name)

def Tag.closes (t : Tag Text) (name : String) : Bool := t.closing && t.name == codes (bytes name)

theorem Tag.not_closes {t : Tag Text} {name : String} (h : t.opens name = true) (x : String) :
    t.closes x = false := by
  have hclosing := (Bool.and_eq_true_iff.mp h).1
  rw [Bool.not_eq_true'] at hclosing
  rw [Tag.closes, hclosing, Bool.false_and]

/-- The types of inputs that are buttons. -/
def buttonTypes : List Text := ["submit", "reset", "button", "image"].map fun s => codes (bytes s)

def lower (c : Nat) : Nat := if 65 ≤ c ∧ c ≤ 90 then c + 32 else c

/-- An `input` with that name. -/
def Tag.input (t : Tag Text) (name : Text) : List FormPart :=
  let type := ((t.attribute "type").getD []).map lower
  if type = codes (bytes "radio") then
    [.radio name ((t.attribute "value").getD (codes (bytes "on"))) (t.has "checked")]
  else if buttonTypes.contains type then []
  else [.text name ((t.attribute "value").getD []) (t.has "readonly")]

/-- A tag. -/
def Region.tag : Region → Tag Text → List FormPart × Region
  | .outside, t =>
      if t.opens "form" then
        ([.start ((t.attribute "action").getD []) ((t.attribute "method").getD [])], .form)
      else ([], .outside)
  | .form, t =>
      if t.closes "form" then ([], .outside)
      else if t.opens "input" then (t.controlName.toList.flatMap t.input, .form)
      else if t.opens "select" then ([], .select t.controlName [])
      else ([], .form)
  | .select name options, t =>
      if t.closes "select" then (name.toList.map fun n => .select n options, .form)
      else if t.opens "option" then
        ([], .select name (options ++ (t.attribute "value").toList.map fun v =>
          (v, t.has "selected")))
      else ([], .select name options)

/-- One token: the parts it ends, and the region behind it. -/
def Region.step (p : Region) : Token → List FormPart × Region
  | .tag t => p.tag t
  | _ => ([], p)

/-- The parts among these tokens, and the region behind them. -/
def feedParts : Region → List Token → List FormPart × Region
  | p, [] => ([], p)
  | p, t :: ts =>
      let (out, next) := p.step t
      let (outs, last) := feedParts next ts
      (out ++ outs, last)

/-- The parts from a region on. -/
def formParts (p : Region) (ts : List Token) : List FormPart := (feedParts p ts).1

theorem feedParts_append (p : Region) (ts us : List Token) :
    feedParts p (ts ++ us) =
      ((feedParts p ts).1 ++ (feedParts (feedParts p ts).2 us).1,
        (feedParts (feedParts p ts).2 us).2) := by
  induction ts generalizing p with
  | nil => rfl
  | cons t ts ih => simp only [List.cons_append, feedParts, ih, List.append_assoc]

theorem formParts_append (p : Region) (ts us : List Token) :
    formParts p (ts ++ us) = (feedParts p ts).1 ++ formParts (feedParts p ts).2 us := by
  rw [formParts, feedParts_append, formParts]

/-- Characters are in no control. -/
theorem feedParts_chars (p : Region) (cs : Text) : feedParts p (cs.map .char) = ([], p) := by
  induction cs with
  | nil => rfl
  | cons c cs ih => simp only [List.map_cons, feedParts, Region.step, ih, List.append_nil]

/-! ## What is sent -/

/-- What a user has put into the controls, by their names; nothing where it is left as it
was. -/
abbrev Choice := Text → Option Text

/-- A text input has one line. -/
def oneLine (value : Text) : Text := value.filter fun c => c != 10 && c != 13

/-- The option that a select shows at first: the last one that is marked, or the first. -/
def shown (options : List (Text × Bool)) : Option Text :=
  ((options.filter fun o => o.2).getLast?.or options.head?).map Prod.fst

/-- The entries of a control. -/
def FormPart.entries (choice : Choice) : FormPart → List (Text × Text)
  | .start _ _ => []
  | .text name value readonly =>
      [(name, oneLine (if readonly then value else (choice name).getD value))]
  | .radio name value checked =>
      if ((choice name).map fun v => v == value).getD checked then [(name, value)] else []
  | .select name options =>
      (((choice name).filter fun v => (options.map Prod.fst).contains v).or (shown options)).toList.map
        fun v => (name, v)

def encodeChar (c : Nat) : Bytes :=
  if c < 256 then FormUrl.encodeByte (UInt8.ofNat c)
  else FormUrl.encode (bytes "&#" ++ decimalNat c ++ bytes ";")

def encodeText (t : Text) : Bytes := t.flatMap encodeChar

/-- The body of the request. -/
def formBody (choice : Choice) (parts : List FormPart) : Bytes :=
  FormUrl.join ((parts.flatMap (FormPart.entries choice)).map fun e =>
    (encodeText e.1, encodeText e.2))

theorem encodeText_codes (b : Bytes) : encodeText (codes b) = FormUrl.encode b := by
  rw [encodeText, codes, List.flatMap_map, FormUrl.encode]
  refine List.flatMap_congr fun c _ => ?_
  rw [encodeChar, if_pos c.toNat_lt, UInt8.ofNat_toNat]

/-- The body, where the entries are texts of bytes and the names stay as they are. -/
theorem formBody_eq {choice : Choice} {parts : List FormPart} {fields : List (String × Bytes)}
    (hentries : parts.flatMap (FormPart.entries choice) =
      fields.map fun f => (codes (bytes f.1), codes f.2))
    (hnames : ∀ f ∈ fields, ∀ c ∈ bytes f.1, FormUrl.isUnreserved c = true) :
    formBody choice parts = FormUrl.submit fields := by
  rw [formBody, hentries, List.map_map, FormUrl.submit]
  refine congrArg FormUrl.join (List.map_congr_left fun f hf => ?_)
  show (encodeText (codes (bytes f.1)), encodeText (codes f.2)) = _
  rw [encodeText_codes, encodeText_codes, (FormUrl.encode_eq_self_iff _).mpr (hnames f hf)]

/-- A text of one line stays as it is. -/
theorem oneLine_codes {b : Bytes} (hlf : lf ∉ b) (hcr : cr ∉ b) : oneLine (codes b) = codes b := by
  refine List.filter_eq_self.mpr fun c hc => ?_
  obtain ⟨d, hd, rfl⟩ := List.mem_map.mp hc
  have hne : ∀ e : UInt8, e ∉ b → d.toNat ≠ e.toNat :=
    fun e he h => he (UInt8.toNat_inj.mp h ▸ hd)
  rw [Bool.and_eq_true, bne_iff_ne, bne_iff_ne]
  exact ⟨hne lf hlf, hne cr hcr⟩

/-! ## Parts of a page -/

/-- Where a page is being read: the tokenizer, and the region of the form. -/
abbrev Spot := State × Region

/-- The parts of the form that a part of the page shows, whatever comes behind it. -/
def Shows (refs : References) (s : Spot) (a : Bytes) (parts : List FormPart) (last : Spot) :
    Prop :=
  ∀ b, formParts s.2 (read refs s.1 (a ++ b)) = parts ++ formParts last.2 (read refs last.1 b)

theorem shows_nil (refs : References) (s : Spot) : Shows refs s [] [] s := fun _ => rfl

theorem Shows.comp {refs : References} {s next last : Spot} {a b : Bytes}
    {parts more : List FormPart} (ha : Shows refs s a parts next)
    (hb : Shows refs next b more last) : Shows refs s (a ++ b) (parts ++ more) last := by
  intro c
  rw [List.append_assoc, ha, hb, List.append_assoc]

/-- A part of the page with these tokens, which show these parts. -/
theorem shows_of_read {refs : References} {s last : Spot} {a : Bytes} {ts : List Token}
    {parts : List FormPart} (hread : ∀ b, read refs s.1 (a ++ b) = ts ++ read refs last.1 b)
    (hparts : feedParts s.2 ts = (parts, last.2)) : Shows refs s a parts last := by
  intro b
  rw [hread, formParts_append, hparts]

/-- The whole page. -/
theorem Shows.formParts_eq {refs : References} {a : Bytes} {parts : List FormPart} {last : Spot}
    (h : Shows refs (.data [], .outside) a parts last)
    (hend : formParts last.2 (read refs last.1 []) = []) :
    formParts .outside (tokenize refs a) = parts := by
  have hpage := h []
  rwa [List.append_nil, hend, List.append_nil] at hpage

/-- A part of the page that is the same for all references. -/
structure Fixed (s : Spot) (a : Bytes) (parts : List FormPart) (last : Spot) : Prop where
  noCr : cr ∉ a
  literal : ∀ p ∈ (feed s.1 a).1, p.Literal
  parts : feedParts s.2 ((feed s.1 a).1.flatMap Piece.literal) = (parts, last.2)
  state : (feed s.1 a).2 = last.1

instance (s : Spot) (a : Bytes) (parts : List FormPart) (last : Spot) :
    Decidable (Fixed s a parts last) :=
  decidable_of_iff (cr ∉ a ∧ (∀ p ∈ (feed s.1 a).1, p.Literal) ∧
      feedParts s.2 ((feed s.1 a).1.flatMap Piece.literal) = (parts, last.2) ∧
      (feed s.1 a).2 = last.1)
    ⟨fun ⟨h₁, h₂, h₃, h₄⟩ => ⟨h₁, h₂, h₃, h₄⟩, fun ⟨h₁, h₂, h₃, h₄⟩ => ⟨h₁, h₂, h₃, h₄⟩⟩

theorem Fixed.shows {s last : Spot} {a : Bytes} {parts : List FormPart}
    (h : Fixed s a parts last) (refs : References) : Shows refs s a parts last :=
  shows_of_read (Writes.read ⟨h.noCr, h.literal, rfl, h.state⟩ refs) h.parts

/-! ## Values of attributes -/

/-- A value that is read as it is between quotes. -/
structure ValueText (refs : References) (v : Bytes) : Prop where
  noQuote : 34 ∉ v
  noCr : cr ∉ v
  noNul : 0 ∉ v
  unreferenced : Unreferenced refs v

/-- Up to the quote. -/
theorem read_value {refs : References} {v : Bytes} (hv : ValueText refs v) (t : Tag Bytes)
    (n : Text) (b : Bytes) :
    read refs (.tag t (.value 34 n [])) (v ++ 34 :: b) =
      read refs (.tag (t.commit n v) .afterValue) b := by
  have hquote : newlines (34 :: b) = 34 :: newlines b := if_neg (by decide)
  rw [read, newlines_append_left hv.noCr, hquote, tokensFrom, pieces_value hv.noQuote,
    List.nil_append, pieces, step, tagStep, if_pos rfl]
  rfl

/-- The tag is read as it is written. -/
def Tag.literal (t : Tag Bytes) : Tag Text :=
  ⟨t.closing, t.name, t.attributes.map fun a => (a.1, codes a.2), t.selfClosing⟩

/-- The tag with an attribute more, and its end. -/
def Tag.with (t : Tag Text) (n v : Text) (selfClosing : Bool) : Tag Text :=
  ⟨t.closing, t.name, t.attributes ++ [(n, v)], selfClosing⟩

theorem Tag.commit_fresh {t : Tag Bytes} {n : Text} (h : n ∉ t.attributes.map Prod.fst)
    (raw : Bytes) : t.commit n raw = { t with attributes := t.attributes ++ [(n, raw)] } :=
  if_neg h

/-- With the last attribute being that value. -/
theorem Tag.read_commit {refs : References} {t : Tag Bytes} (ht : (Piece.tag t).Literal) {n : Text}
    (hn : n ∉ t.attributes.map Prod.fst) {v : Bytes} (hv : ValueText refs v) :
    (t.commit n v).read refs = t.literal.with n (codes v) t.selfClosing := by
  have hvalues : (t.attributes.map fun a => (a.1, characters refs true a.2)) =
      t.attributes.map fun a => (a.1, codes a.2) :=
    List.map_congr_left fun a ha => by
      rw [characters_value (unreferenced_of_notMem refs (ht a ha).1) (ht a ha).2]
  rw [Tag.commit_fresh hn, Tag.read, List.map_append, List.map_singleton, hvalues,
    characters_value hv.unreferenced hv.noNul]
  rfl

theorem read_tagEnd (refs : References) (t : Tag Bytes) (b : Bytes) :
    read refs (.tag t .afterValue) (62 :: b) = .tag (t.read refs) :: read refs (.data []) b := by
  have hbyte : newlines (62 :: b) = 62 :: newlines b := if_neg (by decide)
  rw [read, hbyte]
  rfl

theorem read_selfClosing (refs : References) (t : Tag Bytes) (b : Bytes) :
    read refs (.tag t .afterValue) (47 :: 62 :: b) =
      .tag { t.read refs with selfClosing := true } :: read refs (.data []) b := by
  have hbytes : newlines (47 :: 62 :: b) = 47 :: 62 :: newlines b :=
    newlines_append_left (by decide : cr ∉ [47, 62]) b
  rw [read, hbytes]
  rfl

theorem Tag.attribute_with_of_ne {t : Tag Text} {x : String} {n v : Text} {selfClosing : Bool}
    (h : codes (bytes x) ≠ n) : (t.with n v selfClosing).attribute x = t.attribute x := by
  rw [Tag.attribute, Tag.with, List.lookup_append, List.lookup_cons, beq_eq_false_iff_ne.mpr h]
  exact Option.or_none

theorem Tag.attribute_with {t : Tag Bytes} {x : String} {v : Text} {selfClosing : Bool}
    (h : codes (bytes x) ∉ t.attributes.map Prod.fst) :
    (t.literal.with (codes (bytes x)) v selfClosing).attribute x = some v := by
  have hnone : t.literal.attributes.lookup (codes (bytes x)) = none := by
    refine List.lookup_eq_none_iff.mpr fun a ha => ?_
    obtain ⟨a', ha', rfl⟩ := List.mem_map.mp ha
    exact bne_iff_ne.mpr fun heq => h (heq ▸ List.mem_map_of_mem ha')
  rw [Tag.attribute, Tag.with, List.lookup_append, List.lookup_cons, beq_self_eq_true, hnone]
  rfl

/-- What a text input has besides its value. -/
structure TextInput (t : Tag Bytes) (name : Text) (readonly : Bool) : Prop where
  literal : (Piece.tag t).Literal
  opens : t.literal.opens "input" = true
  fresh : codes (bytes "value") ∉ t.attributes.map Prod.fst
  name : t.literal.controlName = some name
  type : t.literal.attribute "type" = some (codes (bytes "text"))
  readonly : t.literal.has "readonly" = readonly

instance (t : Tag Bytes) (name : Text) (readonly : Bool) :
    Decidable (TextInput t name readonly) :=
  decidable_of_iff ((Piece.tag t).Literal ∧ t.literal.opens "input" = true ∧
      (t.attributes.map Prod.fst).contains (codes (bytes "value")) = false ∧
      t.literal.controlName = some name ∧
      t.literal.attribute "type" = some (codes (bytes "text")) ∧
      t.literal.has "readonly" = readonly)
    ⟨fun ⟨h₁, h₂, h₃, h₄, h₅, h₆⟩ => ⟨h₁, h₂, by simpa using h₃, h₄, h₅, h₆⟩,
      fun ⟨h₁, h₂, h₃, h₄, h₅, h₆⟩ => ⟨h₁, h₂, by simpa using h₃, h₄, h₅, h₆⟩⟩

theorem TextInput.tag_eq {t : Tag Bytes} {name : Text} {readonly : Bool}
    (h : TextInput t name readonly) (v : Text) (selfClosing : Bool) :
    Region.form.tag (t.literal.with (codes (bytes "value")) v selfClosing) =
      ([.text name v readonly], .form) := by
  have hdiffer : codes (bytes "name") ≠ codes (bytes "value") ∧
      codes (bytes "type") ≠ codes (bytes "value") ∧
      codes (bytes "readonly") ≠ codes (bytes "value") := by decide
  have hopens : (t.literal.with (codes (bytes "value")) v selfClosing).opens "input" = true :=
    h.opens
  have hcloses := Tag.not_closes hopens "form"
  have hname : (t.literal.with (codes (bytes "value")) v selfClosing).controlName = some name := by
    rw [← h.name, Tag.controlName, Tag.attribute_with_of_ne hdiffer.1, Tag.controlName]
  have htype : (codes (bytes "text")).map lower = codes (bytes "text") ∧
      codes (bytes "text") ≠ codes (bytes "radio") ∧ codes (bytes "text") ∉ buttonTypes := by
    decide
  rw [Region.tag, hcloses, if_neg Bool.false_ne_true, hopens, if_pos rfl, hname]
  simp [Tag.input, Tag.attribute_with_of_ne hdiffer.2.1, h.type, htype, Tag.attribute_with h.fresh,
    Tag.has, Tag.attribute_with_of_ne hdiffer.2.2, ← h.readonly]

/-- A text input with that value. -/
theorem shows_input {refs : References} {t : Tag Bytes} {name : Text} {readonly : Bool}
    (h : TextInput t name readonly) {v : Bytes} (hv : ValueText refs v) :
    Shows refs (.tag t (.value 34 (codes (bytes "value")) []), .form) (v ++ [34, 47, 62])
      [.text name (codes v) readonly] (.data [], .form) := by
  have hparts : feedParts .form [.tag (t.literal.with (codes (bytes "value")) (codes v) true)] =
      ([.text name (codes v) readonly], .form) := by
    simp only [feedParts, Region.step, h.tag_eq (codes v) true, List.append_nil]
  refine shows_of_read (fun b => ?_) hparts
  rw [List.append_assoc, List.cons_append, read_value hv, List.cons_append, List.cons_append,
    List.nil_append, read_selfClosing, Tag.read_commit h.literal h.fresh hv]
  rfl

/-! ## Options -/

/-- An option in front of its value. -/
def optionTag : Tag Bytes := ⟨false, codes (bytes "option"), [], false⟩

/-- An option with that value, selected or not, and with a text. -/
def optionBytes (value text : Bytes) (selected : Bool) : Bytes :=
  bytes "<option value=\"" ++ value ++
    bytes (if selected then "\" selected=\"selected\">" else "\">") ++ text ++
    bytes "</option>\n"

/-- Behind the end of a line. -/
abbrev lineStart : State := .data [lf]

theorem read_selected (refs : References) (t : Tag Bytes) (b : Bytes) :
    read refs (.tag t .afterValue) (bytes " selected=\"selected\">" ++ b) =
      .tag ((t.commit (codes (bytes "selected")) (bytes "selected")).read refs) ::
        read refs (.data []) b := by
  have hbytes : bytes " selected=\"selected\">" =
      [32, 115, 101, 108, 101, 99, 116, 101, 100, 61, 34, 115, 101, 108, 101, 99, 116, 101, 100, 34,
        62] := by decide
  have hname : codes (bytes "selected") = [115, 101, 108, 101, 99, 116, 101, 100] ∧
      bytes "selected" = [115, 101, 108, 101, 99, 116, 101, 100] := by decide
  rw [read, newlines_append_left (by decide), hbytes, hname.1, hname.2]
  rfl

/-- The tag of an option, behind its value. -/
theorem optionTag_eq (refs : References) {v : Bytes} (hv : ValueText refs v) :
    (optionTag.commit (codes (bytes "value")) v).read refs =
        ⟨false, codes (bytes "option"), [(codes (bytes "value"), codes v)], false⟩ ∧
      ((optionTag.commit (codes (bytes "value")) v).commit (codes (bytes "selected"))
          (bytes "selected")).read refs =
        ⟨false, codes (bytes "option"), [(codes (bytes "value"), codes v),
          (codes (bytes "selected"), codes (bytes "selected"))], false⟩ := by
  have hfirst : optionTag.commit (codes (bytes "value")) v =
      ⟨false, codes (bytes "option"), [(codes (bytes "value"), v)], false⟩ := Tag.commit_first rfl _ _
  have hvalue := characters_value hv.unreferenced hv.noNul
  have hselected : characters refs true (bytes "selected") = codes (bytes "selected") :=
    characters_value (unreferenced_of_notMem refs (by decide)) (by decide)
  have hdiffer : codes (bytes "selected") ∉ [codes (bytes "value")] := by decide
  rw [hfirst]
  constructor
  · rw [Tag.read, List.map_singleton, hvalue]
  · have hsecond := Tag.commit_fresh
      (t := ⟨false, codes (bytes "option"), [(codes (bytes "value"), v)], false⟩) hdiffer
      (bytes "selected")
    rw [hsecond, Tag.read, List.map_append, List.map_singleton, List.map_singleton, hvalue,
      hselected]
    rfl

/-- The value of an option, and the end of its tag. -/
theorem shows_optionTag {refs : References} {v : Bytes} (hv : ValueText refs v)
    (name : Option Text) (options : List (Text × Bool)) (selected : Bool) :
    Shows refs (.tag optionTag (.value 34 (codes (bytes "value")) []), .select name options)
      (v ++ bytes (if selected then "\" selected=\"selected\">" else "\">")) []
      (.data [], .select name (options ++ [(codes v, selected)])) := by
  have hbytes : bytes "\" selected=\"selected\">" = 34 :: bytes " selected=\"selected\">" ∧
      bytes "\">" = [34, 62] := by decide
  have hdistinct : codes (bytes "option") ≠ codes (bytes "select") ∧
      codes (bytes "selected") ≠ codes (bytes "value") := by decide
  obtain ⟨htag, htagSelected⟩ := optionTag_eq refs hv
  cases selected with
  | false =>
      have hparts : feedParts (.select name options)
          [.tag ⟨false, codes (bytes "option"), [(codes (bytes "value"), codes v)], false⟩] =
            ([], .select name (options ++ [(codes v, false)])) := by
        simp [feedParts, Region.step, Region.tag, Tag.closes, Tag.opens, Tag.attribute, Tag.has,
          hdistinct]
      refine shows_of_read (fun b => ?_) hparts
      rw [if_neg Bool.false_ne_true, hbytes.2, List.append_assoc, List.cons_append,
        read_value hv, List.singleton_append, read_tagEnd, htag]
      rfl
  | true =>
      have hparts : feedParts (.select name options)
          [.tag ⟨false, codes (bytes "option"), [(codes (bytes "value"), codes v),
            (codes (bytes "selected"), codes (bytes "selected"))], false⟩] =
            ([], .select name (options ++ [(codes v, true)])) := by
        simp [feedParts, Region.step, Region.tag, Tag.closes, Tag.opens, Tag.attribute, Tag.has,
          hdistinct]
      refine shows_of_read (fun b => ?_) hparts
      rw [if_pos rfl, hbytes.1, List.append_assoc, List.cons_append, read_value hv,
        read_selected, htagSelected]
      rfl

theorem shows_option {refs : References} {value text : Bytes} (hvalue : ValueText refs value)
    (htext : PlainText refs text) (name : Option Text) (options : List (Text × Bool))
    (selected : Bool) :
    Shows refs (lineStart, .select name options) (optionBytes value text selected) []
      (lineStart, .select name (options ++ [(codes value, selected)])) := by
  have hopen : Writes lineStart (bytes "<option value=\"") [.char 10]
      (.tag optionTag (.value 34 (codes (bytes "value")) [])) := by decide
  have hline : Writes (.data []) [lf] [] lineStart := by decide
  have hend : bytes "</option>\n" = endTag (bytes "option") ++ [lf] := by decide
  have hname : isTagName (bytes "option") = true := by decide
  have hlabel : Shows refs (.data [], .select name (options ++ [(codes value, selected)]))
      (text ++ endTag (bytes "option")) []
      (.data [], .select name (options ++ [(codes value, selected)])) := by
    refine shows_of_read (fun b => (readsWhen_text refs hname text b _).mpr ⟨htext, rfl⟩) ?_
    rw [feedParts_append, feedParts_chars]
    have hclosing : endToken (bytes "option") = .tag ⟨true, codes (bytes "option"), [], false⟩ ∧
        codes (bytes "option") ≠ codes (bytes "select") := by decide
    simp [feedParts, Region.step, hclosing, Region.tag, Tag.closes, Tag.opens]
  have hstart : Shows refs (lineStart, .select name options) (bytes "<option value=\"") []
      (.tag optionTag (.value 34 (codes (bytes "value")) []), .select name options) :=
    shows_of_read (hopen.read refs) rfl
  have hlast : Shows refs (.data [], .select name (options ++ [(codes value, selected)])) [lf] []
      (lineStart, .select name (options ++ [(codes value, selected)])) :=
    shows_of_read (hline.read refs) rfl
  have hoption := ((hstart.comp (shows_optionTag hvalue name options selected)).comp hlabel).comp
    hlast
  rw [optionBytes, hend]
  simpa only [List.append_assoc, List.append_nil] using hoption

/-- The options that a loop prints. -/
theorem shows_options {refs : References} {items : List (Bytes × Bytes)}
    (h : ∀ i ∈ items, ValueText refs i.1 ∧ PlainText refs i.2) (name : Option Text)
    (options : List (Text × Bool)) :
    Shows refs (lineStart, .select name options)
      (items.flatMap fun i => optionBytes i.1 i.2 false) []
      (lineStart, .select name (options ++ items.map fun i => (codes i.1, false))) := by
  induction items generalizing options with
  | nil =>
      rw [List.flatMap_nil, List.map_nil, List.append_nil]
      exact shows_nil refs _
  | cons i items ih =>
      obtain ⟨⟨hvalue, htext⟩, hrest⟩ := List.forall_mem_cons.mp h
      have hitems := (shows_option hvalue htext name options false).comp (ih hrest _)
      rw [List.append_assoc] at hitems
      exact hitems

/-! ## Links -/

/-- The address behind a link. -/
def Token.links : Token → List Text
  | .tag t => if t.opens "a" then (t.attribute "href").toList else []
  | _ => []

/-- The addresses of the links among these tokens. -/
def links (ts : List Token) : List Text := ts.flatMap Token.links

theorem links_append (ts us : List Token) : links (ts ++ us) = links ts ++ links us :=
  List.flatMap_append

/-- Text has no links. -/
theorem links_chars (text : Text) : links (text.map .char) = [] :=
  List.flatMap_eq_nil_iff.mpr fun t ht => by
    obtain ⟨c, -, rfl⟩ := List.mem_map.mp ht
    rfl

/-- The links that a part of the page has, whatever comes behind it. -/
def Leads (refs : References) (s : State) (a : Bytes) (hrefs : List Text) (last : State) : Prop :=
  ∀ b, links (read refs s (a ++ b)) = hrefs ++ links (read refs last b)

theorem Leads.comp {refs : References} {s next last : State} {a b : Bytes}
    {hrefs more : List Text} (ha : Leads refs s a hrefs next) (hb : Leads refs next b more last) :
    Leads refs s (a ++ b) (hrefs ++ more) last := by
  intro c
  rw [List.append_assoc, ha, hb, List.append_assoc]

theorem Leads.flatMap {α : Type} {refs : References} {s : State} {print : α → Bytes}
    {hrefs : α → List Text} {items : List α}
    (h : ∀ x ∈ items, Leads refs s (print x) (hrefs x) s) :
    Leads refs s (items.flatMap print) (items.flatMap hrefs) s := by
  induction items with
  | nil => exact fun b => rfl
  | cons x items ih =>
      obtain ⟨hx, hitems⟩ := List.forall_mem_cons.mp h
      exact hx.comp (ih hitems)

theorem leads_of_read {refs : References} {s last : State} {a : Bytes} {ts : List Token}
    (hread : ∀ b, read refs s (a ++ b) = ts ++ read refs last b) : Leads refs s a (links ts) last := by
  intro b
  rw [hread, links_append]

/-- A part of the page that is the same for all references. -/
structure FixedLinks (s : State) (a : Bytes) (hrefs : List Text) (last : State) : Prop where
  noCr : cr ∉ a
  literal : ∀ p ∈ (feed s a).1, p.Literal
  links : links ((feed s a).1.flatMap Piece.literal) = hrefs
  state : (feed s a).2 = last

instance (s : State) (a : Bytes) (hrefs : List Text) (last : State) :
    Decidable (FixedLinks s a hrefs last) :=
  decidable_of_iff (cr ∉ a ∧ (∀ p ∈ (feed s a).1, p.Literal) ∧
      Html.links ((feed s a).1.flatMap Piece.literal) = hrefs ∧ (feed s a).2 = last)
    ⟨fun ⟨h₁, h₂, h₃, h₄⟩ => ⟨h₁, h₂, h₃, h₄⟩, fun ⟨h₁, h₂, h₃, h₄⟩ => ⟨h₁, h₂, h₃, h₄⟩⟩

theorem FixedLinks.leads {s last : State} {a : Bytes} {hrefs : List Text}
    (h : FixedLinks s a hrefs last) (refs : References) : Leads refs s a hrefs last := by
  have hread := leads_of_read (Writes.read ⟨h.noCr, h.literal, rfl, h.state⟩ refs)
  rwa [h.links] at hread

/-- The text that has been read is forgotten. -/
def State.forget : State → State
  | .data _ => .data []
  | .tagOpen _ => .tagOpen []
  | .endTagOpen _ => .endTagOpen []
  | s => s

theorem links_text (refs : References) (raw : Bytes) :
    links (Piece.tokens refs (.text raw)) = [] :=
  links_chars _

/-- A step finds the same tags behind any text. -/
theorem step_forget (refs : References) (s : State) (c : UInt8) :
    links ((step s c).1.flatMap (Piece.tokens refs)) =
        links ((step s.forget c).1.flatMap (Piece.tokens refs)) ∧
      (step s c).2.forget = (step s.forget c).2.forget := by
  have hdata (raw raw' : Bytes) : links ((dataStep raw c).1.flatMap (Piece.tokens refs)) =
        links ((dataStep raw' c).1.flatMap (Piece.tokens refs)) ∧
      (dataStep raw c).2.forget = (dataStep raw' c).2.forget := by
    rw [dataStep, dataStep]
    split
    next => exact ⟨rfl, rfl⟩
    next => exact ⟨rfl, rfl⟩
  have htext (raw : Bytes) : links ([Piece.text raw].flatMap (Piece.tokens refs)) = [] := by
    rw [List.flatMap_singleton, links_text]
  cases s with
  | data raw => exact hdata raw []
  | tagOpen raw =>
      rw [State.forget, step, step]
      split
      next => exact ⟨(htext raw).trans (htext []).symm, rfl⟩
      split
      next => exact ⟨rfl, rfl⟩
      split
      next => exact ⟨(htext raw).trans (htext []).symm, rfl⟩
      split
      next => exact ⟨(htext raw).trans (htext []).symm, rfl⟩
      next => exact hdata (raw ++ [60]) ([] ++ [60])
  | endTagOpen raw =>
      rw [State.forget, step, step]
      split
      next => exact ⟨(htext raw).trans (htext []).symm, rfl⟩
      next => exact ⟨(htext raw).trans (htext []).symm, rfl⟩
  | declaration dash => exact ⟨rfl, rfl⟩
  | bogusComment => exact ⟨rfl, rfl⟩
  | comment place => exact ⟨rfl, rfl⟩
  | tag t place => exact ⟨rfl, rfl⟩

/-- The links of the rest of a page do not depend on the text before. -/
theorem links_forget (refs : References) {s s' : State} (h : s.forget = s'.forget) (b : Bytes) :
    links (tokensFrom refs s b) = links (tokensFrom refs s' b) := by
  induction b generalizing s s' with
  | nil =>
      have hfinish : ∀ s : State, links ((finish s).flatMap (Piece.tokens refs)) = [] := by
        intro s
        cases s with
        | data raw => exact (congrArg links (List.append_nil _)).trans (links_text refs raw)
        | tagOpen raw => exact (congrArg links (List.append_nil _)).trans (links_text refs _)
        | endTagOpen raw => exact (congrArg links (List.append_nil _)).trans (links_text refs _)
        | _ => rfl
      exact (hfinish s).trans (hfinish s').symm
  | cons c b ih =>
      obtain ⟨hlinks, hnext⟩ := step_forget refs s c
      obtain ⟨hlinks', hnext'⟩ := step_forget refs s' c
      rw [← h] at hlinks' hnext'
      rw [tokensFrom, tokensFrom, pieces, pieces, List.flatMap_append, List.flatMap_append,
        links_append, links_append, hlinks, hlinks']
      exact congrArg (_ ++ ·) (ih (hnext.trans hnext'.symm))

/-- A text without markup has no links. -/
theorem leads_text (refs : References) {f : Bytes} (hcr : cr ∉ f) (hmarkup : 60 ∉ f)
    (raw : Bytes) : Leads refs (.data raw) f [] (.data []) := by
  intro b
  have hpieces : ∀ (f : Bytes), 60 ∉ f → ∀ (raw b : Bytes),
      pieces (.data raw) (f ++ b) = pieces (.data (raw ++ f)) b := by
    intro f hmarkup
    induction f with
    | nil =>
        intro raw b
        rw [List.nil_append, List.append_nil]
    | cons c f ih =>
        intro raw b
        rw [List.mem_cons, not_or] at hmarkup
        rw [List.cons_append, pieces_textByte fun hc => absurd hc.symm hmarkup.1, ih hmarkup.2,
          List.append_assoc, List.singleton_append]
  rw [read, newlines_append_left hcr, tokensFrom, hpieces f hmarkup, ← tokensFrom, List.nil_append]
  have hforget : (State.data (raw ++ f)).forget = (State.data []).forget := rfl
  exact links_forget refs hforget _

/-- A part that is read as those tokens. -/
theorem ReadsWhen.leads {refs : References} {s last : State} {a : Bytes} {ts : List Token}
    {P : Prop} (h : ReadsWhen refs s last a ts P) (hP : P) : Leads refs s a (links ts) last :=
  leads_of_read fun b => (h b _).mpr ⟨hP, rfl⟩

/-- The whole page. -/
theorem Leads.links_eq {refs : References} {a : Bytes} {hrefs : List Text} {last : State}
    (h : Leads refs (.data []) a hrefs last) (hend : links (read refs last []) = []) :
    links (tokenize refs a) = hrefs := by
  have hpage := h []
  rwa [List.append_nil, hend, List.append_nil] at hpage

end Html
