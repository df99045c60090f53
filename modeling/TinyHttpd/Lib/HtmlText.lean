import Mathlib.Data.List.Basic
import TinyHttpd.Lib.CString

/-!
# The characters of an HTML page

A byte is a character.  Only ASCII characters are part of markup, so the encodings that
contain ASCII differ in the characters above 127 alone.  `newlines` turns every line end into
a line feed, and `characters` reads the character references in a text or in the value of an
attribute.

What the references stand for is a parameter.  It is only used that no reference stands for
more characters than it is long: a text with a reference in it is read as a shorter one
(`length_characters_lt`).
-/

namespace Html

open CString

/-- Characters, by their code points. -/
abbrev Text := List Nat

/-- Bytes as characters. -/
def codes (b : Bytes) : Text := b.map UInt8.toNat

@[simp] theorem length_codes (b : Bytes) : (codes b).length = b.length := List.length_map _

@[simp] theorem codes_cons (c : UInt8) (b : Bytes) : codes (c :: b) = c.toNat :: codes b := rfl

theorem codes_inj {a b : Bytes} : codes a = codes b ↔ a = b :=
  List.map_inj_right fun _ _ h => UInt8.toNat_inj.mp h

/-! ## Line ends -/

/-- CR LF and CR are read as LF. -/
def newlines : Bytes → Bytes
  | [] => []
  | c :: b =>
      if c = cr then if b.head? = some lf then newlines b else lf :: newlines b
      else c :: newlines b

theorem length_newlines_le (b : Bytes) : (newlines b).length ≤ b.length := by
  induction b with
  | nil => exact le_rfl
  | cons c b ih => grind [newlines]

theorem cr_notMem_newlines (b : Bytes) : cr ∉ newlines b := by
  induction b with
  | nil => exact List.not_mem_nil
  | cons c b ih =>
      have hlf : cr ≠ lf := lf_ne_cr.symm
      grind [newlines]

theorem newlines_append_left {a : Bytes} (h : cr ∉ a) (b : Bytes) :
    newlines (a ++ b) = a ++ newlines b := by
  induction a with
  | nil => rfl
  | cons c a ih =>
      obtain ⟨hc, ha⟩ := not_or.mp (mt List.mem_cons.mpr h)
      rw [List.cons_append, newlines, if_neg (Ne.symm hc), ih ha, List.cons_append]

theorem newlines_eq_self {b : Bytes} (h : cr ∉ b) : newlines b = b := by
  have := newlines_append_left h []
  rwa [newlines, List.append_nil] at this

theorem newlines_eq_self_iff {b : Bytes} : newlines b = b ↔ cr ∉ b :=
  ⟨fun h => h ▸ cr_notMem_newlines b, newlines_eq_self⟩

theorem newlines_append {b : Bytes} (hb : b.head? ≠ some lf) (a : Bytes) :
    newlines (a ++ b) = newlines a ++ newlines b := by
  induction a with
  | nil => rfl
  | cons c a ih =>
      have hhead : (a ++ b).head? = some lf ↔ a.head? = some lf := by
        cases a with
        | nil => exact iff_of_false hb (by simp)
        | cons d a => rfl
      rw [List.cons_append, newlines, newlines, ih]
      simp only [hhead]
      split_ifs <;> rfl

/-! ## Character references -/

/-- The character references: the names with what they stand for, and the character that a
number stands for. -/
structure References where
  named : List (Bytes × Text)
  numeric : Nat → Nat
  /-- What a name stands for is no longer than the name. -/
  length_le : ∀ entry ∈ named, entry.2.length ≤ entry.1.length

def isLetter (c : UInt8) : Bool := 97 ≤ tolower c && tolower c ≤ 122

def isHex (c : UInt8) : Bool := isdigit c || (97 ≤ tolower c && tolower c ≤ 102)

def hexValue (c : UInt8) : Nat := if isdigit c then c.toNat - 48 else (tolower c).toNat - 87

/-- The entry with the longest name that is in front. -/
def longest : List (Bytes × Text) → Bytes → Option (Bytes × Text)
  | [], _ => none
  | entry :: named, b =>
      match longest named b with
      | none => if entry.1 <+: b then some entry else none
      | some best =>
          if entry.1 <+: b ∧ best.1.length < entry.1.length then some entry else some best

/-- A name behind `&`: what it stands for, and how many bytes it is. -/
def namedReference (refs : References) (inAttribute : Bool) (b : Bytes) : Option (Text × Nat) :=
  match longest refs.named b with
  | none => none
  | some (name, text) =>
      -- In an attribute a name without semicolon may be the next parameter of an address.
      if inAttribute ∧ name.getLast? ≠ some 59 ∧
          (b.drop name.length).head?.any fun c => c == 61 || isLetter c || isdigit c then none
      else some (text, name.length)

/-- A number behind `&` and the `marks` of its base. -/
def numericReference (refs : References) (isDigit : UInt8 → Bool) (base marks : Nat) (b : Bytes) :
    Option (Text × Nat) :=
  let digits := (b.drop marks).takeWhile isDigit
  if digits = [] then none
  else
    some ([refs.numeric (digits.foldl (fun n c => n * base + hexValue c) 0)],
      marks + digits.length + if b[marks + digits.length]? = some 59 then 1 else 0)

/-- The reference behind `&`: what it stands for, and how many bytes it is. -/
def reference (refs : References) (inAttribute : Bool) (b : Bytes) : Option (Text × Nat) :=
  if b.head? = some 35 then
    if b[1]? = some 120 ∨ b[1]? = some 88 then numericReference refs isHex 16 2 b
    else numericReference refs isdigit 10 1 b
  else namedReference refs inAttribute b

/-- The characters that are written so; the first `n` bytes belong to a reference that has
been read. -/
def charactersFrom (refs : References) (inAttribute : Bool) : Nat → Bytes → Text
  | _, [] => []
  | n + 1, _ :: b => charactersFrom refs inAttribute n b
  | 0, c :: b =>
      if c = 38 then
        match reference refs inAttribute b with
        | none => c.toNat :: charactersFrom refs inAttribute 0 b
        | some (text, n) => text ++ charactersFrom refs inAttribute n b
      else (if inAttribute ∧ c = 0 then 0xFFFD else c.toNat) :: charactersFrom refs inAttribute 0 b

/-- The characters of a text, or of the value of an attribute. -/
def characters (refs : References) (inAttribute : Bool) (b : Bytes) : Text :=
  charactersFrom refs inAttribute 0 b

/-- No `&` in the text begins a reference. -/
def Unreferenced (refs : References) : Bytes → Prop
  | [] => True
  | c :: b => (c = 38 → reference refs false b = none) ∧ Unreferenced refs b

instance decidableUnreferenced (refs : References) : (b : Bytes) → Decidable (Unreferenced refs b)
  | [] => inferInstanceAs (Decidable True)
  | c :: b =>
      have := decidableUnreferenced refs b
      inferInstanceAs (Decidable ((c = 38 → reference refs false b = none) ∧ Unreferenced refs b))

theorem longest_mem {named : List (Bytes × Text)} {b : Bytes} {entry : Bytes × Text}
    (h : longest named b = some entry) : entry ∈ named ∧ entry.1 <+: b := by
  induction named with
  | nil => cases h
  | cons first named ih => grind [longest]

theorem numericReference_bounds {refs : References} {isDigit : UInt8 → Bool} {base marks : Nat}
    {b : Bytes} {text : Text} {n : Nat}
    (h : numericReference refs isDigit base marks b = some (text, n)) :
    text.length ≤ n ∧ n ≤ b.length := by
  have hdigits := (List.takeWhile_prefix isDigit (l := b.drop marks)).length_le
  rw [List.length_drop] at hdigits
  rw [numericReference] at h
  split at h
  next => cases h
  next hne =>
      have hpos := List.length_pos_iff.mpr hne
      rw [Option.some.injEq, Prod.mk.injEq] at h
      obtain ⟨rfl, rfl⟩ := h
      rw [List.length_singleton]
      split
      next hsemi =>
          have hlt := (List.getElem?_eq_some_iff.mp hsemi).1
          omega
      next => omega

theorem namedReference_bounds {refs : References} {inAttribute : Bool} {b : Bytes} {text : Text}
    {n : Nat} (h : namedReference refs inAttribute b = some (text, n)) :
    text.length ≤ n ∧ n ≤ b.length := by
  rw [namedReference] at h
  split at h
  next => cases h
  next name found hlongest =>
      obtain ⟨hmem, hfront⟩ := longest_mem hlongest
      split at h
      next => cases h
      next =>
          rw [Option.some.injEq, Prod.mk.injEq] at h
          obtain ⟨rfl, rfl⟩ := h
          exact ⟨refs.length_le _ hmem, hfront.length_le⟩

/-- A reference stands for no more characters than it has bytes. -/
theorem reference_bounds {refs : References} {inAttribute : Bool} {b : Bytes} {text : Text}
    {n : Nat} (h : reference refs inAttribute b = some (text, n)) :
    text.length ≤ n ∧ n ≤ b.length := by
  rw [reference] at h
  split at h
  next =>
      split at h
      next => exact numericReference_bounds h
      next => exact numericReference_bounds h
  next => exact namedReference_bounds h

/-- What is no reference in text is none in an attribute. -/
theorem reference_attribute {refs : References} {b : Bytes} (h : reference refs false b = none) :
    reference refs true b = none := by
  rw [reference] at h ⊢
  split at h
  next hnumber => rwa [if_pos hnumber]
  next hname =>
      rw [if_neg hname]
      rw [namedReference] at h ⊢
      split at h
      next => rfl
      next => simp at h

theorem length_charactersFrom_le (refs : References) (inAttribute : Bool) (n : Nat) (b : Bytes) :
    (charactersFrom refs inAttribute n b).length ≤ b.length - n := by
  induction b generalizing n with
  | nil => exact Nat.zero_le _
  | cons c b ih =>
      cases n with
      | succ n => exact (ih n).trans (by simp)
      | zero =>
          rw [charactersFrom]
          split_ifs
          · split
            next => simpa using ih 0
            next text n href =>
                obtain ⟨htext, hn⟩ := reference_bounds href
                have := ih n
                rw [List.length_append, List.length_cons]
                omega
          · simpa using ih 0
          · simpa using ih 0

theorem length_characters_le (refs : References) (inAttribute : Bool) (b : Bytes) :
    (characters refs inAttribute b).length ≤ b.length :=
  length_charactersFrom_le refs inAttribute 0 b

/-- Without references the characters are the bytes. -/
theorem characters_text {refs : References} {b : Bytes} (h : Unreferenced refs b) :
    characters refs false b = codes b := by
  induction b with
  | nil => rfl
  | cons c b ih =>
      rw [characters, charactersFrom, codes_cons, ← ih h.2]
      split
      next hc => rw [h.1 hc]; rfl
      next => simp [characters]

theorem characters_value {refs : References} {b : Bytes} (h : Unreferenced refs b) (hnul : 0 ∉ b) :
    characters refs true b = codes b := by
  induction b with
  | nil => rfl
  | cons c b ih =>
      obtain ⟨hc0, hb0⟩ := not_or.mp (mt List.mem_cons.mpr hnul)
      rw [characters, charactersFrom, codes_cons, ← ih h.2 hb0]
      split
      next hc => rw [reference_attribute (h.1 hc)]; rfl
      next => rw [if_neg (fun h => hc0 h.2.symm)]; rfl

/-- With a reference the text is shorter. -/
theorem length_characters_lt {refs : References} {b : Bytes} (h : ¬Unreferenced refs b) :
    (characters refs false b).length < b.length := by
  induction b with
  | nil => exact absurd trivial h
  | cons c b ih =>
      have hle := length_charactersFrom_le refs false
      rw [characters, charactersFrom, List.length_cons]
      split
      next hc =>
          split
          next href =>
              have := ih fun hb => h ⟨fun _ => href, hb⟩
              rw [characters] at this
              rw [List.length_cons]
              omega
          next text n href =>
              obtain ⟨htext, hn⟩ := reference_bounds href
              have := hle n b
              rw [List.length_append]
              omega
      next hc =>
          have := ih fun hb => h ⟨fun h38 => absurd h38 hc, hb⟩
          rw [characters] at this
          rw [List.length_cons]
          omega

theorem unreferenced_of_notMem (refs : References) {b : Bytes} (h : 38 ∉ b) :
    Unreferenced refs b := by
  induction b with
  | nil => trivial
  | cons c b ih =>
      obtain ⟨hc, hb⟩ := not_or.mp (mt List.mem_cons.mpr h)
      exact ⟨fun h38 => absurd h38.symm hc, ih hb⟩

theorem Unreferenced.append_left {refs : References} {a b : Bytes} (ha : 38 ∉ a)
    (hb : Unreferenced refs b) : Unreferenced refs (a ++ b) := by
  induction a with
  | nil => exact hb
  | cons c a ih =>
      obtain ⟨hc, ha⟩ := not_or.mp (mt List.mem_cons.mpr ha)
      exact ⟨fun h38 => absurd h38.symm hc, ih ha⟩

end Html
