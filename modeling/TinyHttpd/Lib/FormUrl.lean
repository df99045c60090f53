import TinyHttpd.Lib.CString

/-!
# Forms on the wire

The encoding `application/x-www-form-urlencoded` of a form: fields with `&` between them,
each a name and a value with `=` between them, and in both a blank as `+` and every byte
but letters, digits and `*-._` as `%` and two hexadecimal digits.
-/

namespace FormUrl

open CString

/-- Letters, digits and `*-._`. -/
def isUnreserved (c : UInt8) : Bool :=
  isdigit c || (65 ≤ c && c ≤ 90) || (97 ≤ c && c ≤ 122) || c == 42 || c == 45 || c == 46 || c == 95

/-- A hexadecimal digit. -/
def hexDigit (n : UInt8) : UInt8 := if n < 10 then 48 + n else 55 + n

def encodeByte (c : UInt8) : Bytes :=
  if isUnreserved c then [c]
  else if c = 32 then [43]
  else [37, hexDigit (c / 16), hexDigit (c % 16)]

def encode (text : Bytes) : Bytes := text.flatMap encodeByte

/-- The fields of a form, names and values as they are. -/
def join : List (Bytes × Bytes) → Bytes
  | [] => []
  | [(name, value)] => name ++ 61 :: value
  | (name, value) :: fields => name ++ 61 :: value ++ 38 :: join fields

/-- The body of a form that is sent. -/
def submit (fields : List (String × Bytes)) : Bytes :=
  join (fields.map fun f => (bytes f.1, encode f.2))

/-! ## Bytes of an encoding -/

theorem encode_cons (c : UInt8) (text : Bytes) : encode (c :: text) = encodeByte c ++ encode text :=
  rfl

/-- A test that all 256 bytes pass. -/
theorem forall_byte {p : UInt8 → Bool}
    (h : (List.range 256).all (fun n => p (UInt8.ofNat n)) = true) (c : UInt8) : p c = true := by
  have hc := List.all_eq_true.mp h c.toNat (List.mem_range.mpr c.toNat_lt)
  rwa [UInt8.ofNat_toNat] at hc

/-- The byte separates nothing: no white space, no `&`, no `=`, no NUL. -/
def isPlain (c : UInt8) : Bool := !isspace c && c != 38 && c != 61 && c != 0

theorem encodeByte_plain (c : UInt8) : ∀ d ∈ encodeByte c, isPlain d = true :=
  List.all_eq_true.mp (forall_byte (p := fun c => (encodeByte c).all isPlain) (by decide +kernel) c)

theorem encode_plain {text : Bytes} : ∀ d ∈ encode text, isPlain d = true := by
  intro d hd
  obtain ⟨c, -, hdc⟩ := List.mem_flatMap.mp hd
  exact encodeByte_plain c d hdc

theorem encodeByte_length_pos (c : UInt8) : 0 < (encodeByte c).length := by
  rw [encodeByte]
  split
  next => exact Nat.one_pos
  next => split <;> simp

theorem length_le_encode (text : Bytes) : text.length ≤ (encode text).length := by
  induction text with
  | nil => exact le_rfl
  | cons c text ih =>
      have hpos := encodeByte_length_pos c
      rw [encode_cons, List.length_append, List.length_cons]
      omega

theorem encode_ne_nil {text : Bytes} (h : text ≠ []) : encode text ≠ [] := by
  have hle := length_le_encode text
  have hpos := List.length_pos_iff.mpr h
  exact List.ne_nil_of_length_pos (hpos.trans_le hle)

/-- A text is its own encoding when all its bytes stay as they are, and only then. -/
theorem encode_eq_self_iff (text : Bytes) :
    encode text = text ↔ ∀ c ∈ text, isUnreserved c = true := by
  induction text with
  | nil => exact iff_of_true rfl nofun
  | cons c text ih =>
      rw [encode_cons, List.forall_mem_cons, encodeByte]
      by_cases hc : isUnreserved c = true
      · rw [if_pos hc, List.singleton_append, List.cons_inj_right, ih, and_iff_right hc]
      · rw [if_neg hc]
        refine iff_of_false (fun h => ?_) fun h => hc h.1
        split at h
        next hblank =>
            -- The blank would be a `+`.
            rw [hblank] at h
            exact absurd (List.cons.inj h).1 (by decide)
        next =>
            -- Three bytes for one.
            have hle := length_le_encode text
            have hlength := congrArg List.length h
            simp only [List.length_append, List.length_cons, List.length_nil] at hlength
            omega

end FormUrl
