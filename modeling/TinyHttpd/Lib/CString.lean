import Mathlib.Data.List.TakeWhile
import Mathlib.Data.Nat.Digits.Defs

/-!
# Byte strings and the C library on them

A C string is the part of a byte array before its first NUL.  The functions of
`string.h`, `ctype.h` and `stdlib.h` used by the programs of this development
are given here on lists of bytes, with the lemmas that say what their results
mean.  A list that ends before a NUL stands for an array whose next byte is
NUL.

`atoi` is the library's `(int) strtol(s, NULL, 10)`: the value is clamped to a
64-bit `long` and then reduced to 32 bits.
-/

namespace CString

/-- Bytes in memory or on the wire. -/
abbrev Bytes := List UInt8

/-- The bytes of a source text, in UTF-8. -/
def bytes (s : String) : Bytes := s.toUTF8.data.toList

/-- `'\n'`. -/
abbrev lf : UInt8 := 10

/-- `'\r'`. -/
abbrev cr : UInt8 := 13

@[simp] theorem lf_ne_cr : lf ≠ cr := by decide

/-- A string is searched byte by byte, and not for each of the 256 bytes. -/
instance (b : Bytes) (p : UInt8 → Prop) [DecidablePred p] : Decidable (∀ c ∈ b, p c) :=
  List.decidableBAll p b

/-! ## Character classes -/

/-- `isspace` in the C locale. -/
def isspace (c : UInt8) : Bool := c == 32 || (9 ≤ c && c ≤ 13)

/-- `isdigit`. -/
def isdigit (c : UInt8) : Bool := 48 ≤ c && c ≤ 57

/-- `tolower` in the C locale. -/
def tolower (c : UInt8) : UInt8 := if 65 ≤ c ∧ c ≤ 90 then c + 32 else c

/-! ## C strings -/

/-- The C string an array holds: its bytes before the first NUL. -/
def cstr (b : Bytes) : Bytes := b.takeWhile (· ≠ 0)

@[simp] theorem cstr_nil : cstr [] = [] := rfl

theorem cstr_cons (c : UInt8) (b : Bytes) : cstr (c :: b) = if c = 0 then [] else c :: cstr b := by
  by_cases h : c = 0 <;> simp [cstr, h]

theorem cstr_eq_self {b : Bytes} (h : ∀ c ∈ b, c ≠ 0) : cstr b = b :=
  List.takeWhile_eq_self_iff.mpr fun c hc => decide_eq_true (h c hc)

/-- The string ends at its first NUL. -/
theorem cstr_append_nul {b : Bytes} (h : ∀ c ∈ b, c ≠ 0) (rest : Bytes) :
    cstr (b ++ 0 :: rest) = b := by
  induction b with
  | nil => rfl
  | cons c b ih =>
      obtain ⟨hc, hb⟩ := List.forall_mem_cons.mp h
      rw [List.cons_append, cstr_cons, if_neg hc, ih hb]

/-! ## Comparison -/

/-- The common loop of the comparison functions: compare the images under `f`
byte by byte, up to the first difference or the end of both strings. -/
def cmpWith (f : UInt8 → UInt8) : Bytes → Bytes → Int
  | [], b => 0 - (f (b.headD 0)).toNat
  | c :: a, b =>
      if f c = f (b.headD 0) then
        if c = 0 then 0 else cmpWith f a b.tail
      else (f c).toNat - (f (b.headD 0)).toNat

/-- `strcmp`. -/
def strcmp : Bytes → Bytes → Int := cmpWith id

/-- `strcasecmp`. -/
def strcasecmp : Bytes → Bytes → Int := cmpWith tolower

/-- `strncasecmp`: the same over at most `n` bytes. -/
def strncasecmp : Bytes → Bytes → Nat → Int
  | _, _, 0 => 0
  | a, b, n + 1 =>
      if tolower (a.headD 0) = tolower (b.headD 0) then
        if a.headD 0 = 0 then 0 else strncasecmp a.tail b.tail n
      else (tolower (a.headD 0)).toNat - (tolower (b.headD 0)).toNat

/-- A character map under which NUL and nothing else becomes NUL, as under case
folding. -/
structure KeepsNul (f : UInt8 → UInt8) : Prop where
  zero : f 0 = 0
  eq_zero : ∀ {c}, f c = 0 → c = 0

theorem keepsNul_id : KeepsNul id := ⟨rfl, fun h => h⟩

theorem keepsNul_tolower : KeepsNul tolower := by
  refine ⟨rfl, fun {c} h => ?_⟩
  rw [tolower] at h
  split at h
  next hc =>
      have hlo := UInt8.le_iff_toNat_le.mp hc.1
      have hhi := UInt8.le_iff_toNat_le.mp hc.2
      have hsum := congrArg UInt8.toNat h
      simp only [UInt8.toNat_add, UInt8.reduceToNat] at hlo hhi hsum
      omega
  next => exact h

theorem sub_toNat_eq_zero {x y : UInt8} : ((x.toNat : Int) - y.toNat = 0) ↔ x = y := by
  rw [Int.sub_eq_zero, Int.ofNat_inj]
  exact UInt8.toNat_inj

/-- A comparison is zero when the two C strings agree under the map. -/
theorem cmpWith_eq_zero {f : UInt8 → UInt8} (hf : KeepsNul f) :
    ∀ a b : Bytes, cmpWith f a b = 0 ↔ (cstr a).map f = (cstr b).map f
  | [], b => by
      have h0 : ((0 : Int) - (f (b.headD 0)).toNat = 0) ↔ f (b.headD 0) = 0 := by
        have h := sub_toNat_eq_zero (x := 0) (y := f (b.headD 0))
        rw [eq_comm (a := (0 : UInt8))] at h
        exact h
      rw [cmpWith, h0]
      cases b with
      | nil => simp [hf.zero]
      | cons d b =>
          by_cases hd : d = 0
          · simp [cstr_cons, hd, hf.zero]
          · simpa [cstr_cons, hd] using fun h => hd (hf.eq_zero h)
  | c :: a, [] => by
      by_cases hc : c = 0
      · simp [cmpWith, cstr_cons, hc]
      · have hne : f c ≠ f 0 := fun h => hc (hf.eq_zero (h.trans hf.zero))
        simp [cmpWith, cstr_cons, hc, hne, sub_toNat_eq_zero]
  | c :: a, d :: b => by
      have ih := cmpWith_eq_zero hf a b
      by_cases hc : c = 0 <;> by_cases hd : d = 0
      · simp [cmpWith, cstr_cons, hc, hd]
      · have hne : f 0 ≠ f d := fun h => hd (hf.eq_zero (h.symm.trans hf.zero))
        simp [cmpWith, cstr_cons, hc, hd, hne, sub_toNat_eq_zero]
      · have hne : f c ≠ f 0 := fun h => hc (hf.eq_zero (h.trans hf.zero))
        simp [cmpWith, cstr_cons, hc, hd, hne, sub_toNat_eq_zero]
      · by_cases hcd : f c = f d
        · simp [cmpWith, cstr_cons, hc, hd, hcd, ih]
        · simp [cmpWith, cstr_cons, hc, hd, hcd, sub_toNat_eq_zero]

theorem strcmp_eq_zero (a b : Bytes) : strcmp a b = 0 ↔ cstr a = cstr b := by
  have h := cmpWith_eq_zero keepsNul_id a b
  rwa [List.map_id, List.map_id] at h

/-- Equality up to the case of ASCII letters. -/
theorem strcasecmp_eq_zero (a b : Bytes) :
    strcasecmp a b = 0 ↔ (cstr a).map tolower = (cstr b).map tolower :=
  cmpWith_eq_zero keepsNul_tolower a b

/-- `strncasecmp` against a string of at least `n` bytes looks at the first `n`
bytes only. -/
theorem strncasecmp_eq_zero : ∀ (n : Nat) (a b : Bytes), (∀ c ∈ b.take n, c ≠ 0) → n ≤ b.length →
    (strncasecmp a b n = 0 ↔ (a.take n).map tolower = (b.take n).map tolower)
  | 0, a, b, _, _ => by simp [strncasecmp]
  | n + 1, a, [], _, h => by simp at h
  | n + 1, a, d :: b, hb, hlen => by
      have hd : tolower d ≠ 0 := fun h => hb d (by simp) (keepsNul_tolower.eq_zero h)
      cases a with
      | nil =>
          have h0 : tolower 0 ≠ tolower d := by rw [keepsNul_tolower.zero]; exact hd.symm
          simp [strncasecmp, h0, sub_toNat_eq_zero]
      | cons c a =>
          have ih := strncasecmp_eq_zero n a b (fun x hx => hb x (by simp [hx]))
            (by simpa using hlen)
          by_cases hcd : tolower c = tolower d
          · have hc : c ≠ 0 := by
              intro hc
              rw [hc, keepsNul_tolower.zero] at hcd
              exact hd hcd.symm
            simp [strncasecmp, hcd, hc, ih]
          · simp [strncasecmp, hcd, sub_toNat_eq_zero]

end CString
