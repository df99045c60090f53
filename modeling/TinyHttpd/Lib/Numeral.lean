import TinyHttpd.Lib.CString
import Mathlib.Data.Nat.Digits.Lemmas
import Mathlib.Tactic.Ring

/-!
# Decimal numerals

`numeral` is the value of a run of digits, `strtol` and `atoi` are the library's
readers of a number at the front of a string, and `decimal` is what `%d` prints.

A reader skips white space, takes one optional sign and stops at the first byte
that is not a digit, so what it returns depends on the leading run of digits
alone (`atoi_digits`).
-/

namespace CString

/-- The value of a run of digits. -/
def numeral : Bytes → Nat
  | [] => 0
  | c :: ds => (c.toNat - 48) * 10 ^ ds.length + numeral ds

@[simp] theorem numeral_nil : numeral [] = 0 := rfl

/-- Every byte of the string is a digit. -/
def IsDigits (ds : Bytes) : Prop := ∀ c ∈ ds, isdigit c = true

instance (ds : Bytes) : Decidable (IsDigits ds) := inferInstanceAs (Decidable (∀ c ∈ ds, _))

theorem IsDigits.tail {c : UInt8} {ds : Bytes} (h : IsDigits (c :: ds)) : IsDigits ds :=
  fun d hd => h d (List.mem_cons_of_mem _ hd)

/-- Largest `int`. -/
def intMax : Nat := 2 ^ 31 - 1

/-- Largest `long`. -/
def longMax : Nat := 2 ^ 63 - 1

/-- `strtol(s, NULL, 10)`, clamped to the range of `long`. -/
def strtol (s : Bytes) : Int :=
  match s.dropWhile isspace with
  | 45 :: ds => max (-(longMax : Int) - 1) (-(numeral (ds.takeWhile isdigit)))
  | 43 :: ds => min (longMax : Int) (numeral (ds.takeWhile isdigit))
  | ds => min (longMax : Int) (numeral (ds.takeWhile isdigit))

/-- `atoi`. -/
def atoi (s : Bytes) : Int := (strtol s).bmod (2 ^ 32)

/-- What `%d` prints for a natural number. -/
def decimalNat (n : Nat) : Bytes :=
  if n = 0 then [48] else ((Nat.digits 10 n).map fun d => UInt8.ofNat (48 + d)).reverse

/-- What `%d` prints. -/
def decimal : Int → Bytes
  | .ofNat n => decimalNat n
  | .negSucc n => 45 :: decimalNat (n + 1)

/-! ## Reading digits -/

theorem isdigit_not_isspace {c : UInt8} (h : isdigit c = true) : isspace c = false := by
  simp only [isdigit, Bool.and_eq_true, decide_eq_true_eq, UInt8.le_iff_toNat_le] at h
  simp only [isspace, Bool.or_eq_false_iff, beq_eq_false_iff_ne, ne_eq, ← UInt8.toNat_inj,
    Bool.and_eq_false_iff, decide_eq_false_iff_not, UInt8.le_iff_toNat_le]
  have h48 : (48 : UInt8).toNat = 48 := rfl
  have h57 : (57 : UInt8).toNat = 57 := rfl
  have h32 : (32 : UInt8).toNat = 32 := rfl
  have h13 : (13 : UInt8).toNat = 13 := rfl
  omega

theorem isdigit_ne_sign {c : UInt8} (h : isdigit c = true) : c ≠ 45 ∧ c ≠ 43 := by
  constructor <;> rintro rfl <;> simp [isdigit] at h

/-- Dropping the first digit leaves the value as it was when that digit is `0`
and only then. -/
theorem numeral_tail_eq {c : UInt8} {ds : Bytes} (hc : isdigit c = true) :
    numeral ds = numeral (c :: ds) ↔ c = 48 := by
  have hpos : 0 < 10 ^ ds.length := Nat.pow_pos (by omega)
  have hle : 48 ≤ c.toNat := by
    simp only [isdigit, Bool.and_eq_true, decide_eq_true_eq, UInt8.le_iff_toNat_le] at hc
    exact hc.1
  rw [numeral]
  constructor
  · intro h
    have h0 : (c.toNat - 48) * 10 ^ ds.length = 0 := by omega
    rcases Nat.mul_eq_zero.mp h0 with h1 | h1
    · apply UInt8.toNat_inj.mp
      have h48 : (48 : UInt8).toNat = 48 := rfl
      omega
    · omega
  · rintro rfl
    simp

theorem takeWhile_isdigit {ds : Bytes} (hds : IsDigits ds) : ds.takeWhile isdigit = ds := by
  rw [List.takeWhile_eq_self_iff]
  exact hds

/-- White space in front of a number is skipped. -/
theorem strtol_append_space {w s : Bytes} (hw : ∀ c ∈ w, isspace c = true) :
    strtol (w ++ s) = strtol s := by
  unfold strtol
  rw [List.dropWhile_append_of_pos hw]

theorem strtol_digits {ds : Bytes} (hds : IsDigits ds) :
    strtol ds = min (longMax : Int) (numeral ds) := by
  have hdrop : ds.dropWhile isspace = ds := by
    cases ds with
    | nil => rfl
    | cons c ds => simp [isdigit_not_isspace (hds c (List.mem_cons_self ..))]
  rw [strtol]
  rw [hdrop]
  split
  next ds' => exact absurd rfl (isdigit_ne_sign (hds 45 (List.mem_cons_self ..))).1
  next ds' => exact absurd rfl (isdigit_ne_sign (hds 43 (List.mem_cons_self ..))).2
  next => rw [takeWhile_isdigit hds]

/-- `atoi` of a numeral in the range of `int`. -/
theorem atoi_digits {w ds : Bytes} (hw : ∀ c ∈ w, isspace c = true) (hds : IsDigits ds)
    (hmax : numeral ds ≤ intMax) : atoi (w ++ ds) = numeral ds := by
  have hm : numeral ds ≤ 2147483647 := hmax
  have hmin : min (longMax : Int) (numeral ds : Int) = numeral ds := by
    rw [longMax, min_eq_right]
    omega
  rw [atoi, strtol_append_space hw, strtol_digits hds, hmin]
  apply Int.bmod_eq_of_le <;> omega

/-- The byte cannot be part of a number. -/
def EndsNumber (c : UInt8) : Prop := isdigit c = false ∧ c ≠ 45 ∧ c ≠ 43

theorem takeWhile_isdigit_append {r : Bytes} (hr : ∀ c ∈ r, EndsNumber c) :
    ∀ t : Bytes, (t ++ r).takeWhile isdigit = t.takeWhile isdigit
  | [] => by
      cases r with
      | nil => rfl
      | cons c r => simp [(hr c (List.mem_cons_self ..)).1]
  | c :: t => by
      have ih := takeWhile_isdigit_append hr t
      cases h : isdigit c <;> simp [h, ih]

/-- There is no number in bytes that cannot be part of one. -/
theorem strtol_of_endsNumber {r : Bytes} (hr : ∀ c ∈ r, EndsNumber c) : strtol r = 0 := by
  have hmem : ∀ c ∈ r.dropWhile isspace, EndsNumber c :=
    fun c hc => hr c ((List.dropWhile_sublist isspace).mem hc)
  rw [strtol]
  cases h : r.dropWhile isspace with
  | nil => rfl
  | cons c r' =>
      rw [h] at hmem
      obtain ⟨hd, h45, h43⟩ := hmem c (List.mem_cons_self ..)
      split
      next he => exact absurd (List.cons.inj he).1 h45
      next he => exact absurd (List.cons.inj he).1 h43
      next => simp [hd, longMax]

/-- What follows a number and cannot be part of one is not read. -/
theorem strtol_append_end {r : Bytes} (hr : ∀ c ∈ r, EndsNumber c) :
    ∀ t : Bytes, strtol (t ++ r) = strtol t
  | [] => by
      rw [List.nil_append, strtol_of_endsNumber hr]
      rfl
  | c :: t => by
      cases hc : isspace c with
      | true =>
          have hspace : ∀ d ∈ [c], isspace d = true := by simpa using hc
          have hl := strtol_append_space (s := t ++ r) hspace
          have ht := strtol_append_space (s := t) hspace
          rw [List.singleton_append] at hl ht
          rw [List.cons_append, hl, ht, strtol_append_end hr t]
      | false =>
          unfold strtol
          rw [List.cons_append, List.dropWhile_cons_of_neg (by simp [hc]),
            List.dropWhile_cons_of_neg (by simp [hc])]
          have htake := takeWhile_isdigit_append hr
          split
          next he =>
              obtain ⟨rfl, rfl⟩ := List.cons.inj he
              simp [htake]
          next he =>
              obtain ⟨rfl, rfl⟩ := List.cons.inj he
              simp [htake]
          next h45 h43 =>
              rw [← List.cons_append, htake]
              split
              next he => exact absurd (by rw [(List.cons.inj he).1]) (h45 (t ++ r))
              next he => exact absurd (by rw [(List.cons.inj he).1]) (h43 (t ++ r))
              next => rfl

/-! ## Printing and reading back -/

theorem numeral_append (a b : Bytes) :
    numeral (a ++ b) = numeral a * 10 ^ b.length + numeral b := by
  induction a with
  | nil => simp
  | cons c a ih =>
      rw [List.cons_append, numeral, numeral, ih, List.length_append]
      ring

theorem toNat_digit {d : Nat} (hd : d < 10) : (UInt8.ofNat (48 + d)).toNat = 48 + d := by
  rw [UInt8.toNat_ofNat']
  omega

theorem isDigits_decimalNat (n : Nat) : IsDigits (decimalNat n) := by
  rw [decimalNat]
  split
  next => decide +kernel
  next =>
      intro c hc
      obtain ⟨d, hd, rfl⟩ := List.mem_map.mp (List.mem_reverse.mp hc)
      have hlt := Nat.digits_lt_base (by decide : 1 < 10) hd
      have hval := toNat_digit hlt
      simp only [isdigit, Bool.and_eq_true, decide_eq_true_eq, UInt8.le_iff_toNat_le, hval]
      have h48 : (48 : UInt8).toNat = 48 := rfl
      have h57 : (57 : UInt8).toNat = 57 := rfl
      omega

theorem decimalNat_ne_nil (n : Nat) : decimalNat n ≠ [] := by
  rw [decimalNat]
  split
  next => exact List.cons_ne_nil _ _
  next hn => simpa using Nat.digits_ne_nil_iff_ne_zero.mpr hn

/-- The digits, most significant first, have the value of the number. -/
theorem numeral_reverse_digits (ds : List Nat) (hds : ∀ d ∈ ds, d < 10) :
    numeral (ds.map fun d => UInt8.ofNat (48 + d)).reverse = Nat.ofDigits 10 ds := by
  induction ds with
  | nil => rfl
  | cons d ds ih =>
      have hval := toNat_digit (hds d (List.mem_cons_self ..))
      have hrest := ih fun e he => hds e (List.mem_cons_of_mem _ he)
      rw [List.map_cons, List.reverse_cons, numeral_append, hrest, Nat.ofDigits_cons]
      simp only [numeral, hval, List.length_singleton, List.length_nil]
      omega

theorem numeral_decimalNat (n : Nat) : numeral (decimalNat n) = n := by
  rw [decimalNat]
  split
  next h => rw [h]; rfl
  next =>
      rw [numeral_reverse_digits _ fun d hd => Nat.digits_lt_base (by decide) hd,
        Nat.ofDigits_digits]

/-- The numbers an `int` holds. -/
def IsInt (v : Int) : Prop := -2 ^ 31 ≤ v ∧ v < 2 ^ 31

instance (v : Int) : Decidable (IsInt v) := inferInstanceAs (Decidable (_ ∧ _))

theorem isInt_atoi (s : Bytes) : IsInt (atoi s) := by
  have hlo := @Int.le_bmod (strtol s) (2 ^ 32) (by decide)
  have hhi := @Int.bmod_lt (strtol s) (2 ^ 32) (by decide)
  rw [IsInt, atoi]
  omega

theorem length_decimalNat_le {n k : Nat} (h : n < 10 ^ (k + 1)) :
    (decimalNat n).length ≤ k + 1 := by
  rw [decimalNat]
  split
  next => simp
  next => simpa using (Nat.digits_length_le_iff (by decide) n).mpr h

/-- What `%d` prints takes 11 bytes at most. -/
theorem length_decimal_le {v : Int} (h : IsInt v) : (decimal v).length ≤ 11 := by
  obtain ⟨hlo, hhi⟩ := h
  cases v with
  | ofNat n =>
      rw [Int.ofNat_eq_natCast] at hhi
      exact length_decimalNat_le (by omega)
  | negSucc n =>
      rw [Int.negSucc_eq] at hlo
      exact Nat.succ_le_succ (length_decimalNat_le (by omega))

/-- `atoi` reads back what `%d` prints. -/
theorem atoi_decimal {v : Int} (h : IsInt v) : atoi (decimal v) = v := by
  obtain ⟨hlo, hhi⟩ := h
  cases v with
  | ofNat n =>
      have hmax : numeral (decimalNat n) ≤ intMax := by
        rw [numeral_decimalNat, intMax]
        rw [Int.ofNat_eq_natCast] at hhi
        omega
      have hread := atoi_digits (List.forall_mem_nil fun c => isspace c = true)
        (isDigits_decimalNat n) hmax
      rw [List.nil_append, numeral_decimalNat] at hread
      exact hread
  | negSucc n =>
      have hdigits := isDigits_decimalNat (n + 1)
      have hvalue := numeral_decimalNat (n + 1)
      have hread : strtol (decimal (Int.negSucc n)) = -((n + 1 : Nat) : Int) := by
        rw [decimal, strtol]
        simp only [List.dropWhile_cons_of_neg (show ¬isspace 45 = true by decide)]
        rw [takeWhile_isdigit hdigits, hvalue, longMax, max_eq_right]
        rw [Int.negSucc_eq] at hlo
        omega
      rw [atoi, hread, Int.negSucc_eq]
      rw [Int.negSucc_eq] at hlo
      apply Int.bmod_eq_of_le <;> omega

theorem atoi_append_end {t r : Bytes} (hr : ∀ c ∈ r, EndsNumber c) : atoi (t ++ r) = atoi t := by
  rw [atoi, atoi, strtol_append_end hr]

end CString
