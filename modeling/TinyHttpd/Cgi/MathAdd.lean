import TinyHttpd.Lib.Numeral

/-!
# The sum page

`math_add` looks for two values in its data string: behind the first `=`, and behind the
next one.  It writes a NUL over each `&` it passes, so that the first value ends there.
Neither pointer is looked at before `atoi` gets it, and nothing looks at the size of the
sum.
-/

namespace Cgi

open CString

/-! ## The scan -/

/-- What the scan leaves: the string with its NULs, and the indices `data1` and `data2` point
to. -/
structure Operands where
  memory : Bytes
  data1 : Option Nat
  data2 : Option Nat

/-- The loop of `math_add` with `start` behind `passed`. -/
def mathScan (passed : Bytes) (data1 : Option Nat) : Bytes → Operands
  | [] => ⟨passed, data1, none⟩
  | c :: rest =>
      if c = 0 then ⟨passed ++ c :: rest, data1, none⟩
      else if c = 61 ∧ data1 = none then mathScan (passed ++ [c]) (some (passed.length + 1)) rest
      else
        let c := if c = 38 then 0 else c
        if c = 61 ∧ data1 ≠ none then ⟨passed ++ c :: rest, data1, some (passed.length + 1)⟩
        else mathScan (passed ++ [c]) data1 rest

/-- The ways in which the C code has no meaning. -/
inductive MathFault where
  | nullPointer
  | signedOverflow
deriving DecidableEq

/-- `atoi` of a pointer into the string. -/
def atoiAt (memory : Bytes) : Option Nat → Except MathFault Int
  | none => .error .nullPointer
  | some start => .ok (atoi (cstr (memory.drop start)))

/-- The sum of two `int`s. -/
def addInt (a b : Int) : Except MathFault Int :=
  if IsInt (a + b) then .ok (a + b) else .error .signedOverflow

/-- What `math_add` prints. -/
def resultScript (addRes : Int) : Bytes :=
  bytes "<script language=\"javascript\">\n" ++ bytes "alert(\"add result=" ++ decimal addRes ++
    bytes "\")\n" ++ bytes "window.location.href=\"../index.html\"\n" ++ bytes "</script>\n"

/-- `math_add`. -/
def mathAdd : Option Bytes → Except MathFault Bytes
  | none => .ok []
  | some dataString => do
      let operands := mathScan [] none dataString
      let idata1 ← atoiAt operands.memory operands.data1
      let idata2 ← atoiAt operands.memory operands.data2
      let addRes ← addInt idata1 idata2
      return resultScript addRes

/-! ## What the pointers are -/

/-- Bytes the scan walks over. -/
def IsPlain (w : Bytes) : Prop := ∀ c ∈ w, c ≠ 0 ∧ c ≠ 61 ∧ c ≠ 38

theorem mathScan_plain {w : Bytes} (hw : IsPlain w) (passed : Bytes) (data1 : Option Nat)
    (rest : Bytes) : mathScan passed data1 (w ++ rest) = mathScan (passed ++ w) data1 rest := by
  induction w generalizing passed with
  | nil => rw [List.nil_append, List.append_nil]
  | cons c w ih =>
      obtain ⟨⟨hnul, heq, hamp⟩, hw⟩ := List.forall_mem_cons.mp hw
      rw [List.cons_append, mathScan, if_neg hnul, if_neg fun h => heq h.1]
      dsimp only
      rw [if_neg hamp, if_neg fun h => heq h.1, ih hw, List.append_assoc, List.singleton_append]

theorem mathScan_first_eq (passed rest : Bytes) :
    mathScan passed none (61 :: rest) =
      mathScan (passed ++ [61]) (some (passed.length + 1)) rest := by
  rw [mathScan, if_neg (by decide), if_pos ⟨rfl, rfl⟩]

theorem mathScan_next_eq (passed rest : Bytes) (start : Nat) :
    mathScan passed (some start) (61 :: rest) =
      ⟨passed ++ 61 :: rest, some start, some (passed.length + 1)⟩ := by
  rw [mathScan, if_neg (by decide), if_neg fun h => Option.some_ne_none start h.2]
  exact if_pos ⟨rfl, Option.some_ne_none start⟩

theorem mathScan_amp (passed rest : Bytes) (data1 : Option Nat) :
    mathScan passed data1 (38 :: rest) = mathScan (passed ++ [0]) data1 rest := by
  rw [mathScan, if_neg (by decide), if_neg fun h => absurd h.1 (by decide)]
  exact if_neg fun h => absurd h.1 (by decide)

/-- Any other byte is walked over, `&` as a NUL. -/
theorem mathScan_other {c : UInt8} (hnul : c ≠ 0) (heq : c ≠ 61) (passed rest : Bytes)
    (data1 : Option Nat) :
    ∃ passed', mathScan passed data1 (c :: rest) = mathScan passed' data1 rest := by
  by_cases hamp : c = 38
  · rw [hamp, mathScan_amp]
    exact ⟨_, rfl⟩
  · have hplain : IsPlain [c] := List.forall_mem_singleton.mpr ⟨hnul, heq, hamp⟩
    exact ⟨_, mathScan_plain hplain passed data1 rest⟩

/-- With `data1` set, the next `=` sets `data2`. -/
theorem mathScan_some {s : Bytes} (hs : 0 ∉ s) (passed : Bytes) (start : Nat) :
    (mathScan passed (some start) s).data1 = some start ∧
      ((mathScan passed (some start) s).data2.isSome ↔ 1 ≤ s.count 61) := by
  induction s generalizing passed with
  | nil => exact ⟨rfl, iff_of_false Bool.false_ne_true (by decide)⟩
  | cons c s ih =>
      rw [List.mem_cons, not_or] at hs
      by_cases heq : c = 61
      · rw [heq, mathScan_next_eq, List.count_cons_self]
        exact ⟨rfl, iff_of_true rfl (Nat.succ_pos _)⟩
      · obtain ⟨passed', hscan⟩ := mathScan_other (Ne.symm hs.1) heq passed s (some start)
        rw [hscan, List.count_cons_of_ne heq]
        exact ih hs.2 passed'

/-- Both pointers are set when the string has two `=`, wherever its `&` are. -/
theorem mathScan_none {s : Bytes} (hs : 0 ∉ s) (passed : Bytes) :
    (mathScan passed none s).data1.isSome ∧ (mathScan passed none s).data2.isSome ↔
      2 ≤ s.count 61 := by
  induction s generalizing passed with
  | nil => exact iff_of_false (fun h => Bool.false_ne_true h.1) (by decide)
  | cons c s ih =>
      rw [List.mem_cons, not_or] at hs
      by_cases heq : c = 61
      · obtain ⟨hdata1, hdata2⟩ := mathScan_some hs.2 (passed ++ [61]) (passed.length + 1)
        rw [heq, mathScan_first_eq, hdata1, hdata2, List.count_cons_self]
        exact ⟨fun h => Nat.succ_le_succ h.2, fun h => ⟨rfl, Nat.le_of_succ_le_succ h⟩⟩
      · obtain ⟨passed', hscan⟩ := mathScan_other (Ne.symm hs.1) heq passed s none
        rw [hscan, List.count_cons_of_ne heq]
        exact ih hs.2 passed'

/-! ## The sum -/

/-- A decimal numeral, and its value. -/
inductive IsNumeral : Bytes → Int → Prop where
  | digits {ds : Bytes} : ds ≠ [] → IsDigits ds → IsNumeral ds (numeral ds)
  | plus {ds : Bytes} : ds ≠ [] → IsDigits ds → IsNumeral (43 :: ds) (numeral ds)
  | minus {ds : Bytes} : ds ≠ [] → IsDigits ds → IsNumeral (45 :: ds) (-numeral ds)

theorem isDigits_isPlain {ds : Bytes} (hds : IsDigits ds) : IsPlain ds := by
  intro c hc
  have hdigit := hds c hc
  refine ⟨?_, ?_, ?_⟩ <;> rintro rfl <;> exact absurd hdigit (by decide)

theorem IsNumeral.isPlain {a : Bytes} {v : Int} (h : IsNumeral a v) : IsPlain a := by
  cases h with
  | digits _ hds => exact isDigits_isPlain hds
  | plus _ hds => exact List.forall_mem_cons.mpr ⟨by decide, isDigits_isPlain hds⟩
  | minus _ hds => exact List.forall_mem_cons.mpr ⟨by decide, isDigits_isPlain hds⟩

/-- `atoi` reads a numeral of the range of `int`. -/
theorem atoi_numeral {a : Bytes} {v : Int} (h : IsNumeral a v) (hv : IsInt v) : atoi a = v := by
  obtain ⟨hlo, hhi⟩ := hv
  cases h with
  | digits _ hds =>
      have hmax : numeral a ≤ intMax := by
        rw [intMax]
        omega
      exact atoi_digits (List.forall_mem_nil fun c => isspace c = true) hds hmax
  | @plus ds _ hds =>
      have hread : strtol (43 :: ds) = numeral ds := by
        rw [strtol]
        simp only [List.dropWhile_cons_of_neg (show ¬isspace 43 = true by decide)]
        rw [takeWhile_isdigit hds, longMax, min_eq_right]
        omega
      rw [atoi, hread]
      apply Int.bmod_eq_of_le <;> omega
  | @minus ds _ hds =>
      have hread : strtol (45 :: ds) = -numeral ds := by
        rw [strtol]
        simp only [List.dropWhile_cons_of_neg (show ¬isspace 45 = true by decide)]
        rw [takeWhile_isdigit hds, longMax, max_eq_right]
        omega
      rw [atoi, hread]
      apply Int.bmod_eq_of_le <;> omega

/-- A data string `k1=a&k2=b` with keys free of `=` and `&`, and the values of its numerals. -/
def Addends (s : Bytes) (v w : Int) : Prop :=
  ∃ k₁ a k₂ b, s = k₁ ++ 61 :: (a ++ 38 :: (k₂ ++ 61 :: b)) ∧
    (61 ∉ k₁ ∧ 38 ∉ k₁) ∧ (61 ∉ k₂ ∧ 38 ∉ k₂) ∧
    IsNumeral a v ∧ IsNumeral b w ∧ IsInt v ∧ IsInt w

theorem isPlain_of_notMem {w : Bytes} (h0 : 0 ∉ w) (h : 61 ∉ w ∧ 38 ∉ w) : IsPlain w :=
  fun _ hc => ⟨fun h' => h0 (h' ▸ hc), fun h' => h.1 (h' ▸ hc), fun h' => h.2 (h' ▸ hc)⟩

theorem drop_behind (front rest : Bytes) (c : UInt8) :
    (front ++ c :: rest).drop (front.length + 1) = rest := by
  rw [List.drop_append, List.drop_eq_nil_of_le (Nat.le_succ _), Nat.add_sub_cancel_left,
    List.nil_append, List.drop_succ_cons, List.drop_zero]

/-- On such a string the scan ends at the second `=`, and `data1` and `data2` point to the two
values. -/
theorem mathScan_form {k₁ a k₂ b : Bytes} (hk₁ : IsPlain k₁) (ha : IsPlain a) (hk₂ : IsPlain k₂)
    (hb : IsPlain b) :
    let operands := mathScan [] none (k₁ ++ 61 :: (a ++ 38 :: (k₂ ++ 61 :: b)))
    atoiAt operands.memory operands.data1 = .ok (atoi a) ∧
      atoiAt operands.memory operands.data2 = .ok (atoi b) := by
  have hscan : mathScan [] none (k₁ ++ 61 :: (a ++ 38 :: (k₂ ++ 61 :: b))) =
      ⟨k₁ ++ 61 :: (a ++ 0 :: (k₂ ++ 61 :: b)), some (k₁.length + 1),
        some ((k₁ ++ 61 :: (a ++ 0 :: k₂)).length + 1)⟩ := by
    rw [mathScan_plain hk₁, mathScan_first_eq, mathScan_plain ha, mathScan_amp,
      mathScan_plain hk₂, mathScan_next_eq]
    simp
  have hjoin : k₁ ++ 61 :: (a ++ 0 :: (k₂ ++ 61 :: b)) = (k₁ ++ 61 :: (a ++ 0 :: k₂)) ++ 61 :: b := by
    simp
  have hfirst : cstr (a ++ 0 :: (k₂ ++ 61 :: b)) = a := cstr_append_nul (fun c hc => (ha c hc).1) _
  have hsecond : cstr b = b := cstr_eq_self fun c hc => (hb c hc).1
  rw [hscan]
  constructor
  · rw [atoiAt, drop_behind, hfirst]
  · rw [atoiAt, hjoin, drop_behind, hsecond]

/-- What `atoi` reads are the values. -/
theorem atoiAt_addends {s : Bytes} {v w : Int} (hs : 0 ∉ s) (h : Addends s v w) :
    atoiAt (mathScan [] none s).memory (mathScan [] none s).data1 = .ok v ∧
      atoiAt (mathScan [] none s).memory (mathScan [] none s).data2 = .ok w := by
  obtain ⟨k₁, a, k₂, b, rfl, hk₁, hk₂, ha, hb, hv, hw⟩ := h
  simp only [List.mem_append, List.mem_cons, not_or] at hs
  obtain ⟨h₁, -, -, -, h₂, -, -⟩ := hs
  rw [← atoi_numeral ha hv, ← atoi_numeral hb hw]
  exact mathScan_form (isPlain_of_notMem h₁ hk₁) ha.isPlain (isPlain_of_notMem h₂ hk₂) hb.isPlain

theorem mathAdd_addends {s : Bytes} {v w : Int} (hs : 0 ∉ s) (h : Addends s v w) :
    mathAdd (some s) = (addInt v w).map resultScript := by
  obtain ⟨hdata1, hdata2⟩ := atoiAt_addends hs h
  rw [mathAdd, hdata1, hdata2]
  rfl

theorem addInt_ne_nullPointer (v w : Int) : (addInt v w).map resultScript ≠ .error .nullPointer := by
  rw [addInt]
  split
  next => exact fun h => by cases h
  next => exact fun h => by cases h

/-- A null pointer is read when an `=` is missing, and only then. -/
theorem mathAdd_nullPointer_iff {s : Bytes} (hs : 0 ∉ s) :
    mathAdd (some s) = .error .nullPointer ↔ ¬2 ≤ s.count 61 := by
  rw [← mathScan_none hs [], mathAdd]
  cases (mathScan [] none s).data1 with
  | none => exact iff_of_true rfl fun h => Bool.false_ne_true h.1
  | some start =>
      cases (mathScan [] none s).data2 with
      | none => exact iff_of_true rfl fun h => Bool.false_ne_true h.2
      | some start' =>
          exact iff_of_false (addInt_ne_nullPointer _ _) (not_not_intro ⟨rfl, rfl⟩)

/-! ## When the page is right -/

/-- What `math_add` has to do with a data string. -/
structure SumRight (s : Bytes) : Prop where
  sum : ∀ v w, Addends s v w → mathAdd (some s) = .ok (resultScript (v + w))
  pointers : mathAdd (some s) ≠ .error .nullPointer

/-- For every data string: the sum is printed and no null pointer is read exactly when the
string has two `=` and the sum, where it asks for one, is an `int`. -/
theorem sumRight_iff {s : Bytes} (hs : 0 ∉ s) :
    SumRight s ↔ 2 ≤ s.count 61 ∧ ∀ v w, Addends s v w → IsInt (v + w) := by
  constructor
  · intro h
    refine ⟨not_not.mp fun hcount => h.pointers ((mathAdd_nullPointer_iff hs).mpr hcount), ?_⟩
    intro v w hform
    have hsum := h.sum v w hform
    rw [mathAdd_addends hs hform] at hsum
    by_contra hint
    rw [addInt, if_neg hint] at hsum
    cases hsum
  · rintro ⟨hcount, hint⟩
    refine ⟨fun v w hform => ?_, fun hnull => (mathAdd_nullPointer_iff hs).mp hnull hcount⟩
    rw [mathAdd_addends hs hform, addInt, if_pos (hint v w hform)]
    rfl

theorem sumRight_small : SumRight (bytes "data1=3&data2=-5") := by
  have hs : 0 ∉ bytes "data1=3&data2=-5" := by decide +kernel
  refine (sumRight_iff hs).mpr ⟨by decide +kernel, fun v w hform => ?_⟩
  obtain ⟨hv, hw⟩ := atoiAt_addends hs hform
  have hdata1 : atoiAt (mathScan [] none (bytes "data1=3&data2=-5")).memory
      (mathScan [] none (bytes "data1=3&data2=-5")).data1 = .ok 3 := by decide +kernel
  have hdata2 : atoiAt (mathScan [] none (bytes "data1=3&data2=-5")).memory
      (mathScan [] none (bytes "data1=3&data2=-5")).data2 = .ok (-5) := by decide +kernel
  rw [← Except.ok.inj (hdata1.symm.trans hv), ← Except.ok.inj (hdata2.symm.trans hw)]
  decide

/-- No `=` at all, and a sum that is one too large. -/
theorem sumRight_failing :
    0 ∉ bytes "" ∧ mathAdd (some (bytes "")) = .error .nullPointer ∧
      0 ∉ bytes "data1=2147483647&data2=1" ∧
      Addends (bytes "data1=2147483647&data2=1") 2147483647 1 ∧
      mathAdd (some (bytes "data1=2147483647&data2=1")) = .error .signedOverflow := by
  refine ⟨by decide +kernel, by decide +kernel, by decide +kernel, ?_, by decide +kernel⟩
  refine ⟨bytes "data1", bytes "2147483647", bytes "data2", bytes "1", by decide +kernel,
    by decide +kernel, by decide +kernel, ?_, ?_, by decide, by decide⟩
  · exact .digits (by decide +kernel) (by decide +kernel)
  · exact .digits (by decide +kernel) (by decide +kernel)

end Cgi
