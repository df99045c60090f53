import TinyHttpd.Cgi.Leftover
import TinyHttpd.Lib.FormUrl
import Mathlib.Data.List.Basic

/-!
# From the form to the statement

A browser encodes the values of a form, and no program decodes them: what a statement gets
of a value is its encoding.
-/

namespace Cgi

open CString FormUrl

/-! ## The scan of an encoded form -/

/-- The name and the value of a field separate nothing. -/
def PlainField (f : Bytes × Bytes) : Prop :=
  (∀ c ∈ f.1, isPlain c = true) ∧ ∀ c ∈ f.2, isPlain c = true

theorem isPlain_iff (c : UInt8) :
    isPlain c = true ↔ isspace c = false ∧ c ≠ 38 ∧ c ≠ 61 ∧ c ≠ 0 := by
  simp [isPlain, and_assoc]

theorem join_ne_nul {fields : List (Bytes × Bytes)} (h : ∀ f ∈ fields, PlainField f) :
    ∀ c ∈ join fields, c ≠ 0 := by
  have hplain : ∀ {b : Bytes}, (∀ c ∈ b, isPlain c = true) → ∀ c ∈ b, c ≠ 0 :=
    fun hb c hc => ((isPlain_iff c).mp (hb c hc)).2.2.2
  induction fields with
  | nil => exact nofun
  | cons f fields ih =>
      obtain ⟨hname, hvalue⟩ := h f (List.mem_cons_self ..)
      have hfield : ∀ c ∈ f.1 ++ 61 :: f.2, c ≠ 0 := by
        rw [List.forall_mem_append, List.forall_mem_cons]
        exact ⟨hplain hname, by decide, hplain hvalue⟩
      cases fields with
      | nil => exact hfield
      | cons g fields =>
          have hrest := ih fun g hg => h g (List.mem_cons_of_mem _ hg)
          show ∀ c ∈ f.1 ++ 61 :: f.2 ++ 38 :: join (g :: fields), c ≠ 0
          rw [List.forall_mem_append, List.forall_mem_cons]
          exact ⟨hfield, by decide, hrest⟩

theorem blankSeparators_plain {b : Bytes} (h : ∀ c ∈ b, isPlain c = true) :
    blankSeparators b = b := by
  refine (List.map_congr_left fun c hc => ?_).trans (List.map_id b)
  obtain ⟨-, hamp, heq, -⟩ := (isPlain_iff c).mp (h c hc)
  simp [hamp, heq]

/-- The separators of a form become blanks, and nothing else does. -/
theorem blankSeparators_join {fields : List (Bytes × Bytes)} (h : ∀ f ∈ fields, PlainField f) :
    blankSeparators (join fields) = spaced fields := by
  have happend : ∀ a b : Bytes,
      blankSeparators (a ++ b) = blankSeparators a ++ blankSeparators b :=
    fun a b => List.map_append
  induction fields with
  | nil => rfl
  | cons f fields ih =>
      obtain ⟨hname, hvalue⟩ := h f (List.mem_cons_self ..)
      have hfield : blankSeparators (f.1 ++ 61 :: f.2) = f.1 ++ 32 :: f.2 := by
        rw [happend, blankSeparators_plain hname]
        exact congrArg (f.1 ++ 32 :: ·) (blankSeparators_plain hvalue)
      cases fields with
      | nil => exact hfield
      | cons g fields =>
          have hrest := ih fun g hg => h g (List.mem_cons_of_mem _ hg)
          show blankSeparators (f.1 ++ 61 :: f.2 ++ 38 :: join (g :: fields)) =
            f.1 ++ 32 :: f.2 ++ 32 :: spaced (g :: fields)
          rw [happend, hfield, ← hrest]
          rfl

/-- A name that the encoding leaves as it is. -/
def IsName (name : String) : Prop := bytes name ≠ [] ∧ ∀ c ∈ bytes name, isPlain c = true

instance (name : String) : Decidable (IsName name) := inferInstanceAs (Decidable (_ ∧ _))

/-- The scan finds the encodings of the values. -/
theorem scanPairs_submit {fields : List (String × Bytes)}
    (h : ∀ f ∈ fields, IsName f.1 ∧ f.2 ≠ []) :
    scanPairs fields.length (blankSeparators (cstr (submit fields))) =
      fields.map fun f => encode f.2 := by
  have hword : ∀ {b : Bytes}, b ≠ [] → (∀ c ∈ b, isPlain c = true) → IsWord b :=
    fun hne hb => ⟨hne, fun c hc => ((isPlain_iff c).mp (hb c hc)).1⟩
  have hplain : ∀ f ∈ fields.map fun f => (bytes f.1, encode f.2), PlainField f := by
    intro f hf
    obtain ⟨g, hg, rfl⟩ := List.mem_map.mp hf
    exact ⟨(h g hg).1.2, encode_plain⟩
  have hwords : ∀ f ∈ fields.map fun f => (bytes f.1, encode f.2), IsWord f.1 ∧ IsWord f.2 := by
    intro f hf
    obtain ⟨g, hg, rfl⟩ := List.mem_map.mp hf
    obtain ⟨hname, hvalue⟩ := h g hg
    exact ⟨hword hname.1 hname.2, hword (encode_ne_nil hvalue) encode_plain⟩
  have hscan := scanPairs_spaced hwords
  rw [List.length_map, List.map_map] at hscan
  rw [submit, cstr_eq_self (join_ne_nul hplain), blankSeparators_join hplain, hscan]
  rfl

/-! ## The forms -/

/-- A value a user can type that fits its buffer. -/
structure Typed (value : Bytes) : Prop where
  nonempty : value ≠ []
  fits : (encode value).length < 40

instance (value : Bytes) : Decidable (Typed value) :=
  decidable_of_iff (value ≠ [] ∧ (encode value).length < 40)
    ⟨fun h => ⟨h.1, h.2⟩, fun h => ⟨h.nonempty, h.fits⟩⟩

/-- A form with such values. -/
def TypedForm (fields : List (String × Bytes)) : Prop := ∀ f ∈ fields, IsName f.1 ∧ Typed f.2

instance (fields : List (String × Bytes)) : Decidable (TypedForm fields) :=
  inferInstanceAs (Decidable (∀ f ∈ fields, _))

theorem TypedForm.scan {fields : List (String × Bytes)} (h : TypedForm fields) :
    scanPairs fields.length (blankSeparators (cstr (submit fields))) =
      fields.map fun f => encode f.2 :=
  scanPairs_submit fun f hf => ⟨(h f hf).1, (h f hf).2.nonempty⟩

/-- The encodings of such values fit their buffers. -/
theorem TypedForm.not_overruns {fields : List (String × Bytes)} (h : TypedForm fields) :
    ¬Overruns (fields.map fun f => encode f.2) := by
  rintro ⟨word, hword, hlong⟩
  obtain ⟨f, hf, rfl⟩ := List.mem_map.mp hword
  exact absurd (h f hf).2.fits (Nat.not_lt.mpr hlong)

/-- The form of `add_god_show_cgi`. -/
def AddGoods.form (f : AddGoods) : List (String × Bytes) :=
  [("god_name", f.goodsName), ("god_type", f.goodsType), ("god_price", f.goodsPrice),
    ("god_size", f.goodsSize)]

def AddGoods.encoded (f : AddGoods) : AddGoods :=
  ⟨encode f.goodsName, encode f.goodsType, encode f.goodsPrice, encode f.goodsSize⟩

theorem AddGoods.scan_submit (held : AddGoods) {f : AddGoods} (h : TypedForm f.form) :
    AddGoods.scan held (submit f.form) = some f.encoded := by
  have hwords : wordsOf 4 (submit f.form) = f.form.map fun g => encode g.2 := h.scan
  rw [AddGoods.scan_eq, hwords, if_neg h.not_overruns]
  rfl

/-- The form of `change_god_cgi`. -/
def ChangeGod.form (f : ChangeGod) : List (String × Bytes) :=
  [("god_id", f.goodsId), ("god_name", f.goodsName), ("god_type", f.goodsType),
    ("god_price", f.goodsPrice), ("god_size", f.goodsSize)]

def ChangeGod.encoded (f : ChangeGod) : ChangeGod :=
  ⟨encode f.goodsId, encode f.goodsName, encode f.goodsType, encode f.goodsPrice,
    encode f.goodsSize⟩

theorem ChangeGod.scan_submit (held : ChangeGod) {f : ChangeGod} (h : TypedForm f.form) :
    ChangeGod.scan held (submit f.form) = some f.encoded := by
  have hwords : wordsOf 5 (submit f.form) = f.form.map fun g => encode g.2 := h.scan
  rw [ChangeGod.scan_eq, hwords, if_neg h.not_overruns]
  rfl

/-- The form of `find_god_cgi`. -/
def Filters.form (f : Filters) : List (String × Bytes) :=
  [("god_id", f.godId), ("god_name", f.godName), ("god_type", f.godType),
    ("god_price_l", f.godPriceL), ("god_price_h", f.godPriceH), ("god_size", f.godSize)]

def Filters.encoded (f : Filters) : Filters :=
  ⟨encode f.godId, encode f.godName, encode f.godType, encode f.godPriceL, encode f.godPriceH,
    encode f.godSize⟩

theorem Filters.scan_submit {f : Filters} (h : TypedForm f.form) :
    Filters.scan (submit f.form) = some f.encoded := by
  have hwords : wordsOf 6 (submit f.form) = f.form.map fun g => encode g.2 := h.scan
  rw [Filters.scan_eq, hwords, if_neg h.not_overruns]
  rfl

/-- The form of `add_god_type.html`. -/
def AddType.form (f : AddType) : List (String × Bytes) := [("type_name", f.typeName)]

def AddType.encoded (f : AddType) : AddType := ⟨encode f.typeName⟩

theorem AddType.scan_submit (held : AddType) {f : AddType} (h : TypedForm f.form) :
    AddType.scan held (submit f.form) = some f.encoded := by
  have hplain : ∀ c ∈ encode f.typeName, isPlain c = true := encode_plain
  obtain ⟨-, htype⟩ := h ("type_name", f.typeName) (List.mem_singleton_self _)
  have hsubmit : submit f.form = bytes "type_name=" ++ encode f.typeName := by
    rw [show bytes "type_name=" = bytes "type_name" ++ [61] from rfl, List.append_assoc]
    rfl
  have hcstr : cstr (submit f.form) = bytes "type_name=" ++ encode f.typeName := by
    rw [hsubmit, cstr_eq_self]
    rw [List.forall_mem_append]
    exact ⟨by decide +kernel, fun c hc => ((isPlain_iff c).mp (hplain c hc)).2.2.2⟩
  have hdrop : (bytes "type_name=" ++ encode f.typeName).dropPrefix? (bytes "type_name=") =
      some (encode f.typeName) :=
    List.dropPrefix?_eq_some_iff.mpr ⟨bytes "type_name=", rfl, beq_self_eq_true _⟩
  have hword : IsWord (encode f.typeName) :=
    ⟨encode_ne_nil htype.nonempty, fun c hc => ((isPlain_iff c).mp (hplain c hc)).1⟩
  have hscan : scanWord (encode f.typeName) = some (encode f.typeName, []) := by
    rw [← scanWord_append hword (show EndsWord [] from nofun), List.append_nil]
  have hfits : (encode f.typeName).length < 100 := htype.fits.trans (by decide)
  rw [AddType.scan, scanAfter, hcstr, hdrop, Option.bind_some, hscan, Option.map_some, stored,
    if_pos hfits]
  rfl

/-! ## What the statements get -/

/-- The bytes of a value that the encoding leaves as they are. -/
def Unreserved (value : Bytes) : Prop := ∀ c ∈ value, isUnreserved c = true

/-- Every value of a form reaches its statement in its encoding; it is the value that was
typed exactly when the value has letters, digits and `*-._` only. -/
theorem form_values_encoded :
    (∀ (held f : AddGoods), TypedForm f.form →
        addGoods held (some (submit f.form)) = some f.encoded.sql) ∧
      (∀ (held f : AddType), TypedForm f.form →
        addType held (some (submit f.form)) = some f.encoded.sql) ∧
      (∀ (held f : ChangeGod), TypedForm f.form →
        changeGod held (some (submit f.form)) = some f.encoded.sql) ∧
      (∀ f : Filters, TypedForm f.form →
        getSelectSql (some (submit f.form)) = some f.encoded.sql) ∧
      ∀ value, encode value = value ↔ Unreserved value := by
  refine ⟨fun held f h => ?_, fun held f h => ?_, fun held f h => ?_, fun f h => ?_,
    encode_eq_self_iff⟩
  · rw [addGoods, Option.bind_some, AddGoods.scan_submit held h, Option.map_some]
  · rw [addType, Option.bind_some, AddType.scan_submit held h, Option.map_some]
  · rw [changeGod, Option.bind_some, ChangeGod.scan_submit held h, Option.map_some]
  · rw [getSelectSql, Filters.scan_submit h, Option.map_some]

/-- A form of one word in each field, and what it becomes. -/
theorem form_values_plain :
    addGoods ⟨[], [], [], []⟩ (some (submit (AddGoods.form
        ⟨bytes "green tea", bytes "1", bytes "2.5", bytes "big"⟩))) =
      some (AddGoods.sql ⟨bytes "green+tea", bytes "1", bytes "2.5", bytes "big"⟩) :=
  (form_values_encoded.1 ⟨[], [], [], []⟩ ⟨bytes "green tea", bytes "1", bytes "2.5", bytes "big"⟩
    (by decide +kernel)).trans (by decide +kernel)

/-- A name with a blank is not the name in the statement. -/
theorem form_values_changed :
    TypedForm (AddGoods.form ⟨bytes "green tea", bytes "1", bytes "2.5", bytes "big"⟩) ∧
      ∀ held, addGoods held (some (submit (AddGoods.form
          ⟨bytes "green tea", bytes "1", bytes "2.5", bytes "big"⟩))) ≠
        some (AddGoods.sql ⟨bytes "green tea", bytes "1", bytes "2.5", bytes "big"⟩) := by
  have htyped : TypedForm
      (AddGoods.form ⟨bytes "green tea", bytes "1", bytes "2.5", bytes "big"⟩) := by
    decide +kernel
  refine ⟨htyped, fun held => ?_⟩
  rw [addGoods, Option.bind_some, AddGoods.scan_submit held htyped, Option.map_some]
  decide +kernel

end Cgi
