import TinyHttpd.Cgi.EmptyFields
import TinyHttpd.Cgi.PostData

/-!
# The form of a search

The form of `find_god_cgi` has six filters.  The size is chosen with radio buttons, and its
field is missing when none of them is; `god_list_cgi` then appends `&god_size=any`, unless
`god_size` is a part of the body already.  With the field missing or not, the statement is
the same as for a form with all six.
-/

namespace Cgi

open CString FormUrl Words

/-! ## The data string -/

/-- The string in `post_data` that `get_select_sql` gets. -/
def godListData (beyond : Bytes) (contentLength : Int) (stdin : Bytes) : Bytes :=
  cstr (afterStores (List.replicate postDataSize 0 ++ beyond)
    (godListCgi beyond contentLength stdin))

theorem afterStores_append (memory : Bytes) (a b : List Store) :
    afterStores memory (a ++ b) = afterStores (afterStores memory a) b := List.foldl_append ..

/-- A NUL behind a text makes it the string. -/
theorem cstr_afterStores_nul {text memory : Bytes} (htext : ∀ c ∈ text, c ≠ 0)
    (hmemory : memory ≠ []) :
    cstr (afterStores (text ++ memory) [(text.length, 0)]) = text := by
  cases memory with
  | nil => exact absurd rfl hmemory
  | cons c memory =>
      have hset : (text ++ c :: memory).set text.length 0 = text ++ 0 :: memory := by simp
      show cstr ((text ++ c :: memory).set text.length 0) = text
      rw [hset, cstr_append_nul htext]

theorem bodyStores_eq_zipIdx (i : Nat) (text : Bytes) :
    bodyStores text.length i text = (text.zipIdx i).map Prod.swap := by
  induction text generalizing i with
  | nil => rfl
  | cons c text ih =>
      rw [List.length_cons, bodyStores, ih, List.zipIdx_cons]
      rfl

/-- `strcat` puts its text and a NUL behind the string. -/
theorem afterStores_strcatStores (front text memory : Bytes)
    (h : text.length < memory.length) :
    afterStores (front ++ memory) (strcatStores front.length text) =
      front ++ text ++ 0 :: memory.drop (text.length + 1) := by
  have hlength : (text ++ [0]).length = text.length + 1 := by simp
  have hstores := afterStores_bodyStores (text.length + 1) front (text ++ [0]) memory hlength.ge h
  rw [strcatStores, ← bodyStores_eq_zipIdx, hlength, hstores, List.take_of_length_le hlength.le]
  simp

/-- For a body with room behind it. -/
theorem godListData_eq {body : Bytes} (beyond : Bytes) (hnul : ∀ c ∈ body, c ≠ 0)
    (hroom : body.length + 13 < postDataSize) :
    godListData beyond body.length body =
      if bytes "god_size" <:+: body then body else body ++ bytes "&god_size=any" := by
  have hlength : (bytes "&god_size=any").length = 13 := by decide +kernel
  have happended : ∀ c ∈ bytes "&god_size=any", c ≠ 0 := by decide +kernel
  have hmemory := afterStores_bodyStores body.length [] body
    (List.replicate postDataSize 0 ++ beyond) le_rfl
    (by rw [List.length_append, List.length_replicate]; omega)
  rw [List.nil_append, List.nil_append, List.length_nil, List.take_length] at hmemory
  have hleft : 13 < ((List.replicate postDataSize 0 ++ beyond).drop body.length).length := by
    rw [List.length_drop, List.length_append, List.length_replicate]
    omega
  generalize (List.replicate postDataSize 0 ++ beyond).drop body.length = left at hmemory hleft
  have htext : cstr (afterStores (List.replicate postDataSize 0 ++ beyond)
      (bodyStores body.length 0 body)) = body := by
    rcases cstr_afterStores beyond rfl (by omega : body.length ≤ postDataSize) with h | ⟨h, -⟩
    · rw [h, cstr_eq_self hnul]
    · rw [cstr_eq_self hnul] at h
      omega
  have hstart : ∀ stores, afterStores (List.replicate postDataSize 0 ++ beyond)
      (bodyStores body.length 0 body ++ stores) = afterStores (body ++ left) stores := by
    intro stores
    rw [afterStores_append, hmemory]
  rw [godListData, godListCgi, Int.toNat_natCast, htext]
  split
  next =>
      rw [hstart]
      exact cstr_afterStores_nul hnul (List.ne_nil_of_length_pos (by omega))
  next =>
      rw [List.append_assoc, hstart, afterStores_append,
        afterStores_strcatStores body _ left (hlength ▸ hleft), ← List.length_append]
      refine cstr_afterStores_nul ?_ (List.cons_ne_nil _ _)
      rw [List.forall_mem_append]
      exact ⟨hnul, happended⟩

/-! ## The six filters -/

/-- A byte of a token that means nothing to a form or in a statement. -/
def isTokenByte (c : UInt8) : Bool :=
  isPlain c && c != 34 && c != 39 && c != 92 && c != 37 && c != 95

/-- A token that fits its buffer. -/
structure IsToken (value : Bytes) : Prop where
  nonempty : value ≠ []
  fits : value.length < 40
  bytes : ∀ c ∈ value, isTokenByte c = true

instance (value : Bytes) : Decidable (IsToken value) :=
  decidable_of_iff (value ≠ [] ∧ value.length < 40 ∧ value.all isTokenByte = true)
    ⟨fun h => ⟨h.1, h.2.1, List.all_eq_true.mp h.2.2⟩,
      fun h => ⟨h.nonempty, h.fits, List.all_eq_true.mpr h.bytes⟩⟩

theorem isTokenByte_iff (c : UInt8) :
    isTokenByte c = true ↔
      isPlain c = true ∧ c ≠ 34 ∧ c ≠ 39 ∧ c ≠ 92 ∧ c ≠ 37 ∧ c ≠ 95 := by
  simp [isTokenByte, and_assoc]

theorem IsToken.plain {value : Bytes} (h : IsToken value) : ∀ c ∈ value, isPlain c = true :=
  fun c hc => ((isTokenByte_iff c).mp (h.bytes c hc)).1

theorem IsToken.ne_nul {value : Bytes} (h : IsToken value) : ∀ c ∈ value, c ≠ 0 :=
  fun c hc => ((isPlain_iff c).mp (h.plain c hc)).2.2.2

/-- Six tokens. -/
def Filters.Tokens (f : Filters) : Prop := ∀ g ∈ f.form, IsToken g.2

instance (f : Filters) : Decidable f.Tokens := inferInstanceAs (Decidable (∀ g ∈ f.form, _))

/-- The body of the form, with the field of the size or without it. -/
def Filters.body (f : Filters) (sized : Bool) : Bytes :=
  sent (if sized then f.form else f.form.dropLast)

/-- The filters that are asked for: a form without a size leaves it open. -/
def Filters.asked (f : Filters) (sized : Bool) : Filters :=
  if sized then f else { f with godSize := bytes "any" }

theorem Filters.tokens_iff (f : Filters) :
    f.Tokens ↔ IsToken f.godId ∧ IsToken f.godName ∧ IsToken f.godType ∧ IsToken f.godPriceL ∧
      IsToken f.godPriceH ∧ IsToken f.godSize := by
  simp [Filters.Tokens, Filters.form]

theorem Filters.Tokens.plainForm {f : Filters} (h : f.Tokens) : PlainForm f.form :=
  fun g hg => ⟨(h g hg).plain, (h g hg).fits⟩

theorem PlainForm.dropLast {fields : List (String × Bytes)} (h : PlainForm fields) :
    PlainForm fields.dropLast := fun g hg => h g (List.mem_of_mem_dropLast hg)

theorem Filters.form_names (f : Filters) : ∀ g ∈ f.form, IsShortName g.1 :=
  names_of_map ["god_id", "god_name", "god_type", "god_price_l", "god_price_h", "god_size"] rfl
    (by decide +kernel)

theorem sent_ne_nul {fields : List (String × Bytes)} (hname : ∀ f ∈ fields, IsName f.1)
    (h : PlainForm fields) : ∀ c ∈ sent fields, c ≠ 0 := by
  refine join_ne_nul fun f hf => ?_
  obtain ⟨g, hg, rfl⟩ := List.mem_map.mp hf
  exact ⟨(hname g hg).2, (h g hg).1⟩

/-- The last field, behind the others. -/
theorem sent_concat {fields : List (String × Bytes)} (h : fields ≠ []) (name : String)
    (value : Bytes) :
    sent (fields ++ [(name, value)]) = sent fields ++ 38 :: (bytes name ++ 61 :: value) := by
  induction fields with
  | nil => exact absurd rfl h
  | cons f fields ih =>
      cases fields with
      | nil => rfl
      | cons g fields =>
          have hrest := ih (List.cons_ne_nil g fields)
          show bytes f.1 ++ 61 :: f.2 ++ 38 :: sent (g :: fields ++ [(name, value)]) =
            bytes f.1 ++ 61 :: f.2 ++ 38 :: sent (g :: fields) ++ _
          rw [hrest]
          simp

theorem length_sent_le {fields : List (String × Bytes)} (hname : ∀ f ∈ fields, IsShortName f.1)
    (h : PlainForm fields) : (sent fields).length ≤ 80 * fields.length := by
  induction fields with
  | nil => exact le_rfl
  | cons f fields ih =>
      rw [List.forall_mem_cons] at hname
      obtain ⟨⟨-, hf⟩, hrest⟩ := List.forall_mem_cons.mp h
      have ih := ih hname.2 hrest
      have hfield := hname.1.2
      cases fields with
      | nil =>
          show (bytes f.1 ++ 61 :: f.2).length ≤ 80
          rw [List.length_append, List.length_cons]
          omega
      | cons g fields =>
          show (bytes f.1 ++ 61 :: f.2 ++ 38 :: sent (g :: fields)).length ≤ _
          rw [List.length_append, List.length_append, List.length_cons, List.length_cons,
            List.length_cons]
          omega

/-! ## The statement of a form -/

/-- With a value in every field, the values are every second word. -/
theorem seconds_fieldWords {fields : List (String × Bytes)} (h : ∀ f ∈ fields, f.2 ≠ []) :
    seconds (fields.flatMap fieldWords) = fields.map Prod.snd := by
  induction fields with
  | nil => rfl
  | cons f fields ih =>
      obtain ⟨hf, hrest⟩ := List.forall_mem_cons.mp h
      obtain ⟨name, _ | ⟨c, value⟩⟩ := f
      · exact absurd rfl hf
      · exact congrArg ((c :: value) :: ·) (ih hrest)

/-- A form without the size and without anything in its place. -/
theorem Filters.scan_unsized {f : Filters} (h : f.Tokens) :
    Filters.scan (sent f.form.dropLast) = some { f with godSize := [] } := by
  have hshort : ∀ g ∈ f.form.dropLast, IsShortName g.1 :=
    fun g hg => f.form_names g (List.mem_of_mem_dropLast hg)
  have hplain := h.plainForm.dropLast
  have hvalues : ∀ g ∈ f.form.dropLast, g.2 ≠ [] :=
    fun g hg => (h g (List.mem_of_mem_dropLast hg)).nonempty
  have hwords : wordsOf 6 (sent f.form.dropLast) =
      [f.godId, f.godName, f.godType, f.godPriceL, f.godPriceH] := by
    rw [wordsOf_sent (fun g hg => (hshort g hg).1) fun g hg => (hplain g hg).1,
      seconds_fieldWords hvalues]
    rfl
  rw [Filters.scan_eq, if_neg (not_overruns_sent hshort hplain), hwords]
  rfl

theorem Filters.scan_sized {f : Filters} (h : f.Tokens) : Filters.scan (sent f.form) = some f := by
  obtain ⟨hid, hname, htype, hlow, hhigh, -⟩ := f.tokens_iff.mp h
  exact (Filters.scan_sent_iff h.plainForm).mpr
    ⟨hid.nonempty, hname.nonempty, htype.nonempty, hlow.nonempty, hhigh.nonempty⟩

theorem Filters.Tokens.asked {f : Filters} (h : f.Tokens) (sized : Bool) :
    (f.asked sized).Tokens := by
  have hany : IsToken (bytes "any") := ⟨by decide +kernel, by decide +kernel, by decide +kernel⟩
  cases sized with
  | true => exact h
  | false =>
      obtain ⟨hid, hname, htype, hlow, hhigh, -⟩ := f.tokens_iff.mp h
      exact (Filters.tokens_iff _).mpr ⟨hid, hname, htype, hlow, hhigh, hany⟩

/-- An empty size and the size `any` ask for nothing. -/
theorem Filters.sql_no_size (f : Filters) :
    Filters.sql { f with godSize := [] } = Filters.sql { f with godSize := bytes "any" } := by
  have hnone : isActive [] "any" = false := by decide +kernel
  have hany : isActive (bytes "any") "any" = false := by decide +kernel
  simp only [Filters.sql, hnone, hany, Bool.false_eq_true, if_false]

/-- The body has room for the field that may be appended, and is a C string. -/
theorem Filters.Tokens.godListData_body {f : Filters} (h : f.Tokens) (sized : Bool)
    (beyond : Bytes) :
    godListData beyond (f.body sized).length (f.body sized) =
      if bytes "god_size" <:+: f.body sized then f.body sized
      else f.body sized ++ bytes "&god_size=any" := by
  have hfields : ∀ g ∈ if sized then f.form else f.form.dropLast, g ∈ f.form := by
    intro g hg
    cases sized with
    | true => exact hg
    | false => exact List.mem_of_mem_dropLast hg
  have hshort : ∀ g ∈ if sized then f.form else f.form.dropLast, IsShortName g.1 :=
    fun g hg => f.form_names g (hfields g hg)
  have hplain : PlainForm (if sized then f.form else f.form.dropLast) :=
    fun g hg => h.plainForm g (hfields g hg)
  have hcount : (if sized then f.form else f.form.dropLast).length ≤ 6 := by
    cases sized with
    | true => exact Nat.le_refl 6
    | false => exact Nat.le_succ 5
  have hlength : (f.body sized).length ≤ 80 * 6 :=
    (length_sent_le hshort hplain).trans (Nat.mul_le_mul_left 80 hcount)
  have hsize : postDataSize = 1024 := rfl
  exact godListData_eq beyond (sent_ne_nul (fun g hg => (hshort g hg).1) hplain) (by omega)

/-- For six tokens, the statement is that of the filters that are asked for. -/
theorem Filters.getSelectSql_body {f : Filters} (h : f.Tokens) (sized : Bool) (beyond : Bytes) :
    getSelectSql (some (godListData beyond (f.body sized).length (f.body sized))) =
      some (f.asked sized).sql := by
  have hne : f.form.dropLast ≠ [] := List.cons_ne_nil _ _
  rw [h.godListData_body]
  cases sized with
  | true =>
      have hinfix : bytes "god_size" <:+: f.body true := by
        have hsent : f.body true =
            sent f.form.dropLast ++ 38 :: (bytes "god_size" ++ 61 :: f.godSize) :=
          sent_concat hne "god_size" f.godSize
        exact ⟨sent f.form.dropLast ++ [38], 61 :: f.godSize, by simp [hsent]⟩
      rw [if_pos hinfix, getSelectSql, Filters.body, if_pos rfl, Filters.scan_sized h]
      rfl
  | false =>
      split
      next =>
          -- One of the values has the text `god_size`.
          rw [getSelectSql, Filters.body, if_neg Bool.false_ne_true, Filters.scan_unsized h]
          exact congrArg some f.sql_no_size
      next =>
          have hsent : f.body false ++ bytes "&god_size=any" = sent (f.asked false).form :=
            (sent_concat hne "god_size" (bytes "any")).symm
          rw [hsent, getSelectSql, Filters.scan_sized (h.asked false)]
          rfl

end Cgi
