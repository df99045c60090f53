import TinyHttpd.Cgi.FormTrip

/-!
# Fields without a value

The scan of a form counts words, and a field without a value has one word instead of two.
Behind such a field every variable gets what belongs to another one, the first of them the
name of the next field.  Only the last field can go without: its variable keeps what it
held.
-/

namespace Cgi

open CString FormUrl Words

/-! ## The words of a form -/

/-- A form as it is sent, with the values as they are. -/
def sent (fields : List (String × Bytes)) : Bytes := join (fields.map fun f => (bytes f.1, f.2))

/-- Values that separate nothing and fit their buffers; any of them may be empty. -/
def PlainForm (fields : List (String × Bytes)) : Prop :=
  ∀ f ∈ fields, (∀ c ∈ f.2, isPlain c = true) ∧ f.2.length < 40

instance (fields : List (String × Bytes)) : Decidable (PlainForm fields) :=
  inferInstanceAs (Decidable (∀ f ∈ fields, _))

/-- A name that fits the buffers, too. -/
def IsShortName (name : String) : Prop := IsName name ∧ (bytes name).length < 40

instance (name : String) : Decidable (IsShortName name) := inferInstanceAs (Decidable (_ ∧ _))

/-- The words of a field: its name, and its value if there is one. -/
def fieldWords (f : String × Bytes) : List Bytes := bytes f.1 :: [f.2].filter (!·.isEmpty)

theorem words_plain {b : Bytes} (h : ∀ c ∈ b, isPlain c = true) :
    words isSeparator b = [b].filter (!·.isEmpty) := by
  refine words_of_no_sep fun c hc => ?_
  obtain ⟨hspace, hamp, heq, -⟩ := (isPlain_iff c).mp (h c hc)
  simp [isSeparator, hspace, hamp, heq]

theorem words_field {f : String × Bytes} (hname : IsName f.1)
    (hvalue : ∀ c ∈ f.2, isPlain c = true) :
    words isSeparator (bytes f.1 ++ 61 :: f.2) = fieldWords f := by
  have hone : [bytes f.1].filter (!·.isEmpty) = [bytes f.1] := by
    cases hbytes : bytes f.1 with
    | nil => exact absurd hbytes hname.1
    | cons c b => rfl
  rw [words_append_sep rfl, words_plain hname.2, words_plain hvalue, hone]
  rfl

theorem words_sent {fields : List (String × Bytes)} (hname : ∀ f ∈ fields, IsName f.1)
    (hvalue : ∀ f ∈ fields, ∀ c ∈ f.2, isPlain c = true) :
    words isSeparator (sent fields) = fields.flatMap fieldWords := by
  induction fields with
  | nil => rfl
  | cons f fields ih =>
      rw [List.forall_mem_cons] at hname hvalue
      have hfield := words_field hname.1 hvalue.1
      cases fields with
      | nil => rw [List.flatMap_singleton, ← hfield]; rfl
      | cons g fields =>
          rw [List.flatMap_cons, ← ih hname.2 hvalue.2, ← hfield,
            ← words_append_sep (c := 38) rfl]
          rfl

/-- What the scan of a form stores. -/
theorem wordsOf_sent {n : Nat} {fields : List (String × Bytes)}
    (hname : ∀ f ∈ fields, IsName f.1) (hvalue : ∀ f ∈ fields, ∀ c ∈ f.2, isPlain c = true) :
    wordsOf n (sent fields) = (seconds (fields.flatMap fieldWords)).take n := by
  have hplain : ∀ f ∈ fields.map fun f => (bytes f.1, f.2), PlainField f := by
    intro f hf
    obtain ⟨g, hg, rfl⟩ := List.mem_map.mp hf
    exact ⟨(hname g hg).2, hvalue g hg⟩
  have hcstr : cstr (sent fields) = sent fields := cstr_eq_self (join_ne_nul hplain)
  rw [wordsOf, hcstr, scanPairs_blankSeparators, words_sent hname hvalue]

/-- It fits the buffers. -/
theorem not_overruns_sent {n : Nat} {fields : List (String × Bytes)}
    (hname : ∀ f ∈ fields, IsShortName f.1) (h : PlainForm fields) :
    ¬Overruns (wordsOf n (sent fields)) := by
  rw [wordsOf_sent (fun f hf => (hname f hf).1) fun f hf => (h f hf).1]
  rintro ⟨word, hword, hlong⟩
  obtain ⟨f, hf, hmem⟩ := List.mem_flatMap.mp (mem_of_mem_seconds (List.mem_of_mem_take hword))
  rcases List.mem_cons.mp hmem with rfl | hvalue
  · exact absurd (hname f hf).2 (Nat.not_lt.mpr hlong)
  · cases List.mem_singleton.mp (List.mem_of_mem_filter hvalue)
    exact absurd (h f hf).2 (Nat.not_lt.mpr hlong)

/-! ## What the variables get -/

/-- Every buffer its word, where there is one. -/
def fillAll (held words : List Bytes) : List Bytes := held.mapIdx fun i h => words[i]?.getD h

theorem fillAll_cons (h word : Bytes) (held words : List Bytes) :
    fillAll (h :: held) (word :: words) = word :: fillAll held words := by
  rw [fillAll, List.mapIdx_cons]
  rfl

/-- All fields have a value but perhaps the last, whose variable then is empty as well. -/
def LastMayLack : List Bytes → List (String × Bytes) → Prop
  | [h], [f] => f.2 = [] → h = []
  | _ :: held, f :: fields => f.2 ≠ [] ∧ LastMayLack held fields
  | _, _ => True

/-- Every variable gets its own value exactly under that condition. -/
theorem fillAll_seconds_iff :
    ∀ {fields : List (String × Bytes)} {held : List Bytes}, held.length = fields.length →
      (∀ f ∈ fields, IsName f.1) →
      (fillAll held ((seconds (fields.flatMap fieldWords)).take fields.length) =
        fields.map Prod.snd ↔ LastMayLack held fields)
  | [], [], _, _ => iff_of_true rfl trivial
  | [f], [h], _, _ => by
      rcases f with ⟨name, _ | ⟨c, value⟩⟩
      · -- There is the name only, and no second word.
        show [h] = [[]] ↔ ([] = [] → h = [])
        simp
      · exact iff_of_true rfl nofun
  | f :: g :: fields, h :: k :: held, hlength, hname => by
      rw [List.forall_mem_cons] at hname
      have ih := fillAll_seconds_iff (Nat.succ.inj hlength) hname.2
      rcases f with ⟨name, _ | ⟨c, value⟩⟩
      · -- The second word is the next name.
        refine iff_of_false (fun heq => ?_) fun hlast => hlast.1 rfl
        have hcons : fillAll (h :: k :: held) (bytes g.1 :: _) = [] :: _ := heq
        rw [fillAll_cons] at hcons
        exact (hname.2 g (List.mem_cons_self ..)).1 (List.cons.inj hcons).1
      · show fillAll (h :: k :: held) ((c :: value) :: _) = (c :: value) :: _ ↔ _ ∧ _
        rw [fillAll_cons, List.cons_inj_right, and_iff_right (List.cons_ne_nil c value)]
        exact ih

/-- The names of a form, told by the form. -/
theorem names_of_map (names : List String) {fields : List (String × Bytes)}
    (hmap : fields.map Prod.fst = names) (h : ∀ name ∈ names, IsShortName name) :
    ∀ f ∈ fields, IsShortName f.1 := by
  intro f hf
  exact h f.1 (hmap ▸ List.mem_map_of_mem hf)

/-- The words of a plain form fit the buffers, and fill them with the values exactly when
no value but the last lacks. -/
theorem wordsOf_plain {fields : List (String × Bytes)} {held : List Bytes} {n : Nat}
    (hname : ∀ f ∈ fields, IsShortName f.1) (h : PlainForm fields) (hn : fields.length = n)
    (hheld : held.length = n) :
    ¬Overruns (wordsOf n (sent fields)) ∧
      (fillAll held (wordsOf n (sent fields)) = fields.map Prod.snd ↔
        LastMayLack held fields) := by
  have hnames : ∀ f ∈ fields, IsName f.1 := fun f hf => (hname f hf).1
  subst hn
  refine ⟨not_overruns_sent hname h, ?_⟩
  rw [wordsOf_sent hnames fun f hf => (h f hf).1]
  exact fillAll_seconds_iff hheld hnames

/-! ## The three scans -/

theorem AddGoods.scan_sent_iff (held : AddGoods) {f : AddGoods} (h : PlainForm f.form) :
    AddGoods.scan held (sent f.form) = some f ↔
      f.goodsName ≠ [] ∧ f.goodsType ≠ [] ∧ f.goodsPrice ≠ [] ∧
        (f.goodsSize = [] → held.goodsSize = []) := by
  have hname : ∀ g ∈ f.form, IsShortName g.1 :=
    names_of_map ["god_name", "god_type", "god_price", "god_size"] rfl
      (by decide +kernel)
  obtain ⟨hfits, hfill⟩ := wordsOf_plain hname h (show f.form.length = 4 from rfl)
    (show (held.form.map Prod.snd).length = 4 from rfl)
  have hfields : held.fill (wordsOf 4 (sent f.form)) = f ↔
      fillAll (held.form.map Prod.snd) (wordsOf 4 (sent f.form)) = f.form.map Prod.snd := by
    obtain ⟨name, type, price, size⟩ := f
    simp [AddGoods.fill, AddGoods.form, fillAll]
  rw [AddGoods.scan_eq, if_neg hfits, Option.some.injEq, hfields]
  exact hfill

theorem ChangeGod.scan_sent_iff (held : ChangeGod) {f : ChangeGod} (h : PlainForm f.form) :
    ChangeGod.scan held (sent f.form) = some f ↔
      f.goodsId ≠ [] ∧ f.goodsName ≠ [] ∧ f.goodsType ≠ [] ∧ f.goodsPrice ≠ [] ∧
        (f.goodsSize = [] → held.goodsSize = []) := by
  have hname : ∀ g ∈ f.form, IsShortName g.1 :=
    names_of_map ["god_id", "god_name", "god_type", "god_price", "god_size"] rfl
      (by decide +kernel)
  obtain ⟨hfits, hfill⟩ := wordsOf_plain hname h (show f.form.length = 5 from rfl)
    (show (held.form.map Prod.snd).length = 5 from rfl)
  have hfields : held.fill (wordsOf 5 (sent f.form)) = f ↔
      fillAll (held.form.map Prod.snd) (wordsOf 5 (sent f.form)) = f.form.map Prod.snd := by
    obtain ⟨id, name, type, price, size⟩ := f
    simp [ChangeGod.fill, ChangeGod.form, fillAll]
  rw [ChangeGod.scan_eq, if_neg hfits, Option.some.injEq, hfields]
  exact hfill

/-- The zeroed buffers of `get_select_sql`. -/
def Filters.zeroed : Filters := ⟨[], [], [], [], [], []⟩

theorem Filters.scan_sent_iff {f : Filters} (h : PlainForm f.form) :
    Filters.scan (sent f.form) = some f ↔
      f.godId ≠ [] ∧ f.godName ≠ [] ∧ f.godType ≠ [] ∧ f.godPriceL ≠ [] ∧ f.godPriceH ≠ [] := by
  have hname : ∀ g ∈ f.form, IsShortName g.1 :=
    names_of_map ["god_id", "god_name", "god_type", "god_price_l", "god_price_h", "god_size"] rfl
      (by decide +kernel)
  obtain ⟨hfits, hfill⟩ := wordsOf_plain hname h (show f.form.length = 6 from rfl)
    (show (Filters.zeroed.form.map Prod.snd).length = 6 from rfl)
  have hfields : Filters.fill (wordsOf 6 (sent f.form)) = f ↔
      fillAll (Filters.zeroed.form.map Prod.snd) (wordsOf 6 (sent f.form)) =
        f.form.map Prod.snd := by
    obtain ⟨id, name, type, low, high, size⟩ := f
    simp [Filters.fill, Filters.form, Filters.zeroed, fillAll]
  have hlast : LastMayLack (Filters.zeroed.form.map Prod.snd) f.form ↔
      f.godId ≠ [] ∧ f.godName ≠ [] ∧ f.godType ≠ [] ∧ f.godPriceL ≠ [] ∧ f.godPriceH ≠ [] ∧
        (f.godSize = [] → ([] : Bytes) = []) := Iff.rfl
  rw [Filters.scan_eq, if_neg hfits, Option.some.injEq, hfields]
  exact hfill.trans (hlast.trans (by simp))

/-! ## Each field its own value -/

/-- For every form of plain values, any of them empty, the variables get the values of
their fields exactly when every field but the last has a value; without one, the variable
of the last has to be empty already, as it is in `get_select_sql`. -/
theorem fields_bound_iff (held : AddGoods) (held' : ChangeGod) :
    (∀ f : AddGoods, PlainForm f.form →
        (AddGoods.scan held (sent f.form) = some f ↔
          f.goodsName ≠ [] ∧ f.goodsType ≠ [] ∧ f.goodsPrice ≠ [] ∧
            (f.goodsSize = [] → held.goodsSize = []))) ∧
      (∀ f : ChangeGod, PlainForm f.form →
        (ChangeGod.scan held' (sent f.form) = some f ↔
          f.goodsId ≠ [] ∧ f.goodsName ≠ [] ∧ f.goodsType ≠ [] ∧ f.goodsPrice ≠ [] ∧
            (f.goodsSize = [] → held'.goodsSize = []))) ∧
      ∀ f : Filters, PlainForm f.form →
        (Filters.scan (sent f.form) = some f ↔
          f.godId ≠ [] ∧ f.godName ≠ [] ∧ f.godType ≠ [] ∧ f.godPriceL ≠ [] ∧
            f.godPriceH ≠ []) :=
  ⟨fun _ h => AddGoods.scan_sent_iff held h, fun _ h => ChangeGod.scan_sent_iff held' h,
    fun _ h => Filters.scan_sent_iff h⟩

/-- A form with a value in every field. -/
theorem fields_bound_full :
    AddGoods.scan ⟨[], [], [], []⟩
        (sent (AddGoods.form ⟨bytes "tea", bytes "1", bytes "2.5", bytes "big"⟩)) =
      some ⟨bytes "tea", bytes "1", bytes "2.5", bytes "big"⟩ :=
  ((fields_bound_iff ⟨[], [], [], []⟩ ⟨[], [], [], [], []⟩).1
    ⟨bytes "tea", bytes "1", bytes "2.5", bytes "big"⟩ (by decide +kernel)).mpr (by decide +kernel)

/-- An empty name: the variables get the names of the fields behind it. -/
theorem fields_bound_shifted :
    PlainForm (AddGoods.form ⟨[], bytes "1", bytes "2.5", bytes "big"⟩) ∧
      ∀ held, AddGoods.scan held (sent (AddGoods.form ⟨[], bytes "1", bytes "2.5", bytes "big"⟩)) =
        some ⟨bytes "god_type", bytes "god_price", bytes "god_size", held.goodsSize⟩ ∧
        AddGoods.scan held (sent (AddGoods.form ⟨[], bytes "1", bytes "2.5", bytes "big"⟩)) ≠
          some ⟨[], bytes "1", bytes "2.5", bytes "big"⟩ := by
  have hplain : PlainForm (AddGoods.form ⟨[], bytes "1", bytes "2.5", bytes "big"⟩) := by
    decide +kernel
  have hwords : wordsOf 4 (sent (AddGoods.form ⟨[], bytes "1", bytes "2.5", bytes "big"⟩)) =
      [bytes "god_type", bytes "god_price", bytes "god_size"] := by decide +kernel
  refine ⟨hplain, fun held => ⟨?_, fun h => ?_⟩⟩
  · rw [AddGoods.scan_eq, hwords, if_neg (by decide +kernel)]
    rfl
  · exact ((AddGoods.scan_sent_iff held hplain).mp h).1 rfl

end Cgi
