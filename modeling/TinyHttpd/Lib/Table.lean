import Mathlib.Data.List.Flatten
import Mathlib.Data.List.Nodup
import Mathlib.Algebra.Order.Group.Int

/-!
# Tables that grow

A table with an auto-increment column, and the inner join of two tables.  Inserts only
append rows, so that the pairs of a join stay (`innerJoin_sublist`); how often a new row is
in a join is a matter of its partners (`Grows.countP_innerJoin`).

With distinct numbers a table is a partial function (`Keyed.lookup`).  Inserts, updates and
deletes of its rows are the point updates of this function.
-/

namespace Table

variable {α β : Type}

/-! ## An auto-increment column -/

/-- Rows under their numbers.  The next number is above all of them. -/
structure Numbered (α : Type) where
  rows : List (Int × α)
  next : Int
  fresh : ∀ row ∈ rows, row.1 < next

/-- One more row, under the next number. -/
def Numbered.insert (t : Numbered α) (cells : α) : Numbered α where
  rows := t.rows ++ [(t.next, cells)]
  next := t.next + 1
  fresh row hrow := by
    rcases List.mem_append.mp hrow with hold | hnew
    · exact Int.lt_add_one_of_le (t.fresh row hold).le
    · cases List.mem_singleton.mp hnew
      exact Int.lt_succ t.next

def Numbered.insertAll (t : Numbered α) (cells : List α) : Numbered α :=
  cells.foldl Numbered.insert t

/-- From `t` to `t'` some rows have been added, under new numbers that are all different. -/
structure Grows (t t' : Numbered α) (added : List (Int × α)) : Prop where
  rows : t'.rows = t.rows ++ added
  next : t.next ≤ t'.next
  above : ∀ row ∈ added, t.next ≤ row.1
  distinct : added.Pairwise fun row row' => row.1 ≠ row'.1

theorem Grows.refl (t : Numbered α) : Grows t t [] :=
  ⟨(List.append_nil _).symm, le_rfl, List.forall_mem_nil _, List.Pairwise.nil⟩

theorem Grows.trans {t t' t'' : Numbered α} {added added' : List (Int × α)}
    (h : Grows t t' added) (h' : Grows t' t'' added') : Grows t t'' (added ++ added') where
  rows := by rw [h'.rows, h.rows, List.append_assoc]
  next := h.next.trans h'.next
  above := List.forall_mem_append.mpr
    ⟨h.above, fun row hrow => h.next.trans (h'.above row hrow)⟩
  distinct := by
    refine List.pairwise_append.mpr ⟨h.distinct, h'.distinct, fun row hrow row' hrow' => ?_⟩
    -- The later numbers are above all that is in the table by then.
    have hbelow : row.1 < t'.next := t'.fresh row (h.rows ▸ List.mem_append_right _ hrow)
    exact (hbelow.trans_le (h'.above row' hrow')).ne

theorem grows_insert (t : Numbered α) (cells : α) :
    Grows t (t.insert cells) [(t.next, cells)] where
  rows := rfl
  next := (Int.lt_succ t.next).le
  above := List.forall_mem_singleton.mpr le_rfl
  distinct := List.pairwise_singleton _ _

theorem grows_insertAll (t : Numbered α) (cells : List α) :
    ∃ added, Grows t (t.insertAll cells) added ∧ added.map Prod.snd = cells := by
  induction cells generalizing t with
  | nil => exact ⟨[], Grows.refl t, rfl⟩
  | cons c cells ih =>
      obtain ⟨added, hgrows, hcells⟩ := ih (t.insert c)
      exact ⟨(t.next, c) :: added, (grows_insert t c).trans hgrows,
        congrArg (c :: ·) hcells⟩

/-- The number of a new row is no number of before. -/
theorem Grows.ne_of_old {t t' : Numbered α} {added : List (Int × α)} (h : Grows t t' added)
    {row old : Int × α} (hrow : row ∈ added) (hold : old ∈ t.rows) : old.1 ≠ row.1 :=
  ((t.fresh old hold).trans_le (h.above row hrow)).ne

/-- A new row is the only one with its number. -/
theorem Grows.filter_eq {t t' : Numbered α} {added : List (Int × α)} (h : Grows t t' added)
    {row : Int × α} (hrow : row ∈ added) : t'.rows.filter (·.1 == row.1) = [row] := by
  obtain ⟨front, back, rfl⟩ := List.append_of_mem hrow
  obtain ⟨-, hback, hfront⟩ := List.pairwise_append.mp h.distinct
  have hold : t.rows.filter (·.1 == row.1) = [] :=
    List.filter_eq_nil_iff.mpr fun old hmem => by simpa using h.ne_of_old hrow hmem
  have hbefore : front.filter (·.1 == row.1) = [] :=
    List.filter_eq_nil_iff.mpr fun r hr => by
      simpa using hfront r hr row (List.mem_cons_self ..)
  have hbehind : back.filter (·.1 == row.1) = [] :=
    List.filter_eq_nil_iff.mpr fun r hr => by
      simpa using ((List.pairwise_cons.mp hback).1 r hr).symm
  have hself : (row :: back).filter (·.1 == row.1) = row :: back.filter (·.1 == row.1) :=
    List.filter_cons_of_pos (by simp)
  rw [h.rows, List.filter_append, List.filter_append, hold, hbefore, hself, hbehind,
    List.nil_append, List.nil_append]

/-! ## The inner join -/

/-- The pairs of rows that meet the condition. -/
def innerJoin (on : α → β → Bool) (left : List α) (right : List β) : List (α × β) :=
  left.flatMap fun a => (right.filter (on a)).map fun b => (a, b)

theorem mem_innerJoin {on : α → β → Bool} {left : List α} {right : List β} {p : α × β} :
    p ∈ innerJoin on left right ↔ p.1 ∈ left ∧ p.2 ∈ right ∧ on p.1 p.2 = true := by
  simp only [innerJoin, List.mem_flatMap, List.mem_map, List.mem_filter]
  constructor
  · rintro ⟨a, ha, b, hb, rfl⟩
    exact ⟨ha, hb⟩
  · rintro ⟨ha, hb⟩
    exact ⟨p.1, ha, p.2, hb, rfl⟩

/-- More rows on the left take no pair away. -/
theorem innerJoin_sublist {on : α → β → Bool} {left left' : List α} (h : left.Sublist left')
    (right : List β) : (innerJoin on left right).Sublist (innerJoin on left' right) :=
  h.flatMap _

/-- The pairs whose left row meets a condition. -/
theorem filter_innerJoin (on : α → β → Bool) (left : List α) (right : List β) (q : α → Bool) :
    (innerJoin on left right).filter (fun p => q p.1) = innerJoin on (left.filter q) right := by
  induction left with
  | nil => rfl
  | cons a left ih =>
      have hhead : ((right.filter (on a)).map fun b => (a, b)).filter (fun p => q p.1) =
          if q a then (right.filter (on a)).map fun b => (a, b) else [] := by
        split
        next hq =>
            refine List.filter_eq_self.mpr fun p hp => ?_
            obtain ⟨b, -, rfl⟩ := List.mem_map.mp hp
            exact hq
        next hq =>
            refine List.filter_eq_nil_iff.mpr fun p hp => ?_
            obtain ⟨b, -, rfl⟩ := List.mem_map.mp hp
            exact hq
      rw [innerJoin, List.flatMap_cons, List.filter_append, hhead, ← innerJoin, ih,
        List.filter_cons]
      split <;> rfl

/-- A new row is in the join once for each of its partners. -/
theorem Grows.countP_innerJoin {t t' : Numbered α} {added : List (Int × α)}
    (h : Grows t t' added) (on : Int × α → β → Bool) (right : List β) {row : Int × α}
    (hrow : row ∈ added) :
    (innerJoin on t'.rows right).countP (·.1.1 == row.1) = right.countP (on row) := by
  rw [List.countP_eq_length_filter, filter_innerJoin on t'.rows right (·.1 == row.1),
    h.filter_eq hrow, innerJoin, List.flatMap_singleton, List.length_map,
    List.countP_eq_length_filter]

/-- A row is in the join once at most, when it has no more than one partner. -/
theorem fst_innerJoin_sublist {on : α → β → Bool} {left : List α} {right : List β}
    (h : ∀ a ∈ left, right.countP (on a) ≤ 1) :
    ((innerJoin on left right).map Prod.fst).Sublist left := by
  induction left with
  | nil => exact List.Sublist.refl []
  | cons a left ih =>
      obtain ⟨ha, hleft⟩ := List.forall_mem_cons.mp h
      have hone : ((right.filter (on a)).map fun b => (a, b)).map Prod.fst =
          List.replicate (right.countP (on a)) a := by
        rw [List.map_map, List.countP_eq_length_filter]
        exact List.map_const' ..
      have hhead : (List.replicate (right.countP (on a)) a).Sublist [a] :=
        List.replicate_sublist_replicate a |>.mpr ha
      rw [innerJoin, List.flatMap_cons, List.map_append, hone]
      exact hhead.append (ih hleft)

/-! ## The number as a key -/

/-- No two rows have one number. -/
structure Keyed (α : Type) extends Numbered α where
  distinct : (rows.map Prod.fst).Nodup

namespace Keyed

/-- A table before its first row. -/
def empty : Keyed α where
  rows := []
  next := 1
  fresh := List.forall_mem_nil _
  distinct := List.nodup_nil

/-- What is under a number. -/
def lookup (t : Keyed α) (n : Int) : Option α := (t.rows.find? fun row => row.1 == n).map Prod.snd

def insert (t : Keyed α) (cells : α) : Keyed α where
  toNumbered := t.toNumbered.insert cells
  distinct := by
    show ((t.rows ++ [(t.next, cells)]).map Prod.fst).Nodup
    rw [List.map_append, List.nodup_append]
    refine ⟨t.distinct, List.nodup_singleton _, fun n hn m hm => ?_⟩
    obtain ⟨row, hrow, rfl⟩ := List.mem_map.mp hn
    cases List.mem_singleton.mp hm
    exact (t.fresh row hrow).ne

/-- Without the rows that meet the condition. -/
def delete (t : Keyed α) (p : Int × α → Bool) : Keyed α where
  rows := t.rows.filter fun row => !p row
  next := t.next
  fresh row hrow := t.fresh row (List.mem_of_mem_filter hrow)
  distinct := t.distinct.sublist (List.filter_sublist.map Prod.fst)

/-- A row with other cells where the condition holds. -/
def updateRow (p : Int × α → Bool) (f : α → Option α) (row : Int × α) : Int × α :=
  if p row then (row.1, (f row.2).getD row.2) else row

theorem updateRow_fst (p : Int × α → Bool) (f : α → Option α) (row : Int × α) :
    (updateRow p f row).1 = row.1 := by
  unfold updateRow
  split <;> rfl

/-- Other cells for the rows that meet the condition, when there are such for all of these. -/
def update (t : Keyed α) (p : Int × α → Bool) (f : α → Option α) : Option (Keyed α) :=
  if (t.rows.filter p).all fun row => (f row.2).isSome then
    some {
      rows := t.rows.map (updateRow p f)
      next := t.next
      fresh := by
        intro row hrow
        obtain ⟨old, hold, rfl⟩ := List.mem_map.mp hrow
        rw [updateRow_fst]
        exact t.fresh old hold
      distinct := by
        rw [List.map_map, show Prod.fst ∘ updateRow p f = Prod.fst from
          funext (updateRow_fst p f)]
        exact t.distinct }
  else none

/-! ### Rows and lookups -/

theorem eq_of_fst {t : Keyed α} {row row' : Int × α} (h : row ∈ t.rows) (h' : row' ∈ t.rows)
    (heq : row.1 = row'.1) : row = row' :=
  List.inj_on_of_nodup_map t.distinct h h' heq

theorem lookup_eq_some {t : Keyed α} {n : Int} {cells : α} :
    t.lookup n = some cells ↔ (n, cells) ∈ t.rows := by
  rw [lookup, Option.map_eq_some_iff]
  constructor
  · rintro ⟨row, hfind, rfl⟩
    obtain rfl : row.1 = n := by simpa using List.find?_some hfind
    exact List.mem_of_find?_eq_some hfind
  · intro hmem
    cases hfind : t.rows.find? fun row => row.1 == n with
    | none =>
        have hnot := List.find?_eq_none.mp hfind (n, cells) hmem
        simp at hnot
    | some row =>
        have hn : row.1 = n := by simpa using List.find?_some hfind
        have hrow := eq_of_fst (List.mem_of_find?_eq_some hfind) hmem hn
        exact ⟨row, rfl, by rw [hrow]⟩

/-- The row of a number is all there is under it. -/
theorem filter_fst {t : Keyed α} {n : Int} {cells : α} (h : t.lookup n = some cells) :
    t.rows.filter (fun row => row.1 = n) = [(n, cells)] := by
  have hrow := lookup_eq_some.mp h
  have hall : ∀ row ∈ t.rows.filter (fun row => row.1 = n), row = (n, cells) := by
    intro row hmem
    obtain ⟨hmem, hn⟩ := List.mem_filter.mp hmem
    exact eq_of_fst hmem hrow (of_decide_eq_true hn)
  have hmem : (n, cells) ∈ t.rows.filter (fun row => row.1 = n) :=
    List.mem_filter.mpr ⟨hrow, decide_eq_true rfl⟩
  have hnodup : (t.rows.filter fun row => row.1 = n).Nodup :=
    (List.Nodup.of_map _ t.distinct).filter _
  exact List.perm_singleton.mp ((List.perm_ext_iff_of_nodup hnodup (List.nodup_singleton _)).mpr
    fun row => ⟨fun h => List.mem_singleton.mpr (hall row h),
      fun h => List.mem_singleton.mp h ▸ hmem⟩)

theorem lookup_next (t : Keyed α) {n : Int} (h : t.next ≤ n) : t.lookup n = none := by
  refine Option.eq_none_iff_forall_not_mem.mpr fun cells hmem => ?_
  have hlt := t.fresh _ (lookup_eq_some.mp hmem)
  exact absurd hlt (not_lt.mpr h)

/-- Two tables that agree on the rows of a number agree on its lookup. -/
theorem lookup_congr {t t' : Keyed α} {n : Int}
    (h : ∀ cells, (n, cells) ∈ t.rows ↔ (n, cells) ∈ t'.rows) : t.lookup n = t'.lookup n := by
  refine Option.ext fun cells => ?_
  rw [lookup_eq_some, lookup_eq_some]
  exact h cells

theorem lookup_insert (t : Keyed α) (cells : α) (n : Int) :
    (t.insert cells).lookup n = if n = t.next then some cells else t.lookup n := by
  split
  next hn =>
      subst hn
      exact lookup_eq_some.mpr (List.mem_append_right _ (List.mem_singleton_self _))
  next hn =>
      refine lookup_congr fun c => ?_
      show _ ∈ t.rows ++ [(t.next, cells)] ↔ _
      rw [List.mem_append, List.mem_singleton, Prod.mk.injEq]
      exact or_iff_left fun h => hn h.1

/-- A condition on the number alone. -/
theorem lookup_delete (t : Keyed α) {p : Int × α → Bool} {q : Int → Bool}
    (hp : ∀ row ∈ t.rows, p row = q row.1) (n : Int) :
    (t.delete p).lookup n = if q n then none else t.lookup n := by
  split
  next hq =>
      refine Option.eq_none_iff_forall_not_mem.mpr fun cells hmem => ?_
      obtain ⟨hrow, hnot⟩ := List.mem_filter.mp (lookup_eq_some.mp hmem)
      rw [hp _ hrow, hq] at hnot
      cases hnot
  next hq =>
      refine lookup_congr fun cells => ?_
      rw [show (t.delete p).rows = t.rows.filter fun row => !p row from rfl, List.mem_filter]
      refine and_iff_left_of_imp fun hrow => ?_
      rw [hp _ hrow]
      simpa using hq

theorem lookup_update {t : Keyed α} {p : Int × α → Bool} {q : Int → Bool} {f : α → Option α}
    {cells : α} (hp : ∀ row ∈ t.rows, p row = q row.1) (hf : ∀ c, f c = some cells) :
    ∃ t', t.update p f = some t' ∧ t'.next = t.next ∧
      ∀ n, t'.lookup n = if q n then (t.lookup n).map fun _ => cells else t.lookup n := by
  have hall : ((t.rows.filter p).all fun row => (f row.2).isSome) = true :=
    List.all_eq_true.mpr fun row _ => by rw [hf]; rfl
  refine ⟨_, if_pos hall, rfl, fun n => ?_⟩
  have hrow {row : Int × α} (hmem : row ∈ t.rows) :
      updateRow p f row = (row.1, if q row.1 then cells else row.2) := by
    rw [updateRow, hp row hmem, hf]
    split <;> rfl
  have hmem {c : α} : (n, c) ∈ t.rows.map (updateRow p f) ↔
      ∃ old, (n, old) ∈ t.rows ∧ c = if q n then cells else old := by
    rw [List.mem_map]
    constructor
    · rintro ⟨row, hmem, heq⟩
      rw [hrow hmem] at heq
      cases heq
      exact ⟨row.2, hmem, rfl⟩
    · rintro ⟨old, hold, rfl⟩
      exact ⟨(n, old), hold, hrow hold⟩
  refine Option.ext fun c => ?_
  rw [lookup_eq_some]
  refine hmem.trans ?_
  split
  next =>
      rw [Option.map_eq_some_iff]
      exact ⟨fun ⟨old, hold, hc⟩ => ⟨old, lookup_eq_some.mpr hold, hc.symm⟩,
        fun ⟨old, hold, hc⟩ => ⟨old, lookup_eq_some.mp hold, hc.symm⟩⟩
  next =>
      rw [lookup_eq_some]
      exact ⟨fun ⟨old, hold, hc⟩ => hc ▸ hold, fun hold => ⟨c, hold, rfl⟩⟩

/-- A condition that only one number meets holds of one row at most. -/
theorem countP_le_one (t : Keyed α) {p : Int → Bool} (hp : ∀ m n, p m → p n → m = n) :
    t.rows.countP (fun row => p row.1) ≤ 1 := by
  have hcount : t.rows.countP (fun row => p row.1) = (t.rows.map Prod.fst).countP p :=
    (List.countP_map ..).symm
  rw [hcount]
  by_cases h : ∃ n ∈ t.rows.map Prod.fst, p n
  · obtain ⟨n, -, hn⟩ := h
    have hle : (t.rows.map Prod.fst).countP p ≤ (t.rows.map Prod.fst).count n :=
      List.countP_mono_left fun m _ hm => beq_iff_eq.mpr (hp m n hm hn)
    exact hle.trans (List.nodup_iff_count_le_one.mp t.distinct n)
  · exact (List.countP_eq_zero.mpr fun n hn hpn => h ⟨n, hn, hpn⟩).le.trans (Nat.zero_le _)

/-- There is one row at most under a number. -/
theorem countP_fst_le_one (t : Keyed α) (n : Int) : t.rows.countP (fun row => row.1 == n) ≤ 1 := by
  refine t.countP_le_one (p := fun m => m == n) fun m m' hm hm' => ?_
  rw [beq_iff_eq.mp hm, beq_iff_eq.mp hm']

end Keyed

end Table
