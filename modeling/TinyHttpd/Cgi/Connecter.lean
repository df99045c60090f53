import TinyHttpd.Lib.Lifetime

/-!
# The result sets of an `sql_connecter`

The five operations of the class and its destructor, as far as `_res` and the result sets
of the client library are concerned.  What the library answers is part of an operation.

`exe_select_goods` and `exe_select_type` leave their set in `_res` for the destructor, so
every result stored behind them loses it; `exe_update` frees its set and leaves the
pointer, so the destructor frees it again.
-/

namespace Cgi

open Lifetime

/-! ## The class -/

/-- The rows and columns of a result set. -/
structure Extent where
  rows : Nat
  fields : Nat
deriving DecidableEq, Repr

structure SqlConnecter where
  /-- `_mysql_conn` is not NULL. -/
  mysqlConn : Bool
  /-- `_res`, with the sets `mysql_store_result` has returned and what became of them. -/
  res : Slot
deriving DecidableEq

/-- The constructors. -/
def SqlConnecter.init (mysqlConn : Bool) : SqlConnecter := ⟨mysqlConn, .empty⟩

/-- `close_connect`. -/
def SqlConnecter.closeConnect (c : SqlConnecter) : SqlConnecter := { c with mysqlConn := false }

/-- `close_result`. -/
def SqlConnecter.closeResult (c : SqlConnecter) : SqlConnecter := { c with res := c.res.close }

/-- The destructor. -/
def SqlConnecter.destroy (c : SqlConnecter) : SqlConnecter :=
  (if c.mysqlConn then c.closeConnect else c).closeResult

/-- `exe_update`.  A result is stored before the query and one behind it; `stale` and `set`
say whether there is one, and `ok` whether `mysql_query` succeeds. -/
def SqlConnecter.exeUpdate (c : SqlConnecter) (stale ok set : Bool) : SqlConnecter :=
  let c := { c with res := c.res.assign stale }.closeResult
  if !ok then c else { c with res := (c.res.assign set).release }

/-- `create_table`. -/
def SqlConnecter.createTable (c : SqlConnecter) (stale ok set : Bool) : SqlConnecter :=
  c.exeUpdate stale ok set

/-- The rows of a result; there are none without one. -/
def rowsOf (set : Option Extent) : Nat := set.elim 0 Extent.rows

/-- Its columns. -/
def fieldsOf (set : Option Extent) : Nat := set.elim 0 Extent.fields

/-- `exe_query`: `mysql_num_rows`, `mysql_num_fields`, `mysql_fetch_field` up to its NULL,
and `mysql_fetch_row` for every row. -/
def SqlConnecter.exeQuery (c : SqlConnecter) (ok : Bool) (set : Option Extent) : SqlConnecter :=
  if !ok then c
  else
    { c with
      res := (c.res.assign set.isSome).useTimes (2 + (fieldsOf set + 1) + rowsOf set) }.closeResult

/-- `exe_select_type`: `mysql_num_rows`, and `mysql_fetch_row` for every row. -/
def SqlConnecter.exeSelectType (c : SqlConnecter) (ok : Bool) (set : Option Extent) :
    SqlConnecter :=
  if !ok then c else { c with res := (c.res.assign set.isSome).useTimes (1 + rowsOf set) }

/-- `exe_select_goods`: `mysql_num_fields` as well. -/
def SqlConnecter.exeSelectGoods (c : SqlConnecter) (ok : Bool) (set : Option Extent) :
    SqlConnecter :=
  if !ok then c else { c with res := (c.res.assign set.isSome).useTimes (2 + rowsOf set) }

/-- An operation, with what the library answers. -/
inductive SqlOp where
  | exeUpdate (stale ok set : Bool)
  | createTable (stale ok set : Bool)
  | exeQuery (ok : Bool) (set : Option Extent)
  | exeSelectType (ok : Bool) (set : Option Extent)
  | exeSelectGoods (ok : Bool) (set : Option Extent)
deriving DecidableEq, Repr

def SqlConnecter.perform (c : SqlConnecter) : SqlOp → SqlConnecter
  | .exeUpdate stale ok set => c.exeUpdate stale ok set
  | .createTable stale ok set => c.createTable stale ok set
  | .exeQuery ok set => c.exeQuery ok set
  | .exeSelectType ok set => c.exeSelectType ok set
  | .exeSelectGoods ok set => c.exeSelectGoods ok set

/-- An object from its construction to its destruction. -/
def lifetime (mysqlConn : Bool) (ops : List SqlOp) : SqlConnecter :=
  (ops.foldl SqlConnecter.perform (.init mysqlConn)).destroy

/-! ## What an operation does to `_res` -/

/-- The operation assigns to `_res`. -/
def SqlOp.stores : SqlOp → Bool
  | .exeUpdate .. | .createTable .. => true
  | .exeQuery ok _ | .exeSelectType ok _ | .exeSelectGoods ok _ => ok

/-- It leaves a set there that is not freed. -/
def SqlOp.leavesPending : SqlOp → Bool
  | .exeSelectType ok set | .exeSelectGoods ok set => ok && set.isSome
  | _ => false

/-- It leaves a set there that is freed. -/
def SqlOp.leavesDangling : SqlOp → Bool
  | .exeUpdate _ ok set | .createTable _ ok set => ok && set
  | _ => false

/-- The phase of `_res` behind the operation. -/
def SqlOp.after (op : SqlOp) (p : Phase) : Phase :=
  if op.stores then
    if op.leavesPending then .live else if op.leavesDangling then .stale else .clear
  else p

theorem sound_exeUpdate {c : SqlConnecter} (h : Sound c.res) (hphase : c.res.phase ≠ .live)
    (stale ok set : Bool) :
    Sound (c.exeUpdate stale ok set).res ∧
      (c.exeUpdate stale ok set).res.phase = (SqlOp.exeUpdate stale ok set).after c.res.phase := by
  obtain ⟨hstale, hstalePhase⟩ := h.assign hphase stale
  obtain ⟨hclosed, hclear⟩ := hstale.close (by rw [hstalePhase]; cases stale <;> decide)
  cases ok with
  | false => exact ⟨hclosed, hclear⟩
  | true =>
      obtain ⟨hset, hsetPhase⟩ := hclosed.assign (by rw [hclear]; decide) set
      obtain ⟨hfreed, hfreedPhase⟩ := hset.release (by rw [hsetPhase]; cases set <;> decide)
      refine ⟨hfreed, hfreedPhase.trans ?_⟩
      rw [hsetPhase]
      cases set <;> rfl

/-- A result that is stored and looked at. -/
theorem sound_select {res : Slot} (h : Sound res) (hphase : res.phase ≠ .live) (set : Bool)
    (n : Nat) :
    Sound ((res.assign set).useTimes n) ∧
      ((res.assign set).useTimes n).phase = if set then .live else .clear := by
  obtain ⟨hset, hsetPhase⟩ := h.assign hphase set
  obtain ⟨hused, hsame⟩ := hset.useTimes (by rw [hsetPhase]; cases set <;> decide) n
  exact ⟨hused, hsame.trans hsetPhase⟩

/-- An operation that stores over no pending set keeps `_res` sound. -/
theorem sound_perform {c : SqlConnecter} (h : Sound c.res) (op : SqlOp)
    (hop : c.res.phase = .live → op.stores = false) :
    Sound (c.perform op).res ∧ (c.perform op).res.phase = op.after c.res.phase := by
  cases op with
  | exeUpdate stale ok set | createTable stale ok set =>
      exact sound_exeUpdate h (fun hlive => nomatch hop hlive) stale ok set
  | exeQuery ok set =>
      cases ok with
      | false => exact ⟨h, rfl⟩
      | true =>
          obtain ⟨hused, hphase⟩ := sound_select h (fun hlive => nomatch hop hlive) set.isSome
            (2 + (fieldsOf set + 1) + rowsOf set)
          exact hused.close (by rw [hphase]; split <;> nofun)
  | exeSelectType ok set =>
      cases ok with
      | false => exact ⟨h, rfl⟩
      | true =>
          obtain ⟨hused, hphase⟩ := sound_select h (fun hlive => nomatch hop hlive) set.isSome
            (1 + rowsOf set)
          exact ⟨hused, hphase.trans (by cases set <;> rfl)⟩
  | exeSelectGoods ok set =>
      cases ok with
      | false => exact ⟨h, rfl⟩
      | true =>
          obtain ⟨hused, hphase⟩ := sound_select h (fun hlive => nomatch hop hlive) set.isSome
            (2 + rowsOf set)
          exact ⟨hused, hphase.trans (by cases set <;> rfl)⟩

theorem perform_of_not_stores {c : SqlConnecter} {op : SqlOp} (h : op.stores = false) :
    (c.perform op).res = c.res := by
  cases op with
  | exeUpdate stale ok set | createTable stale ok set => cases h
  | exeQuery ok set | exeSelectType ok set | exeSelectGoods ok set =>
      cases h
      rfl

/-- What is broken by an assignment stays broken to the end of the operation. -/
theorem broken_perform_of_assign {c : SqlConnecter} {op : SqlOp}
    (hassign : ∀ set, Broken (c.res.assign set)) (h : op.stores = true) :
    Broken (c.perform op).res := by
  have hupdate : ∀ stale ok set, Broken (c.exeUpdate stale ok set).res := by
    intro stale ok set
    have hclosed := (hassign stale).close
    cases ok with
    | false => exact hclosed
    | true => exact (hclosed.assign set).release
  cases op with
  | exeUpdate stale ok set | createTable stale ok set => exact hupdate stale ok set
  | exeQuery ok set =>
      cases h
      exact ((hassign set.isSome).useTimes _).close
  | exeSelectType ok set | exeSelectGoods ok set =>
      cases h
      exact (hassign set.isSome).useTimes _

/-- An operation that stores over a pending set loses it. -/
theorem broken_perform_of_pending {c : SqlConnecter} (h : Sound c.res) (op : SqlOp)
    (hlive : c.res.phase = .live) (hop : op.stores = true) : Broken (c.perform op).res :=
  broken_perform_of_assign (h.broken_assign hlive) hop

theorem broken_perform {c : SqlConnecter} (h : Broken c.res) (op : SqlOp) :
    Broken (c.perform op).res := by
  cases hop : op.stores with
  | false => rwa [perform_of_not_stores hop]
  | true => exact broken_perform_of_assign h.assign hop

theorem broken_foldl {c : SqlConnecter} (h : Broken c.res) (ops : List SqlOp) :
    Broken (ops.foldl SqlConnecter.perform c).res := by
  induction ops generalizing c with
  | nil => exact h
  | cons op ops ih => exact ih (broken_perform h op)

theorem destroy_res (c : SqlConnecter) : c.destroy.res = c.res.close := by
  rw [SqlConnecter.destroy]
  split <;> rfl

/-! ## Orderly uses of an object -/

/-- From that phase on: nothing is stored over a pending set, and the destructor finds no
freed one. -/
def OrderlyFrom : Phase → List SqlOp → Prop
  | p, [] => p ≠ .stale
  | p, op :: ops => (p = .live → op.stores = false) ∧ OrderlyFrom (op.after p) ops

/-- Of the operations that assign to `_res`, none but the last leaves a set pending, and the
last leaves none that is freed. -/
structure Orderly (ops : List SqlOp) : Prop where
  pending : ∀ op ∈ (ops.filter SqlOp.stores).dropLast, op.leavesPending = false
  dangling : ∀ op ∈ (ops.filter SqlOp.stores).getLast?, op.leavesDangling = false

theorem kept_iff_orderlyFrom {c : SqlConnecter} (h : Sound c.res) (ops : List SqlOp) :
    Kept (ops.foldl SqlConnecter.perform c).destroy.res.log ↔ OrderlyFrom c.res.phase ops := by
  induction ops generalizing c with
  | nil =>
      rw [List.foldl_nil, destroy_res, OrderlyFrom]
      by_cases hstale : c.res.phase = .stale
      · exact iff_of_false ((h.broken_release hstale).assign false).not_kept fun hne => hne hstale
      · obtain ⟨hclosed, hclear⟩ := h.close hstale
        exact iff_of_true (hclosed.kept (by rw [hclear]; nofun)) hstale
  | cons op ops ih =>
      rw [List.foldl_cons, OrderlyFrom]
      by_cases hop : c.res.phase = .live → op.stores = false
      · obtain ⟨hsound, hphase⟩ := sound_perform h op hop
        rw [ih hsound, hphase, and_iff_right hop]
      · obtain ⟨hlive, hstores⟩ := Classical.not_imp.mp hop
        have hbroken := broken_perform_of_pending h op hlive (by simpa using hstores)
        refine iff_of_false ?_ fun hall => hop hall.1
        rw [destroy_res]
        exact (broken_foldl hbroken ops).close.not_kept

/-- An operation that assigns to `_res` leaves a phase of its own there. -/
theorem after_eq_live_iff {op : SqlOp} (p : Phase) (h : op.stores = true) :
    op.after p = .live ↔ op.leavesPending = true := by
  rw [SqlOp.after, if_pos h]
  split
  next hp => exact iff_of_true rfl hp
  next hp => exact iff_of_false (by split <;> nofun) hp

theorem after_eq_stale_iff {op : SqlOp} (p : Phase) (h : op.stores = true) :
    op.after p = .stale ↔ op.leavesDangling = true := by
  rw [SqlOp.after, if_pos h]
  cases op with
  | exeUpdate stale ok set | createTable stale ok set =>
      simp [SqlOp.leavesPending, SqlOp.leavesDangling]
  | exeQuery ok set | exeSelectType ok set | exeSelectGoods ok set =>
      simp only [SqlOp.leavesDangling, Bool.false_eq_true, if_false, iff_false]
      split <;> nofun

theorem orderly_cons_of_not_stores {op : SqlOp} {ops : List SqlOp} (h : op.stores = false) :
    Orderly (op :: ops) ↔ Orderly ops := by
  have hfilter : (op :: ops).filter SqlOp.stores = ops.filter SqlOp.stores := by simp [h]
  constructor
  · rintro ⟨hpending, hdangling⟩
    rw [hfilter] at hpending hdangling
    exact ⟨hpending, hdangling⟩
  · rintro ⟨hpending, hdangling⟩
    exact ⟨by rwa [hfilter], by rwa [hfilter]⟩

/-- An operation that assigns is the last one that does, or not. -/
theorem orderly_cons_of_stores {op : SqlOp} {ops : List SqlOp} (h : op.stores = true) :
    Orderly (op :: ops) ↔
      (ops.filter SqlOp.stores = [] → op.leavesDangling = false) ∧
        (ops.filter SqlOp.stores ≠ [] → op.leavesPending = false) ∧ Orderly ops := by
  have hfilter : (op :: ops).filter SqlOp.stores = op :: ops.filter SqlOp.stores := by simp [h]
  cases hrest : ops.filter SqlOp.stores with
  | nil =>
      rw [hrest] at hfilter
      constructor
      · rintro ⟨hpending, hdangling⟩
        rw [hfilter] at hdangling
        exact ⟨fun _ => hdangling op rfl, fun hne => absurd rfl hne,
          by rw [hrest]; exact nofun, by rw [hrest]; exact nofun⟩
      · rintro ⟨hlast, -, -⟩
        refine ⟨by rw [hfilter]; exact nofun, ?_⟩
        rw [hfilter]
        intro x hx
        cases hx
        exact hlast rfl
  | cons next rest =>
      rw [hrest] at hfilter
      constructor
      · rintro ⟨hpending, hdangling⟩
        rw [hfilter] at hpending hdangling
        rw [List.dropLast_cons_cons] at hpending
        rw [List.getLast?_cons_cons] at hdangling
        exact ⟨nofun, fun _ => hpending op (List.mem_cons_self ..),
          by rw [hrest]; exact fun x hx => hpending x (List.mem_cons_of_mem _ hx),
          by rwa [hrest]⟩
      · rintro ⟨-, hnotLast, hpending, hdangling⟩
        rw [hrest] at hpending hdangling
        refine ⟨?_, by rwa [hfilter, List.getLast?_cons_cons]⟩
        rw [hfilter, List.dropLast_cons_cons]
        exact List.forall_mem_cons.mpr ⟨hnotLast (List.cons_ne_nil _ _), hpending⟩

/-- The phases say what the operations that assign say. -/
theorem orderlyFrom_iff (p : Phase) (ops : List SqlOp) :
    OrderlyFrom p ops ↔ (ops.filter SqlOp.stores = [] → p ≠ .stale) ∧
      (ops.filter SqlOp.stores ≠ [] → p ≠ .live) ∧ Orderly ops := by
  induction ops generalizing p with
  | nil => exact ⟨fun h => ⟨fun _ => h, fun h => absurd rfl h, nofun, nofun⟩, fun h => h.1 rfl⟩
  | cons op ops ih =>
      rw [OrderlyFrom, ih]
      cases hop : op.stores with
      | false =>
          rw [orderly_cons_of_not_stores hop, SqlOp.after, hop]
          simp [hop]
      | true =>
          have hlive : op.after p ≠ .live ↔ op.leavesPending = false := by
            rw [Ne, after_eq_live_iff p hop, Bool.not_eq_true]
          have hstale : op.after p ≠ .stale ↔ op.leavesDangling = false := by
            rw [Ne, after_eq_stale_iff p hop, Bool.not_eq_true]
          rw [orderly_cons_of_stores hop, hlive, hstale]
          simp [hop]

/-- Every result set of an object is freed once and not used behind that exactly when its
operations are orderly. -/
theorem result_sets_kept_iff (mysqlConn : Bool) (ops : List SqlOp) :
    Kept (lifetime mysqlConn ops).res.log ↔ Orderly ops := by
  rw [lifetime, kept_iff_orderlyFrom sound_empty, orderlyFrom_iff]
  exact ⟨fun h => h.2.2, fun h => ⟨fun _ => nofun, fun _ => nofun, h⟩⟩

/-- A select and an update with a result behind it: the set of the select is lost, and that
of the update freed twice. -/
theorem result_sets_not_kept :
    ¬Kept (lifetime true
        [.exeSelectGoods true (some ⟨1, 5⟩), .exeUpdate false true false]).res.log ∧
      ¬Kept (lifetime true [.exeUpdate false true true]).res.log := by
  constructor
  · intro h
    exact absurd (h 0 (by decide)).released (by decide)
  · intro h
    exact absurd (h 0 (by decide)).released (by decide)

end Cgi
