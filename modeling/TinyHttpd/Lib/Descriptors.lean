import Mathlib.Data.List.Basic

/-!
# Descriptor tables shared by several owners

A table maps small numbers to what is open under them, and a new entry goes to
the lowest free number.  Several owners share one table.  Each keeps its numbers
in variables of its own and acts on whatever is open under them.

`Disciplined` is the discipline of one owner: it acquires a name it does not hold,
and uses and releases names it holds.  When all owners follow it, every action
hits an entry of the owner that performs it, in any interleaving
(`Owned.perform`).  `Numbered` is what remains true of owners that only never
acquire a name twice.
-/

namespace Descriptors

/-! ## Tables -/

/-- The entry under each number. -/
abbrev Table (ε : Type) := List (Option ε)

namespace Table

variable {ε : Type}

/-- What is open under a number. -/
def lookup : Table ε → Nat → Option ε
  | [], _ => none
  | e :: _, 0 => e
  | _ :: t, n + 1 => lookup t n

/-- The lowest free number. -/
def lowest : Table ε → Nat
  | [] => 0
  | none :: _ => 0
  | some _ :: t => lowest t + 1

/-- A new entry under the lowest free number. -/
def install (e : ε) : Table ε → Table ε
  | [] => [some e]
  | none :: t => some e :: t
  | some d :: t => some d :: install e t

/-- The number is free again. -/
def clear : Table ε → Nat → Table ε
  | [], _ => []
  | _ :: t, 0 => none :: t
  | e :: t, n + 1 => e :: clear t n

/-- An entry under a given number, whatever was there. -/
def put (e : ε) : Table ε → Nat → Table ε
  | [], 0 => [some e]
  | [], n + 1 => none :: put e [] n
  | _ :: t, 0 => some e :: t
  | d :: t, n + 1 => d :: put e t n

@[simp] theorem lookup_nil (n : Nat) : lookup ([] : Table ε) n = none := rfl

@[simp] theorem lookup_zero (e : Option ε) (t : Table ε) : lookup (e :: t) 0 = e := rfl

@[simp] theorem lookup_succ (e : Option ε) (t : Table ε) (n : Nat) :
    lookup (e :: t) (n + 1) = lookup t n := rfl

theorem lookup_lowest : ∀ t : Table ε, t.lookup t.lowest = none
  | [] => rfl
  | none :: _ => rfl
  | some _ :: t => lookup_lowest t

theorem lookup_install (e : ε) : ∀ (t : Table ε) (n : Nat),
    (t.install e).lookup n = if n = t.lowest then some e else t.lookup n
  | [], 0 => rfl
  | [], n + 1 => by simp [install, lowest]
  | none :: t, 0 => rfl
  | none :: t, n + 1 => by simp [install, lowest]
  | some d :: t, 0 => by simp [install, lowest]
  | some d :: t, n + 1 => by simp [install, lowest, lookup_install e t n]

theorem lookup_clear : ∀ (t : Table ε) (m n : Nat),
    (t.clear m).lookup n = if n = m then none else t.lookup n
  | [], m, n => by simp [clear]
  | e :: t, 0, 0 => rfl
  | e :: t, 0, n + 1 => by simp [clear]
  | e :: t, m + 1, 0 => by simp [clear]
  | e :: t, m + 1, n + 1 => by simp [clear, lookup_clear t m n]

theorem lookup_put (e : ε) : ∀ (t : Table ε) (m n : Nat),
    (t.put e m).lookup n = if n = m then some e else t.lookup n
  | [], 0, 0 => rfl
  | [], 0, n + 1 => by simp [put]
  | [], m + 1, 0 => by simp [put]
  | [], m + 1, n + 1 => by simp [put, lookup_put e [] m n]
  | d :: t, 0, 0 => rfl
  | d :: t, 0, n + 1 => by simp [put]
  | d :: t, m + 1, 0 => by simp [put]
  | d :: t, m + 1, n + 1 => by simp [put, lookup_put e t m n]

/-- An entry is in the table when it is under some number. -/
theorem mem_iff_lookup (e : ε) : ∀ t : Table ε, some e ∈ t ↔ ∃ n, t.lookup n = some e
  | [] => by simp
  | d :: t => by
      rw [List.mem_cons, mem_iff_lookup e t]
      constructor
      · rintro (h | ⟨n, hn⟩)
        · exact ⟨0, h.symm⟩
        · exact ⟨n + 1, hn⟩
      · rintro ⟨n, hn⟩
        cases n with
        | zero => exact Or.inl hn.symm
        | succ n => exact Or.inr ⟨n, hn⟩

end Table

/-! ## Owners -/

/-- What a number stands for: something of the system's, or what an owner has
acquired under a name. -/
inductive Entry (ν : Type) where
  | system
  | own (owner : Nat) (name : ν)
deriving DecidableEq, Repr

/-- What an owner does under one of its names. -/
inductive Op (ν : Type) where
  | acquire (name : ν)
  | use (name : ν)
  | release (name : ν)
deriving DecidableEq, Repr

def Op.name {ν : Type} : Op ν → ν
  | .acquire x => x
  | .use x => x
  | .release x => x

/-- A use or a release that has happened, and what it has hit. -/
structure Action (ν : Type) where
  owner : Nat
  op : Op ν
  target : Option (Entry ν)
deriving DecidableEq, Repr

/-- The table, the numbers in the owners' variables, and the actions so far,
latest first. -/
structure Pool (ν : Type) where
  table : Table (Entry ν)
  number : Nat → ν → Nat
  log : List (Action ν)

variable {ν : Type}

/-- What an owner finds under one of its names. -/
def Pool.target (p : Pool ν) (k : Nat) (x : ν) : Option (Entry ν) := p.table.lookup (p.number k x)

/-- Every entry of an owner is under the number that owner has for it, and there is
a script for every owner of an entry. -/
def Pool.Numbered (p : Pool ν) (owners : Nat) : Prop :=
  ∀ n k x, p.table.lookup n = some (.own k x) → p.number k x = n ∧ k < owners

theorem Pool.Numbered.target_eq {p : Pool ν} {owners k n : Nat} {x : ν} (h : p.Numbered owners)
    (hn : p.table.lookup n = some (.own k x)) : p.target k x = some (.own k x) := by
  rw [Pool.target, (h n k x hn).1, hn]

theorem Pool.Numbered.mono {p : Pool ν} {m n : Nat} (h : p.Numbered m) (hmn : m ≤ n) :
    p.Numbered n := by
  intro i k x hi
  obtain ⟨hnum, hk⟩ := h i k x hi
  exact ⟨hnum, Nat.lt_of_lt_of_le hk hmn⟩

variable [DecidableEq ν]

/-- An owner holds a name when it finds its own entry under it. -/
def Pool.holds (p : Pool ν) (k : Nat) (x : ν) : Bool := decide (p.target k x = some (.own k x))

/-- One operation of owner `k`. -/
def Pool.perform (p : Pool ν) (k : Nat) : Op ν → Pool ν
  | .acquire x =>
      { p with
        table := p.table.install (.own k x)
        number := fun j y => if j = k ∧ y = x then p.table.lowest else p.number j y }
  | .use x => { p with log := ⟨k, .use x, p.target k x⟩ :: p.log }
  | .release x =>
      { p with
        table := p.table.clear (p.number k x)
        log := ⟨k, .release x, p.target k x⟩ :: p.log }

/-- Several operations of owner `k`. -/
def Pool.performAll (p : Pool ν) (k : Nat) (ops : List (Op ν)) : Pool ν :=
  ops.foldl (fun p op => p.perform k op) p

@[simp] theorem Pool.performAll_nil (p : Pool ν) (k : Nat) : p.performAll k [] = p := rfl

@[simp] theorem Pool.performAll_cons (p : Pool ν) (k : Nat) (op : Op ν) (ops : List (Op ν)) :
    p.performAll k (op :: ops) = (p.perform k op).performAll k ops := rfl

/-- What each operation of an owner keeps, while its script gets shorter, is kept by
several. -/
theorem performAll_induct {k : Nat} {P : Pool ν → List (List (Op ν)) → Prop}
    (hstep : ∀ {p : Pool ν} {scripts : List (List (Op ν))} {op : Op ν} {ops : List (Op ν)},
      P p scripts → scripts[k]? = some (op :: ops) → P (p.perform k op) (scripts.set k ops))
    {rest : List (Op ν)} : ∀ {ops : List (Op ν)} {p : Pool ν} {scripts : List (List (Op ν))},
      P p scripts → scripts[k]? = some (ops ++ rest) → P (p.performAll k ops) (scripts.set k rest)
  | [], p, scripts, h, hk => by
      obtain ⟨hlt, hget⟩ := List.getElem?_eq_some_iff.mp hk
      rw [Pool.performAll_nil, show rest = scripts[k] from hget.symm, List.set_getElem_self]
      exact h
  | op :: ops, p, scripts, h, hk => by
      have hlt := (List.getElem?_eq_some_iff.mp hk).1
      have hnext : (scripts.set k (ops ++ rest))[k]? = some (ops ++ rest) :=
        List.getElem?_set_self hlt
      have hrest := performAll_induct hstep (hstep h hk) hnext
      rw [List.set_set] at hrest
      exact hrest

/-! ## Numbers -/

/-- An operation keeps the numbers right when it acquires nothing twice. -/
theorem Pool.Numbered.perform {p : Pool ν} {owners k : Nat} {op : Op ν} (h : p.Numbered owners)
    (hk : k < owners) (hnew : ∀ x, op = .acquire x → p.target k x ≠ some (.own k x)) :
    (p.perform k op).Numbered owners := by
  intro n j y hn
  cases op with
  | use x => exact h n j y hn
  | release x =>
      simp only [Pool.perform, Table.lookup_clear] at hn
      split at hn
      next => cases hn
      next => exact h n j y hn
  | acquire x =>
      simp only [Pool.perform, Table.lookup_install] at hn ⊢
      split at hn
      next hlow =>
          cases hn
          exact ⟨by rw [if_pos ⟨rfl, rfl⟩, hlow], hk⟩
      next =>
          obtain ⟨hnum, hj⟩ := h n j y hn
          refine ⟨?_, hj⟩
          split
          next hjy =>
              obtain ⟨rfl, rfl⟩ := hjy
              exact absurd (h.target_eq hn) (hnew y rfl)
          next => exact hnum

/-! ## Discipline -/

/-- The operation fits what is held. -/
def Op.Allowed (held : ν → Bool) : Op ν → Prop
  | .acquire x => held x = false
  | .use x => held x = true
  | .release x => held x = true

/-- What is held behind the operation. -/
def Op.after (held : ν → Bool) : Op ν → ν → Bool
  | .acquire x, y => y == x || held y
  | .use _, y => held y
  | .release x, y => y != x && held y

/-- A script that acquires what it does not hold, and uses and releases what it
holds. -/
def Disciplined : (ν → Bool) → List (Op ν) → Prop
  | _, [] => True
  | held, op :: ops => op.Allowed held ∧ Disciplined (op.after held) ops

/-- What is held behind a script. -/
def heldAfter (held : ν → Bool) (ops : List (Op ν)) : ν → Bool := ops.foldl Op.after held

theorem disciplined_append (held : ν → Bool) (a b : List (Op ν)) :
    Disciplined held (a ++ b) ↔ Disciplined held a ∧ Disciplined (heldAfter held a) b := by
  induction a generalizing held with
  | nil => simp [Disciplined, heldAfter]
  | cons op a ih =>
      rw [List.cons_append, Disciplined, Disciplined, ih, and_assoc]
      rfl

theorem heldAfter_append (held : ν → Bool) (a b : List (Op ν)) :
    heldAfter held (a ++ b) = heldAfter (heldAfter held a) b :=
  List.foldl_append

/-- A script that only uses what is held. -/
def UsesOnly (held : ν → Bool) (ops : List (Op ν)) : Prop :=
  ∀ op ∈ ops, ∃ x, op = .use x ∧ held x = true

theorem UsesOnly.disciplined {held : ν → Bool} :
    ∀ {ops : List (Op ν)}, UsesOnly held ops → Disciplined held ops ∧ heldAfter held ops = held
  | [], _ => ⟨trivial, rfl⟩
  | op :: ops, h => by
      obtain ⟨x, rfl, hx⟩ := h op (List.mem_cons_self ..)
      have ih := UsesOnly.disciplined fun o ho => h o (List.mem_cons_of_mem _ ho)
      exact ⟨⟨hx, ih.1⟩, ih.2⟩

omit [DecidableEq ν] in
theorem UsesOnly.not_mem_release {held : ν → Bool} {ops : List (Op ν)} (h : UsesOnly held ops)
    (x : ν) : Op.release x ∉ ops := by
  intro hmem
  obtain ⟨y, hy, -⟩ := h _ hmem
  cases hy

/-- What an owner holds under another name is as before. -/
theorem Op.after_of_ne {held : ν → Bool} {op : Op ν} {y : ν} (h : y ≠ op.name) :
    op.after held y = held y := by
  cases op with
  | acquire x => simp [Op.after, show y ≠ x from h]
  | use x => rfl
  | release x => simp [Op.after, show y ≠ x from h]

/-- What an operation does not concern is held as before. -/
theorem Pool.holds_of_ne {p q : Pool ν} {j k : Nat} {op : Op ν} {y : ν}
    (hne : ¬(j = k ∧ y = op.name))
    (h : q.target j y = some (.own j y) ↔ p.target j y = some (.own j y)) :
    q.holds j y = (if j = k then op.after (p.holds k) else p.holds j) y := by
  have hsame : q.holds j y = p.holds j y := decide_eq_decide.mpr h
  split
  next hj =>
      rw [hsame, Op.after_of_ne fun hy => hne ⟨hj, hy⟩, hj]
  next => exact hsame

/-- What everybody holds behind an operation. -/
theorem Pool.holds_perform {p : Pool ν} {k : Nat} {op : Op ν} (hop : op.Allowed (p.holds k))
    (j : Nat) : (p.perform k op).holds j = if j = k then op.after (p.holds k) else p.holds j := by
  funext y
  cases op with
  | use x =>
      split
      next hj => rw [hj]; rfl
      next => rfl
  | release x =>
      -- The number that is freed had the entry of `k` and `x`.
      have hx : p.table.lookup (p.number k x) = some (.own k x) := of_decide_eq_true hop
      have hlook : (p.perform k (.release x)).target j y =
          if p.number j y = p.number k x then none else p.target j y := Table.lookup_clear ..
      by_cases hself : j = k ∧ y = x
      · obtain ⟨rfl, rfl⟩ := hself
        simp [Pool.holds, hlook, Op.after]
      · refine Pool.holds_of_ne hself ?_
        rw [hlook]
        split
        next heq =>
            rw [Pool.target, heq, hx]
            refine iff_of_false (fun h => nomatch h) (fun h => ?_)
            cases h
            exact hself ⟨rfl, rfl⟩
        next => exact Iff.rfl
  | acquire x =>
      have hlook : (p.perform k (.acquire x)).target j y =
          if (if j = k ∧ y = x then p.table.lowest else p.number j y) = p.table.lowest then
            some (.own k x)
          else p.table.lookup (if j = k ∧ y = x then p.table.lowest else p.number j y) :=
        Table.lookup_install ..
      by_cases hself : j = k ∧ y = x
      · obtain ⟨rfl, rfl⟩ := hself
        simp [Pool.holds, hlook, Op.after]
      · refine Pool.holds_of_ne hself ?_
        rw [hlook, if_neg hself]
        split
        next heq =>
            rw [Pool.target, heq, Table.lookup_lowest]
            refine iff_of_false (fun h => ?_) (fun h => nomatch h)
            cases h
            exact hself ⟨rfl, rfl⟩
        next => exact Iff.rfl

/-- The owners follow the discipline: each script does from here on, and what has
been done so far has hit the entries of the owners that did it. -/
structure Owned (p : Pool ν) (scripts : List (List (Op ν))) : Prop where
  numbered : p.Numbered scripts.length
  disciplined : ∀ {k ops}, scripts[k]? = some ops → Disciplined (p.holds k) ops
  hits : ∀ a ∈ p.log, a.target = some (.own a.owner a.op.name)

/-- What the next operation of a disciplined owner hits. -/
theorem Owned.target_eq {p : Pool ν} {scripts : List (List (Op ν))} (h : Owned p scripts) {k : Nat}
    {op : Op ν} {ops : List (Op ν)} (hk : scripts[k]? = some (op :: ops))
    (hop : ∀ x, op ≠ .acquire x) : p.target k op.name = some (.own k op.name) := by
  have hallowed := (h.disciplined hk).1
  cases op with
  | acquire x => exact absurd rfl (hop x)
  | use x => exact of_decide_eq_true hallowed
  | release x => exact of_decide_eq_true hallowed

/-- One operation of one owner. -/
theorem Owned.perform {p : Pool ν} {scripts : List (List (Op ν))} (h : Owned p scripts) {k : Nat}
    {op : Op ν} {ops : List (Op ν)} (hk : scripts[k]? = some (op :: ops)) :
    Owned (p.perform k op) (scripts.set k ops) := by
  obtain ⟨hlt, -⟩ := List.getElem?_eq_some_iff.mp hk
  obtain ⟨hallowed, hrest⟩ := h.disciplined hk
  refine ⟨?_, ?_, ?_⟩
  · rw [List.length_set]
    refine h.numbered.perform hlt fun x hx htarget => ?_
    subst hx
    exact absurd (decide_eq_true htarget) (Bool.eq_false_iff.mp hallowed)
  · intro j ops' hj
    rw [Pool.holds_perform hallowed]
    rw [List.getElem?_set] at hj
    split at hj
    next hjk =>
        cases hj
        rw [if_pos hjk.symm]
        exact hrest
    next hjk =>
        rw [if_neg (Ne.symm hjk)]
        exact h.disciplined hj
  · intro a ha
    cases op with
    | acquire x => exact h.hits a ha
    | use x =>
        cases ha with
        | head => exact h.target_eq hk (fun _ => nofun)
        | tail _ ha => exact h.hits a ha
    | release x =>
        cases ha with
        | head => exact h.target_eq hk (fun _ => nofun)
        | tail _ ha => exact h.hits a ha

/-- Several operations of one owner. -/
theorem Owned.performAll {p : Pool ν} {scripts : List (List (Op ν))} {k : Nat}
    {ops rest : List (Op ν)} (h : Owned p scripts) (hk : scripts[k]? = some (ops ++ rest)) :
    Owned (p.performAll k ops) (scripts.set k rest) :=
  performAll_induct (P := Owned) (fun h hk => h.perform hk) h hk

/-- A new owner may acquire any name, and holds nothing else then. -/
theorem Owned.holds_spawn {p : Pool ν} {scripts : List (List (Op ν))} (h : Owned p scripts)
    {x : ν} : (Op.acquire x).Allowed (p.holds scripts.length) ∧
      (Op.acquire x).after (p.holds scripts.length) = fun y => y == x := by
  have hnone : p.holds scripts.length = fun _ => false := by
    funext y
    refine decide_eq_false fun htarget => ?_
    exact absurd (h.numbered _ _ _ htarget).2 (Nat.lt_irrefl _)
  rw [hnone]
  refine ⟨rfl, ?_⟩
  funext y
  simp [Op.after]

/-- A new owner, which has just acquired its first name. -/
theorem Owned.spawn {p : Pool ν} {scripts : List (List (Op ν))} (h : Owned p scripts) (x : ν)
    {ops : List (Op ν)} (hops : Disciplined (fun y => y == x) ops) :
    Owned (p.perform scripts.length (.acquire x)) (scripts ++ [ops]) := by
  obtain ⟨hallowed, hafter⟩ := h.holds_spawn (x := x)
  refine ⟨?_, ?_, h.hits⟩
  · rw [List.length_append, List.length_singleton]
    refine (h.numbered.mono (Nat.le_succ _)).perform (Nat.lt_succ_self _) fun y hy htarget => ?_
    exact absurd (h.numbered _ _ _ htarget).2 (Nat.lt_irrefl _)
  · intro j ops' hj
    rw [Pool.holds_perform hallowed]
    rw [List.getElem?_append] at hj
    split at hj
    next hlt =>
        rw [if_neg (Nat.ne_of_lt hlt)]
        exact h.disciplined hj
    next hge =>
        obtain ⟨hidx, hops'⟩ := List.getElem?_eq_some_iff.mp hj
        rw [List.length_singleton] at hidx
        have hj' : j = scripts.length := by omega
        subst hj'
        simp only [Nat.sub_self, List.getElem_cons_zero] at hops'
        subst hops'
        rw [if_pos rfl, hafter]
        exact hops

/-! ## Releases -/

/-- The action has released the entry. -/
def Action.releases (e : Entry ν) (a : Action ν) : Bool :=
  match a.op with
  | .release _ => a.target == some e
  | _ => false

/-- How often an entry has been released, by whomever. -/
def Pool.released (p : Pool ν) (k : Nat) (x : ν) : Nat := p.log.countP (Action.releases (.own k x))

/-- In a disciplined pool an entry is released by the releases of its owner. -/
theorem Owned.released_perform {p : Pool ν} {scripts : List (List (Op ν))} (h : Owned p scripts)
    {k : Nat} {op : Op ν} {ops : List (Op ν)} (hk : scripts[k]? = some (op :: ops)) (j : Nat)
    (x : ν) : (p.perform k op).released j x =
      p.released j x + if j = k ∧ op = .release x then 1 else 0 := by
  have htarget := h.target_eq hk
  cases op with
  | acquire y => simp [Pool.released, Pool.perform]
  | use y => simp [Pool.released, Pool.perform, Action.releases]
  | release y =>
      have hy : p.target k y = some (.own k y) := htarget fun _ => nofun
      have hrel : Action.releases (.own j x) ⟨k, .release y, p.target k y⟩ = true ↔
          j = k ∧ Op.release y = .release x := by
        rw [Action.releases, hy, beq_iff_eq, Option.some.injEq, Entry.own.injEq, Op.release.injEq,
          eq_comm (a := k)]
      rw [Pool.released, Pool.perform, List.countP_cons, Pool.released]
      simp only [hrel]

/-- What has been released and what is still going to be add up. -/
theorem Owned.released_performAll {k : Nat} {rest : List (Op ν)} (j : Nat) (x : ν) :
    ∀ {ops : List (Op ν)} {p : Pool ν} {scripts : List (List (Op ν))}, Owned p scripts →
      scripts[k]? = some (ops ++ rest) →
      (p.performAll k ops).released j x =
        p.released j x + if j = k then ops.count (.release x) else 0
  | [], p, scripts, _, _ => by simp
  | op :: ops, p, scripts, h, hk => by
      have hstep := h.perform hk
      have hlt := (List.getElem?_eq_some_iff.mp hk).1
      have hnext : (scripts.set k (ops ++ rest))[k]? = some (ops ++ rest) :=
        List.getElem?_set_self hlt
      rw [Pool.performAll_cons, Owned.released_performAll j x hstep hnext,
        h.released_perform hk, List.count_cons]
      by_cases hj : j = k
      · by_cases hop : op = .release x
        · simp [hj, hop]
          omega
        · simp [hj, hop]
      · simp [hj]

/-- What belongs to the system stays where it is, unless somebody releases it. -/
theorem Pool.system_stays {p : Pool ν} {k n : Nat} {op : Op ν}
    (hop : ∀ x, op = .release x → p.target k x ≠ some .system)
    (hn : p.table.lookup n = some .system) : (p.perform k op).table.lookup n = some .system := by
  cases op with
  | use x => exact hn
  | acquire x =>
      rw [Pool.perform, Table.lookup_install, if_neg, hn]
      rintro rfl
      rw [Table.lookup_lowest] at hn
      cases hn
  | release x =>
      rw [Pool.perform, Table.lookup_clear, if_neg, hn]
      rintro rfl
      exact hop x rfl hn

/-- Disciplined owners release nothing of the system's. -/
theorem Owned.system_stays {p : Pool ν} {scripts : List (List (Op ν))} {k n : Nat}
    {ops rest : List (Op ν)} (h : Owned p scripts) (hk : scripts[k]? = some (ops ++ rest))
    (hn : p.table.lookup n = some .system) :
    (p.performAll k ops).table.lookup n = some .system := by
  refine (performAll_induct
    (P := fun p scripts => Owned p scripts ∧ p.table.lookup n = some .system) ?_ ⟨h, hn⟩ hk).2
  rintro p scripts op ops ⟨h, hn⟩ hk
  refine ⟨h.perform hk, Pool.system_stays (fun x hx htarget => ?_) hn⟩
  subst hx
  have hown := h.target_eq hk (fun _ => nofun)
  rw [Op.name, htarget] at hown
  cases hown

/-! ## Everything is released -/

/-- Every script releases what its owner has and what it still acquires. -/
def Balanced (p : Pool ν) (scripts : List (List (Op ν))) : Prop :=
  ∀ k ops, scripts[k]? = some ops → heldAfter (p.holds k) ops = fun _ => false

theorem Balanced.perform {p : Pool ν} {scripts : List (List (Op ν))} (hb : Balanced p scripts)
    (h : Owned p scripts) {k : Nat} {op : Op ν} {ops : List (Op ν)}
    (hk : scripts[k]? = some (op :: ops)) : Balanced (p.perform k op) (scripts.set k ops) := by
  intro j ops' hj
  rw [Pool.holds_perform (h.disciplined hk).1]
  rw [List.getElem?_set] at hj
  split at hj
  next hjk =>
      obtain ⟨-, heq⟩ := Option.ite_none_right_eq_some.mp hj
      cases heq
      rw [if_pos hjk.symm]
      exact hb k _ hk
  next hjk =>
      rw [if_neg (Ne.symm hjk)]
      exact hb j _ hj

theorem Balanced.performAll {p : Pool ν} {scripts : List (List (Op ν))} {k : Nat}
    {ops rest : List (Op ν)} (hb : Balanced p scripts) (h : Owned p scripts)
    (hk : scripts[k]? = some (ops ++ rest)) :
    Balanced (p.performAll k ops) (scripts.set k rest) :=
  (performAll_induct (P := fun p scripts => Owned p scripts ∧ Balanced p scripts)
    (fun h hk => ⟨h.1.perform hk, h.2.perform h.1 hk⟩) ⟨h, hb⟩ hk).2

/-- A new owner, which has just acquired its first name. -/
theorem Balanced.spawn {p : Pool ν} {scripts : List (List (Op ν))} (hb : Balanced p scripts)
    (h : Owned p scripts) (x : ν) {ops : List (Op ν)}
    (hops : heldAfter (fun y => y == x) ops = fun _ => false) :
    Balanced (p.perform scripts.length (.acquire x)) (scripts ++ [ops]) := by
  intro j ops' hj
  rw [Pool.holds_perform h.holds_spawn.1]
  rw [List.getElem?_append] at hj
  split at hj
  next hlt =>
      rw [if_neg (Nat.ne_of_lt hlt)]
      exact hb j _ hj
  next hge =>
      obtain ⟨hidx, hget⟩ := List.getElem?_eq_some_iff.mp hj
      rw [List.length_singleton] at hidx
      have hj' : j = scripts.length := by omega
      subst hj'
      rw [List.getElem_singleton] at hget
      rw [if_pos rfl, h.holds_spawn.2, ← hget]
      exact hops

/-- An operation puts nothing of the system's anywhere. -/
theorem Pool.system_of_perform {p : Pool ν} {k n : Nat} {op : Op ν}
    (h : (p.perform k op).table.lookup n = some .system) : p.table.lookup n = some .system := by
  cases op with
  | use x => exact h
  | acquire x =>
      rw [Pool.perform, Table.lookup_install] at h
      split at h
      next => cases h
      next => exact h
  | release x =>
      rw [Pool.perform, Table.lookup_clear] at h
      split at h
      next => cases h
      next => exact h

theorem Pool.system_of_performAll {k n : Nat} : ∀ {ops : List (Op ν)} {p : Pool ν},
    (p.performAll k ops).table.lookup n = some .system → p.table.lookup n = some .system
  | [], _, h => h
  | _ :: _, _, h => Pool.system_of_perform (Pool.system_of_performAll h)

/-- When the scripts are at their end, nobody holds anything. -/
theorem Balanced.lookup_ne_own {p : Pool ν} {scripts : List (List (Op ν))}
    (hb : Balanced p scripts) (h : Owned p scripts) (hend : ∀ ops ∈ scripts, ops = [])
    (n k : Nat) (x : ν) : p.table.lookup n ≠ some (.own k x) := by
  intro hn
  have hlt := (h.numbered n k x hn).2
  have hk : scripts[k]? = some [] := by
    rw [List.getElem?_eq_getElem hlt, hend _ (List.getElem_mem hlt)]
  have hheld : p.holds k x = true := decide_eq_true (h.numbered.target_eq hn)
  rw [show p.holds k = _ from hb k _ hk] at hheld
  cases hheld

/-! ## Owners without discipline -/

/-- The names a script acquires. -/
def acquired : List (Op ν) → List ν
  | [] => []
  | .acquire x :: ops => x :: acquired ops
  | .use _ :: ops => acquired ops
  | .release _ :: ops => acquired ops

omit [DecidableEq ν] in
@[simp] theorem acquired_append : ∀ a b : List (Op ν),
    acquired (a ++ b) = acquired a ++ acquired b
  | [], _ => rfl
  | .acquire x :: a, b => congrArg (x :: ·) (acquired_append a b)
  | .use _ :: a, b => acquired_append a b
  | .release _ :: a, b => acquired_append a b

/-- Owners that may use and release what they like, but acquire every name once. -/
structure Fresh (p : Pool ν) (scripts : List (List (Op ν))) : Prop where
  numbered : p.Numbered scripts.length
  once : ∀ {k ops}, scripts[k]? = some ops →
    (acquired ops).Nodup ∧ ∀ x ∈ acquired ops, some (.own k x) ∉ p.table

/-- An operation adds the entry it acquires and no other. -/
theorem Pool.mem_perform {p : Pool ν} {k : Nat} {op : Op ν} {e : Entry ν}
    (he : some e ∈ (p.perform k op).table) :
    some e ∈ p.table ∨ ∃ x, op = .acquire x ∧ e = .own k x := by
  obtain ⟨n, hn⟩ := (Table.mem_iff_lookup _ _).mp he
  cases op with
  | use x => exact Or.inl he
  | release x =>
      rw [Pool.perform, Table.lookup_clear] at hn
      split at hn
      next => cases hn
      next => exact Or.inl ((Table.mem_iff_lookup _ _).mpr ⟨n, hn⟩)
  | acquire x =>
      rw [Pool.perform, Table.lookup_install] at hn
      split at hn
      next => exact Or.inr ⟨x, rfl, (Option.some.inj hn).symm⟩
      next => exact Or.inl ((Table.mem_iff_lookup _ _).mpr ⟨n, hn⟩)

theorem Pool.mem_performAll {k : Nat} {e : Entry ν} : ∀ {ops : List (Op ν)} {p : Pool ν},
    some e ∈ (p.performAll k ops).table → some e ∈ p.table ∨ ∃ x ∈ acquired ops, e = .own k x
  | [], _, he => Or.inl he
  | op :: ops, p, he => by
      obtain hin | ⟨x, hx, heq⟩ := Pool.mem_performAll (p := p.perform k op) he
      · obtain hin | ⟨x, rfl, heq⟩ := Pool.mem_perform hin
        · exact Or.inl hin
        · exact Or.inr ⟨x, List.mem_cons_self .., heq⟩
      · refine Or.inr ⟨x, ?_, heq⟩
        cases op with
        | acquire y => exact List.mem_cons_of_mem _ hx
        | use y => exact hx
        | release y => exact hx

theorem Fresh.perform {p : Pool ν} {scripts : List (List (Op ν))} (h : Fresh p scripts) {k : Nat}
    {op : Op ν} {ops : List (Op ν)} (hk : scripts[k]? = some (op :: ops)) :
    Fresh (p.perform k op) (scripts.set k ops) := by
  obtain ⟨hlt, -⟩ := List.getElem?_eq_some_iff.mp hk
  obtain ⟨hnodup, hnew⟩ := h.once hk
  refine ⟨?_, ?_⟩
  · rw [List.length_set]
    refine h.numbered.perform hlt fun x hx htarget => ?_
    subst hx
    exact hnew x (List.mem_cons_self ..) ((Table.mem_iff_lookup _ _).mpr ⟨_, htarget⟩)
  · intro j ops' hj
    have hold : (acquired ops').Nodup ∧ ∀ x ∈ acquired ops', some (.own j x) ∉ p.table ∧
        (j = k → op ≠ .acquire x) := by
      rw [List.getElem?_set] at hj
      split at hj
      next hjk =>
          cases hj
          cases op with
          | acquire y =>
              obtain ⟨hy, hops⟩ := List.nodup_cons.mp hnodup
              refine ⟨hops, fun x hx => ⟨hjk ▸ hnew x (List.mem_cons_of_mem _ hx), fun _ heq => ?_⟩⟩
              cases heq
              exact hy hx
          | use y => exact ⟨hnodup, fun x hx => ⟨hjk ▸ hnew x hx, fun _ => nofun⟩⟩
          | release y => exact ⟨hnodup, fun x hx => ⟨hjk ▸ hnew x hx, fun _ => nofun⟩⟩
      next hjk =>
          obtain ⟨hops, hnot⟩ := h.once hj
          exact ⟨hops, fun x hx => ⟨hnot x hx, fun heq => absurd heq.symm hjk⟩⟩
    refine ⟨hold.1, fun x hx hmem => ?_⟩
    obtain hin | ⟨y, hop, heq⟩ := Pool.mem_perform hmem
    · exact (hold.2 x hx).1 hin
    · cases heq
      exact (hold.2 x hx).2 rfl hop

theorem Fresh.performAll {p : Pool ν} {scripts : List (List (Op ν))} {k : Nat}
    {ops rest : List (Op ν)} (h : Fresh p scripts) (hk : scripts[k]? = some (ops ++ rest)) :
    Fresh (p.performAll k ops) (scripts.set k rest) :=
  performAll_induct (P := Fresh) (fun h hk => h.perform hk) h hk

theorem Fresh.spawn {p : Pool ν} {scripts : List (List (Op ν))} (h : Fresh p scripts) (x : ν)
    {ops : List (Op ν)} (hops : (x :: acquired ops).Nodup) :
    Fresh (p.perform scripts.length (.acquire x)) (scripts ++ [ops]) := by
  obtain ⟨hx, hnodup⟩ := List.nodup_cons.mp hops
  have hnone : ∀ y, some (Entry.own scripts.length y) ∉ p.table := by
    intro y hy
    obtain ⟨n, hn⟩ := (Table.mem_iff_lookup _ _).mp hy
    exact absurd (h.numbered _ _ _ hn).2 (Nat.lt_irrefl _)
  refine ⟨?_, ?_⟩
  · rw [List.length_append, List.length_singleton]
    refine (h.numbered.mono (Nat.le_succ _)).perform (Nat.lt_succ_self _) fun y hy htarget => ?_
    exact hnone y ((Table.mem_iff_lookup _ _).mpr ⟨_, htarget⟩)
  · intro j ops' hj
    rw [List.getElem?_append] at hj
    split at hj
    next hlt =>
        obtain ⟨hops', hnot⟩ := h.once hj
        refine ⟨hops', fun y hy hmem => ?_⟩
        obtain hin | ⟨z, -, heq⟩ := Pool.mem_perform hmem
        · exact hnot y hy hin
        · cases heq
          exact Nat.lt_irrefl _ hlt
    next hge =>
        obtain ⟨hidx, hops'⟩ := List.getElem?_eq_some_iff.mp hj
        rw [List.length_singleton] at hidx
        have hj' : j = scripts.length := by omega
        subst hj'
        simp only [Nat.sub_self, List.getElem_cons_zero] at hops'
        subst hops'
        refine ⟨hnodup, fun y hy hmem => ?_⟩
        obtain hin | ⟨z, hz, heq⟩ := Pool.mem_perform hmem
        · exact hnone y hin
        · cases hz
          cases heq
          exact hx hy

/-! ## One name -/

/-- The operations under a name are an acquisition, uses and a release, or none. -/
def Returned (x : ν) (ops : List (Op ν)) : Prop :=
  ops.filter (fun op => decide (op.name = x)) = [] ∨
    ∃ uses, ops.filter (fun op => decide (op.name = x)) = .acquire x :: uses ++ [.release x] ∧
      ∀ op ∈ uses, op = .use x

omit [DecidableEq ν] in
theorem acquired_cons (op : Op ν) (ops : List (Op ν)) :
    acquired (op :: ops) = acquired [op] ++ acquired ops :=
  acquired_append [op] ops

omit [DecidableEq ν] in
theorem notMem_acquired_tail {x : ν} {op : Op ν} {ops : List (Op ν)}
    (h : x ∉ acquired (op :: ops)) : x ∉ acquired ops := by
  rw [acquired_cons, List.mem_append, not_or] at h
  exact h.2

/-- A name that is neither held nor acquired does not appear. -/
theorem filter_name_eq_nil {x : ν} : ∀ {held : ν → Bool} {ops : List (Op ν)},
    Disciplined held ops → held x = false → x ∉ acquired ops →
      ops.filter (fun op => decide (op.name = x)) = []
  | _, [], _, _, _ => rfl
  | held, op :: ops, h, hx, hacq => by
      have hname : op.name ≠ x := by
        rintro rfl
        cases op with
        | acquire y => exact hacq (List.mem_cons_self ..)
        | use y => exact Bool.noConfusion (h.1.symm.trans hx)
        | release y => exact Bool.noConfusion (h.1.symm.trans hx)
      rw [List.filter_cons_of_neg (by simpa using hname)]
      exact filter_name_eq_nil h.2 (by rw [Op.after_of_ne hname.symm, hx])
        (notMem_acquired_tail hacq)

/-- A held name is used, and released at the end. -/
theorem filter_name_of_held {x : ν} : ∀ {held : ν → Bool} {ops : List (Op ν)},
    Disciplined held ops → held x = true → heldAfter held ops x = false → x ∉ acquired ops →
      ∃ uses, ops.filter (fun op => decide (op.name = x)) = uses ++ [.release x] ∧
        ∀ op ∈ uses, op = .use x
  | _, [], _, hx, hend, _ => Bool.noConfusion (hx.symm.trans hend)
  | held, op :: ops, h, hx, hend, hacq => by
      by_cases hname : op.name = x
      · subst hname
        cases op with
        | acquire y => exact absurd (List.mem_cons_self ..) hacq
        | use y =>
            obtain ⟨uses, hfilter, huses⟩ := filter_name_of_held h.2 hx hend hacq
            refine ⟨.use y :: uses, ?_, List.forall_mem_cons.mpr ⟨rfl, huses⟩⟩
            rw [List.filter_cons_of_pos (by simp), hfilter]
            rfl
        | release y =>
            have hreleased : (Op.release y).after held y = false := by simp [Op.after]
            refine ⟨[], ?_, List.forall_mem_nil _⟩
            rw [List.filter_cons_of_pos (by simp)]
            exact congrArg (Op.release y :: ·) (filter_name_eq_nil h.2 hreleased hacq)
      · rw [List.filter_cons_of_neg (by simpa using hname)]
        exact filter_name_of_held h.2 (by rw [Op.after_of_ne (Ne.symm hname), hx]) hend
          (notMem_acquired_tail hacq)

/-- A name that is not held before or behind a disciplined script, and not acquired twice, is
acquired, used and released. -/
theorem returned_of_disciplined {x : ν} : ∀ {held : ν → Bool} {ops : List (Op ν)},
    Disciplined held ops → held x = false → heldAfter held ops x = false →
      (acquired ops).Nodup → Returned x ops
  | _, [], _, _, _, _ => .inl rfl
  | held, op :: ops, h, hx, hend, hnodup => by
      by_cases hname : op.name = x
      · subst hname
        cases op with
        | acquire y =>
            have hheld : (Op.acquire y).after held y = true := by simp [Op.after]
            obtain ⟨uses, hfilter, huses⟩ :=
              filter_name_of_held h.2 hheld hend (List.nodup_cons.mp hnodup).1
            refine .inr ⟨uses, ?_, huses⟩
            rw [List.filter_cons_of_pos (by simp)]
            exact congrArg (Op.acquire y :: ·) hfilter
        | use y => exact Bool.noConfusion (h.1.symm.trans hx)
        | release y => exact Bool.noConfusion (h.1.symm.trans hx)
      · have hrest : (acquired ops).Nodup := by
          rw [acquired_cons] at hnodup
          exact (List.nodup_append.mp hnodup).2.1
        rw [Returned, List.filter_cons_of_neg (by simpa using hname)]
        exact returned_of_disciplined h.2 (by rw [Op.after_of_ne (Ne.symm hname), hx]) hend hrest

/-! ## One owner between the others -/

/-- A disciplined owner leaves the entries of the others where they are, and has the entries
of the names that it holds. -/
theorem Pool.performAll_disciplined {owners k : Nat} (hk : k < owners) :
    ∀ {ops : List (Op ν)} {p : Pool ν}, p.Numbered owners → Disciplined (p.holds k) ops →
      (p.performAll k ops).Numbered owners ∧
        (p.performAll k ops).holds k = heldAfter (p.holds k) ops ∧
        ∀ n e, (∀ x, e ≠ Entry.own k x) →
          ((p.performAll k ops).table.lookup n = some e ↔ p.table.lookup n = some e)
  | [], p, hp, _ => ⟨hp, rfl, fun _ _ _ => Iff.rfl⟩
  | op :: ops, p, hp, h => by
      have hholds := Pool.holds_perform h.1 k
      rw [if_pos rfl] at hholds
      have hnumbered : (p.perform k op).Numbered owners :=
        hp.perform hk fun x hop htarget => by
          subst hop
          exact absurd (decide_eq_true htarget) (Bool.eq_false_iff.mp h.1)
      obtain ⟨hp', hholds', hothers⟩ := Pool.performAll_disciplined hk hnumbered
        (by rw [hholds]; exact h.2)
      refine ⟨hp', by rw [Pool.performAll_cons, hholds', hholds]; rfl, fun n e he => ?_⟩
      rw [Pool.performAll_cons, hothers n e he]
      cases op with
      | use x => exact Iff.rfl
      | acquire x =>
          rw [Pool.perform, Table.lookup_install]
          split
          next hn =>
              rw [hn, Table.lookup_lowest]
              exact iff_of_false (fun heq => he x (Option.some.inj heq).symm) nofun
          next => exact Iff.rfl
      | release x =>
          rw [Pool.perform, Table.lookup_clear]
          split
          next hn =>
              have hx : p.table.lookup (p.number k x) = some (.own k x) := of_decide_eq_true h.1
              rw [hn, hx]
              exact iff_of_false nofun fun heq => he x (Option.some.inj heq).symm
          next => exact Iff.rfl

theorem Pool.number_performAll {k : Nat} {x : ν} : ∀ {ops : List (Op ν)} {p : Pool ν},
    x ∉ acquired ops → (p.performAll k ops).number k x = p.number k x
  | [], _, _ => rfl
  | op :: ops, p, h => by
      rw [Pool.performAll_cons, Pool.number_performAll (notMem_acquired_tail h)]
      cases op with
      | acquire y => exact if_neg fun hxy : k = k ∧ x = y => h (hxy.2 ▸ List.mem_cons_self ..)
      | use y => rfl
      | release y => rfl

/-- An owner that holds one name, acquires others and has released them at the end leaves
the table as it was, but for the number of that name. -/
theorem Pool.lookup_performAll {owners k n : Nat} {x : ν} {ops : List (Op ν)} {p : Pool ν}
    (hp : p.Numbered owners) (hk : k < owners) (h : Disciplined (p.holds k) ops)
    (hbefore : ∀ y ≠ x, p.holds k y = false)
    (hafter : ∀ y ≠ x, heldAfter (p.holds k) ops y = false) (hacq : x ∉ acquired ops)
    (hn : n ≠ p.number k x) : (p.performAll k ops).table.lookup n = p.table.lookup n := by
  obtain ⟨hp', hholds, hothers⟩ := Pool.performAll_disciplined hk hp h
  have hnumber := Pool.number_performAll (k := k) (p := p) hacq
  -- No entry of the owner is under another number, before or behind.
  have hmine {q : Pool ν} (hq : q.Numbered owners) (hheld : ∀ y ≠ x, q.holds k y = false)
      (hnum : q.number k x = p.number k x) (y : ν) : q.table.lookup n ≠ some (.own k y) := by
    intro hlook
    by_cases hy : y = x
    · subst hy
      exact hn ((hq n k y hlook).1.symm.trans hnum)
    · have hfalse := hheld y hy
      rw [Pool.holds, decide_eq_false_iff_not] at hfalse
      exact hfalse (hq.target_eq hlook)
  have hmine' := hmine hp' (fun y hy => by rw [hholds]; exact hafter y hy) hnumber
  refine Option.ext fun e => ?_
  by_cases he : ∃ y, e = .own k y
  · obtain ⟨y, rfl⟩ := he
    exact iff_of_false (hmine' y) (hmine hp hbefore rfl y)
  · exact hothers n e fun y hy => he ⟨y, hy⟩

end Descriptors
