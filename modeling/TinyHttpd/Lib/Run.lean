import Mathlib.Data.List.Induction

/-!
# Runs of a machine

A machine is a partial step function: `step s a` is the state behind action `a`,
and `none` when the action cannot happen in `s`.  `run` performs a list of
actions.  The rules below say what holds at the end of a run, when every step
preserves it: outright (`run_invariant`), under a condition that every step of the
run meets (`run_invariant_along`), and with the actions done so far in view
(`run_history`, `run_history_along`).  `outputs` is what the steps of a run put out.
-/

namespace Machine

variable {σ α : Type} (step : σ → α → Option σ)

/-- The state behind a list of actions. -/
def run : σ → List α → Option σ
  | s, [] => some s
  | s, a :: as => (step s a).bind fun s' => run s' as

/-- Every step of the run meets `Q`, which sees the state before it. -/
def Along (Q : σ → α → Prop) : σ → List α → Prop
  | _, [] => True
  | s, a :: as => Q s a ∧ ∀ s', step s a = some s' → Along Q s' as

variable {step}

theorem run_cons {s t : σ} {a : α} {as : List α} :
    run step s (a :: as) = some t ↔ ∃ s', step s a = some s' ∧ run step s' as = some t := by
  rw [run, Option.bind_eq_some_iff]

theorem run_append {s t : σ} {as bs : List α} :
    run step s (as ++ bs) = some t ↔
      ∃ s', run step s as = some s' ∧ run step s' bs = some t := by
  induction as generalizing s with
  | nil => simp [run]
  | cons a as ih =>
      rw [List.cons_append, run_cons]
      constructor
      · rintro ⟨s₁, hs₁, h⟩
        obtain ⟨s', hs', ht⟩ := ih.mp h
        exact ⟨s', run_cons.mpr ⟨s₁, hs₁, hs'⟩, ht⟩
      · rintro ⟨s', hs', ht⟩
        obtain ⟨s₁, hs₁, hs'⟩ := run_cons.mp hs'
        exact ⟨s₁, hs₁, ih.mpr ⟨s', hs', ht⟩⟩

theorem run_append_eq (s : σ) (as bs : List α) :
    run step s (as ++ bs) = (run step s as).bind fun s' => run step s' bs := by
  refine Option.ext fun t => ?_
  rw [run_append, Option.bind_eq_some_iff]

/-- A machine each of whose actions is a run of another one. -/
theorem run_map_eq_flatMap {β γ : Type} {inner : σ → β → Option σ} {f : γ → α} {g : γ → List β}
    {cs : List γ} (h : ∀ c ∈ cs, ∀ s, step s (f c) = run inner s (g c)) (s : σ) :
    run step s (cs.map f) = run inner s (cs.flatMap g) := by
  induction cs generalizing s with
  | nil => rfl
  | cons c cs ih =>
      obtain ⟨hc, hcs⟩ := List.forall_mem_cons.mp h
      rw [List.map_cons, List.flatMap_cons, run, hc, run_append_eq]
      exact congrArg (Option.bind _) (funext (ih hcs))

/-- A machine that does whatever another one does. -/
theorem run_mono {inner : σ → α → Option σ} (h : ∀ s a s', inner s a = some s' → step s a = some s')
    {s t : σ} {as : List α} (hrun : run inner s as = some t) : run step s as = some t := by
  induction as generalizing s with
  | nil => exact hrun
  | cons a as ih =>
      obtain ⟨s', hs', ht⟩ := run_cons.mp hrun
      exact run_cons.mpr ⟨s', h s a s' hs', ih ht⟩

theorem run_singleton {s t : σ} {a : α} : run step s [a] = some t ↔ step s a = some t := by
  simp [run]

/-- A condition on the actions alone. -/
theorem along_of_forall {Q : σ → α → Prop} {as : List α} (h : ∀ s, ∀ a ∈ as, Q s a) (s : σ) :
    Along step Q s as := by
  induction as generalizing s with
  | nil => trivial
  | cons a as ih =>
      exact ⟨h s a (List.mem_cons_self ..),
        fun s' _ => ih (fun s a ha => h s a (List.mem_cons_of_mem _ ha)) s'⟩

/-- What every step that meets `Q` preserves holds at the end of a run along
`Q`. -/
theorem run_invariant_along {P : σ → Prop} {Q : σ → α → Prop}
    (hstep : ∀ s a s', P s → Q s a → step s a = some s' → P s') {s t : σ} {as : List α} (hs : P s)
    (hQ : Along step Q s as) (hrun : run step s as = some t) : P t := by
  induction as generalizing s with
  | nil =>
      cases hrun
      exact hs
  | cons a as ih =>
      obtain ⟨s', hs', ht⟩ := run_cons.mp hrun
      exact ih (hstep s a s' hs hQ.1 hs') (hQ.2 s' hs') ht

/-- What every step preserves holds at the end of a run. -/
theorem run_invariant {P : σ → Prop} (hstep : ∀ s a s', P s → step s a = some s' → P s')
    {s t : σ} {as : List α} (hs : P s) (hrun : run step s as = some t) : P t := by
  induction as generalizing s with
  | nil =>
      cases hrun
      exact hs
  | cons a as ih =>
      obtain ⟨s', hs', ht⟩ := run_cons.mp hrun
      exact ih (hstep s a s' hs hs') ht

/-- The same for a property of the state and of the actions that led to it. -/
theorem run_history {P : List α → σ → Prop} {s : σ} (h0 : P [] s)
    (hstep : ∀ as s₁ a s₂, run step s as = some s₁ → P as s₁ → step s₁ a = some s₂ →
      P (as ++ [a]) s₂) {t : σ} {as : List α} (hrun : run step s as = some t) : P as t := by
  induction as using List.reverseRecOn generalizing t with
  | nil =>
      cases hrun
      exact h0
  | append_singleton as a ih =>
      obtain ⟨s', hs', ht⟩ := run_append.mp hrun
      exact hstep as s' a t hs' (ih hs') (run_singleton.mp ht)

/-- A run along `Q` is one along it up to any state, and from there. -/
theorem along_append {Q : σ → α → Prop} {s : σ} {as bs : List α} :
    Along step Q s (as ++ bs) ↔
      Along step Q s as ∧ ∀ s', run step s as = some s' → Along step Q s' bs := by
  induction as generalizing s with
  | nil => simp [run, Along]
  | cons a as ih =>
      rw [List.cons_append, Along, Along]
      constructor
      · rintro ⟨ha, hrest⟩
        refine ⟨⟨ha, fun s' hs' => (ih.mp (hrest s' hs')).1⟩, fun t ht => ?_⟩
        obtain ⟨s', hs', ht⟩ := run_cons.mp ht
        exact (ih.mp (hrest s' hs')).2 t ht
      · rintro ⟨⟨ha, has⟩, hbs⟩
        exact ⟨ha, fun s' hs' =>
          ih.mpr ⟨has s' hs', fun t ht => hbs t (run_cons.mpr ⟨s', hs', ht⟩)⟩⟩

/-- `run_history` for the runs along `Q`. -/
theorem run_history_along {P : List α → σ → Prop} {Q : σ → α → Prop} {s : σ} (h0 : P [] s)
    (hstep : ∀ as s₁ a s₂, Along step Q s as → run step s as = some s₁ → P as s₁ → Q s₁ a →
      step s₁ a = some s₂ → P (as ++ [a]) s₂)
    {t : σ} {as : List α} (hQ : Along step Q s as) (hrun : run step s as = some t) : P as t := by
  refine run_history (P := fun as t => Along step Q s as → P as t) (fun _ => h0) ?_ hrun hQ
  intro as s₁ a s₂ hrun hP ha hQ
  obtain ⟨hQ, hlast⟩ := along_append.mp hQ
  exact hstep as s₁ a s₂ hQ hrun (hP hQ) (hlast s₁ hrun).1 ha

/-- Actions that decrease a measure are no more than it. -/
theorem length_le_of_run {Q : α → Prop} {m : σ → Nat}
    (hdec : ∀ s a s', Q a → step s a = some s' → m s' < m s) {s t : σ} {as : List α}
    (hQ : ∀ a ∈ as, Q a) (hrun : run step s as = some t) : as.length ≤ m s := by
  induction as generalizing s with
  | nil => exact Nat.zero_le _
  | cons a as ih =>
      obtain ⟨s', hs', ht⟩ := run_cons.mp hrun
      have hone := hdec s a s' (hQ a (List.mem_cons_self ..)) hs'
      have hrest := ih (fun b hb => hQ b (List.mem_cons_of_mem _ hb)) ht
      rw [List.length_cons]
      omega

/-- A machine whose steps all decrease a measure can be run until no action is
possible. -/
theorem run_until_stuck {m : σ → Nat} (hdec : ∀ s a s', step s a = some s' → m s' < m s) (s : σ) :
    ∃ as t, run step s as = some t ∧ ∀ a, step t a = none := by
  induction hm : m s using Nat.strongRecOn generalizing s with
  | _ n ih =>
      by_cases hstuck : ∀ a, step s a = none
      · exact ⟨[], s, rfl, hstuck⟩
      · obtain ⟨a, ha⟩ := not_forall.mp hstuck
        obtain ⟨s', hs'⟩ := Option.ne_none_iff_exists'.mp ha
        obtain ⟨as, t, hrun, ht⟩ := ih (m s') (hm ▸ hdec s a s' hs') s' rfl
        exact ⟨a :: as, t, run_cons.mpr ⟨s', hs', hrun⟩, ht⟩

/-! ## Output -/

variable {β : Type}

/-- What the steps of a run put out, where a step that does not happen puts out nothing. -/
def outputs (step : σ → α → Option σ) (out : σ → α → List β) : σ → List α → List β
  | _, [] => []
  | s, a :: as =>
      match step s a with
      | none => []
      | some s' => out s a ++ outputs step out s' as

theorem outputs_append {out : σ → α → List β} {s t : σ} {as : List α}
    (hrun : run step s as = some t) (bs : List α) :
    outputs step out s (as ++ bs) = outputs step out s as ++ outputs step out t bs := by
  induction as generalizing s with
  | nil =>
      cases hrun
      rfl
  | cons a as ih =>
      obtain ⟨s', hs', ht⟩ := run_cons.mp hrun
      rw [List.cons_append, outputs, outputs, hs']
      dsimp only
      rw [ih ht, List.append_assoc]

theorem outputs_singleton {out : σ → α → List β} {s s' : σ} {a : α} (h : step s a = some s') :
    outputs step out s [a] = out s a := by
  rw [outputs, h]
  exact List.append_nil _

/-- The output of a run with one more step. -/
theorem outputs_snoc {out : σ → α → List β} {s s₁ s₂ : σ} {as : List α} {a : α}
    (hrun : run step s as = some s₁) (ha : step s₁ a = some s₂) :
    outputs step out s (as ++ [a]) = outputs step out s as ++ out s₁ a := by
  rw [outputs_append hrun, outputs_singleton ha]

end Machine
