import Mathlib.Data.List.Nodup
import Mathlib.Tactic.Linarith.Lemmas

/-!
# Loading an ordered map

A list of entries is put into an ordered map one by one, where an entry whose key is there
already is ignored, as by `map::insert`.  Entries with distinct keys all arrive
(`toList_load_perm`), and taking out one of them leaves the others (`cons_erase_perm`).
-/

namespace OrderedMap

open Std

variable {α β : Type} [Ord α] [TransOrd α] [LawfulEqOrd α]

/-- The entries put into the map in their order. -/
def load (m : TreeMap α β) (entries : List (α × β)) : TreeMap α β :=
  entries.foldl (fun m e => m.insertIfNew e.1 e.2) m

theorem nodup_toList (m : TreeMap α β) : m.toList.Nodup := by
  refine m.distinct_keys_toList.imp fun {a b} hne heq => hne ?_
  rw [heq]
  exact ReflCmp.compare_self

theorem mem_toList_insertIfNew {m : TreeMap α β} {k : α} {v : β} (hk : k ∉ m) (e : α × β) :
    e ∈ (m.insertIfNew k v).toList ↔ e = (k, v) ∨ e ∈ m.toList := by
  obtain ⟨a, b⟩ := e
  rw [TreeMap.mem_toList_iff_getElem?_eq_some, TreeMap.mem_toList_iff_getElem?_eq_some,
    TreeMap.getElem?_insertIfNew]
  by_cases ha : a = k
  · subst ha
    rw [if_pos ⟨ReflCmp.compare_self, hk⟩, TreeMap.getElem?_eq_none hk]
    simp [eq_comm]
  · rw [if_neg fun h => ha (LawfulEqCmp.eq_of_compare h.1).symm]
    simp [ha]

/-- With distinct new keys every entry arrives, and nothing else does. -/
theorem mem_toList_load {entries : List (α × β)} {m : TreeMap α β}
    (hdistinct : (entries.map Prod.fst).Nodup) (hnew : ∀ e ∈ entries, e.1 ∉ m) (e : α × β) :
    e ∈ (load m entries).toList ↔ e ∈ entries ∨ e ∈ m.toList := by
  induction entries generalizing m with
  | nil => simp [load]
  | cons d entries ih =>
      rw [List.map_cons, List.nodup_cons] at hdistinct
      obtain ⟨hd, hnew⟩ := List.forall_mem_cons.mp hnew
      have hnew' : ∀ e ∈ entries, e.1 ∉ m.insertIfNew d.1 d.2 := by
        intro e he hmem
        rcases TreeMap.mem_insertIfNew.mp hmem with heq | hold
        · have hkey : d.1 = e.1 := LawfulEqCmp.eq_of_compare heq
          exact hdistinct.1 (hkey ▸ List.mem_map_of_mem he)
        · exact hnew e he hold
      rw [load, List.foldl_cons, ← load, ih hdistinct.2 hnew', mem_toList_insertIfNew hd,
        List.mem_cons]
      tauto

/-- The keys of the map are those of the entries, distinct or not. -/
theorem mem_load {entries : List (α × β)} {m : TreeMap α β} {k : α} :
    k ∈ load m entries ↔ k ∈ entries.map Prod.fst ∨ k ∈ m := by
  induction entries generalizing m with
  | nil => simp [load]
  | cons d entries ih =>
      have hkey : compare d.1 k = .eq ↔ k = d.1 := LawfulEqCmp.compare_eq_iff_eq.trans eq_comm
      rw [load, List.foldl_cons, ← load, ih, TreeMap.mem_insertIfNew, hkey, List.map_cons,
        List.mem_cons]
      tauto

theorem toList_load_perm {entries : List (α × β)} (hdistinct : (entries.map Prod.fst).Nodup) :
    (load ∅ entries).toList.Perm entries := by
  refine (List.perm_ext_iff_of_nodup (nodup_toList _) (List.Nodup.of_map _ hdistinct)).mpr ?_
  intro e
  have hempty : e ∉ (∅ : TreeMap α β).toList := by
    rw [TreeMap.mem_toList_iff_getElem?_eq_some, TreeMap.getElem?_emptyc]
    exact fun h => by cases h
  rw [mem_toList_load hdistinct fun _ _ => TreeMap.not_mem_emptyc, or_iff_left hempty]

/-- An entry of the map, and what is left when its key is erased. -/
theorem cons_erase_perm {m : TreeMap α β} {k : α} {v : β} (h : m[k]? = some v) :
    ((k, v) :: (m.erase k).toList).Perm m.toList := by
  have hgone : ∀ e ∈ (m.erase k).toList, e.1 ≠ k := by
    rintro ⟨a, b⟩ he rfl
    rw [TreeMap.mem_toList_iff_getElem?_eq_some, TreeMap.getElem?_erase_self] at he
    cases he
  have hnodup : ((k, v) :: (m.erase k).toList).Nodup :=
    List.nodup_cons.mpr ⟨fun he => hgone _ he rfl, nodup_toList _⟩
  refine (List.perm_ext_iff_of_nodup hnodup (nodup_toList m)).mpr ?_
  rintro ⟨a, b⟩
  rw [List.mem_cons, TreeMap.mem_toList_iff_getElem?_eq_some,
    TreeMap.mem_toList_iff_getElem?_eq_some, TreeMap.getElem?_erase]
  by_cases ha : a = k
  · subst ha
    rw [if_pos ReflCmp.compare_self, h]
    simp [eq_comm]
  · rw [if_neg fun heq => ha (LawfulEqCmp.eq_of_compare heq).symm]
    simp [ha]

end OrderedMap
