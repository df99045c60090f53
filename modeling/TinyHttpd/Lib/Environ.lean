import TinyHttpd.Lib.CString

/-!
# The environment of a process

The environment is a list of strings `NAME=value`.  `put` is `putenv`: it takes the place of
the first entry with its name, or comes last.  `get` is `getenv`, the value of the first entry
with that name.

So a variable that has been set is found with its value, and the others with theirs, whatever
the environment was before.
-/

namespace Environ

open CString

/-- `=`. -/
abbrev equals : UInt8 := 61

/-- The entry is one with that name. -/
def named (name entry : Bytes) : Bool := (name ++ [equals]).isPrefixOf entry

/-- `getenv`. -/
def get (environ : List Bytes) (name : Bytes) : Option Bytes :=
  (environ.find? (named name)).map fun entry => entry.drop (name.length + 1)

/-- What is in front of the `=`. -/
def nameOf (entry : Bytes) : Bytes := entry.takeWhile (· != equals)

/-- `putenv`. -/
def put (new : Bytes) : List Bytes → List Bytes
  | [] => [new]
  | entry :: environ =>
      if named (nameOf new) entry then new :: environ else entry :: put new environ

/-- The entries that `putenv` gets, one by one. -/
def putAll (environ new : List Bytes) : List Bytes :=
  new.foldl (fun environ entry => put entry environ) environ

theorem named_iff {name entry : Bytes} :
    named name entry = true ↔ ∃ value, entry = name ++ equals :: value := by
  rw [named, List.isPrefixOf_iff_prefix]
  constructor
  · rintro ⟨value, rfl⟩
    exact ⟨value, by rw [List.append_assoc, List.singleton_append]⟩
  · rintro ⟨value, rfl⟩
    exact ⟨value, by rw [List.append_assoc, List.singleton_append]⟩

theorem nameOf_entry {name : Bytes} (h : equals ∉ name) (value : Bytes) :
    nameOf (name ++ equals :: value) = name := by
  have hall : ∀ c ∈ name, (c != equals) = true := fun c hc => bne_iff_ne.mpr fun heq => h (heq ▸ hc)
  rw [nameOf, List.takeWhile_append_of_pos hall, List.takeWhile_cons_of_neg (by simp),
    List.append_nil]

/-- An entry has one name. -/
theorem named_unique {name other entry : Bytes} (hname : equals ∉ name) (hother : equals ∉ other)
    (h : named name entry = true) (h' : named other entry = true) : name = other := by
  obtain ⟨value, rfl⟩ := named_iff.mp h
  obtain ⟨value', heq⟩ := named_iff.mp h'
  rw [← nameOf_entry hname value, heq, nameOf_entry hother]

theorem get_cons_of_named {name entry : Bytes} (h : named name entry = true)
    (environ : List Bytes) : get (entry :: environ) name = some (entry.drop (name.length + 1)) := by
  rw [get, List.find?_cons_of_pos h, Option.map_some]

theorem get_cons_of_not_named {name entry : Bytes} (h : ¬named name entry = true)
    (environ : List Bytes) : get (entry :: environ) name = get environ name := by
  rw [get, List.find?_cons_of_neg h, get]

/-- A variable that is set. -/
theorem get_put_self {name : Bytes} (h : equals ∉ name) (value : Bytes) (environ : List Bytes) :
    get (put (name ++ equals :: value) environ) name = some value := by
  have hnew : named name (name ++ equals :: value) = true := named_iff.mpr ⟨value, rfl⟩
  have hvalue : (name ++ equals :: value).drop (name.length + 1) = value := by
    rw [← List.drop_drop, List.drop_left, List.drop_one, List.tail_cons]
  induction environ with
  | nil => rw [put, get_cons_of_named hnew, hvalue]
  | cons entry environ ih =>
      rw [put, nameOf_entry h]
      by_cases hentry : named name entry = true
      · rw [if_pos hentry, get_cons_of_named hnew, hvalue]
      · rw [if_neg hentry, get_cons_of_not_named hentry, ih]

/-- The others. -/
theorem get_put_of_ne {name other : Bytes} (hname : equals ∉ name) (hother : equals ∉ other)
    (hne : other ≠ name) (value : Bytes) (environ : List Bytes) :
    get (put (name ++ equals :: value) environ) other = get environ other := by
  have hnew : ¬named other (name ++ equals :: value) = true := fun h =>
    hne (named_unique hother hname h (named_iff.mpr ⟨value, rfl⟩))
  induction environ with
  | nil => rw [put, get_cons_of_not_named hnew]
  | cons entry environ ih =>
      rw [put, nameOf_entry hname]
      by_cases hentry : named name entry = true
      · have hold : ¬named other entry = true := fun h =>
          hne (named_unique hother hname h hentry)
        rw [if_pos hentry, get_cons_of_not_named hnew, get_cons_of_not_named hold]
      · rw [if_neg hentry]
        by_cases hold : named other entry = true
        · rw [get_cons_of_named hold, get_cons_of_named hold]
        · rw [get_cons_of_not_named hold, get_cons_of_not_named hold, ih]

/-- Two variables that are set, and the others. -/
theorem get_putAll_pair {name other : Bytes} (hname : equals ∉ name) (hother : equals ∉ other)
    (hne : name ≠ other) (value text : Bytes) (environ : List Bytes) :
    get (putAll environ [name ++ equals :: value, other ++ equals :: text]) name = some value ∧
      get (putAll environ [name ++ equals :: value, other ++ equals :: text]) other = some text ∧
      ∀ third, equals ∉ third → third ≠ name → third ≠ other →
        get (putAll environ [name ++ equals :: value, other ++ equals :: text]) third =
          get environ third := by
  simp only [putAll, List.foldl_cons, List.foldl_nil]
  refine ⟨?_, get_put_self hother text _, fun third hthird hthirdName hthirdOther => ?_⟩
  · rw [get_put_of_ne hother hname hne, get_put_self hname]
  · rw [get_put_of_ne hother hthird hthirdOther, get_put_of_ne hname hthird hthirdName]

end Environ
