import Nameless.Named.Basic

/-!
# Tables of definitions

A table maps names to terms without references. It remembers the order in which the names were
first defined, and redefining a name keeps its place.

This file provides:
- `Definitions`, with `Definitions.find?`, `Definitions.put` and `Definitions.names`,
- the laws of looking up after setting, and of the names after setting.
-/

namespace Nameless

/-- Definitions by name, in the order in which the names were first defined. -/
abbrev Definitions := List (String × Named Empty)

namespace Definitions

/-- The definition of a name. -/
def find? (name : String) : Definitions → Option (Named Empty)
  | [] => none
  | (first, t) :: rest => if first = name then some t else find? name rest

/-- Sets the definition of a name. A name that is defined keeps its place. -/
def put (name : String) (t : Named Empty) : Definitions → Definitions
  | [] => [(name, t)]
  | (first, u) :: rest => if first = name then (name, t) :: rest else (first, u) :: put name t rest

/-- The defined names, in order. -/
def names (ds : Definitions) : List String :=
  ds.map Prod.fst

theorem find?_put_self (name : String) (t : Named Empty) (ds : Definitions) :
    find? name (put name t ds) = some t := by
  induction ds with
  | nil => simp [put, find?]
  | cons d rest ih =>
    by_cases h : d.1 = name
    · simp [put, find?, h]
    · simp [put, find?, h, ih]

theorem find?_put_of_ne {name other : String} (h : name ≠ other) (t : Named Empty)
    (ds : Definitions) : find? other (put name t ds) = find? other ds := by
  induction ds with
  | nil => simp [put, find?, h]
  | cons d rest ih =>
    by_cases hd : d.1 = name
    · simp [put, find?, hd, h]
    · simp [put, find?, hd, ih]

/-- A name that is defined keeps its place. -/
theorem names_put_of_mem {name : String} {ds : Definitions} (h : name ∈ names ds)
    (t : Named Empty) : names (put name t ds) = names ds := by
  induction ds with
  | nil => simp [names] at h
  | cons d rest ih =>
    by_cases hd : d.1 = name
    · simp [put, names, hd]
    · have hr : name ∈ names rest := by
        simpa [names, Ne.symm hd] using h
      simpa [put, names, hd] using ih hr

/-- A new name comes last. -/
theorem names_put_of_not_mem {name : String} {ds : Definitions} (h : name ∉ names ds)
    (t : Named Empty) : names (put name t ds) = names ds ++ [name] := by
  induction ds with
  | nil => rfl
  | cons d rest ih =>
    have hd : d.1 ≠ name := by
      intro hd
      exact h (by simp [names, hd])
    have hr : name ∉ names rest := by
      intro hr
      exact h (List.mem_cons_of_mem _ hr)
    simpa [put, names, hd] using ih hr

end Definitions
end Nameless
