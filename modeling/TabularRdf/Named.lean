/-!
Named values in the order in which their names came. A name that is set again keeps its place and takes
the later value, so names stay distinct.
-/
namespace TabularRdf

abbrev Named (α : Type) := List (String × α)

namespace Named

variable {α : Type}

def set (name : String) (value : α) : Named α → Named α
  | [] => [(name, value)]
  | (n, v) :: rest => if n = name then (n, value) :: rest else (n, v) :: set name value rest

def setAll (table entries : Named α) : Named α :=
  entries.foldl (fun all (name, value) => all.set name value) table

def setDefault (name : String) (value : α) (entries : Named α) : Named α :=
  if (entries.lookup name).isSome then entries else entries ++ [(name, value)]

theorem lookupSelf (name : String) (value : α) (entries : Named α) :
    (entries.set name value).lookup name = some value := by
  induction entries with
  | nil => simp [set]
  | cons entry rest ih =>
    obtain ⟨n, v⟩ := entry
    by_cases h : n = name
    · simp [set, h]
    · have h' : (name == n) = false := by simpa using Ne.symm h
      simp [set, h, List.lookup_cons, h', ih]

theorem lookupOther {name other : String} (h : other ≠ name) (value : α) (entries : Named α) :
    (entries.set name value).lookup other = entries.lookup other := by
  have hb : (other == name) = false := by simpa using h
  induction entries with
  | nil => simp [set, List.lookup_cons, hb]
  | cons entry rest ih =>
    obtain ⟨n, v⟩ := entry
    by_cases hn : n = name
    · subst hn; simp [set, List.lookup_cons, hb]
    · simp [set, hn, List.lookup_cons, ih]

end Named

end TabularRdf
