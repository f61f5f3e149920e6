import PanelCalc.Value

/-!
# Bindings

The values that a caller gives to names.
-/

namespace PanelCalc

/-- Names with their values; no name occurs twice. -/
structure Bindings (H : Type) where
  entries : List (String × Value H)

namespace Bindings

variable {H : Type}

def empty : Bindings H := ⟨[]⟩

def get? (b : Bindings H) (name : String) : Option (Value H) := b.entries.lookup name

/-- The bindings with a value given to a name, in place of the one it may have had. -/
def insert (b : Bindings H) (name : String) (value : Value H) : Bindings H :=
  ⟨(name, value) :: b.entries.filter (·.1 != name)⟩

def size (b : Bindings H) : Nat := b.entries.length

@[simp] theorem get?_empty (name : String) : (empty : Bindings H).get? name = none := rfl

@[simp] theorem get?_insert_self (b : Bindings H) (name : String) (value : Value H) :
    (b.insert name value).get? name = some value := by
  simp [get?, insert]

theorem get?_insert_of_ne (b : Bindings H) {name other : String} (value : Value H)
    (ne : other ≠ name) : (b.insert name value).get? other = b.get? other := by
  have differs : (other == name) = false := by simpa using ne
  have skip : ∀ entries : List (String × Value H),
      (entries.filter (·.1 != name)).lookup other = entries.lookup other := by
    intro entries
    induction entries with
    | nil => rfl
    | cons entry entries ih =>
      obtain ⟨key, bound⟩ := entry
      by_cases removed : key = name
      · simp [removed, List.lookup_cons, differs, ih]
      · simp [removed, List.lookup_cons, ih]
  simp [get?, insert, List.lookup_cons, differs, skip]

end Bindings

end PanelCalc
