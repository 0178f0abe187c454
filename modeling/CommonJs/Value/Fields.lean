/-!
# Fields in the order of their insertion

The fields of an object are listed in the order in which they were added.
Setting a field that is present changes its value and not its place; a field
that is removed and set again goes to the end.
-/

namespace CommonJs

/-- Named fields, each name once. -/
structure Fields (α : Type) where
  /-- The names with their values, in the order of entry. -/
  entries : List (String × α)
  deriving Inhabited

namespace Fields

def empty : Fields α := ⟨[]⟩

/-- The names in order. -/
def keys (fields : Fields α) : List String :=
  fields.entries.map (·.1)

def size (fields : Fields α) : Nat :=
  fields.entries.length

/-- The value of a field, if it is there. -/
def get? (fields : Fields α) (key : String) : Option α :=
  fields.entries.lookup key

def contains (fields : Fields α) (key : String) : Bool :=
  fields.keys.contains key

/-- The entries with a value in the place of the one that a name has. -/
def replaceEntry (key : String) (value : α) (entries : List (String × α)) :
    List (String × α) :=
  entries.map fun entry => if entry.1 = key then (key, value) else entry

/-- A field that is there keeps its place; a new one comes last. -/
def set (fields : Fields α) (key : String) (value : α) : Fields α :=
  if fields.contains key then ⟨replaceEntry key value fields.entries⟩
  else ⟨fields.entries ++ [(key, value)]⟩

/-- The fields without one of them, in their order. -/
def remove (fields : Fields α) (key : String) : Fields α :=
  ⟨fields.entries.filter fun entry => entry.1 ≠ key⟩

/-- The value of a field, if there is one, and the fields without it. -/
def take (fields : Fields α) (key : String) : Option α × Fields α :=
  (fields.get? key, fields.remove key)

end Fields
end CommonJs
