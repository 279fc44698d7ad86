/-!
# Registries

A registry is a list in the order in which its items arrived first. An item that
counts as one already there either takes its place or is left out; the others
keep their places.
-/
namespace FirmwareWorkspace.Registry

variable {α : Type}

/-- Put an item in the place of the earlier one with its key, or at the end. -/
def put {κ : Type} [DecidableEq κ] (key : α → κ) (item : α) : List α → List α
  | [] => [item]
  | first :: rest => if key first = key item then item :: rest else first :: put key item rest

/-- Add an item at the end, unless one that counts as the same is there. -/
def addNew (same : α → α → Bool) (items : List α) (item : α) : List α :=
  if items.any (same · item) then items else items ++ [item]

/-- Add items one after the other, each unless one that counts as the same is there. -/
def addAllNew (same : α → α → Bool) (items added : List α) : List α :=
  added.foldl (addNew same) items

end FirmwareWorkspace.Registry
