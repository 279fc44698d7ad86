/-!
# Ascending lists

Lists in which every item comes before the next by a strict order. Of two items
neither of which comes before the other only one is kept.
-/
namespace FirmwareWorkspace.Ascending

variable {α : Type}

/-- Insert an item, unless its place is taken. -/
def insert (before : α → α → Bool) (item : α) : List α → List α
  | [] => [item]
  | first :: rest =>
    if before item first then item :: first :: rest
    else if before first item then first :: insert before item rest
    else first :: rest

/-- Insert an item instead of the one that may have its place. -/
def replace (before : α → α → Bool) (item : α) : List α → List α
  | [] => [item]
  | first :: rest =>
    if before item first then item :: first :: rest
    else if before first item then first :: replace before item rest
    else item :: rest

/-- The items of a list in ascending order, the first of those with one place. -/
def ofList (before : α → α → Bool) (items : List α) : List α :=
  items.foldl (fun sorted item => insert before item sorted) []

end FirmwareWorkspace.Ascending
