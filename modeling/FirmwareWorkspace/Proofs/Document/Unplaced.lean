import FirmwareWorkspace.Document.Reading
import FirmwareWorkspace.Proofs.Registry

/-!
# Tables without locations

Tables, symbols and conditionals note where things were written, but nothing that is
read from them depends on it. Without their locations two tables can be compared that
were filled by the same lines in different files, and whatever tables agree in this way
give the same replacements, values and branches.
-/
namespace FirmwareWorkspace

/-- The place of everything whose location does not matter. -/
def Location.nowhere : Location := ⟨⟨0⟩, 0⟩

/-! ### Macros -/

/-- A definition that keeps only whether it was made in a file. -/
def Definition.unplaced (definition : Definition) : Definition :=
  { definition with location := definition.location.map fun _ => .nowhere }

theorem Definition.unplaced_mk (name value : String) (location : Location) :
    unplaced ⟨name, value, some location⟩ = ⟨name, value, some .nowhere⟩ := rfl

namespace DefinitionTable

def unplaced (table : DefinitionTable) : DefinitionTable :=
  { table with definitions := table.definitions.map Definition.unplaced }

variable {left right : DefinitionTable}

theorem find_unplaced (table : DefinitionTable) (name : String) :
    table.unplaced.find? name = (table.find? name).map Definition.unplaced :=
  List.find?_map

theorem find_congr (alike : left.unplaced = right.unplaced) (name : String) :
    (left.find? name).map Definition.unplaced = (right.find? name).map Definition.unplaced := by
  rw [← find_unplaced, ← find_unplaced, alike]

theorem value_congr (alike : left.unplaced = right.unplaced) : left.value? = right.value? := by
  have kept (table : DefinitionTable) (name : String) :
      table.value? name = table.unplaced.value? name := by
    rw [value?, value?, find_unplaced, Option.map_map]
    rfl
  funext name
  rw [kept left, kept right, alike]

theorem isDefined_congr (alike : left.unplaced = right.unplaced) (name : String) :
    left.isDefined name = right.isDefined name := by
  rw [isDefined, isDefined, ← Option.isSome_map (f := Definition.unplaced),
    find_congr alike, Option.isSome_map]

/-- Tables with the same values replace alike. -/
theorem replaceAll_of_value (values : left.value? = right.value?)
    (bound : left.maxPasses = right.maxPasses) : left.replaceAll = right.replaceAll := by
  have once : left.pass = right.pass := by
    funext cs
    rw [pass, pass, values]
  have passed (count : Nat) (cs : List Char) : left.passes count cs = right.passes count cs := by
    induction count generalizing cs with
    | zero => rfl
    | succ count ih => rw [passes, passes, once, ih]
  funext text
  rw [replaceAll, replaceAll, bound, passed]

theorem macroText_of_value (values : left.value? = right.value?)
    (bound : left.maxPasses = right.maxPasses) : left.macroText = right.macroText := by
  funext name
  rw [macroText, macroText, values, replaceAll_of_value values bound]

theorem replaceAll_congr (alike : left.unplaced = right.unplaced) (text : String) :
    left.replaceAll text = right.replaceAll text :=
  congrFun (replaceAll_of_value (value_congr alike) (congrArg (·.maxPasses) alike)) text

theorem macroText_congr (alike : left.unplaced = right.unplaced) :
    left.macroText = right.macroText :=
  macroText_of_value (value_congr alike) (congrArg (·.maxPasses) alike)

theorem set_congr (alike : left.unplaced = right.unplaced) (name value : String)
    (here there : Location) :
    (left.set name value (some here)).2.unplaced =
      (right.set name value (some there)).2.unplaced := by
  -- Setting a value commutes with forgetting the locations.
  have put (table : DefinitionTable) (location : Location) :
      (table.set name value (some location)).2.unplaced =
        (table.unplaced.set name value (some .nowhere)).2 := by
    have mapped := Registry.map_put Definition.unplaced Definition.name Definition.name
      (fun _ => rfl) ⟨name, stored value, some location⟩ table.definitions
    rw [Definition.unplaced_mk] at mapped
    simp only [set, unplaced, mapped]
  rw [put left, put right, alike]

end DefinitionTable

/-! ### PCDs -/

def PcdEntry.unplaced (entry : PcdEntry) : PcdEntry :=
  { entry with location := .nowhere }

namespace PcdTable

def unplaced (table : PcdTable) : PcdTable :=
  ⟨table.assignments.map PcdEntry.unplaced⟩

variable {left right : PcdTable}

theorem value_congr (alike : left.unplaced = right.unplaced) : left.value? = right.value? := by
  have kept (table : PcdTable) (space name : String) :
      table.value? space name = table.unplaced.value? space name := by
    have found : table.unplaced.history space name =
        (table.history space name).map PcdEntry.unplaced := List.filter_map
    rw [value?, value?, find?, find?, found, List.getLast?_map, Option.map_map]
    rfl
  funext space name
  rw [kept left, kept right, alike]

theorem replaceInLine_congr (alike : left.unplaced = right.unplaced) (line : String) :
    left.replaceInLine line = right.replaceInLine line := by
  rw [replaceInLine, replaceInLine, value_congr alike]

theorem set_congr (alike : left.unplaced = right.unplaced) (space name value : String)
    (here there : Location) :
    (left.set space name value here).unplaced = (right.set space name value there).unplaced := by
  have put (table : PcdTable) (location : Location) :
      (table.set space name value location).unplaced =
        table.unplaced.set space name value .nowhere := by
    simp [set, unplaced, PcdEntry.unplaced]
  rw [put left, put right, alike]

end PcdTable

/-! ### Symbols -/

/-- A symbol without the file and the line that it stands in. -/
def Symbol.unplaced (symbol : Symbol) : Symbol :=
  { symbol with file := ⟨0⟩, path := ⟨""⟩, line := 0 }

def Symbol.withTarget (symbol : Symbol) (target : Option Path) : Symbol :=
  { symbol with target }

def Symbol.withOwner (symbol : Symbol) (owner : Option String) : Symbol :=
  { symbol with owner }

theorem Symbol.unplaced_withTarget {symbol other : Symbol}
    (same : symbol.unplaced = other.unplaced) (target : Option Path) :
    (symbol.withTarget target).unplaced = (other.withTarget target).unplaced :=
  congrArg (withTarget · target) same

theorem Symbol.unplaced_withOwner {symbol other : Symbol}
    (same : symbol.unplaced = other.unplaced) (owner : Option String) :
    (symbol.withOwner owner).unplaced = (other.withOwner owner).unplaced :=
  congrArg (withOwner · owner) same

theorem Symbol.value_of_unplaced {symbol other : Symbol} (same : symbol.unplaced = other.unplaced) :
    symbol.value = other.value := by
  have equal : symbol.unplaced.value = other.unplaced.value := by rw [same]
  exact equal

theorem Symbol.key_of_unplaced {symbol other : Symbol} (same : symbol.unplaced = other.unplaced) :
    symbol.key = other.key := by
  have equal : symbol.unplaced.key = other.unplaced.key := by rw [same]
  exact equal

/-! ### Conditionals -/

def Frame.unplaced (frame : Frame) : Frame :=
  { frame with openedAt := 0 }

theorem Frame.seenElse_of_unplaced {frame other : Frame}
    (same : frame.unplaced = other.unplaced) : frame.seenElse = other.seenElse := by
  have equal : frame.unplaced.seenElse = other.unplaced.seenElse := by rw [same]
  exact equal

theorem Frame.settled_of_unplaced {frame other : Frame}
    (same : frame.unplaced = other.unplaced) : frame.settled = other.settled := by
  have equal : frame.unplaced.settled = other.unplaced.settled := by rw [same]
  exact equal

namespace ConditionalStack

/-- The right stack holds the frames of the left one above those of `base`. -/
def Over (base : List Frame) (left right : ConditionalStack) : Prop :=
  right.frames.map Frame.unplaced = left.frames.map Frame.unplaced ++ base

variable {base : List Frame} {left right : ConditionalStack}

theorem all_live_unplaced (frames : List Frame) :
    (frames.map Frame.unplaced).all (·.live) = frames.all (·.live) := by
  rw [List.all_map]
  rfl

theorem Over.isActive_eq (above : Over base left right) (live : ∀ frame ∈ base, frame.live = true) :
    right.isActive = left.isActive := by
  have based : base.all (·.live) = true := List.all_eq_true.mpr live
  rw [isActive, isActive, ← all_live_unplaced, above, List.all_append, based, Bool.and_true,
    all_live_unplaced]

theorem Over.push (above : Over base left right) (live : ∀ frame ∈ base, frame.live = true)
    (here there : Nat) (value : Bool) :
    Over base (left.push here value) (right.push there value) := by
  rw [Over, ConditionalStack.push, ConditionalStack.push, above.isActive_eq live, List.map_cons,
    List.map_cons, List.cons_append, above]
  rfl

theorem Over.cons {frame other : Frame} {outer around : List Frame}
    (above : Over base ⟨outer⟩ ⟨around⟩) (same : other.unplaced = frame.unplaced) :
    Over base ⟨frame :: outer⟩ ⟨other :: around⟩ := by
  rw [Over, List.map_cons, List.map_cons, List.cons_append, above, same]

theorem Over.of_nil (above : Over base left right) (empty : left.frames = []) (none : base = []) :
    right.frames = [] := by
  rw [Over, empty, none] at above
  exact List.map_eq_nil_iff.mp above

/-- The innermost frames agree, and so do the frames around them. -/
theorem Over.of_cons (above : Over base left right) (top : Frame) (outer : List Frame)
    (opened : left.frames = top :: outer) :
    ∃ other around, right.frames = other :: around ∧ other.unplaced = top.unplaced ∧
      Over base ⟨outer⟩ ⟨around⟩ := by
  rw [Over, opened, List.map_cons, List.cons_append] at above
  obtain ⟨other, around, split, head, tail⟩ := List.map_eq_cons_iff.mp above
  exact ⟨other, around, split, head, tail⟩

end ConditionalStack

end FirmwareWorkspace
