import FirmwareWorkspace.Proofs.Document.Journal
import FirmwareWorkspace.Proofs.Path.Normal
import FirmwareWorkspace.Proofs.Text.Blank

/-!
# Files beside the referring one

An include line whose argument is a plain name refers to that name: trimming, quotes and
macros leave it alone. If a file of that name lies beside the referring one, it is the
first place that a lookup tries, and the resolver stays as it was.
-/
namespace FirmwareWorkspace

/-- A text that a reference may be made of: without characters that no file name can hold
and without variables. -/
structure Resolver.IsPlain (text : String) : Prop where
  allowed : text.toList.any isForbidden = false
  noVariable : variableIn? text.toList = none

/-! ### Trimmed arguments -/

theorem Directive.trim_of_includeFile (code name : String)
    (parsed : ofCode? code = some (.includeFile name)) :
    Chars.trim name.toList = name.toList := by
  unfold ofCode? at parsed
  split at parsed
  next rest _ =>
    dsimp only at parsed
    split at parsed
    all_goals cases parsed
    rw [String.toList_ofList, Chars.trim_trim]
  · cases parsed

theorem Line.unquoted_of_plain (name : String) (trimmed : Chars.trim name.toList = name.toList)
    (plain : Resolver.IsPlain name) : unquoted name = name := by
  have unopened : Chars.dropFront? ['"'] name.toList = none := by
    cases spelled : name.toList with
    | nil => rfl
    | cons first rest =>
      have other : '"' ≠ first := by
        rintro rfl
        have allowed := plain.allowed
        rw [spelled] at allowed
        cases allowed
      exact if_neg other
  rw [unquoted, trimmed, unopened]
  exact String.ofList_toList

/-! ### Macros -/

theorem Chars.splitOnce_eq_none_iff (separator : Char) (cs : List Char) :
    splitOnce separator cs = none ↔ separator ∉ cs := by
  induction cs with
  | nil => exact ⟨fun _ => List.not_mem_nil, fun _ => rfl⟩
  | cons c rest ih =>
    rw [splitOnce, List.mem_cons, not_or]
    by_cases separates : c = separator
    · rw [if_pos separates]
      exact iff_of_false (Option.some_ne_none _) fun absent => absent.1 separates.symm
    · rw [if_neg separates, Option.map_eq_none_iff, ih]
      exact ⟨fun absent => ⟨fun equal => separates equal.symm, absent⟩, And.right⟩

theorem Resolver.variableIn_of_unclosed (cs : List Char) (unclosed : ')' ∉ cs) :
    variableIn? cs = none := by
  fun_induction variableIn? cs with
  | case1 => rfl
  | case2 => rfl
  | case3 c d rest =>
    have uncut := (Chars.splitOnce_eq_none_iff ')' rest).mpr fun member =>
      unclosed (.tail _ (.tail _ member))
    rw [uncut]
    rfl
  | case4 c d rest _ ih => exact ih fun member => unclosed (.tail _ member)

/-- A text without a variable has none after its first character. -/
theorem Resolver.variableIn_tail (c : Char) (cs : List Char)
    (noVariable : variableIn? (c :: cs) = none) : variableIn? cs = none := by
  cases cs with
  | nil => rfl
  | cons d rest =>
    rw [variableIn?] at noVariable
    split at noVariable
    next opened =>
      -- The text opens a variable that no parenthesis closes, here or further on.
      have unclosed := (Chars.splitOnce_eq_none_iff ')' rest).mp
        (Option.map_eq_none_iff.mp noVariable)
      refine variableIn_of_unclosed _ fun member => ?_
      rcases List.mem_cons.mp member with closing | member
      · rw [opened.2] at closing
        cases closing
      · exact unclosed member
    · exact noVariable

theorem DefinitionTable.referenceName_of_plain (cs : List Char)
    (noVariable : Resolver.variableIn? cs = none) : referenceName? cs = none := by
  unfold referenceName?
  split
  next c rest =>
    have unclosed := (Chars.splitOnce_eq_none_iff ')' (c :: rest)).mp
      (Option.map_eq_none_iff.mp noVariable)
    refine if_neg fun reference => unclosed ?_
    rw [Bool.and_eq_true, beq_iff_eq] at reference
    exact .tail _ (List.dropWhile_subset _ (List.mem_of_head? reference.2))
  · rfl

theorem DefinitionTable.substitute_of_plain (value? : String → Option String) (cs : List Char)
    (noVariable : Resolver.variableIn? cs = none) : substitute value? 0 cs = cs := by
  induction cs with
  | nil => rfl
  | cons c rest ih =>
    have unnamed := referenceName_of_plain (c :: rest) noVariable
    rw [substitute]
    simp only [unnamed]
    rw [ih (Resolver.variableIn_tail c rest noVariable)]

theorem DefinitionTable.replaceAll_of_plain (table : DefinitionTable) (text : String)
    (noVariable : Resolver.variableIn? text.toList = none) : table.replaceAll text = text := by
  -- The first pass changes nothing, so there is no second one.
  have once : table.pass text.toList = text.toList := substitute_of_plain _ _ noVariable
  have passed (count : Nat) : table.passes count text.toList = text.toList := by
    cases count with
    | zero => rfl
    | succ count => simp only [passes, once, if_true]
  rw [replaceAll, passed, String.ofList_toList]

theorem PassState.includeReference_of_plain (state : PassState) (name : String)
    (trimmed : Chars.trim name.toList = name.toList) (plain : Resolver.IsPlain name) :
    state.includeReference name = name := by
  rw [includeReference, Line.unquoted_of_plain name trimmed plain,
    DefinitionTable.replaceAll_of_plain _ _ plain.noVariable]

/-! ### Lookups -/

theorem MemoryFiles.contains_of_find (memory : MemoryFiles) (path : Path) (text : String)
    (found : memory.find? path = some text) : memory.contains path = true := by
  obtain ⟨front, back, listed, _⟩ := List.lookup_eq_some_iff.mp found
  rw [contains, List.any_eq_true]
  refine ⟨(path.normalize, text), by simp [listed], ?_⟩
  exact List.isPrefixOf_iff_prefix.mpr (List.prefix_refl _)

/-- A plain name is found beside the referring file, and nothing is learned. -/
theorem Resolver.resolve_beside (resolver : Resolver) (files : MemoryFiles) (path directory : Path)
    (name text : String) (parent : path.normalize.parent? = some directory)
    (isName : Path.IsName name) (notParent : name ≠ "..")
    (trimmed : Chars.trim name.toList = name.toList) (plain : IsPlain name)
    (found : files.find? (directory.join ⟨name⟩) = some text) :
    resolver.resolve (.memory files) name (some path.normalize) =
      (.found (directory.join ⟨name⟩), resolver) := by
  have accepted : ¬(name.toList = [] ∨ name.toList.any isForbidden = true) := by
    rw [plain.allowed]
    exact not_or.mpr ⟨isName.toList_ne_nil, Bool.false_ne_true⟩
  have relative : Path.isAbsolute ⟨name⟩ = false :=
    beq_eq_false_iff_ne.mpr fun head => isName.noSlash (List.mem_of_head? head)
  -- The directory of the referring file is the first place to look in.
  have first : (resolver.candidates ⟨name⟩ (some path.normalize)).find?
      (FileSystem.memory files).contains = some (directory.join ⟨name⟩) := by
    have normal := (Path.join_parent path directory name parent isName notParent).1
    have there : (FileSystem.memory files).contains (directory.join ⟨name⟩) = true :=
      files.contains_of_find _ text found
    simp only [candidates, Option.bind_some, parent, Option.toList_some, List.cons_append,
      List.map_cons, normal, List.find?_cons, there]
  simp only [resolve, lookup, trimmed, if_neg accepted, plain.noVariable, String.ofList_toList,
    Path.normalize_name name isName, lookupPath, relative, Bool.false_eq_true, if_false, first]

end FirmwareWorkspace
