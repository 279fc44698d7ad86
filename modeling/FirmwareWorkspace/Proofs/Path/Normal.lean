import FirmwareWorkspace.Path

/-!
# Normal forms of paths

A normal form is spelled by names between single separators, and a parent step stands
at most at its beginning. Normalizing gives such a spelling and keeps every path that
has one. Taking off the last name and putting a name at the end are then what they look
like, so that the neighbours of a file can be found by name.
-/
namespace FirmwareWorkspace

theorem Chars.fields_eq_splitOnP (separator : Char → Bool) (cs : List Char) :
    fields separator cs = cs.splitOnP separator := by
  induction cs with
  | nil => rfl
  | cons c rest ih =>
    rw [fields, List.splitOnP_cons_eq_if_modifyHead, ih]
    split
    · rfl
    · split
      next empty => exact absurd empty (List.splitOnP_ne_nil separator rest)
      next found => rw [found]; rfl

theorem Chars.fields_intercalate (separator : Char) (pieces : List (List Char))
    (somePiece : pieces ≠ []) (free : ∀ piece ∈ pieces, separator ∉ piece) :
    fields (· == separator) ([separator].intercalate pieces) = pieces := by
  rw [fields_eq_splitOnP, ← List.splitOn_eq_splitOnP]
  exact List.splitOn_intercalate separator free somePiece

theorem Chars.mem_of_mem_fields (separator : Char → Bool) (cs piece : List Char) (c : Char)
    (member : piece ∈ fields separator cs) (inside : c ∈ piece) :
    c ∈ cs ∧ separator c = false := by
  induction cs generalizing piece with
  | nil =>
    rw [fields, List.mem_singleton] at member
    rw [member] at inside
    cases inside
  | cons first rest ih =>
    rw [fields] at member
    by_cases separates : separator first = true
    · rw [if_pos separates, List.mem_cons] at member
      rcases member with rfl | member
      · cases inside
      · exact ⟨.tail _ (ih piece member inside).1, (ih piece member inside).2⟩
    · rw [if_neg separates] at member
      have here : first ∈ first :: rest ∧ separator first = false :=
        ⟨.head _, Bool.eq_false_iff.mpr separates⟩
      split at member
      · rw [List.mem_singleton] at member
        rw [member, List.mem_singleton] at inside
        rw [inside]
        exact here
      next field others found =>
        -- The first character goes in front of the first field of the rest.
        have later (piece : List Char) (member : piece ∈ fields separator rest)
            (inside : c ∈ piece) : c ∈ first :: rest ∧ separator c = false :=
          ⟨.tail _ (ih piece member inside).1, (ih piece member inside).2⟩
        rw [found] at later
        rcases List.mem_cons.mp member with rfl | member
        · rcases List.mem_cons.mp inside with rfl | inside
          · exact here
          · exact later field (.head _) inside
        · exact later piece (.tail _ member) inside

theorem Chars.not_mem_intercalate (c separator : Char) (pieces : List (List Char))
    (other : c ≠ separator) (free : ∀ piece ∈ pieces, c ∉ piece) :
    c ∉ [separator].intercalate pieces := by
  induction pieces with
  | nil => exact List.not_mem_nil
  | cons first rest ih =>
    have later := ih fun piece member => free piece (.tail _ member)
    cases rest with
    | nil =>
      rw [List.intercalate_singleton]
      exact free first (.head _)
    | cons second rest =>
      rw [List.intercalate_cons_cons, List.mem_append, List.mem_append, List.mem_singleton]
      exact not_or.mpr ⟨not_or.mpr ⟨free first (.head _), other⟩, later⟩

namespace Path

/-- A text that stands between two separators of a normal form. -/
structure IsName (text : String) : Prop where
  nonempty : text ≠ ""
  notDot : text ≠ "."
  noSlash : '/' ∉ text.toList
  noBackslash : '\\' ∉ text.toList

theorem IsName.toList_ne_nil {text : String} (isName : IsName text) : text.toList ≠ [] :=
  fun empty => isName.nonempty (String.toList_inj.mp empty)

theorem IsName.toList_ne_dot {text : String} (isName : IsName text) : text.toList ≠ ['.'] :=
  fun dot => isName.notDot (String.toList_inj.mp dot)

/-- The names of a normal form. Only the first may be a parent step. -/
structure IsNormal (names : List String) : Prop where
  isName : ∀ name ∈ names, IsName name
  noParent : ∀ name ∈ names.tail, name ≠ ".."

namespace IsNormal

theorem nil : IsNormal [] := by
  constructor <;> (intro name member; cases member)

theorem concat (names : List String) (text : String) (normal : IsNormal names)
    (isName : IsName text) (notParent : names ≠ [] → text ≠ "..") : IsNormal (names ++ [text]) := by
  constructor
  · intro name member
    rcases List.mem_append.mp member with member | member
    · exact normal.isName name member
    · rw [List.mem_singleton.mp member]
      exact isName
  · intro name member
    cases names with
    | nil => cases member
    | cons first rest =>
      rcases List.mem_append.mp member with member | member
      · exact normal.noParent name member
      · rw [List.mem_singleton.mp member]
        exact notParent (List.cons_ne_nil first rest)

theorem of_append (names rest : List String) (normal : IsNormal (names ++ rest)) :
    IsNormal names := by
  constructor
  · exact fun name member => normal.isName name (List.mem_append_left _ member)
  · intro name member
    cases names with
    | nil => cases member
    | cons first rest => exact normal.noParent name (List.mem_append_left _ member)

end IsNormal

theorem IsName.parent : IsName ".." := by
  constructor <;> decide

/-! ### Normalizing gives a normal form -/

/-- A part that adds nothing but a name to a normal form. -/
def Part.IsPlain : Part → Prop
  | .name text => IsName text ∧ text ≠ ".."
  | _ => True

theorem isPlain_of_segment (segment : List Char) (part : Part) (noSlash : '/' ∉ segment)
    (noBackslash : '\\' ∉ segment) (parsed : Part.ofSegment? segment = some part) :
    part.IsPlain := by
  unfold Part.ofSegment? at parsed
  split at parsed
  · cases parsed
  next proper =>
    rw [not_or] at proper
    split at parsed
    · cases parsed
      trivial
    next notParent =>
      cases parsed
      have differs (text : String) (other : segment ≠ text.toList) : String.ofList segment ≠ text :=
        fun equal => other (by rw [← equal, String.toList_ofList])
      refine ⟨⟨differs "" proper.1, differs "." proper.2, ?_, ?_⟩, differs ".." notParent⟩
      · rwa [String.toList_ofList]
      · rwa [String.toList_ofList]

theorem not_mem_unified (path : Path) : '\\' ∉ path.unified.text.toList := by
  intro member
  rw [unified, String.toList_ofList, List.mem_map] at member
  obtain ⟨c, _, mapped⟩ := member
  split at mapped
  · cases mapped
  next other => exact other mapped

theorem isPlain_of_mem_parts (path : Path) (part : Part) (member : part ∈ path.unified.parts) :
    part.IsPlain := by
  have free (segment : List Char) (member : segment ∈ path.unified.segments) :
      '/' ∉ segment ∧ '\\' ∉ segment := by
    have inText (c : Char) (inside : c ∈ segment) :=
      Chars.mem_of_mem_fields (· == '/') path.unified.text.toList segment c member inside
    exact ⟨fun inside => absurd (inText '/' inside).2 (by decide),
      fun inside => not_mem_unified path (inText '\\' inside).1⟩
  rw [parts] at member
  split at member
  · cases member
  next first rest found =>
    rw [found] at free
    rcases List.mem_append.mp member with member | member
    -- The first segment may also stand for the root or for the place itself.
    · have parsed := Option.mem_toList.mp member
      rw [Part.ofFirst?] at parsed
      have ⟨noSlash, noBackslash⟩ := free first (.head _)
      split at parsed
      · split at parsed <;> cases parsed
        trivial
      · split at parsed
        · cases parsed
          trivial
        · exact isPlain_of_segment first part noSlash noBackslash parsed
    · obtain ⟨segment, inside, parsed⟩ := List.mem_filterMap.mp member
      have ⟨noSlash, noBackslash⟩ := free segment (.tail _ inside)
      exact isPlain_of_segment segment part noSlash noBackslash parsed

/-- A plain part leads from one normal form to another. -/
theorem isNormal_foldPart (names : List String) (part : Part) (plain : part.IsPlain)
    (normal : IsNormal names.reverse) : IsNormal (foldPart names part).reverse := by
  cases part with
  | root => exact normal
  | here => exact normal
  | name text =>
    rw [foldPart, List.reverse_cons]
    exact normal.concat _ text plain.1 fun _ => plain.2
  | up =>
    -- A parent step takes a name back, and stays where there is none.
    cases names with
    | nil => exact IsNormal.nil.concat [] ".." .parent fun none => absurd rfl none
    | cons last earlier =>
      rw [List.reverse_cons] at normal
      exact normal.of_append _ [last]

def normalNames (path : Path) : List String :=
  (path.unified.parts.foldl foldPart []).reverse

theorem isNormal_normalNames (path : Path) : IsNormal path.normalNames := by
  have folded (parts : List Part) (names : List String) (normal : IsNormal names.reverse)
      (plain : ∀ part ∈ parts, part.IsPlain) : IsNormal (parts.foldl foldPart names).reverse := by
    induction parts generalizing names with
    | nil => exact normal
    | cons part rest ih =>
      refine ih _ (isNormal_foldPart names part (plain part (.head _)) normal) ?_
      exact fun other member => plain other (.tail _ member)
  exact folded path.unified.parts [] .nil (isPlain_of_mem_parts path)

def fromRoot (path : Path) : Bool :=
  path.unified.parts.head? == some .root

theorem normalize_eq_ofNames (path : Path) :
    path.normalize = ofNames path.fromRoot path.normalNames := rfl

/-! ### Normal forms stay -/

/-- What a name of a normal form stands for. -/
def Part.ofName (name : String) : Part :=
  if name = ".." then .up else .name name

theorem Part.ofName_ne_root (name : String) : ofName name ≠ .root := by
  rw [ofName]
  split <;> exact Part.noConfusion

theorem Part.ofName_injective : Function.Injective Part.ofName := by
  intro left right same
  rw [ofName, ofName] at same
  split at same
  next parent =>
    split at same
    next parentToo => rw [parent, parentToo]
    · cases same
  · split at same
    · cases same
    · exact Part.name.inj same

theorem ofSegment_toList (name : String) (isName : IsName name) :
    Part.ofSegment? name.toList = some (.ofName name) := by
  have same (cs : List Char) : name.toList = cs ↔ name = .ofList cs := by
    rw [← String.toList_inj, String.toList_ofList]
  have proper : ¬(name.toList = [] ∨ name.toList = ['.']) :=
    not_or.mpr ⟨isName.toList_ne_nil, isName.toList_ne_dot⟩
  rw [Part.ofSegment?, if_neg proper, Part.ofName, String.ofList_toList]
  by_cases parent : name = ".."
  · rw [if_pos parent, if_pos ((same _).mpr parent)]
  · rw [if_neg parent, if_neg fun equal => parent ((same _).mp equal)]

theorem filterMap_ofSegment (names : List String) (isName : ∀ name ∈ names, IsName name) :
    (names.map String.toList).filterMap Part.ofSegment? = names.map .ofName := by
  induction names with
  | nil => rfl
  | cons first rest ih =>
    simp only [List.map_cons, List.filterMap_cons, ofSegment_toList first (isName first (.head _)),
      ih fun name member => isName name (.tail _ member)]

theorem toList_ofNames (absolute : Bool) (names : List String) :
    (ofNames absolute names).text.toList =
      (if absolute then ['/'] else []) ++ ['/'].intercalate (names.map String.toList) := by
  cases absolute <;> simp [ofNames]

theorem segments_relative (first : String) (rest : List String)
    (isName : ∀ name ∈ first :: rest, IsName name) :
    (ofNames false (first :: rest)).segments = (first :: rest).map String.toList := by
  rw [segments, toList_ofNames, if_neg Bool.false_ne_true, List.nil_append]
  refine Chars.fields_intercalate '/' _ (List.cons_ne_nil _ _) fun piece member => ?_
  obtain ⟨name, inside, rfl⟩ := List.mem_map.mp member
  exact (isName name inside).noSlash

theorem segments_absolute (names : List String) (isName : ∀ name ∈ names, IsName name) :
    (ofNames true names).segments =
      [] :: if names = [] then [[]] else names.map String.toList := by
  have below : Chars.fields (· == '/') (['/'].intercalate (names.map String.toList)) =
      if names = [] then [[]] else names.map String.toList := by
    cases names with
    | nil => rfl
    | cons first rest =>
      have found := segments_relative first rest isName
      rw [segments, toList_ofNames, if_neg Bool.false_ne_true, List.nil_append] at found
      rw [found, if_neg (List.cons_ne_nil _ _)]
  rw [segments, toList_ofNames, if_pos rfl, List.singleton_append, Chars.fields, if_pos (by rfl),
    below]

theorem parts_ofNames (absolute : Bool) (names : List String)
    (isName : ∀ name ∈ names, IsName name) :
    (ofNames absolute names).parts =
      (if absolute then [.root] else []) ++ names.map Part.ofName := by
  cases absolute with
  | true =>
    rw [parts, segments_absolute names isName]
    split
    next empty => cases empty
    next found =>
      cases found
      cases names with
      | nil => rfl
      | cons first rest =>
        rw [if_neg (List.cons_ne_nil _ _), filterMap_ofSegment _ isName]
        rfl
  | false =>
    cases names with
    | nil => rfl
    | cons first rest =>
      rw [parts, segments_relative first rest isName]
      have named := isName first (.head _)
      simp only [List.map_cons, Part.ofFirst?, if_neg named.toList_ne_nil,
        if_neg named.toList_ne_dot,
        ofSegment_toList first named, Option.toList_some, Bool.false_eq_true, if_false,
        List.nil_append, List.singleton_append,
        filterMap_ofSegment rest fun name member => isName name (.tail _ member)]

theorem unified_ofNames (absolute : Bool) (names : List String)
    (isName : ∀ name ∈ names, IsName name) :
    (ofNames absolute names).unified = ofNames absolute names := by
  have free : '\\' ∉ (ofNames absolute names).text.toList := by
    rw [toList_ofNames]
    intro member
    rcases List.mem_append.mp member with member | member
    · cases absolute <;> simp at member
    · refine Chars.not_mem_intercalate '\\' '/' _ (by decide) (fun piece inside => ?_) member
      obtain ⟨name, named, rfl⟩ := List.mem_map.mp inside
      exact (isName name named).noBackslash
  have kept (c : Char) (member : c ∈ (ofNames absolute names).text.toList) :
      (if c = '\\' then '/' else c) = id c := by
    refine if_neg fun equal => free ?_
    rwa [← equal]
  rw [unified, List.map_congr_left kept, List.map_id, String.ofList_toList]

/-- Names that are no parent steps are pushed. -/
theorem foldl_pushed (names reversed : List String) (noParent : ∀ name ∈ names, name ≠ "..") :
    (names.map Part.ofName).foldl foldPart reversed = names.reverse ++ reversed := by
  induction names generalizing reversed with
  | nil => rfl
  | cons first rest ih =>
    simp only [List.map_cons, List.foldl_cons, Part.ofName, if_neg (noParent first (.head _)),
      foldPart, ih _ fun name member => noParent name (.tail _ member), List.reverse_cons,
      List.append_assoc, List.singleton_append]

theorem foldl_foldPart_ofName (names : List String) (normal : IsNormal names) :
    (names.map Part.ofName).foldl foldPart [] = names.reverse := by
  cases names with
  | nil => rfl
  | cons first rest =>
    have begun : foldPart [] (.ofName first) = [first] := by
      rw [Part.ofName]
      split
      next parent => rw [parent]; rfl
      · rfl
    rw [List.map_cons, List.foldl_cons, begun, foldl_pushed rest [first] normal.noParent,
      List.reverse_cons]

theorem normalize_ofNames (absolute : Bool) (names : List String) (normal : IsNormal names) :
    (ofNames absolute names).normalize = ofNames absolute names := by
  have headed : (((if absolute then [Part.root] else []) ++ names.map Part.ofName).head? ==
      some .root) = absolute := by
    cases absolute with
    | true => rfl
    | false =>
      cases names with
      | nil => rfl
      | cons first rest =>
        exact beq_eq_false_iff_ne.mpr fun equal =>
          Part.ofName_ne_root first (Option.some.inj equal)
  have folded : ((if absolute then [Part.root] else []) ++ names.map Part.ofName).foldl foldPart
      [] = names.reverse := by
    rw [← foldl_foldPart_ofName names normal]
    cases absolute <;> rfl
  rw [normalize, unified_ofNames absolute names normal.isName,
    parts_ofNames absolute names normal.isName, headed, folded, List.reverse_reverse]

/-- Normalizing a second time changes nothing. -/
@[simp] theorem normalize_normalize (path : Path) : path.normalize.normalize = path.normalize := by
  rw [normalize_eq_ofNames path]
  exact normalize_ofNames _ _ (isNormal_normalNames path)

theorem unified_of_normal (path : Path) (normal : path.normalize = path) : path.unified = path := by
  have unchanged := unified_ofNames path.fromRoot _ (isNormal_normalNames path).isName
  rwa [← normalize_eq_ofNames, normal] at unchanged

/-- Two normal forms with the same parts are spelled the same. -/
theorem eq_of_same (left right : Path) (normal : left.normalize = left)
    (normalToo : right.normalize = right) (same : left.same right = true) : left = right := by
  have parts : left.unified.parts = right.unified.parts := by
    rw [unified_of_normal left normal, unified_of_normal right normalToo]
    exact beq_iff_eq.mp same
  calc
    left = left.normalize := normal.symm
    _ = right.normalize := by rw [normalize, normalize, parts]
    _ = right := normalToo

/-! ### Neighbours -/

theorem dropEmpty_names (names : List String) (isName : ∀ name ∈ names, IsName name) :
    dropEmpty (names.map String.toList) = names.map String.toList := by
  cases names with
  | nil => rfl
  | cons first rest =>
    have named := isName first (.head _)
    have proper : (first.toList == [] || first.toList == ['.']) = false := by
      rw [Bool.or_eq_false_iff, beq_eq_false_iff_ne, beq_eq_false_iff_ne]
      exact ⟨named.toList_ne_nil, named.toList_ne_dot⟩
    rw [List.map_cons, dropEmpty, List.dropWhile_cons, proper, if_neg Bool.false_ne_true]

/-- Without its last name a normal form is spelled by the names before it. -/
theorem parent_ofNames (absolute : Bool) (names : List String) (last : String)
    (isName : ∀ name ∈ names ++ [last], IsName name) :
    (ofNames absolute (names ++ [last])).parent? = some (ofNames absolute names) := by
  -- Names are neither empty nor dots, so exactly one segment is dropped.
  have peeled (rest : List String) (isName : ∀ name ∈ rest ++ [last], IsName name) :
      dropEmpty ((rest ++ [last]).map String.toList).reverse =
        last.toList :: (rest.map String.toList).reverse ∧
      (dropEmpty (rest.map String.toList).reverse).reverse = rest.map String.toList := by
    have whole := dropEmpty_names (rest ++ [last]).reverse fun name member =>
      isName name (List.mem_reverse.mp member)
    have front := dropEmpty_names rest.reverse fun name member =>
      isName name (List.mem_append_left _ (List.mem_reverse.mp member))
    rw [List.map_reverse] at whole front
    rw [whole, front, List.reverse_reverse]
    simp
  cases absolute with
  | true =>
    have ⟨found, left⟩ := peeled names isName
    have parted : names ++ [last] ≠ [] := by simp
    simp only [parent?, segments_absolute _ isName, if_neg parted, found, left, parent?.spell]
    cases names with
    | nil => rfl
    | cons first rest =>
      simp [ofNames, ← String.toList_inj]
  | false =>
    cases names with
    | nil =>
      simp only [parent?, List.nil_append, segments_relative last [] isName, List.map_cons,
        List.map_nil, List.reverse_nil]
      exact if_neg (isName last (.head _)).toList_ne_nil
    | cons first rest =>
      have ⟨found, left⟩ := peeled rest fun name member => isName name (.tail _ member)
      have proper := (isName first (.head _)).toList_ne_nil
      simp only [parent?, List.cons_append,
        segments_relative first (rest ++ [last]) isName, List.map_cons, found, left,
        parent?.spell, proper, false_and, if_false]
      simp [ofNames, ← String.toList_inj]

theorem ofNames_ends (absolute : Bool) (names : List String) (last : String) :
    ∃ before, (ofNames absolute (names ++ [last])).text.toList = before ++ last.toList := by
  cases names with
  | nil => exact ⟨if absolute then ['/'] else [], by simp [toList_ofNames]⟩
  | cons first rest =>
    have spelled := String.intercalate_append_of_ne_nil (s := "/") (List.cons_ne_nil first rest)
      (List.cons_ne_nil last [])
    rw [ofNames, spelled, String.intercalate_singleton, String.toList_append, String.toList_append,
      ← List.append_assoc]
    exact ⟨_, rfl⟩

/-- The text ends with the last name, which is not empty and holds no separator. -/
theorem ofNames_open (absolute : Bool) (names : List String) (last : String)
    (named : IsName last) :
    ¬((ofNames absolute (names ++ [last])).text = "" ∨
      (ofNames absolute (names ++ [last])).text.toList.getLast? = some '/') := by
  obtain ⟨before, ended⟩ := ofNames_ends absolute names last
  have someChar := named.toList_ne_nil
  rw [← String.toList_inj, ended, List.getLast?_append,
    List.getLast?_eq_some_getLast someChar, Option.some_or,
    ← List.getLast?_eq_some_getLast someChar]
  rintro (empty | slash)
  · exact someChar (List.append_eq_nil_iff.mp empty).2
  · exact named.noSlash (List.mem_of_getLast? slash)

theorem parent_ofNames_nil (absolute : Bool) : (ofNames absolute []).parent? = none := by
  cases absolute <;> decide

/-- Only the spelling from the root starts with a separator. -/
theorem isAbsolute_ofNames (absolute : Bool) (names : List String)
    (isName : ∀ name ∈ names, IsName name) : (ofNames absolute names).isAbsolute = absolute := by
  rw [isAbsolute, toList_ofNames]
  cases absolute with
  | true => rfl
  | false =>
    cases names with
    | nil => rfl
    | cons first rest =>
      obtain ⟨c, cs, spelled⟩ := List.exists_cons_of_ne_nil (isName first (.head _)).toList_ne_nil
      have other : c ≠ '/' := by
        rintro rfl
        exact (isName first (.head _)).noSlash (spelled ▸ .head _)
      cases rest <;> simp [spelled, other]

/-- A normal form tells whether it starts from the root, and its names. -/
theorem normalize_eq_iff (left right : Path) : left.normalize = right.normalize ↔
    left.fromRoot = right.fromRoot ∧ left.normalNames = right.normalNames := by
  rw [normalize_eq_ofNames, normalize_eq_ofNames]
  constructor
  · intro same
    have isName := (isNormal_normalNames left).isName
    have isNameToo := (isNormal_normalNames right).isName
    have root : left.fromRoot = right.fromRoot := by
      rw [← isAbsolute_ofNames left.fromRoot _ isName, same, isAbsolute_ofNames _ _ isNameToo]
    have parted := congrArg parts same
    rw [parts_ofNames _ _ isName, parts_ofNames _ _ isNameToo, root,
      List.append_cancel_left_eq] at parted
    exact ⟨root, (List.map_inj_right fun _ _ equal => Part.ofName_injective equal).mp parted⟩
  · rintro ⟨root, names⟩
    rw [root, names]

/-- Names joined to a normal form come to stand at its end. -/
theorem join_ofNames (absolute : Bool) (names rest : List String) (someName : rest ≠ [])
    (isName : ∀ name ∈ names ++ rest, IsName name) :
    (ofNames absolute names).join (ofNames false rest) = ofNames absolute (names ++ rest) := by
  have relative := isAbsolute_ofNames false rest fun name member =>
    isName name (List.mem_append_right _ member)
  have spelled : (ofNames false rest).text = "/".intercalate rest := by simp [ofNames]
  rw [join, relative, if_neg Bool.false_ne_true, spelled]
  rcases List.eq_nil_or_concat names with rfl | ⟨front, back, rfl⟩
  · cases absolute
    · exact if_pos (.inl rfl)
    · exact if_pos (.inr rfl)
  · have openEnd := ofNames_open absolute front back (isName back (by simp))
    have parted : front ++ [back] ≠ [] := by simp
    rw [List.concat_eq_append, if_neg openEnd, ofNames, ofNames,
      String.intercalate_append_of_ne_nil parted someName,
      String.append_assoc, String.append_assoc, String.append_assoc]

theorem ofNames_singleton (name : String) : ofNames false [name] = ⟨name⟩ := by
  simp [ofNames]

/-- A name alone is a normal form. -/
theorem normalize_name (name : String) (isName : IsName name) : normalize ⟨name⟩ = ⟨name⟩ := by
  rw [← ofNames_singleton]
  exact normalize_ofNames false [name]
    (IsNormal.nil.concat [] name isName fun none => absurd rfl none)

/-- What stands beside a file under a name of its own is in the same directory. -/
theorem join_parent (path directory : Path) (name : String)
    (parent : path.normalize.parent? = some directory) (isName : IsName name)
    (notParent : name ≠ "..") :
    (directory.join ⟨name⟩).normalize = directory.join ⟨name⟩ ∧
      (directory.join ⟨name⟩).parent? = some directory := by
  have normal := isNormal_normalNames path
  rw [normalize_eq_ofNames] at parent
  rcases List.eq_nil_or_concat path.normalNames with empty | ⟨front, last, split⟩
  -- The root and the empty path have no directory.
  · rw [empty, parent_ofNames_nil] at parent
    cases parent
  · rw [List.concat_eq_append] at split
    rw [split] at parent normal
    rw [parent_ofNames _ _ _ normal.isName] at parent
    cases parent
    have beside := (normal.of_append front [last]).concat front name isName fun _ => notParent
    rw [← ofNames_singleton, join_ofNames _ _ _ (List.cons_ne_nil _ _) beside.isName]
    exact ⟨normalize_ofNames _ _ beside, parent_ofNames _ _ _ beside.isName⟩

end Path

end FirmwareWorkspace
