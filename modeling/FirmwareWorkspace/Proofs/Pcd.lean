import FirmwareWorkspace.Pcd
import FirmwareWorkspace.Proofs.Definition.Reference
import FirmwareWorkspace.Proofs.Expression.Safety
import FirmwareWorkspace.Proofs.Expression.Writing
import FirmwareWorkspace.Proofs.Line.Field
import FirmwareWorkspace.Proofs.Text.Word

/-!
# Reading PCDs back

Four readers cut the qualified name of a PCD out of a text: the assignment on a line, the
substitution in a line, the tokens of a condition and the lookup of a word. They agree on every
name made of identifiers with brackets, however many dots it has: the namespace ends at the first
dot, and the name with the last segment.

Main result: `assignment_reads_back`.
-/
namespace FirmwareWorkspace

/-! ### Texts with a separator -/

namespace Chars

theorem splitOnce_append (separator : Char) (front rest : List Char) (absent : separator ∉ front) :
    splitOnce separator (front ++ separator :: rest) = some (front, rest) := by
  induction front with
  | nil => exact if_pos rfl
  | cons c front ih =>
    rw [List.mem_cons, not_or] at absent
    rw [List.cons_append, splitOnce, if_neg (Ne.symm absent.1), ih absent.2]
    rfl

end Chars

namespace PcdTable

/-- A segment of a PCD name: an identifier that may hold brackets behind its first character. -/
def IsSegment (cs : List Char) : Prop :=
  ∃ c rest, cs = c :: rest ∧ Chars.isIdentStart c = true ∧
    ∀ d ∈ rest, Chars.isIdentPart d = true ∨ d = '[' ∨ d = ']'

/-- A PCD name: segments with dots between them. -/
inductive IsName : List Char → Prop
  | single {segment : List Char} (isSegment : IsSegment segment) : IsName segment
  | dotted {segment rest : List Char} (isSegment : IsSegment segment) (further : IsName rest) :
      IsName (segment ++ '.' :: rest)

/-- The qualified name of a PCD, as it is written. -/
def qualified (space name : List Char) : List Char :=
  space ++ '.' :: name

open Expression (IsTail)

/-! ### The extent of a qualified name -/

theorem isTail_append {dotted : Bool} (front : List Char) {rest : List Char}
    (inside : ∀ d ∈ front, Expression.wordTail.inSegment dotted d = true)
    (isTail : IsTail dotted rest) : IsTail dotted (front ++ rest) := by
  induction front with
  | nil => exact isTail
  | cons d front ih =>
    have ⟨first, others⟩ := List.forall_mem_cons.mp inside
    exact .part first (ih others)

theorem IsSegment.exists_tail {segment : List Char} (isSegment : IsSegment segment) :
    ∃ c tail, segment = c :: tail ∧ Chars.isIdentStart c = true ∧
      ∀ d ∈ tail, Expression.wordTail.inSegment true d = true := by
  obtain ⟨c, tail, rfl, starts, parts⟩ := isSegment
  refine ⟨c, tail, rfl, starts, fun d member => ?_⟩
  rcases parts d member with part | rfl | rfl
  · simp only [Expression.wordTail.inSegment, part, Bool.true_or]
  · decide
  · decide

/-- A name goes on behind its first character as a word does behind a dot. -/
theorem IsName.exists_tail {name : List Char} (isName : IsName name) :
    ∃ c tail, name = c :: tail ∧ Chars.isIdentStart c = true ∧ IsTail true tail := by
  induction isName with
  | single isSegment =>
    obtain ⟨c, tail, rfl, starts, parts⟩ := isSegment.exists_tail
    have isTail := isTail_append tail parts .nil
    rw [List.append_nil] at isTail
    exact ⟨c, tail, rfl, starts, isTail⟩
  | dotted isSegment _ ih =>
    obtain ⟨c, tail, rfl, starts, parts⟩ := isSegment.exists_tail
    obtain ⟨d, later, rfl, startsToo, isTail⟩ := ih
    exact ⟨c, _, rfl, starts, isTail_append tail parts (.dot startsToo isTail)⟩

section Qualified

variable {space name : List Char}

theorem exists_tail_qualified (isSpace : DefinitionTable.IsReferable space) (isName : IsName name) :
    ∃ c tail, qualified space name = c :: tail ∧ Chars.isIdentStart c = true ∧
      IsTail false tail := by
  obtain ⟨c, tail, rfl, starts, parts⟩ := isSpace
  obtain ⟨d, later, rfl, startsToo, isTail⟩ := isName.exists_tail
  have inside (e : Char) (member : e ∈ tail) :
      Expression.wordTail.inSegment false e = true := by
    simp only [Expression.wordTail.inSegment, parts e member, Bool.true_or]
  exact ⟨c, _, rfl, starts, isTail_append tail inside (.dot startsToo isTail)⟩

theorem not_dot_mem (isSpace : DefinitionTable.IsReferable space) : '.' ∉ space :=
  fun member => absurd (isSpace.isPart '.' member) (by decide)

end Qualified

/-- What belongs to a word belongs to the name of a PCD. -/
theorem inSegment_of_word {dotted : Bool} {c : Char}
    (inside : Expression.wordTail.inSegment dotted c = true) : inSegment c = true := by
  simp only [Expression.wordTail.inSegment, Bool.or_eq_true, Bool.and_eq_true, beq_iff_eq]
    at inside
  rcases inside with part | ⟨-, rfl | rfl⟩
  · simp only [inSegment, Chars.isWord_of_isIdentPart c part, Bool.true_or]
  · decide
  · decide

theorem isWord_of_starts {c : Char} (starts : Chars.isIdentStart c = true) :
    Chars.isWord c = true :=
  Chars.isWord_of_isIdentPart c (DefinitionTable.isIdentPart_of_isIdentStart c starts)

theorem tailSize_of_isTail {dotted : Bool} {tail : List Char} (isTail : IsTail dotted tail) :
    tailSize tail = tail.length := by
  induction isTail with
  | nil => rfl
  | @part dotted c tail inside _ ih =>
    cases tail with
    | nil => simp [tailSize, inSegment_of_word inside]
    | cons d rest => simp [tailSize, inSegment_of_word inside, ih]
  | @dot dotted c tail starts _ ih =>
    have outside : inSegment '.' = false := by decide
    simp [tailSize, outside, isWord_of_starts starts, ih]

theorem isPart_of_isTail {dotted : Bool} {tail : List Char} (isTail : IsTail dotted tail) :
    ∀ d ∈ tail, (Line.isPcdPart d || d == '.') = true := by
  induction isTail with
  | nil => exact nofun
  | part inside _ ih =>
    refine List.forall_mem_cons.mpr ⟨?_, ih⟩
    rw [Bool.or_eq_true]
    exact .inl (inSegment_of_word inside)
  | dot starts _ ih =>
    refine List.forall_mem_cons.mpr ⟨rfl, List.forall_mem_cons.mpr ⟨?_, ih⟩⟩
    simp only [Line.isPcdPart, isWord_of_starts starts, Bool.true_or]

/-! ### Assignments -/

section Assignment

variable {space name : List Char}

theorem dottedAssignment_qualified (isSpace : DefinitionTable.IsReferable space)
    (isName : IsName name) (rest : List Char) :
    Line.dottedAssignment? (fun c => Line.isPcdPart c || c == '.') '|'
        (qualified space name ++ '|' :: rest) =
      (Line.afterSeparator? '|' ('|' :: rest)).map fun value => (space, name, value) := by
  obtain ⟨c, tail, rfl, starts, parts⟩ := isSpace
  obtain ⟨d, later, rfl, startsToo, isTail⟩ := isName.exists_tail
  have words (e : Char) (member : e ∈ tail) := Chars.isWord_of_isIdentPart e (parts e member)
  have first := Line.identifier_append Chars.isWord c tail (d :: (later ++ '|' :: rest)) starts words
    '.' (by decide)
  have second := Line.identifier_append (fun c => Line.isPcdPart c || c == '.') d later rest startsToo
    (isPart_of_isTail isTail) '|' (by decide)
  have split : qualified (c :: tail) (d :: later) ++ '|' :: rest =
      c :: (tail ++ '.' :: d :: (later ++ '|' :: rest)) := by
    simp [qualified]
  rw [split, Line.dottedAssignment?, first, Option.bind_some]
  simp only [Chars.dropFront?, if_true, Option.bind_some, second]

theorem trimStart_qualified (isSpace : DefinitionTable.IsReferable space) (rest : List Char) :
    Chars.trimStart (qualified space name ++ rest) = qualified space name ++ rest := by
  obtain ⟨c, tail, rfl, starts, -⟩ := isSpace
  have visible : Chars.isBlank c = false := Chars.isBlank_of_visible c
    (Chars.visible_of_isIdentPart c (DefinitionTable.isIdentPart_of_isIdentStart c starts))
  exact List.dropWhile_cons_of_neg (ne_true_of_eq_false visible)

/-- A line that assigns a closed value is read as that assignment, whatever fields follow. -/
theorem pcdAssignment_qualified (dialect : Dialect) (separated : dialect = .dsc ∨ dialect = .dec)
    (isSpace : DefinitionTable.IsReferable space) (isName : IsName name) {value rest : List Char}
    (closed : Line.IsClosed false value) (ends : Line.EndsField rest)
    (oneLine : '\n' ∉ value ++ rest) :
    Line.pcdAssignment? dialect (.ofList (qualified space name ++ '|' :: (value ++ rest))) =
      some ⟨.ofList space, .ofList name, .ofList (Chars.trim value)⟩ := by
  have read := Line.afterSeparator_closed closed ends oneLine
  obtain ⟨behind, found, same⟩ := Option.map_eq_some_iff.mp read
  have whole := dottedAssignment_qualified isSpace isName (value ++ rest)
  rw [found, Option.map_some] at whole
  rcases separated with rfl | rfl
  all_goals
    rw [Line.pcdAssignment?, String.toList_ofList, trimStart_qualified isSpace, whole]
    simp only [Option.map_some, same]

end Assignment

/-! ### Substitution -/

section Substitution

variable {space name : List Char} (value? : String → String → Option String)

theorem substitute_covered (front : List Char) : substitute value? front.length front = [] := by
  induction front with
  | nil => rfl
  | cons c front ih => exact ih

theorem dottedSize_qualified (isSpace : DefinitionTable.IsReferable space) (isName : IsName name) :
    dottedSize? (qualified space name) = some (qualified space name).length := by
  have dot : '.' ∈ qualified space name := List.mem_append_right _ (.head _)
  obtain ⟨c, tail, spelled, starts, isTail⟩ := exists_tail_qualified isSpace isName
  rw [spelled] at dot ⊢
  have taken : (c :: tail).take (tail.length + 1) = c :: tail :=
    List.take_of_length_le (Nat.le_refl _)
  rw [dottedSize?]
  simp only [tailSize_of_isTail isTail, taken, isWord_of_starts starts, Bool.true_and,
    List.contains_iff_mem.mpr dot, if_true, List.length_cons]

theorem splitOnce_qualified (isSpace : DefinitionTable.IsReferable space) :
    Chars.splitOnce '.' (qualified space name) = some (space, name) :=
  Chars.splitOnce_append '.' space name (not_dot_mem isSpace)

/-- The qualified name of a PCD is replaced as a whole. -/
theorem substitute_qualified (isSpace : DefinitionTable.IsReferable space) (isName : IsName name)
    (text : String) (bound : value? (.ofList space) (.ofList name) = some text) :
    substitute value? 0 (qualified space name) = text.toList := by
  have sized := dottedSize_qualified isSpace isName
  have cut : Chars.splitOnce '.' (qualified space name) = some (space, name) :=
    splitOnce_qualified isSpace
  obtain ⟨c, tail, spelled, -, -⟩ := exists_tail_qualified isSpace isName
  rw [spelled] at sized cut ⊢
  have taken : (c :: tail).take (c :: tail).length = c :: tail := List.take_length
  rw [substitute, sized]
  simp only [taken, cut, Option.bind_some, bound, Option.map_some, Option.getD_some]
  rw [List.length_cons, Nat.add_sub_cancel, substitute_covered, List.append_nil]

end Substitution

theorem value_set (table : PcdTable) (space name value : String) (location : Location) :
    (table.set space name value location).value? space name = some (Text.trim value) := by
  rw [value?, find?, history, set, List.filter_append,
    List.filter_cons_of_pos (by simp), List.filter_nil, List.getLast?_concat]
  rfl

end PcdTable

/-! ### Conditions -/

namespace Expression

open PcdTable

variable {space name : List Char}

/-- Keywords have no dots. -/
theorem keyword_of_dotted (word : String) (dot : '.' ∈ word.toList) : keyword? word = none := by
  have kept : '.' ∈ (Text.lower word).toList := by
    rw [Text.lower, String.toList_ofList]
    exact List.mem_map.mpr ⟨'.', dot, by decide⟩
  unfold keyword?
  split
  all_goals first
    | rfl
    | next same => exact absurd (same ▸ kept) (by decide)

theorem isWritten_qualified (isSpace : DefinitionTable.IsReferable space) (isName : IsName name) :
    (Token.word (.ofList (qualified space name))).IsWritten := by
  obtain ⟨c, tail, spelled, starts, isTail⟩ := exists_tail_qualified isSpace isName
  refine ⟨keyword_of_dotted _ ?_, c, tail, by rw [spelled], starts, isTail⟩
  rw [String.toList_ofList]
  exact List.mem_append_right _ (.head _)

theorem tokenize_qualified (isSpace : DefinitionTable.IsReferable space) (isName : IsName name) :
    tokenize (.ofList (qualified space name)) =
      .ok [⟨.word (.ofList (qualified space name)), 0⟩] := by
  obtain ⟨later, read⟩ := tokensFrom_token 0 _ []
    (readsBefore_word [] _ (isWritten_qualified isSpace isName) nofun)
  rw [List.append_nil] at read
  exact read

/-- The qualified name of a PCD has the value that the scope gives it, read as a number or text. -/
theorem evaluateText_qualified (isSpace : DefinitionTable.IsReferable space)
    (isName : IsName name) (scope : Scope) (text : String)
    (bound : scope.pcdText (.ofList space) (.ofList name) = some text) :
    evaluateText scope (.ofList (qualified space name)) = .ok (.ofText text) := by
  have parsed : parse (.ofList (qualified space name)) =
      .ok (.word (.ofList (qualified space name))) :=
    (parse_eq_ok_iff _ _).mpr ⟨_, tokenize_qualified isSpace isName, rfl⟩
  have cut : Text.splitOnce '.' (.ofList (qualified space name)) =
      some (.ofList space, .ofList name) := by
    rw [Text.splitOnce, String.toList_ofList, splitOnce_qualified isSpace]
    rfl
  rw [evaluateText, parsed]
  simp only [evaluate, wordValue, cut, bound]

end Expression

namespace PcdTable

/-- A PCD is read back by every reader under the key it was written with. A line of a platform or
package that assigns a closed value to a qualified name is read as that assignment, with or without
further fields; once it is recorded, the name is replaced by the value in lines, is one word of a
condition, and is evaluated to the value. -/
theorem assignment_reads_back (dialect : Dialect) (separated : dialect = .dsc ∨ dialect = .dec)
    (space name value : String) (isSpace : DefinitionTable.IsReferable space.toList)
    (isName : IsName name.toList) (closed : Line.IsClosed false value.toList)
    (oneLine : '\n' ∉ value.toList) :
    let key := space ++ "." ++ name
    Line.pcdAssignment? dialect (key ++ "|" ++ value) = some ⟨space, name, Text.trim value⟩ ∧
      (∀ rest : String, '\n' ∉ rest.toList →
        Line.pcdAssignment? dialect (key ++ "|" ++ value ++ "|" ++ rest) =
          some ⟨space, name, Text.trim value⟩) ∧
      Expression.tokenize key = .ok [⟨.word key, 0⟩] ∧
      ∀ (table : PcdTable) (location : Location),
        let written := table.set space name (Text.trim value) location
        written.replaceInLine key = Text.trim value ∧
          ∀ macroText, Expression.evaluateText ⟨macroText, written.value?⟩ key =
            .ok (.ofText (Text.trim value)) := by
  intro key
  have spelled : key = .ofList (qualified space.toList name.toList) := by
    rw [← String.toList_inj, String.toList_ofList]
    simp [key, qualified]
  -- The field of the value ends with the line or at a further separator.
  have line (rest : String) (ends : Line.EndsField rest.toList) (inLine : '\n' ∉ rest.toList) :
      Line.pcdAssignment? dialect (key ++ "|" ++ (value ++ rest)) =
        some ⟨space, name, Text.trim value⟩ := by
    have read := pcdAssignment_qualified dialect separated isSpace isName closed ends
      (List.mem_append.not.mpr (not_or.mpr ⟨oneLine, inLine⟩))
    have text : key ++ "|" ++ (value ++ rest) = .ofList (qualified space.toList name.toList ++
        '|' :: (value.toList ++ rest.toList)) := by
      rw [spelled, ← String.toList_inj, String.toList_ofList]
      simp
    rw [text, read, String.ofList_toList, String.ofList_toList]
    rfl
  refine ⟨?_, fun rest inLine => ?_, ?_, fun table location => ?_⟩
  · have alone := line "" (.inl rfl) nofun
    rwa [String.append_empty] at alone
  · have more := line ("|" ++ rest) (.inr ⟨rest.toList, by simp⟩) (by simpa using inLine)
    rwa [← String.append_assoc, ← String.append_assoc] at more
  · rw [spelled]
    exact Expression.tokenize_qualified isSpace isName
  · intro written
    have bound : written.value? (.ofList space.toList) (.ofList name.toList) =
        some (Text.trim value) := by
      rw [String.ofList_toList, String.ofList_toList, value_set]
      exact congrArg some (by rw [Text.trim, Text.trim, String.toList_ofList, Chars.trim_trim])
    refine ⟨?_, fun macroText => ?_⟩
    · rw [replaceInLine, spelled, String.toList_ofList,
        substitute_qualified written.value? isSpace isName _ bound, String.ofList_toList]
    · rw [spelled]
      exact Expression.evaluateText_qualified isSpace isName _ _ bound

/-- A byte array that holds a quoted bar, with blanks around it. -/
def arrayValue : String :=
  " \x7b0x1, \"|\"\x7d "

theorem isClosed_arrayValue : Line.IsClosed false arrayValue.toList := by
  have inside : Line.IsClosed true "0x1, \"|\"".toList := by
    iterate 5 refine .plain (by decide) nofun ?_
    exact @Line.IsClosed.quoted _ '"' ['|'] _ (.inl rfl) (by decide) .nil
  exact .plain (by decide) nofun (.braced inside (.plain (by decide) nofun .nil))

/-- A byte array assigned to a field of an indexed PCD is read back, with the fields that describe
its type behind it. -/
theorem indexedField_reads_back :
    DefinitionTable.IsReferable "gNs".toList ∧ IsName "Arr[0].Max".toList ∧
      Line.IsClosed false arrayValue.toList ∧
      Line.pcdAssignment? .dsc "gNs.Arr[0].Max| \x7b0x1, \"|\"\x7d |VOID*|4" =
        some ⟨"gNs", "Arr[0].Max", "\x7b0x1, \"|\"\x7d"⟩ ∧
      ∀ location : Location,
        (empty.set "gNs" "Arr[0].Max" "\x7b0x1, \"|\"\x7d" location).replaceInLine
          "gNs.Arr[0].Max" = "\x7b0x1, \"|\"\x7d" := by
  have isSpace : DefinitionTable.IsReferable "gNs".toList :=
    ⟨'g', ['N', 's'], rfl, rfl, List.all_eq_true.mp rfl⟩
  have isName : IsName "Arr[0].Max".toList := by
    refine .dotted ⟨'A', ['r', 'r', '[', '0', ']'], rfl, rfl, ?_⟩
      (.single ⟨'M', ['a', 'x'], rfl, rfl, ?_⟩)
    -- One character after the other; characters as a whole are too many to decide about.
    all_goals
      simp only [List.forall_mem_cons, List.not_mem_nil, false_implies, implies_true, and_true]
      decide
  have trimmed : Text.trim arrayValue = "\x7b0x1, \"|\"\x7d" := by decide +kernel
  obtain ⟨-, line, -, readers⟩ := assignment_reads_back .dsc (.inl rfl) "gNs" "Arr[0].Max"
    arrayValue isSpace isName isClosed_arrayValue (by decide +kernel)
  have described := line "VOID*|4" (by decide +kernel)
  rw [trimmed] at described readers
  exact ⟨isSpace, isName, isClosed_arrayValue, described, fun location => (readers empty location).1⟩

end PcdTable

end FirmwareWorkspace
