import FirmwareWorkspace.Line.Kind
import FirmwareWorkspace.Proofs.Definition.Reference
import FirmwareWorkspace.Proofs.Line.Field
import FirmwareWorkspace.Proofs.Text.Word

/-!
# Where a definition is read

The word `DEFINE` is recognised twice: in every section by the word with one space behind it, and
in the section of definitions also by the word with any blanks behind it. So a definition is read
whatever stands around its name and its value, except that outside the section of definitions the
first blank behind the word has to be a space. Elsewhere the line defines nothing.

Main result: `classify_written`.
-/
namespace FirmwareWorkspace

namespace Line

/-! ### Written definitions -/

/-- A macro name: a letter or an underscore, then word characters and dots. -/
def IsMacroName (cs : List Char) : Prop :=
  ∃ c rest, cs = c :: rest ∧ Chars.isIdentStart c = true ∧
    ∀ d ∈ rest, (Chars.isWord d || d == '.') = true

/-- A definition as it is written: blanks between the word `DEFINE` and the name, any blanks around
the equals sign, and a value on the same line. -/
structure WrittenDefinition where
  gap : List Char
  name : List Char
  left : List Char
  right : List Char
  value : List Char
  parted : gap ≠ []
  isGap : ∀ c ∈ gap, Chars.isBlank c = true
  isName : IsMacroName name
  isLeft : ∀ c ∈ left, Chars.isBlank c = true
  isRight : ∀ c ∈ right, Chars.isBlank c = true
  oneLine : '\n' ∉ value

theorem IsMacroName.visible {name : List Char} (isName : IsMacroName name) :
    ∀ c ∈ name, Chars.isBlank c = false := by
  obtain ⟨first, rest, rfl, starts, parts⟩ := isName
  intro c member
  rcases List.mem_cons.mp member with rfl | later
  · apply Chars.isBlank_of_visible
    exact Chars.visible_of_isIdentPart c (DefinitionTable.isIdentPart_of_isIdentStart c starts)
  · have part := parts c later
    simp only [Bool.or_eq_true, beq_iff_eq] at part
    rcases part with word | rfl
    · exact Chars.isBlank_of_isWord c word
    · decide

theorem isPart_of_isBlank {c : Char} (blank : Chars.isBlank c = true) :
    (Chars.isWord c || c == '.') = false := by
  apply eq_false_of_ne_true
  intro part
  simp only [Bool.or_eq_true, beq_iff_eq] at part
  rcases part with word | rfl
  · rw [Chars.isBlank_of_isWord c word] at blank
    cases blank
  · exact absurd blank (by decide)

section Reading

variable {name left tail : List Char}

/-- Where the name ends: at a blank, or at the equals sign. -/
theorem exists_end_of_name (tail : List Char) (isLeft : ∀ c ∈ left, Chars.isBlank c = true) :
    ∃ c rest, left ++ '=' :: tail = c :: rest ∧ (Chars.isBlank c = true ∨ c = '=') := by
  cases left with
  | nil => exact ⟨'=', tail, rfl, .inr rfl⟩
  | cons c left => exact ⟨c, _, rfl, .inl (isLeft c List.mem_cons_self)⟩

theorem afterSeparator_blank (isLeft : ∀ c ∈ left, Chars.isBlank c = true)
    (oneLine : '\n' ∉ Chars.trimStart tail) :
    afterSeparator? '=' (left ++ '=' :: tail) = some (Chars.trimStart tail) := by
  have reached : Chars.trimStart (left ++ '=' :: tail) = '=' :: tail := by
    rw [Chars.trimStart_append_of_blank isLeft, Chars.trimStart_cons (by decide)]
  rw [afterSeparator?, reached]
  exact if_pos ⟨rfl, oneLine⟩

theorem plainDefinition_written (isName : IsMacroName name)
    (isLeft : ∀ c ∈ left, Chars.isBlank c = true) (oneLine : '\n' ∉ Chars.trimStart tail) :
    plainDefinition? (name ++ (left ++ '=' :: tail)) = some (name, Chars.trim tail) := by
  obtain ⟨c, rest, rfl, starts, parts⟩ := isName
  obtain ⟨next, later, reached, ends⟩ := exists_end_of_name tail isLeft
  have outside : (Chars.isWord next || next == '.') = false := by
    rcases ends with blank | rfl
    · exact isPart_of_isBlank blank
    · decide
  have named := identifier_append (fun d => Chars.isWord d || d == '.') c rest later starts parts
    next outside
  rw [← reached] at named
  rw [plainDefinition?, List.cons_append, named, Option.bind_some]
  simp only [afterSeparator_blank isLeft oneLine, Option.map_some, Chars.trim_trimStart]

/-- A keyword with a blank behind it, in front of a name, is the whole name. -/
theorem rest_of_keyword {keyword rest later : List Char} {next : Char}
    (visible : ∀ c ∈ name, Chars.isBlank c = false) (outside : next ∉ keyword)
    (dropped : Chars.dropFront? keyword (name ++ next :: later) = some rest)
    (parted : rest.head?.any Chars.isBlank = true) : rest = next :: later := by
  have whole := Chars.eq_append_of_dropFront _ _ _ dropped
  rcases List.append_eq_append_iff.mp whole with ⟨more, longer, behind⟩ | ⟨more, shorter, behind⟩
  · -- The keyword does not go on behind the name.
    cases more with
    | nil => exact behind.symm
    | cons c more =>
      rw [List.cons_append] at behind
      have within : next ∈ keyword := by
        rw [longer, (List.cons.inj behind).1]
        exact List.mem_append_right name List.mem_cons_self
      exact absurd within outside
  · -- Nor does the name behind the keyword.
    cases more with
    | nil => exact behind
    | cons c more =>
      have shown := visible c (shorter ▸ List.mem_append_right _ List.mem_cons_self)
      rw [behind, List.cons_append, List.head?_cons, Option.any_some, shown] at parted
      cases parted

/-- Behind a name that happens to be the keyword no second name follows. -/
theorem afterKeyword_name (isName : IsMacroName name)
    (isLeft : ∀ c ∈ left, Chars.isBlank c = true) :
    (afterKeyword? "DEFINE".toList (name ++ (left ++ '=' :: tail))).bind plainDefinition? =
      none := by
  obtain ⟨next, later, reached, ends⟩ := exists_end_of_name tail isLeft
  have outside : next ∉ "DEFINE".toList := by
    intro letter
    have solid : "DEFINE".toList.all (fun c => !Chars.isBlank c && c != '=') = true := by decide
    have apart := List.all_eq_true.mp solid next letter
    rw [Bool.and_eq_true, Bool.not_eq_true', bne_iff_ne] at apart
    exact ends.elim (Bool.eq_false_iff.mp apart.1) apart.2
  cases dropped : Chars.dropFront? "DEFINE".toList (name ++ (left ++ '=' :: tail)) with
  | none => rw [afterKeyword?, dropped]; rfl
  | some rest =>
    rw [afterKeyword?, dropped, Option.bind_some]
    split
    case isFalse => rfl
    next parted =>
      rw [reached] at dropped
      rw [rest_of_keyword isName.visible outside dropped parted, ← reached, Option.bind_some,
        Chars.trimStart_append_of_blank isLeft, Chars.trimStart_cons (by decide)]
      rfl

theorem definition_written (isName : IsMacroName name)
    (isLeft : ∀ c ∈ left, Chars.isBlank c = true) (oneLine : '\n' ∉ Chars.trimStart tail) :
    definition? (name ++ (left ++ '=' :: tail)) = some (name, Chars.trim tail) := by
  rw [definition?, afterKeyword_name isName isLeft, Option.none_or,
    plainDefinition_written isName isLeft oneLine]

end Reading

/-! ### Lines that define nothing -/

theorem libraryClassLine_ne (cs : List Char) (name value : String) :
    libraryClassLine cs ≠ .definition name value := by
  unfold libraryClassLine
  split <;> nofun

theorem tokenLine_ne (cs : List Char) {declares : String → LineKind} (name value : String)
    (other : ∀ token, declares token ≠ .definition name value) :
    tokenLine cs declares ≠ .definition name value := by
  unfold tokenLine
  split
  · exact other _
  · nofun

theorem componentEntry_ne (cs : List Char) (name value : String) :
    componentEntry cs ≠ .definition name value := by
  unfold componentEntry
  dsimp only
  split
  · split <;> nofun
  · nofun

theorem componentsLine_ne (subsection : Option String) (cs : List Char) (name value : String) :
    componentsLine subsection cs ≠ .definition name value := by
  unfold componentsLine
  split
  · nofun
  · split
    · nofun
    · split
      · nofun
      · split
        · split
          · exact libraryClassLine_ne cs name value
          · nofun
        · exact componentEntry_ne cs name value

theorem flashLine_ne (cs : List Char) (name value : String) :
    flashLine cs ≠ .definition name value := by
  unfold flashLine
  split
  · nofun
  · split <;> nofun

theorem pcdUsageLine_ne (cs : List Char) (name value : String) :
    pcdUsageLine cs ≠ .definition name value := by
  unfold pcdUsageLine
  split <;> nofun

theorem headerLine_ne (cs : List Char) (name value : String) :
    headerLine cs ≠ .definition name value := by
  unfold headerLine
  split <;> nofun

theorem guidDeclarationLine_ne (kind : GuidKind) (cs : List Char) (name value : String) :
    guidDeclarationLine kind cs ≠ .definition name value := by
  unfold guidDeclarationLine
  split
  · nofun
  · dsimp only
    split <;> nofun

/-- Without the keyword, only the section of definitions defines names. -/
theorem classifyEntry_ne (dialect : Dialect) {sectionType : String} (subsection : Option String)
    (cs : List Char) (name value : String) (other : sectionType ≠ "defines") :
    classifyEntry dialect sectionType subsection cs ≠ .definition name value := by
  unfold classifyEntry
  split
  · exact absurd rfl other
  · exact libraryClassLine_ne cs name value
  · exact componentsLine_ne subsection cs name value
  -- Sources, packages, library classes and identifiers of modules.
  iterate 7 exact tokenLine_ne cs name value nofun
  iterate 5 exact pcdUsageLine_ne cs name value
  -- Packages.
  · exact tokenLine_ne cs name value nofun
  · exact headerLine_ne cs name value
  iterate 3 exact guidDeclarationLine_ne _ cs name value
  · exact flashLine_ne cs name value
  · nofun

/-! ### Classification -/

namespace WrittenDefinition

variable (line : WrittenDefinition)

/-- The name and all behind it, when `tail` stands behind the equals sign. -/
def body (tail : List Char) : List Char :=
  line.name ++ (line.left ++ '=' :: tail)

def text : List Char :=
  "DEFINE".toList ++ (line.gap ++ line.body (line.right ++ line.value))

/-- What is behind the equals sign once the line is trimmed. -/
def tail : List Char :=
  Chars.trimEnd (line.right ++ line.value)

theorem trim_text :
    Chars.trim line.text = "DEFINE".toList ++ (line.gap ++ line.body line.tail) := by
  have begun : Chars.trimStart line.text = line.text := Chars.trimStart_cons (by decide) _
  have regrouped (tail : List Char) : "DEFINE".toList ++ (line.gap ++ line.body tail) =
      "DEFINE".toList ++ (line.gap ++ (line.name ++ line.left)) ++ '=' :: tail := by
    rw [body, List.append_assoc, List.append_assoc, List.append_assoc]
  rw [Chars.trim, begun]
  calc Chars.trimEnd line.text
      = Chars.trimEnd ("DEFINE".toList ++ (line.gap ++ (line.name ++ line.left)) ++
          '=' :: (line.right ++ line.value)) := congrArg Chars.trimEnd (regrouped _)
    _ = "DEFINE".toList ++ (line.gap ++ (line.name ++ line.left)) ++ '=' :: line.tail :=
        Chars.trimEnd_append_cons _ _ (by decide)
    _ = "DEFINE".toList ++ (line.gap ++ line.body line.tail) := (regrouped _).symm

theorem trimStart_tail : Chars.trimStart line.tail = Chars.trim line.value := by
  rw [tail, Chars.trimStart_trimEnd, Chars.trim, Chars.trimStart_append_of_blank line.isRight,
    ← Chars.trim]

theorem trim_tail : Chars.trim line.tail = Chars.trim line.value := by
  rw [← Chars.trim_trimStart, trimStart_tail, Chars.trim_trim]

theorem oneLine_tail : '\n' ∉ Chars.trimStart line.tail := by
  rw [trimStart_tail]
  intro broken
  have inside := (List.rdropWhile_prefix Chars.isBlank (Chars.trimStart line.value)).subset broken
  exact line.oneLine ((List.dropWhile_sublist Chars.isBlank).subset inside)

theorem definitionLine_body :
    definitionLine (line.body line.tail) =
      .definition (.ofList line.name) (.ofList (Chars.trim line.value)) := by
  rw [definitionLine, body, definition_written line.isName line.isLeft line.oneLine_tail, trim_tail]

theorem trimStart_body (rest : List Char) : Chars.trimStart (line.body rest) = line.body rest := by
  obtain ⟨c, name, same, -, -⟩ := line.isName
  have visible : Chars.isBlank c = false := line.isName.visible c (same ▸ List.mem_cons_self)
  rw [body, same]
  exact Chars.trimStart_cons visible _

/-- In the section of definitions any blank may stand behind the keyword. -/
theorem definitionLine_text :
    definitionLine ("DEFINE".toList ++ (line.gap ++ line.body line.tail)) =
      .definition (.ofList line.name) (.ofList (Chars.trim line.value)) := by
  have parted : (line.gap ++ line.body line.tail).head?.any Chars.isBlank = true := by
    cases opening : line.gap with
    | nil => exact absurd opening line.parted
    | cons c more => exact line.isGap c (opening ▸ List.mem_cons_self)
  have dropped : afterKeyword? "DEFINE".toList
      ("DEFINE".toList ++ (line.gap ++ line.body line.tail)) =
        some (Chars.trimStart (line.gap ++ line.body line.tail)) := if_pos parted
  have begun : Chars.trimStart (line.gap ++ line.body line.tail) = line.body line.tail := by
    rw [Chars.trimStart_append_of_blank line.isGap, trimStart_body]
  have read := plainDefinition_written line.isName line.isLeft line.oneLine_tail
  rw [← body, trim_tail] at read
  rw [definitionLine, definition?, dropped, begun, Option.bind_some, read, Option.some_or]

/-- The line is no section header, and the keyword with a space behind it is found if a space
follows. -/
theorem classify_text (dialect : Dialect) (sectionType : String) (subsection : Option String) :
    classify dialect sectionType subsection (.ofList line.text) =
      if line.gap.head? = some ' ' then
        .definition (.ofList line.name) (.ofList (Chars.trim line.value))
      else classifyEntry dialect sectionType subsection
        ("DEFINE".toList ++ (line.gap ++ line.body line.tail)) := by
  -- A header begins with a bracket.
  have header : Qualifier.ofHeader? (Chars.trim line.text) = none := by
    rw [Qualifier.ofHeader?, Chars.trim_trim, line.trim_text]
    rfl
  obtain ⟨c, more, opening⟩ := List.exists_cons_of_ne_nil line.parted
  have isGap : ∀ d ∈ more, Chars.isBlank d = true := fun d member =>
    line.isGap d (opening ▸ List.mem_cons_of_mem c member)
  have dropped : Chars.dropFront? "DEFINE ".toList
      ("DEFINE".toList ++ (line.gap ++ line.body line.tail)) =
        if ' ' = c then some (more ++ line.body line.tail) else none := by
    rw [opening]
    rfl
  rw [classify, String.toList_ofList, header, line.trim_text, dropped, opening, List.head?_cons]
  by_cases space : ' ' = c
  · rw [if_pos space, if_pos (congrArg some space.symm)]
    dsimp only
    rw [Chars.trimStart_append_of_blank isGap, trimStart_body, definitionLine_body]
  · rw [if_neg space, if_neg fun same => space (Option.some.inj same).symm]

end WrittenDefinition

/-- A definition is read, with its name and its trimmed value, exactly in the section of
definitions and behind a keyword that a space follows; no other definition is ever read from the
line. -/
theorem classify_written (dialect : Dialect) (sectionType : String) (subsection : Option String)
    (line : WrittenDefinition) (name value : String) :
    classify dialect sectionType subsection (.ofList line.text) = .definition name value ↔
      (sectionType = "defines" ∨ line.gap.head? = some ' ') ∧
        name = .ofList line.name ∧ value = .ofList (Chars.trim line.value) := by
  have same : LineKind.definition (.ofList line.name) (.ofList (Chars.trim line.value)) =
      .definition name value ↔
        name = .ofList line.name ∧ value = .ofList (Chars.trim line.value) := by
    rw [LineKind.definition.injEq]
    exact and_congr eq_comm eq_comm
  rw [line.classify_text]
  split
  next space => simp only [space, or_true, true_and, same]
  next other =>
    by_cases defines : sectionType = "defines"
    · subst defines
      have read : classifyEntry dialect "defines" subsection
          ("DEFINE".toList ++ (line.gap ++ line.body line.tail)) =
            definitionLine ("DEFINE".toList ++ (line.gap ++ line.body line.tail)) := by
        -- Every dialect reads the entries of this section as definitions.
        cases dialect <;> rfl
      rw [read, line.definitionLine_text, same]
      simp only [true_or, true_and]
    · constructor
      · intro read
        exact absurd read (classifyEntry_ne dialect subsection _ name value defines)
      · rintro ⟨known, -⟩
        exact absurd known (not_or.mpr ⟨defines, other⟩)

/-- `FOO = bar` with a tab behind the keyword. -/
def tabbed : WrittenDefinition where
  gap := ['\t']
  name := "FOO".toList
  left := [' ']
  right := [' ']
  value := "bar".toList
  parted := by decide
  isGap := List.all_eq_true.mp (by decide)
  isName := ⟨'F', ['O', 'O'], rfl, by decide, List.all_eq_true.mp (by decide)⟩
  isLeft := List.all_eq_true.mp (by decide)
  isRight := List.all_eq_true.mp (by decide)
  oneLine := by decide

/-- The tabbed definition is read in the section of definitions and lost among components. -/
theorem tabbed_lost :
    classify .dsc "defines" none (.ofList tabbed.text) = .definition "FOO" "bar" ∧
      ∀ name value, classify .dsc "components" none (.ofList tabbed.text) ≠
        .definition name value := by
  have read := classify_written .dsc "defines" none tabbed "FOO" "bar"
  have lost (name value : String) := classify_written .dsc "components" none tabbed name value
  refine ⟨read.mpr ⟨.inl rfl, by decide +kernel, by decide +kernel⟩, fun name value found => ?_⟩
  have spaced := ((lost name value).mp found).1
  exact absurd spaced (by decide)

end Line

end FirmwareWorkspace
