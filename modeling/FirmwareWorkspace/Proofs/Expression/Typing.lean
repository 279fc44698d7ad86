import FirmwareWorkspace.Proofs.Definition.Stored
import FirmwareWorkspace.Proofs.Expression.Numeral
import FirmwareWorkspace.Proofs.Expression.Safety

/-!
# Macro values are typed before they are compared

The value of a macro is read as a truth value, an integer or a text before any operator sees it, and
the spelling is given up for the first two. So a macro is not equal to its own text in quotes if
that text is a truth value, which no quoted text counts as; and a number is looked for in a list in
its decimal form, whatever its spelling, while a list of several words keeps the spellings it has.

Main results: `evaluateText_quotation` and `evaluateText_membership`.
-/
namespace FirmwareWorkspace.Expression

/-! ### Texts without quotes -/

theorem Value.unquoted_of_plain (cs : List Char) (plain : '"' ∉ cs ∧ '\'' ∉ cs) :
    unquoted? cs = none := by
  have inside : ∀ c ∈ (Chars.dropFront? ['L'] cs).getD cs, c ∈ cs := by
    cases dropped : Chars.dropFront? ['L'] cs with
    | none => exact fun _ member => member
    | some rest =>
      rw [Chars.eq_append_of_dropFront _ _ _ dropped]
      exact fun _ member => .tail _ member
  unfold unquoted?
  split
  next rest opens => exact absurd (inside '"' (opens ▸ .head _)) plain.1
  next rest opens => exact absurd (inside '\'' (opens ▸ .head _)) plain.2
  · rfl

/-- What a stored text without quotes is read as. -/
inductive IsReadAs (text : String) : Value → Prop
  | truth (value : Bool) (spelled : text = truthText value) : IsReadAs text (.bool value)
  | integer (n : Int) (foreign : text ≠ "TRUE" ∧ text ≠ "FALSE")
      (read : Value.integer? text.toList = some n) : IsReadAs text (.int n)
  | text (foreign : text ≠ "TRUE" ∧ text ≠ "FALSE")
      (unread : Value.integer? text.toList = none) : IsReadAs text (.str text)

theorem isReadAs_ofText (text : String) (kept : DefinitionTable.stored text = text)
    (plain : '"' ∉ text.toList ∧ '\'' ∉ text.toList) : IsReadAs text (.ofText text) := by
  have trimmed := DefinitionTable.trim_of_stored text kept
  have trimmedList : Chars.trim text.toList = text.toList := by
    rw [← String.toList_inj, Text.trim, String.toList_ofList] at trimmed
    exact trimmed
  -- Letter case does not matter here, and in the stored form there are capitals only.
  have lower : Chars.lower "true".toList = Chars.lower "TRUE".toList ∧
      Chars.lower "false".toList = Chars.lower "FALSE".toList := by decide +kernel
  have storedTrue := DefinitionTable.stored_of_true text
  have storedFalse := DefinitionTable.stored_of_false text
  rw [kept, trimmed, Text.sameLetters, Chars.sameLetters, lower.1] at storedTrue
  rw [kept, trimmed, Text.sameLetters, Chars.sameLetters, lower.2] at storedFalse
  have apart (word : String) (unlike : ¬ Chars.sameLetters text.toList word.toList = true) :
      text ≠ word := by
    rintro rfl
    exact unlike (beq_self_eq_true _)
  rw [Value.ofText, trimmedList, Value.ofChars]
  split
  next isTrue => exact .truth true (storedTrue isTrue)
  next noTrue =>
    split
    next isFalse => exact .truth false (storedFalse isFalse)
    next noFalse =>
      have foreign := And.intro (apart "TRUE" noTrue) (apart "FALSE" noFalse)
      split
      next n read => exact .integer n foreign read
      next unread =>
        rw [Value.unquoted_of_plain _ plain, Option.getD_none, String.ofList_toList]
        exact .text foreign unread

/-- A value is equal to the text it was read from, unless it is a truth value. -/
theorem equals_own_text (text : String) (read : IsReadAs text (.ofText text)) :
    equals (.ofText text) (.str text) = decide (text ≠ "TRUE" ∧ text ≠ "FALSE") := by
  generalize typed : Value.ofText text = value at read
  cases read with
  | truth value spelled =>
    subst spelled
    cases value with
    | true | false => decide +kernel
  | integer n foreign _ =>
    simp only [equals, Value.asInt, typed, beq_self_eq_true, decide_eq_true foreign]
  | text foreign =>
    rw [decide_eq_true foreign]
    exact beq_self_eq_true text

/-! ### Macros in conditions -/

/-- A macro with a value of its own, which holds neither a bound reference nor a quote. -/
structure IsPlainMacro (table : DefinitionTable) (name value : String) : Prop where
  isName : DefinitionTable.IsReferable name.toList
  held : table.value? name = some value
  closed : ∀ other ∈ DefinitionTable.referenceNames 0 value.toList, table.value? other = none
  unquoted : '"' ∉ value.toList ∧ '\'' ∉ value.toList

section Macros

variable {table : DefinitionTable} {name value : String}

theorem IsPlainMacro.isReadAs (plain : IsPlainMacro table name value) {bound : Nat}
    {macros : List Definition} (built : table = (DefinitionTable.new bound).bindAll macros) :
    IsReadAs value (.ofText value) := by
  have kept : table.HasStoredValues := by
    rw [built]
    exact (DefinitionTable.hasStoredValues_new bound).bindAll macros
  exact isReadAs_ofText value (kept name value plain.held) plain.unquoted

theorem IsPlainMacro.evaluate_reference (plain : IsPlainMacro table name value)
    (pcdText : String → String → Option String) :
    evaluate ⟨table.macroText, pcdText⟩ (.reference name) = .ok (.ofText value) := by
  simp only [evaluate, table.macroText_of_closed name value plain.held plain.closed]

theorem ofText_defined (text : String) (read : IsReadAs text (.ofText text)) :
    Value.ofText text ≠ .undefined := by
  generalize Value.ofText text = value at read
  cases read with
  | truth | integer | text => nofun

end Macros

theorem evaluateText_binary (scope : Scope) (text : String) (op : BinaryOp) (left right : Expr)
    (a b : Value) (parsed : parse text = .ok (.binary op left right))
    (first : evaluate scope left = .ok a) (second : evaluate scope right = .ok b)
    (strict : shortcut? op a = none) : evaluateText scope text = applyBinary op a b := by
  simp only [evaluateText, parsed, evaluate_binary scope op left right a b first second strict]

theorem applyBinary_eq_ne (a b : Value) (defined : a ≠ .undefined) (definedToo : b ≠ .undefined) :
    applyBinary .eq a b = .ok (.bool (equals a b)) ∧
      applyBinary .ne a b = .ok (.bool (!equals a b)) := by
  simp [applyBinary, defined, definedToo]

/-! ### A macro and its own text -/

/-- A text without quotes and backslashes stands between double quotes as it is. -/
theorem isBody_of_plain (cs : List Char) (plain : ∀ c ∈ cs, c ≠ '"' ∧ c ≠ '\\') :
    IsBody '"' cs := by
  induction cs with
  | nil => exact .nil
  | cons c rest ih =>
    have ⟨first, others⟩ := List.forall_mem_cons.mp plain
    exact .plain first.1 first.2 (ih others)

theorem quoteFor_of_plain (text : String) (plain : ∀ c ∈ text.toList, c ≠ '"' ∧ c ≠ '\\') :
    quoteFor text = '"' :=
  if_pos (quotedBody_append (isBody_of_plain text.toList plain) [])

/-- A macro is equal to its own text in quotes exactly if the text is no truth value: a text that
is read as a truth value has no integer view, so nothing but a text is equal to it. -/
theorem evaluateText_quotation (table : DefinitionTable) (bound : Nat) (macros : List Definition)
    (built : table = (DefinitionTable.new bound).bindAll macros)
    (pcdText : String → String → Option String) (name value : String)
    (plain : IsPlainMacro table name value) (unescaped : '\\' ∉ value.toList) :
    evaluateText ⟨table.macroText, pcdText⟩ ("$(" ++ name ++ ") == \"" ++ value ++ "\"") =
        .ok (.bool (decide (value ≠ "TRUE" ∧ value ≠ "FALSE"))) ∧
      evaluateText ⟨table.macroText, pcdText⟩ ("$(" ++ name ++ ") != \"" ++ value ++ "\"") =
        .ok (.bool (decide (value = "TRUE" ∨ value = "FALSE"))) := by
  have read := plain.isReadAs built
  have ⟨equal, unequal⟩ := applyBinary_eq_ne (.ofText value) (.str value)
    (ofText_defined value read) nofun
  have spelled : ∀ c ∈ value.toList, c ≠ '"' ∧ c ≠ '\\' := fun c member =>
    ⟨ne_of_mem_of_not_mem member plain.unquoted.1, ne_of_mem_of_not_mem member unescaped⟩
  have compared (text : String) (op : BinaryOp) (strict : shortcut? op (.ofText value) = none)
      (joined : text.toList = (Token.reference name).spelling ++ ' ' :: (op.symbol.toList ++
        ' ' :: (Token.quoted value).spelling)) :=
    evaluateText_binary ⟨table.macroText, pcdText⟩ text op _ _ _ (.str value)
      (parse_joined text (.reference name) (.quoted value) op
        (isWritten_of_isReferable name plain.isName) (.inl (isBody_of_plain value.toList spelled))
        joined)
      (plain.evaluate_reference pcdText) rfl strict
  -- A macro that reads as a truth value never equals its own text.
  have answer := equals_own_text value read
  have negated : (!decide (value ≠ "TRUE" ∧ value ≠ "FALSE")) =
      decide (value = "TRUE" ∨ value = "FALSE") := by
    rw [← decide_not, decide_eq_decide, ne_eq, ne_eq, ← not_or, not_not]
  constructor
  · rw [compared _ .eq rfl (by simp [Token.spelling, BinaryOp.symbol,
      quoteFor_of_plain value spelled]), equal, answer]
  · rw [compared _ .ne rfl (by simp [Token.spelling, BinaryOp.symbol,
      quoteFor_of_plain value spelled]), unequal, answer, negated]

/-- The condition of the boot switch is false although the switch holds the text in it. -/
theorem secureBoot_quotation :
    let table := (DefinitionTable.new 10).bindAll [⟨"SECURE_BOOT", "TRUE", none⟩]
    IsPlainMacro table "SECURE_BOOT" "TRUE" ∧ '\\' ∉ "TRUE".toList ∧
      evaluateText ⟨table.macroText, fun _ _ => none⟩ "$(SECURE_BOOT) == \"TRUE\"" =
        .ok (.bool false) := by
  intro table
  have plain : IsPlainMacro table "SECURE_BOOT" "TRUE" :=
    { isName := ⟨'S', _, rfl, rfl, List.all_eq_true.mp rfl⟩
      held := by decide +kernel
      closed := by decide +kernel
      unquoted := by decide +kernel }
  have unescaped : '\\' ∉ "TRUE".toList := by decide
  refine ⟨plain, unescaped, ?_⟩
  have ⟨answer, _⟩ := evaluateText_quotation table 10 _ rfl (fun _ _ => none) "SECURE_BOOT" "TRUE"
    plain unescaped
  exact answer

/-! ### Membership -/

/-- The text that a value is looked for by: a number in its decimal form, any other text as it is. -/
def numeral (text : String) : String :=
  match Value.integer? text.toList with
  | some n => toString n
  | none => text

/-- The texts that a value is looked for among: its words, or a lone number in its decimal form. -/
def items (text : String) : List String :=
  if Text.words text = [text] then [numeral text] else Text.words text

theorem words_of_isWord (text : String) (isWord : Chars.IsWord text.toList) :
    Text.words text = [text] := by
  rw [Text.words, isWord.words_eq, List.map_singleton, String.ofList_toList]

theorem render_of_isReadAs (text : String) (read : IsReadAs text (.ofText text)) :
    (Value.ofText text).render = numeral text := by
  generalize Value.ofText text = value at read
  cases read with
  | truth value spelled =>
    subst spelled
    cases value with
    | true | false => decide +kernel
  | integer n _ read => simp only [Value.render, numeral, read]
  | text _ unread => simp only [Value.render, numeral, unread]

theorem words_numeral (text : String) : Text.words (numeral text) = items text := by
  unfold items numeral
  split
  next n read =>
    rw [if_pos (words_of_isWord text (isNumeral_of_integer _ n read).isWord)]
    exact words_of_isWord _ (isWord_toString n)
  · split
    next lone => exact lone
    · rfl

theorem isMember_of_isReadAs (word text : String) (read : IsReadAs word (.ofText word))
    (readToo : IsReadAs text (.ofText text)) :
    isMember (.ofText word) (.ofText text) = decide (numeral word ∈ items text) := by
  rw [isMember, render_of_isReadAs word read, render_of_isReadAs text readToo, words_numeral,
    List.contains_eq_mem]

/-- A macro is in the value of another one exactly if its value, in decimal form if it is a number,
is one of the words there, which stand as they are unless a number is all there is. For the words
as they are written this is the right answer exactly if, with a single word, the two are not
different spellings of one number, and with several words, the decimal form of the value is one
of them just in case the value is. -/
theorem evaluateText_membership (table : DefinitionTable) (bound : Nat) (macros : List Definition)
    (built : table = (DefinitionTable.new bound).bindAll macros)
    (pcdText : String → String → Option String) (name other word text : String)
    (plain : IsPlainMacro table name word) (plainToo : IsPlainMacro table other text) :
    evaluateText ⟨table.macroText, pcdText⟩ ("$(" ++ name ++ ") in $(" ++ other ++ ")") =
        .ok (.bool (decide (numeral word ∈ items text))) ∧
      ((numeral word ∈ items text ↔ word ∈ Text.words text) ↔
        if Text.words text = [text] then numeral word = numeral text → word = text
        else numeral word ∈ Text.words text ↔ word ∈ Text.words text) := by
  have read := plain.isReadAs built
  have readToo := plainToo.isReadAs built
  constructor
  · have parsed := parse_joined ("$(" ++ name ++ ") in $(" ++ other ++ ")") (.reference name)
      (.reference other) .isIn (isWritten_of_isReferable name plain.isName)
      (isWritten_of_isReferable other plainToo.isName)
      (by simp [Leaf.token, Token.spelling, BinaryOp.symbol])
    rw [evaluateText_binary _ _ .isIn _ _ _ _ parsed (plain.evaluate_reference pcdText)
      (plainToo.evaluate_reference pcdText) rfl, ← isMember_of_isReadAs word text read readToo]
    simp [applyBinary, ofText_defined word read, ofText_defined text readToo]
  · unfold items
    split
    next lone =>
      rw [lone, List.mem_singleton, List.mem_singleton]
      exact ⟨Iff.mp, fun same => ⟨same, congrArg numeral⟩⟩
    · exact Iff.rfl

/-- A mode in hexadecimal form is not found among the modes, of which it is the first. -/
theorem mode_membership :
    let table := (DefinitionTable.new 10).bindAll
      [⟨"MODE", "0x10", none⟩, ⟨"MODES", "0x10 0x20", none⟩]
    IsPlainMacro table "MODE" "0x10" ∧ IsPlainMacro table "MODES" "0x10 0x20" ∧
      "0x10" ∈ Text.words "0x10 0x20" ∧
      evaluateText ⟨table.macroText, fun _ _ => none⟩ "$(MODE) in $(MODES)" =
        .ok (.bool false) := by
  intro table
  have mode : IsPlainMacro table "MODE" "0x10" :=
    { isName := ⟨'M', _, rfl, rfl, List.all_eq_true.mp rfl⟩
      held := by decide +kernel
      closed := by decide +kernel
      unquoted := by decide +kernel }
  have modes : IsPlainMacro table "MODES" "0x10 0x20" :=
    { isName := ⟨'M', _, rfl, rfl, List.all_eq_true.mp rfl⟩
      held := by decide +kernel
      closed := by decide +kernel
      unquoted := by decide +kernel }
  refine ⟨mode, modes, by decide +kernel, ?_⟩
  have missing : decide (numeral "0x10" ∈ items "0x10 0x20") = false := by decide +kernel
  have ⟨answer, _⟩ := evaluateText_membership table 10 _ rfl (fun _ _ => none) "MODE" "MODES"
    "0x10" "0x10 0x20" mode modes
  rw [missing] at answer
  exact answer

end FirmwareWorkspace.Expression
