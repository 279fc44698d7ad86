import FirmwareWorkspace.Proofs.Definition.Expansion
import FirmwareWorkspace.Proofs.Document.Unplaced
import FirmwareWorkspace.Proofs.Expression.Writing

/-!
# Conditions and lines see the same macros

The value of a macro is found in two ways. A condition starts from the stored text and replaces
its references; a line holds the reference itself, so the first pass is spent on putting the
stored text in. The two differ by one pass, which makes no difference once no bound reference is
left.

Texts are arbitrary here: values may hold stray dollar signs and halves of references.

Main result: `macroText_eq_replaceAll`.
-/
namespace FirmwareWorkspace.DefinitionTable

/-! ### Any text, reference by reference -/

/-- A text begins with a reference, or with a character that begins none. -/
theorem reference_cases (c : Char) (rest : List Char) :
    referenceName? (c :: rest) = none ∨
      ∃ name more, IsReferable name ∧ c :: rest = reference name ++ more := by
  cases found : referenceName? (c :: rest) with
  | none => exact .inl rfl
  | some name =>
    obtain ⟨isName, more, split⟩ := exists_reference _ _ found
    exact .inr ⟨name, more, isName, split⟩

/-- What holds of a text from its references, and characters that begin none, holds of all. -/
theorem text_induction {motive : List Char → Prop} (nil : motive [])
    (stray : ∀ c rest, referenceName? (c :: rest) = none → motive rest → motive (c :: rest))
    (refer : ∀ name rest, IsReferable name → motive rest → motive (reference name ++ rest))
    (cs : List Char) : motive cs := by
  induction size : cs.length using Nat.strongRecOn generalizing cs with
  | ind _ ih =>
    subst size
    cases cs with
    | nil => exact nil
    | cons c rest =>
      rcases reference_cases c rest with unread | ⟨name, more, isName, split⟩
      · exact stray c rest unread (ih _ (Nat.lt_succ_self _) rest rfl)
      · rw [split] at ih ⊢
        refine refer name more isName (ih _ ?_ more rfl)
        rw [List.length_append]
        exact Nat.lt_add_of_pos_left (Nat.succ_pos _)

section Pass

variable (table : DefinitionTable)

theorem pass_stray (c : Char) (rest : List Char) (unread : referenceName? (c :: rest) = none) :
    table.pass (c :: rest) = c :: table.pass rest := by
  simp only [pass, substitute, unread]

/-- A text without bound references is left alone. -/
theorem pass_eq_self (cs : List Char)
    (unbound : ∀ name ∈ referenceNames 0 cs, table.value? name = none) : table.pass cs = cs := by
  induction cs using text_induction with
  | nil => rfl
  | stray c rest unread ih =>
    simp only [referenceNames, unread] at unbound
    rw [pass_stray table c rest unread, ih unbound]
  | refer name rest isName ih =>
    rw [referenceNames_reference _ _ isName] at unbound
    rw [pass_reference _ _ _ isName, replacement, unbound _ (.head _),
      ih fun other member => unbound other (.tail _ member)]
    rfl

/-- A reference ends with a parenthesis, so a text without one does not complete any. -/
theorem referenceName_append (cs rest : List Char) (unread : referenceName? cs = none)
    (closing : ')' ∉ rest) : referenceName? (cs ++ rest) = none := by
  cases found : referenceName? (cs ++ rest) with
  | none => rfl
  | some name =>
    obtain ⟨isName, more, split⟩ := exists_reference _ _ found
    rcases List.append_eq_append_iff.mp split with ⟨between, whole, behind⟩ | ⟨between, before, _⟩
    · rcases List.eq_nil_or_concat between with rfl | ⟨middle, last, rfl⟩
      · -- Nothing of the reference stands behind the first text.
        rw [List.append_nil] at whole
        have read := referenceName_reference name [] isName
        rw [List.append_nil, whole, unread] at read
        cases read
      · have ends : ('$' :: '(' :: name) ++ [')'] = (cs ++ middle) ++ [last] := by
          rw [List.concat_eq_append, ← List.append_assoc] at whole
          exact whole
        cases (List.append_inj' ends rfl).2
        exact absurd (by simp [behind]) closing
    · rw [before, referenceName_reference _ _ isName] at unread
      cases unread

theorem pass_append_of_open (cs rest : List Char) (closing : ')' ∉ rest) :
    table.pass (cs ++ rest) = table.pass cs ++ rest := by
  induction cs using text_induction with
  | nil =>
    induction rest with
    | nil => rfl
    | cons c rest ih =>
      have unread := referenceName_append [] (c :: rest) rfl closing
      exact (pass_stray table c rest unread).trans
        (congrArg _ (ih fun member => closing (.tail _ member)))
  | stray c front unread ih =>
    rw [pass_stray table c front unread, List.cons_append,
      pass_stray table c (front ++ rest) (referenceName_append _ rest unread closing), ih]
    rfl
  | refer name front isName ih =>
    rw [List.append_assoc, pass_reference _ _ _ isName, ih, pass_reference _ _ _ isName,
      List.append_assoc]

/-- A text between others that neither begin nor complete a reference is replaced by itself. -/
theorem iterate_pass_between (front cs rest : List Char) (dollar : '$' ∉ front)
    (closing : ')' ∉ rest) (count : Nat) :
    table.pass^[count] (front ++ cs ++ rest) = front ++ table.pass^[count] cs ++ rest := by
  induction count generalizing cs with
  | zero => rfl
  | succ count ih =>
    have once : table.pass (front ++ cs ++ rest) = front ++ table.pass cs ++ rest := by
      rw [pass_append_of_open _ _ _ closing]
      exact congrArg (· ++ rest) (substitute_plain table.value? front cs dollar)
    rw [Function.iterate_succ_apply, once, ih, Function.iterate_succ_apply]

theorem replaceAll_between (front text rest : String) (dollar : '$' ∉ front.toList)
    (closing : ')' ∉ rest.toList) :
    table.replaceAll (front ++ text ++ rest) = front ++ table.replaceAll text ++ rest := by
  rw [← String.toList_inj]
  simp only [String.toList_append, toList_replaceAll]
  exact table.iterate_pass_between _ _ _ dollar closing _

end Pass

/-! ### Orders of definition -/

/-- Bind macros one after the other. -/
def bindAll (table : DefinitionTable) (macros : List Definition) : DefinitionTable :=
  macros.foldl (fun table entry => (table.set entry.name entry.value entry.location).2) table

section BindAll

variable (table : DefinitionTable)

theorem maxPasses_bindAll (macros : List Definition) :
    (table.bindAll macros).maxPasses = table.maxPasses := by
  induction macros generalizing table with
  | nil => rfl
  | cons first rest ih => exact ih _

theorem value_set (name value : String) (location : Option Location) (wanted : String) :
    (table.set name value location).2.value? wanted =
      if name = wanted then some (stored value) else table.value? wanted := by
  have found : (table.set name value location).2.find? wanted =
      if name = wanted then some ⟨name, stored value, location⟩ else table.find? wanted :=
    Registry.find_put Definition.name _ _ _
  rw [value?, found]
  by_cases same : name = wanted
  · rw [if_pos same, if_pos same, Option.map_some]
  · rw [if_neg same, if_neg same, value?]

theorem value_bindAll_of_absent (macros : List Definition) (wanted : String)
    (absent : wanted ∉ macros.map Definition.name) :
    (table.bindAll macros).value? wanted = table.value? wanted := by
  induction macros generalizing table with
  | nil => rfl
  | cons first rest ih =>
    rw [List.map_cons, List.mem_cons, not_or] at absent
    exact (ih _ absent.2).trans (by rw [value_set, if_neg (Ne.symm absent.1)])

/-- Each of several macros with different names is bound to its own value. -/
theorem value_bindAll_of_mem (macros : List Definition)
    (distinct : (macros.map Definition.name).Nodup) (entry : Definition) (member : entry ∈ macros) :
    (table.bindAll macros).value? entry.name = some (stored entry.value) := by
  induction macros generalizing table with
  | nil => cases member
  | cons first rest ih =>
    rw [List.map_cons, List.nodup_cons] at distinct
    rcases List.mem_cons.mp member with rfl | later
    · exact (value_bindAll_of_absent _ rest _ distinct.1).trans (by rw [value_set, if_pos rfl])
    · exact ih _ distinct.2 later

/-- The order in which macros are defined makes no difference to their values. -/
theorem value_bindAll_perm {macros others : List Definition} (perm : macros.Perm others)
    (distinct : (macros.map Definition.name).Nodup) :
    (table.bindAll macros).value? = (table.bindAll others).value? := by
  have names := perm.map Definition.name
  funext wanted
  by_cases bound : wanted ∈ macros.map Definition.name
  · obtain ⟨entry, member, rfl⟩ := List.mem_map.mp bound
    rw [table.value_bindAll_of_mem macros distinct entry member,
      table.value_bindAll_of_mem others (names.nodup_iff.mp distinct) entry (perm.subset member)]
  · rw [table.value_bindAll_of_absent macros wanted bound,
      table.value_bindAll_of_absent others wanted fun member => bound (names.mem_iff.mpr member)]

end BindAll

/-! ### Conditions -/

section Conditions

variable {table : DefinitionTable}

theorem value_eq_none_iff (name : String) :
    table.value? name = none ↔ table.isDefined name = false := by
  rw [value?, Option.map_eq_none_iff, isDefined, Option.isSome_eq_false_iff,
    Option.isNone_iff_eq_none]

/-- The first pass over a reference puts the stored text in its place; if the others leave no bound
reference, as many passes over the stored text give the same. -/
theorem iterate_pass_of_bound (name : String) (isName : IsReferable name.toList) (value : String)
    (bound : table.value? name = some value) (count : Nat)
    (unbound : ∀ other ∈ referenceNames 0 (table.pass^[count] (reference name.toList)),
      table.value? other = none) :
    table.pass^[count] value.toList = table.pass^[count] (reference name.toList) := by
  have first : table.pass (reference name.toList) = value.toList := by
    have replaced := table.pass_reference name.toList [] isName
    rw [List.append_nil, replacement, String.ofList_toList, bound] at replaced
    exact replaced.trans (List.append_nil _)
  cases count with
  | zero =>
    -- Without a pass the reference itself would be left.
    have names := referenceNames_reference name.toList [] isName
    rw [List.append_nil, String.ofList_toList] at names
    cases bound.symm.trans (unbound name (by rw [Function.iterate_zero, id, names]; exact .head _))
  | succ count =>
    rw [Function.iterate_succ_apply, first] at unbound
    rw [Function.iterate_succ_apply', Function.iterate_succ_apply, first]
    exact table.pass_eq_self _ unbound

end Conditions

end FirmwareWorkspace.DefinitionTable

namespace FirmwareWorkspace.Expression

theorem isWritten_of_isReferable (name : String)
    (isName : DefinitionTable.IsReferable name.toList) : (Token.reference name).IsWritten := by
  obtain ⟨c, rest, spelled, starts, parts⟩ := isName
  exact ⟨c, rest, by rw [← spelled, String.ofList_toList], starts, parts⟩

/-- The text of a reference is read as a reference. -/
theorem parse_reference (name : String) (isName : DefinitionTable.IsReferable name.toList) :
    parse (.ofList (DefinitionTable.reference name.toList)) = .ok (.reference name) := by
  obtain ⟨later, read⟩ := tokensFrom_token 0 (.reference name) []
    (readsBefore_reference [] name (isWritten_of_isReferable name isName))
  refine (parse_eq_ok_iff _ _).mpr ⟨[⟨.reference name, 0⟩], ?_, rfl⟩
  rw [tokenize, String.toList_ofList]
  rw [List.append_nil] at read
  exact read

end FirmwareWorkspace.Expression

namespace FirmwareWorkspace.DefinitionTable

/-- Conditions and lines see the same value of a macro. A condition sees no value exactly if the
macro is unbound; otherwise, if replacing a reference to the macro leaves no bound reference, a
condition sees what the reference is replaced by, and a line that neither begins nor completes
another reference holds the same. Neither depends on the order in which macros are defined. -/
theorem macroText_eq_replaceAll (context : Context) (name : String)
    (isName : IsReferable name.toList) :
    let table := context.definitions
    let text := String.ofList (reference name.toList)
    (context.scope.macroText name = none ↔ table.isDefined name = false) ∧
      (table.isDefined name = true →
        (∀ other ∈ referenceNames 0 (table.replaceAll text).toList,
          table.isDefined other = false) →
        context.scope.macroText name = some (table.replaceAll text) ∧
          Expression.evaluateText context.scope text = .ok (.ofText (table.replaceAll text)) ∧
          ∀ front rest : String, '$' ∉ front.toList → ')' ∉ rest.toList →
            table.replaceAll (front ++ text ++ rest) = front ++ table.replaceAll text ++ rest) ∧
      ∀ macros others : List Definition, macros.Perm others →
        (macros.map Definition.name).Nodup →
        (table.bindAll macros).macroText = (table.bindAll others).macroText ∧
          (table.bindAll macros).replaceAll = (table.bindAll others).replaceAll := by
  intro table text
  have undefined (other : String) : table.isDefined other = false ↔ table.value? other = none :=
    (value_eq_none_iff other).symm
  refine ⟨Option.map_eq_none_iff.trans (value_eq_none_iff name), fun defined expanded => ?_,
    fun macros others perm distinct => ?_⟩
  · obtain ⟨value, bound⟩ : ∃ value, table.value? name = some value := by
      cases found : table.value? name with
      | none => cases ((undefined name).mpr found).symm.trans defined
      | some value => exact ⟨value, rfl⟩
    have unbound (other : String)
        (held : other ∈ referenceNames 0 (table.pass^[table.maxPasses] text.toList)) :
        table.value? other = none := by
      rw [← toList_replaceAll] at held
      exact (undefined other).mp (expanded other held)
    -- The value is one pass ahead of the reference, and the last pass replaces nothing.
    have agree : table.replaceAll value = table.replaceAll text := by
      rw [← String.toList_inj, toList_replaceAll, toList_replaceAll]
      rw [String.toList_ofList] at unbound ⊢
      exact iterate_pass_of_bound name isName value bound _ unbound
    have seen : context.scope.macroText name = some (table.replaceAll text) := by
      rw [← agree]
      exact congrArg (Option.map table.replaceAll) bound
    refine ⟨seen, ?_, fun front rest => table.replaceAll_between front text rest⟩
    rw [Expression.evaluateText, Expression.parse_reference name isName]
    simp only [Expression.evaluate, seen]
  · have values := table.value_bindAll_perm perm distinct
    have passes : (table.bindAll macros).maxPasses = (table.bindAll others).maxPasses := by
      rw [maxPasses_bindAll, maxPasses_bindAll]
    exact ⟨macroText_of_value values passes, replaceAll_of_value values passes⟩

/-- A value that refers to a macro of which it knows nothing yet, and holds half a reference. -/
def lateMacros : List Definition :=
  [⟨"DIR", "$(PKG)/$(", none⟩, ⟨"PKG", "OvmfPkg", none⟩]

def plainContext : Context :=
  .new (new 10) (.new ⟨"/ws"⟩ [])

def lateContext : Context :=
  { plainContext with definitions := plainContext.definitions.bindAll lateMacros }

/-- A condition sees the value that a line holds, and the line may go on behind it. -/
theorem lateContext_agrees :
    IsReferable "DIR".toList ∧ lateContext.definitions.isDefined "DIR" = true ∧
      (∀ other ∈ referenceNames 0 (lateContext.definitions.replaceAll "$(DIR)").toList,
        lateContext.definitions.isDefined other = false) ∧
      lateContext.scope.macroText "DIR" = some "OvmfPkg/$(" ∧
      lateContext.definitions.replaceAll "DEFINE PATH = $(DIR)PKG" =
        "DEFINE PATH = OvmfPkg/$(PKG" ∧
      lateContext.definitions.macroText =
        (plainContext.definitions.bindAll lateMacros.reverse).macroText := by
  have isName : IsReferable "DIR".toList := ⟨'D', ['I', 'R'], rfl, rfl, List.all_eq_true.mp rfl⟩
  have text : String.ofList (reference "DIR".toList) = "$(DIR)" := by decide +kernel
  have replaced : lateContext.definitions.replaceAll "$(DIR)" = "OvmfPkg/$(" := by decide +kernel
  have defined : lateContext.definitions.isDefined "DIR" = true := by decide +kernel
  have expanded : ∀ other ∈ referenceNames 0 (lateContext.definitions.replaceAll "$(DIR)").toList,
      lateContext.definitions.isDefined other = false := by
    rw [replaced]
    decide +kernel
  obtain ⟨_, agrees, _⟩ := macroText_eq_replaceAll lateContext "DIR" isName
  obtain ⟨_, _, orders⟩ := macroText_eq_replaceAll plainContext "DIR" isName
  rw [text] at agrees
  obtain ⟨seen, _, held⟩ := agrees defined expanded
  rw [replaced] at seen held
  have line := held "DEFINE PATH = " "PKG" (by decide +kernel) (by decide +kernel)
  have order := (orders lateMacros _ lateMacros.reverse_perm.symm (by decide +kernel)).1
  exact ⟨isName, defined, expanded, seen, line, order⟩

end FirmwareWorkspace.DefinitionTable
