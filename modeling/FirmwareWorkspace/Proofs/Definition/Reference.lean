import FirmwareWorkspace.Definition
import Mathlib.Data.List.TakeWhile

/-!
# Texts with references

A text in which every dollar sign begins a complete reference falls apart into plain characters
and references. A pass over such a text puts values in the place of references and keeps the
rest. If the values are texts of this kind too, so is the result: a value neither completes a
reference of its surroundings nor breaks one.
-/
namespace FirmwareWorkspace.DefinitionTable

/-- A name that a reference may hold. -/
def IsReferable (name : List Char) : Prop :=
  ∃ c rest, name = c :: rest ∧ Chars.isIdentStart c = true ∧
    ∀ d ∈ rest, Chars.isIdentPart d = true

/-- The text of a reference. -/
def reference (name : List Char) : List Char :=
  '$' :: '(' :: (name ++ [')'])

/-- Whether every dollar sign of a text begins a complete reference. -/
def isWhole : List Char → Bool
  | [] => true
  | c :: rest => (c ≠ '$' || (referenceName? (c :: rest)).isSome) && isWhole rest

/-- A text made of plain characters and references. -/
inductive IsSpelled : List Char → Prop
  | nil : IsSpelled []
  | plain {c : Char} {rest : List Char} (other : c ≠ '$') (after : IsSpelled rest) :
      IsSpelled (c :: rest)
  | refer {name rest : List Char} (isName : IsReferable name) (after : IsSpelled rest) :
      IsSpelled (reference name ++ rest)

/-! ### Reading references -/

theorem isIdentPart_of_isIdentStart (c : Char) (starts : Chars.isIdentStart c = true) :
    Chars.isIdentPart c = true := by
  simp only [Chars.isIdentStart, Chars.isIdentPart, Char.isAlphanum, Bool.or_eq_true] at starts ⊢
  exact starts.imp_left .inl

theorem IsReferable.isPart {name : List Char} (isName : IsReferable name) (c : Char)
    (member : c ∈ name) : Chars.isIdentPart c = true := by
  obtain ⟨first, rest, rfl, starts, parts⟩ := isName
  rcases List.mem_cons.mp member with rfl | later
  · exact isIdentPart_of_isIdentStart c starts
  · exact parts c later

theorem referenceName_of_ne (c : Char) (rest : List Char) (other : c ≠ '$') :
    referenceName? (c :: rest) = none := by
  unfold referenceName?
  split
  next found =>
    cases found
    exact absurd rfl other
  · rfl

theorem referenceName_reference (name rest : List Char) (isName : IsReferable name) :
    referenceName? (reference name ++ rest) = some name := by
  obtain ⟨c, tail, rfl, starts, parts⟩ := isName
  have spelled : reference (c :: tail) ++ rest = '$' :: '(' :: c :: (tail ++ ')' :: rest) := by
    simp [reference]
  have taken : (tail ++ ')' :: rest).takeWhile Chars.isIdentPart = tail := by
    rw [List.takeWhile_append_of_pos parts, List.takeWhile_cons_of_neg (by decide),
      List.append_nil]
  have left : (tail ++ ')' :: rest).dropWhile Chars.isIdentPart = ')' :: rest := by
    rw [List.dropWhile_append_of_pos parts, List.dropWhile_cons_of_neg (by decide)]
  simp [spelled, referenceName?, taken, left, starts]

theorem exists_reference (cs name : List Char) (found : referenceName? cs = some name) :
    IsReferable name ∧ ∃ rest, cs = reference name ++ rest := by
  unfold referenceName? at found
  split at found
  next c rest =>
    dsimp only at found
    split at found
    next complete =>
      rw [Bool.and_eq_true, beq_iff_eq] at complete
      cases found
      obtain ⟨more, closed⟩ := List.head?_eq_some_iff.mp complete.2
      refine ⟨⟨c, _, rfl, complete.1, fun d member => List.mem_takeWhile_imp member⟩, more, ?_⟩
      have whole := List.takeWhile_append_dropWhile (p := Chars.isIdentPart) (l := rest)
      rw [closed] at whole
      simp [reference, whole]
    · cases found
  · cases found

/-- Two texts that begin with references agree only in the references and what follows. -/
theorem reference_append_inj {left right rest more : List Char} (isName : IsReferable left)
    (isNameToo : IsReferable right) (same : reference left ++ rest = reference right ++ more) :
    left = right ∧ rest = more := by
  have names : some left = some right := by
    rw [← referenceName_reference left rest isName, same, referenceName_reference _ _ isNameToo]
  cases names
  exact ⟨rfl, List.append_cancel_left same⟩

theorem isWhole_of_append (front rest : List Char) (whole : isWhole (front ++ rest) = true) :
    isWhole rest = true := by
  induction front with
  | nil => exact whole
  | cons c front ih =>
    rw [List.cons_append, isWhole, Bool.and_eq_true] at whole
    exact ih whole.2

theorem isSpelled_of_isWhole (cs : List Char) (whole : isWhole cs = true) : IsSpelled cs := by
  -- The induction is on the length, since a reference takes several characters at once.
  induction size : cs.length using Nat.strongRecOn generalizing cs with
  | ind _ ih =>
    subst size
    cases cs with
    | nil => exact .nil
    | cons c rest =>
      have ⟨begins, after⟩ := Bool.and_eq_true_iff.mp whole
      by_cases dollar : c = '$'
      · have found : (referenceName? (c :: rest)).isSome = true := by simpa [dollar] using begins
        obtain ⟨name, named⟩ := Option.isSome_iff_exists.mp found
        obtain ⟨isName, more, split⟩ := exists_reference _ name named
        rw [split] at ih whole ⊢
        have shorter : more.length < (reference name ++ more).length := by
          rw [List.length_append]
          exact Nat.lt_add_of_pos_left (Nat.succ_pos _)
        exact .refer isName (ih _ shorter more (isWhole_of_append _ _ whole) rfl)
      · exact .plain dollar (ih _ (Nat.lt_succ_self _) rest after rfl)

theorem IsReferable.isSpelled {name : List Char} (isName : IsReferable name) :
    IsSpelled (reference name) := by
  have alone := IsSpelled.refer isName .nil
  rwa [List.append_nil] at alone

theorem IsSpelled.append {left right : List Char} (spelled : IsSpelled left)
    (spelledToo : IsSpelled right) : IsSpelled (left ++ right) := by
  induction spelled with
  | nil => exact spelledToo
  | plain other _ ih => exact .plain other ih
  | refer isName _ ih =>
    rw [List.append_assoc]
    exact .refer isName ih

/-! ### One pass -/

section Substitute

variable (value? : String → Option String)

/-- What a reference is replaced by: the value of its name, or the reference itself. -/
def replacement (name : List Char) : List Char :=
  (value? (.ofList name)).elim (reference name) String.toList

theorem substitute_covered (front rest : List Char) :
    substitute value? front.length (front ++ rest) = substitute value? 0 rest := by
  induction front with
  | nil => rfl
  | cons c front ih => exact ih

theorem substitute_plain (front rest : List Char) (plain : '$' ∉ front) :
    substitute value? 0 (front ++ rest) = front ++ substitute value? 0 rest := by
  induction front with
  | nil => rfl
  | cons c front ih =>
    rw [List.mem_cons, not_or] at plain
    have ⟨other, later⟩ := plain
    simp only [List.cons_append, substitute, referenceName_of_ne c _ (Ne.symm other), ih later]

theorem substitute_reference (name rest : List Char) (isName : IsReferable name) :
    substitute value? 0 (reference name ++ rest) =
      replacement value? name ++ substitute value? 0 rest := by
  have read := referenceName_reference name rest isName
  have plain : '$' ∉ '(' :: (name ++ [')']) := by
    intro member
    simp only [List.mem_cons, List.mem_append, List.not_mem_nil, or_false] at member
    rcases member with opening | inside | closing
    · cases opening
    · exact absurd (isName.isPart '$' inside) (by decide)
    · cases closing
  rw [reference, List.cons_append] at read
  rw [reference, List.cons_append, substitute, replacement]
  simp only [read]
  -- An unbound reference is passed character by character, a bound one is covered at once.
  cases value? (.ofList name) with
  | none => rw [substitute_plain value? _ rest plain]; rfl
  | some value =>
    have covers := substitute_covered value? ('(' :: (name ++ [')'])) rest
    rw [List.length_cons, List.length_append, List.length_singleton] at covers
    exact congrArg _ covers

end Substitute

section Pass

variable (table : DefinitionTable)

theorem pass_cons (c : Char) (rest : List Char) (other : c ≠ '$') :
    table.pass (c :: rest) = c :: table.pass rest :=
  substitute_plain table.value? [c] rest fun member => other (List.mem_singleton.mp member).symm

theorem pass_reference (name rest : List Char) (isName : IsReferable name) :
    table.pass (reference name ++ rest) = replacement table.value? name ++ table.pass rest :=
  substitute_reference table.value? name rest isName

theorem pass_append {left : List Char} (spelled : IsSpelled left) (right : List Char) :
    table.pass (left ++ right) = table.pass left ++ table.pass right := by
  induction spelled with
  | nil => rfl
  | plain other _ ih => rw [List.cons_append, pass_cons _ _ _ other, pass_cons _ _ _ other, ih]; rfl
  | refer isName _ ih =>
    rw [List.append_assoc, pass_reference _ _ _ isName, pass_reference _ _ _ isName, ih,
      List.append_assoc]

/-- Every value that is bound falls apart into plain characters and references. -/
def HasSpelledValues : Prop :=
  ∀ name value, table.value? name = some value → IsSpelled value.toList

variable {table}

theorem HasSpelledValues.replacement (values : table.HasSpelledValues) (name : List Char)
    (isName : IsReferable name) : IsSpelled (replacement table.value? name) := by
  rw [DefinitionTable.replacement]
  cases bound : table.value? (.ofList name) with
  | none => exact isName.isSpelled
  | some value => exact values _ value bound

theorem HasSpelledValues.pass (values : table.HasSpelledValues) {cs : List Char}
    (spelled : IsSpelled cs) : IsSpelled (table.pass cs) := by
  induction spelled with
  | nil => exact .nil
  | plain other _ ih =>
    rw [pass_cons _ _ _ other]
    exact .plain other ih
  | refer isName _ ih =>
    rw [pass_reference _ _ _ isName]
    exact (values.replacement _ isName).append ih

end Pass

/-! ### The references of a text -/

theorem referenceNames_covered (front rest : List Char) :
    referenceNames front.length (front ++ rest) = referenceNames 0 rest := by
  induction front with
  | nil => rfl
  | cons c front ih => exact ih

theorem referenceNames_cons (c : Char) (rest : List Char) (other : c ≠ '$') :
    referenceNames 0 (c :: rest) = referenceNames 0 rest := by
  simp only [referenceNames, referenceName_of_ne c rest other]

theorem referenceNames_reference (name rest : List Char) (isName : IsReferable name) :
    referenceNames 0 (reference name ++ rest) = .ofList name :: referenceNames 0 rest := by
  have read := referenceName_reference name rest isName
  have covers := referenceNames_covered ('(' :: (name ++ [')'])) rest
  rw [List.length_cons, List.length_append, List.length_singleton] at covers
  rw [reference, List.cons_append] at read
  rw [reference, List.cons_append, referenceNames]
  simp only [read]
  exact congrArg _ covers

theorem referenceNames_append {left : List Char} (spelled : IsSpelled left) (right : List Char) :
    referenceNames 0 (left ++ right) = referenceNames 0 left ++ referenceNames 0 right := by
  induction spelled with
  | nil => rfl
  | plain other _ ih =>
    rw [List.cons_append, referenceNames_cons _ _ other, referenceNames_cons _ _ other, ih]
  | refer isName _ ih =>
    rw [List.append_assoc, referenceNames_reference _ _ isName,
      referenceNames_reference _ _ isName, ih]
    rfl

/-- After a pass a text has the references of the values that were put in, and its own references
to unbound names. -/
theorem referenceNames_pass {table : DefinitionTable} (values : table.HasSpelledValues)
    {cs : List Char} (spelled : IsSpelled cs) :
    referenceNames 0 (table.pass cs) = (referenceNames 0 cs).flatMap fun name =>
      (table.value? name).elim [name] fun value => referenceNames 0 value.toList := by
  induction spelled with
  | nil => rfl
  | plain other _ ih =>
    rw [pass_cons _ _ _ other, referenceNames_cons _ _ other, referenceNames_cons _ _ other, ih]
  | @refer name rest isName _ ih =>
    rw [pass_reference _ _ _ isName, referenceNames_append (values.replacement name isName),
      referenceNames_reference _ _ isName, List.flatMap_cons, ih, replacement]
    congr 1
    cases table.value? (.ofList name) with
    | some value => rfl
    | none =>
      have alone := referenceNames_reference name [] isName
      rwa [List.append_nil] at alone

end FirmwareWorkspace.DefinitionTable
