import FirmwareWorkspace.Line.Assignment
import FirmwareWorkspace.Proofs.Text.Blank

/-!
# The first field of a value

A text with closed quotes and balanced braces, in which bars stand between quotes or braces only,
is taken as a whole by the scanner of fields: the field ends at the bar behind it, or with the
line. Blanks in front of the text make no difference.

Main result: `afterSeparator_closed`.
-/
namespace FirmwareWorkspace.Line

/-- A text with closed quotes and balanced braces. Outside of them it holds bars only if `bars`
says so; between braces it may hold them everywhere. -/
inductive IsClosed : Bool → List Char → Prop
  | nil {bars : Bool} : IsClosed bars []
  | plain {bars : Bool} {c : Char} {rest : List Char} (ordinary : c ∉ ['"', '\'', '{', '}'])
      (allowed : c = '|' → bars = true) (after : IsClosed bars rest) : IsClosed bars (c :: rest)
  | quoted {bars : Bool} {quote : Char} {body rest : List Char}
      (known : quote = '"' ∨ quote = '\'') (inside : quote ∉ body) (after : IsClosed bars rest) :
      IsClosed bars (quote :: (body ++ quote :: rest))
  | braced {bars : Bool} {body rest : List Char} (inside : IsClosed true body)
      (after : IsClosed bars rest) : IsClosed bars ('{' :: (body ++ '}' :: rest))

/-! ### Identifiers -/

theorem identifier_append (isPart : Char → Bool) (c : Char) (tail rest : List Char)
    (starts : Chars.isIdentStart c = true) (parts : ∀ d ∈ tail, isPart d = true) (next : Char)
    (ends : isPart next = false) :
    identifier? isPart (c :: (tail ++ next :: rest)) = some (c :: tail, next :: rest) := by
  have outside : ¬ isPart next = true := ne_true_of_eq_false ends
  rw [identifier?, if_pos starts, List.takeWhile_append_of_pos parts,
    List.dropWhile_append_of_pos parts, List.takeWhile_cons_of_neg outside,
    List.dropWhile_cons_of_neg outside, List.append_nil]

/-! ### The scanner -/

theorem firstField_quoted (depth : Nat) (quote : Char) (body rest : List Char)
    (inside : quote ∉ body) :
    firstField depth (some quote) (body ++ quote :: rest) =
      body ++ quote :: firstField depth none rest := by
  induction body with
  | nil => simp [firstField]
  | cons c body ih =>
    rw [List.mem_cons, not_or] at inside
    have ⟨other, later⟩ := inside
    rw [List.cons_append, firstField]
    simp only [Ne.symm other, if_false, ih later, List.cons_append]

/-- The scanner passes over a closed text, and is outside quotes and as deep as before. -/
theorem firstField_closed {bars : Bool} {cs : List Char} (closed : IsClosed bars cs) (depth : Nat)
    (deep : bars = true → 0 < depth) (rest : List Char) :
    firstField depth none (cs ++ rest) = cs ++ firstField depth none rest := by
  induction closed generalizing depth rest with
  | nil => rfl
  | @plain bars c more ordinary allowed _ ih =>
    simp only [List.mem_cons, List.not_mem_nil, or_false, not_or] at ordinary
    obtain ⟨double, single, opening, closing⟩ := ordinary
    have kept : ¬ (c = '|' ∧ depth = 0) := fun ⟨bar, flat⟩ =>
      absurd flat (Nat.pos_iff_ne_zero.mp (deep (allowed bar)))
    rw [List.cons_append, firstField]
    simp only [double, single, opening, closing, kept, or_self, if_false, ih depth deep rest,
      List.cons_append]
  | @quoted bars quote body more known inside _ ih =>
    have skipped := firstField_quoted depth quote body (more ++ rest) inside
    rw [List.cons_append, List.append_assoc, List.cons_append, firstField, if_pos known, skipped,
      ih depth deep rest, List.cons_append, List.append_assoc, List.cons_append]
  | @braced bars body more _ _ within ih =>
    -- Between the braces the depth is positive, so every bar is passed over.
    have skipped := within (depth + 1) (fun _ => Nat.succ_pos depth) ('}' :: (more ++ rest))
    rw [List.cons_append, List.append_assoc, List.cons_append, firstField]
    simp only [Char.reduceEq, or_self, if_false, if_true, skipped, List.cons_append]
    rw [firstField]
    simp only [Char.reduceEq, or_self, if_false, if_true, Nat.add_sub_cancel, ih depth deep rest,
      List.cons_append, List.append_assoc]

theorem IsClosed.trimStart {bars : Bool} {cs : List Char} (closed : IsClosed bars cs) :
    IsClosed bars (Chars.trimStart cs) := by
  induction closed with
  | nil => exact .nil
  | @plain bars c rest ordinary allowed after ih =>
    rw [Chars.trimStart, List.dropWhile_cons]
    split
    · exact ih
    · exact .plain ordinary allowed after
  | @quoted bars quote body rest known inside after _ =>
    have visible : ¬ Chars.isBlank quote = true := by
      rcases known with rfl | rfl <;> decide
    rw [Chars.trimStart, List.dropWhile_cons_of_neg visible]
    exact .quoted known inside after
  | braced inside after _ _ =>
    rw [Chars.trimStart, List.dropWhile_cons_of_neg (by decide)]
    exact .braced inside after

/-! ### Values behind a separator -/

/-- What may stand behind a field: nothing, or a bar and more fields. -/
def EndsField (rest : List Char) : Prop :=
  rest = [] ∨ ∃ fields, rest = '|' :: fields

theorem trimStart_append {rest : List Char} (ends : EndsField rest) (cs : List Char) :
    Chars.trimStart (cs ++ rest) = Chars.trimStart cs ++ rest := by
  have kept : rest.dropWhile Chars.isBlank = rest := by
    rcases ends with rfl | ⟨fields, rfl⟩
    · rfl
    · exact List.dropWhile_cons_of_neg (by decide)
  simp only [Chars.trimStart, List.dropWhile_append, kept]
  split
  next emptied => rw [List.isEmpty_iff.mp emptied, List.nil_append]
  · rfl

theorem firstField_ended {rest : List Char} (ends : EndsField rest) :
    firstField 0 none rest = [] := by
  rcases ends with rfl | ⟨fields, rfl⟩
  · rfl
  · simp [firstField]

/-- A closed value behind a bar is read as a whole, up to the blanks around it. -/
theorem afterSeparator_closed {value rest : List Char} (closed : IsClosed false value)
    (ends : EndsField rest) (oneLine : '\n' ∉ value ++ rest) :
    (afterSeparator? '|' ('|' :: (value ++ rest))).map
      (fun cs => Chars.trim (firstField 0 none cs)) = some (Chars.trim value) := by
  have inLine : '\n' ∉ Chars.trimStart (value ++ rest) := fun broken =>
    oneLine ((List.dropWhile_sublist Chars.isBlank).subset broken)
  have read : afterSeparator? '|' ('|' :: (value ++ rest)) =
      some (Chars.trimStart (value ++ rest)) := by
    have visible : Chars.trimStart ('|' :: (value ++ rest)) = '|' :: (value ++ rest) :=
      List.dropWhile_cons_of_neg (by decide)
    rw [afterSeparator?, visible]
    exact if_pos ⟨rfl, inLine⟩
  rw [read, Option.map_some, trimStart_append ends,
    firstField_closed closed.trimStart 0 nofun, firstField_ended ends, List.append_nil,
    Chars.trim_trimStart]

end FirmwareWorkspace.Line
