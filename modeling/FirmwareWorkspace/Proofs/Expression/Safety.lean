import FirmwareWorkspace.Definition
import FirmwareWorkspace.Expression.Evaluation
import FirmwareWorkspace.Pcd

/-!
# Conditions without text

A condition over truth values, integers and references that may be unbound has no ill-typed
operands: an unbound reference is absorbed by every operator, in every position. What can still
go wrong is a division, and it goes wrong exactly if the evaluation reaches a quotient or a
remainder with two defined operands and a right one that counts as zero.

Main result: `evaluate_numeric`.
-/
namespace FirmwareWorkspace.Expression

/-- Whether a value is a truth value or an integer. -/
def Value.isNumber : Value → Bool
  | bool _ | int _ => true
  | str _ | undefined => false

/-- Every macro is unbound or bound to the text of a number. -/
def Scope.HasNumericMacros (scope : Scope) : Prop :=
  ∀ name text, scope.macroText name = some text → (Value.ofText text).isNumber = true

/-- A tree without text: nothing in it is quoted, and its words are names of PCDs that are bound
to the text of a number. -/
inductive Expr.IsNumeric (scope : Scope) : Expr → Prop
  | truth (value : Bool) : IsNumeric scope (.truth value)
  | number (value : Nat) : IsNumeric scope (.number value)
  | reference (name : String) : IsNumeric scope (.reference name)
  | word {text space name bound : String} (dotted : Text.splitOnce '.' text = some (space, name))
      (found : scope.pcdText space name = some bound)
      (number : (Value.ofText bound).isNumber = true) : IsNumeric scope (.word text)
  | unary {op : PrefixOp} {operand : Expr} (inner : IsNumeric scope operand) :
      IsNumeric scope (.unary op operand)
  | binary {op : BinaryOp} {left right : Expr} (first : IsNumeric scope left)
      (second : IsNumeric scope right) : IsNumeric scope (.binary op left right)

/-- Whether a tree holds a quotient or a remainder. -/
def Expr.divides : Expr → Bool
  | unary _ operand => operand.divides
  | binary op left right => op == .div || op == .rem || left.divides || right.divides
  | _ => false

/-- The parts of a tree that its evaluation comes to. A right operand is one only if the left one
has a value that leaves the answer open. -/
inductive Reaches (scope : Scope) : Expr → Expr → Prop
  | whole (tree : Expr) : Reaches scope tree tree
  | operand {op : PrefixOp} {operand part : Expr} (within : Reaches scope operand part) :
      Reaches scope (.unary op operand) part
  | left {op : BinaryOp} {left right part : Expr} (within : Reaches scope left part) :
      Reaches scope (.binary op left right) part
  | right {op : BinaryOp} {left right part : Expr} {value : Value}
      (before : evaluate scope left = .ok value) (undecided : shortcut? op value = none)
      (within : Reaches scope right part) : Reaches scope (.binary op left right) part

/-- A quotient or a remainder of two defined operands the right one of which counts as zero, and
the error that it is. -/
inductive DividesByZero (scope : Scope) : Expr → EvalError → Prop
  | quotient {left right : Expr} {a b : Value} (first : evaluate scope left = .ok a)
      (second : evaluate scope right = .ok b) (defined : a ≠ .undefined ∧ b ≠ .undefined)
      (zero : b.asInt = some 0) : DividesByZero scope (.binary .div left right) .divisionByZero
  | remainder {left right : Expr} {a b : Value} (first : evaluate scope left = .ok a)
      (second : evaluate scope right = .ok b) (defined : a ≠ .undefined ∧ b ≠ .undefined)
      (zero : b.asInt = some 0) : DividesByZero scope (.binary .rem left right) .moduloByZero

/-! ### Values without text -/

/-- What a tree without text evaluates to: a number, or nothing for an unbound reference. -/
def Value.isPlain (value : Value) : Bool :=
  value.isNumber || value == .undefined

theorem Value.isPlain_of_isNumber (value : Value) (number : value.isNumber = true) :
    value.isPlain = true := by
  rw [isPlain, number, Bool.true_or]

theorem Value.isNumber_of_isPlain (value : Value) (plain : value.isPlain = true)
    (defined : value ≠ .undefined) : value.isNumber = true := by
  cases value with
  | bool | int => rfl
  | str => cases plain
  | undefined => exact absurd rfl defined

theorem Value.exists_asInt (value : Value) (number : value.isNumber = true) :
    ∃ n, value.asInt = some n := by
  cases value with
  | bool | int => exact ⟨_, rfl⟩
  | str | undefined => cases number

/-! ### Operators -/

theorem applyPrefix_plain (op : PrefixOp) (value : Value) (plain : value.isPlain = true) :
    ∃ result, applyPrefix op value = .ok result ∧ result.isPlain = true := by
  cases op with
  | not => exact ⟨_, rfl, rfl⟩
  | complement | negate =>
    cases value with
    | bool | int | undefined => exact ⟨_, rfl, rfl⟩
    | str => cases plain

/-- Two numbers have an order. -/
theorem compared_number (op : BinaryOp) (left right : Value) (test : Ordering → Bool)
    (first : left.isNumber = true) (second : right.isNumber = true) :
    ∃ answer, compared op left right test = .ok (.bool answer) := by
  obtain ⟨a, left_eq⟩ := left.exists_asInt first
  obtain ⟨b, right_eq⟩ := right.exists_asInt second
  have ordered : order? left right = some (compareOfLessAndEq a b) := by
    cases left with
    | str | undefined => cases first
    | bool | int =>
      cases left_eq
      cases right with
      | str | undefined => cases second
      | bool | int =>
        cases right_eq
        rfl
  exact ⟨_, by rw [compared, ordered]⟩

/-- On two operands with integer views, the operators of integers do what they do to the views. -/
theorem applyBinary_views (op : BinaryOp) (left right : Value) (a b : Int)
    (result : Except EvalError Int) (leftInt : left.asInt = some a) (rightInt : right.asInt = some b)
    (calculated : integerResult op a b = some result) :
    applyBinary op left right = result.map .int := by
  have defined : ¬ (left = .undefined ∨ right = .undefined) := by
    rintro (rfl | rfl)
    · cases leftInt
    · cases rightInt
  have apart : joined? op left right = none := by
    unfold joined?
    split
    · rw [leftInt, rightInt]
      rfl
    · rfl
  have whole : arithmetic op left right = result.map .int := by
    simp only [arithmetic, apart, leftInt, rightInt, calculated]
  cases op with
  | and | or | eq | ne | lt | gt | le | ge | isIn => cases calculated
  | _ => simpa only [applyBinary, if_neg defined] using whole

/-- What an operator gives for two values without text. -/
inductive Applies (op : BinaryOp) (left right : Value) : Except EvalError Value → Prop
  | value (result : Value) (plain : result.isPlain = true) : Applies op left right (.ok result)
  | quotient (divides : op = .div) (defined : left ≠ .undefined ∧ right ≠ .undefined)
      (zero : right.asInt = some 0) : Applies op left right (.error .divisionByZero)
  | remainder (divides : op = .rem) (defined : left ≠ .undefined ∧ right ≠ .undefined)
      (zero : right.asInt = some 0) : Applies op left right (.error .moduloByZero)

theorem applyBinary_plain (op : BinaryOp) (left right : Value) (first : left.isPlain = true)
    (second : right.isPlain = true) : Applies op left right (applyBinary op left right) := by
  by_cases absorbed : left = .undefined ∨ right = .undefined
  · -- An undefined operand decides every operator but the two that look at truth only.
    cases op with
    | and | or => exact .value _ rfl
    | _ =>
      simp only [applyBinary, if_pos absorbed]
      exact .value _ rfl
  · have defined := not_or.mp absorbed
    have leftNumber := left.isNumber_of_isPlain first defined.1
    have rightNumber := right.isNumber_of_isPlain second defined.2
    obtain ⟨a, leftInt⟩ := left.exists_asInt leftNumber
    obtain ⟨b, rightInt⟩ := right.exists_asInt rightNumber
    have calculated {result : Except EvalError Int} :=
      applyBinary_views op left right a b result leftInt rightInt
    cases op with
    | and | or => exact .value _ rfl
    | eq | ne | isIn =>
      simp only [applyBinary, if_neg absorbed]
      exact .value _ rfl
    | lt | gt | le | ge =>
      simp only [applyBinary, if_neg absorbed]
      obtain ⟨answer, ordered⟩ := compared_number _ left right _ leftNumber rightNumber
      rw [ordered]
      exact .value _ rfl
    | div =>
      rw [calculated rfl]
      split
      next zero => exact .quotient rfl defined (zero ▸ rightInt)
      · exact .value _ rfl
    | rem =>
      rw [calculated rfl]
      split
      next zero => exact .remainder rfl defined (zero ▸ rightInt)
      · exact .value _ rfl
    | bitOr | bitXor | bitAnd | add | sub | mul | shl | shr =>
      rw [calculated rfl]
      exact .value _ rfl

/-! ### Trees -/

/-- Apart from `and` and `or`, an operator is applied to the values of its operands. -/
theorem evaluate_binary (scope : Scope) (op : BinaryOp) (left right : Expr) (a b : Value)
    (first : evaluate scope left = .ok a) (second : evaluate scope right = .ok b)
    (strict : shortcut? op a = none) :
    evaluate scope (.binary op left right) = applyBinary op a b := by
  simp only [evaluate, first, second, strict]

section Trees

variable {scope : Scope}

/-- An error in a part that the evaluation comes to is the error of the whole tree. -/
theorem Reaches.evaluate_error {tree part : Expr} (reaches : Reaches scope tree part)
    {error : EvalError} (failed : evaluate scope part = .error error) :
    evaluate scope tree = .error error := by
  induction reaches with
  | whole => exact failed
  | operand _ ih => simp only [evaluate, ih failed]
  | left _ ih => simp only [evaluate, ih failed]
  | right before undecided _ ih => simp only [evaluate, before, undecided, ih failed]

theorem Reaches.isNumeric {tree part : Expr} (reaches : Reaches scope tree part)
    (numeric : tree.IsNumeric scope) : part.IsNumeric scope := by
  induction reaches with
  | whole => exact numeric
  | operand _ ih =>
    cases numeric with
    | unary inner => exact ih inner
  | left _ ih =>
    cases numeric with
    | binary first _ => exact ih first
  | right _ _ _ ih =>
    cases numeric with
    | binary _ second => exact ih second

theorem Reaches.divides {tree part : Expr} (reaches : Reaches scope tree part)
    (divides : part.divides = true) : tree.divides = true := by
  induction reaches with
  | whole => exact divides
  | operand _ ih => exact ih divides
  | left _ ih => simp [Expr.divides, ih divides]
  | right _ _ _ ih => simp [Expr.divides, ih divides]

theorem DividesByZero.divides {tree : Expr} {error : EvalError}
    (byZero : DividesByZero scope tree error) : tree.divides = true := by
  cases byZero with
  | quotient | remainder => rfl

/-- How the evaluation of a tree without text ends. -/
inductive Concludes (scope : Scope) (tree : Expr) : Except EvalError Value → Prop
  | value {result : Value} (plain : result.isPlain = true) : Concludes scope tree (.ok result)
  | fails {part : Expr} {error : EvalError} (reaches : Reaches scope tree part)
      (byZero : DividesByZero scope part error) : Concludes scope tree (.error error)

theorem Concludes.plain_of_ok {tree : Expr} {result : Value}
    (concludes : Concludes scope tree (.ok result)) : result.isPlain = true := by
  cases concludes with
  | value plain => exact plain

/-- An error of a part that the evaluation comes to is passed on. -/
theorem Concludes.pass {tree outer : Expr} {error : EvalError}
    (concludes : Concludes scope tree (.error error))
    (onward : ∀ part, Reaches scope tree part → Reaches scope outer part) :
    Concludes scope outer (.error error) := by
  cases concludes with
  | fails reaches byZero => exact .fails (onward _ reaches) byZero

theorem concludes_binary {op : BinaryOp} {left right : Expr} {a b : Value}
    (first : evaluate scope left = .ok a) (second : evaluate scope right = .ok b)
    (leftPlain : a.isPlain = true) (rightPlain : b.isPlain = true) :
    Concludes scope (.binary op left right) (applyBinary op a b) := by
  have applied := applyBinary_plain op a b leftPlain rightPlain
  generalize applyBinary op a b = outcome at applied
  cases applied with
  | value _ plain => exact .value plain
  | quotient divides defined zero =>
    subst divides
    exact .fails (.whole _) (.quotient first second defined zero)
  | remainder divides defined zero =>
    subst divides
    exact .fails (.whole _) (.remainder first second defined zero)

theorem evaluate_concludes (macros : scope.HasNumericMacros) {tree : Expr}
    (numeric : tree.IsNumeric scope) : Concludes scope tree (evaluate scope tree) := by
  induction numeric with
  | truth | number => exact .value rfl
  | reference name =>
    rw [evaluate]
    cases bound : scope.macroText name with
    | none => exact .value rfl
    | some text => exact .value (Value.isPlain_of_isNumber _ (macros name text bound))
  | word dotted found number =>
    simp only [evaluate, wordValue, dotted, found]
    exact .value (Value.isPlain_of_isNumber _ number)
  | @unary op operand _ ih =>
    rw [evaluate]
    cases inner : evaluate scope operand with
    | error error =>
      rw [inner] at ih
      exact ih.pass fun _ => .operand
    | ok value =>
      rw [inner] at ih
      obtain ⟨result, applied, plain⟩ := applyPrefix_plain op value ih.plain_of_ok
      dsimp only
      rw [applied]
      exact .value plain
  | @binary op left right _ _ leftIH rightIH =>
    rw [evaluate]
    cases first : evaluate scope left with
    | error error =>
      rw [first] at leftIH
      exact leftIH.pass fun _ => .left
    | ok a =>
      rw [first] at leftIH
      dsimp only
      -- A right operand counts only if the left one has not settled the answer.
      cases undecided : shortcut? op a with
      | some answer => exact .value rfl
      | none =>
        cases second : evaluate scope right with
        | error error =>
          rw [second] at rightIH
          exact rightIH.pass fun _ => .right first undecided
        | ok b =>
          rw [second] at rightIH
          exact concludes_binary first second leftIH.plain_of_ok rightIH.plain_of_ok

/-- A division by zero in a tree without text is an error of its evaluation. -/
theorem DividesByZero.evaluate_eq (macros : scope.HasNumericMacros) {tree : Expr}
    (numeric : tree.IsNumeric scope) {error : EvalError}
    (byZero : DividesByZero scope tree error) : evaluate scope tree = .error error := by
  cases byZero with
  | @quotient left _ value _ first second defined zero
  | @remainder left _ value _ first second defined zero =>
    cases numeric with
    | binary leftNumeric _ =>
    have concludes := evaluate_concludes macros leftNumeric
    rw [first] at concludes
    have number := value.isNumber_of_isPlain concludes.plain_of_ok defined.1
    obtain ⟨a, leftInt⟩ := value.exists_asInt number
    rw [evaluate_binary scope _ _ _ _ _ first second rfl]
    exact applyBinary_views _ _ _ a 0 (.error _) leftInt zero rfl

end Trees

/-- A tree without text, in a scope whose macros are unbound or numbers, evaluates to a value or
divides by zero; no operator finds an operand that it cannot combine. It divides by zero exactly
if the evaluation comes to a quotient or a remainder of two defined operands with a right one
that counts as zero, so a tree without these two operators has a value. -/
theorem evaluate_numeric (scope : Scope) (macros : scope.HasNumericMacros) (tree : Expr)
    (numeric : tree.IsNumeric scope) :
    ((∃ value, evaluate scope tree = .ok value) ∨
      evaluate scope tree = .error .divisionByZero ∨ evaluate scope tree = .error .moduloByZero) ∧
      (∀ error, evaluate scope tree = .error error ↔
        ∃ part, Reaches scope tree part ∧ DividesByZero scope part error) ∧
      (tree.divides = false → ∃ value, evaluate scope tree = .ok value) := by
  have concludes := evaluate_concludes macros numeric
  have failed (error : EvalError) (result : evaluate scope tree = .error error) :
      ∃ part, Reaches scope tree part ∧ DividesByZero scope part error := by
    rw [result] at concludes
    cases concludes with
    | fails reaches byZero => exact ⟨_, reaches, byZero⟩
  refine ⟨?_, fun error => ⟨failed error, ?_⟩, fun whole => ?_⟩
  · cases result : evaluate scope tree with
    | ok value => exact .inl ⟨value, rfl⟩
    | error error =>
      obtain ⟨_, _, byZero⟩ := failed error result
      cases byZero with
      | quotient => exact .inr (.inl rfl)
      | remainder => exact .inr (.inr rfl)
  · rintro ⟨part, reaches, byZero⟩
    exact reaches.evaluate_error (byZero.evaluate_eq macros (reaches.isNumeric numeric))
  · cases result : evaluate scope tree with
    | ok value => exact ⟨value, rfl⟩
    | error error =>
      obtain ⟨_, reaches, byZero⟩ := failed error result
      -- An error comes from a part that divides, and there is none.
      rw [reaches.divides byZero.divides] at whole
      cases whole

/-! ### An unbound macro and a remainder -/

def boardMacros : DefinitionTable :=
  ((DefinitionTable.new 10).set "COUNT" "0" none).2

def boardScope : Scope :=
  ⟨boardMacros.macroText, (PcdTable.empty.set "gBoard" "PcdLimit" "0x10" ⟨⟨0⟩, 0⟩).value?⟩

/-- `gBoard.PcdLimit % $(COUNT)` -/
def boardRemainder : Expr :=
  .binary .rem (.word "gBoard.PcdLimit") (.reference "COUNT")

/-- `$(MISSING) / $(COUNT) == 1 or not (gBoard.PcdLimit % $(COUNT))` -/
def boardTree : Expr :=
  .binary .or
    (.binary .eq (.binary .div (.reference "MISSING") (.reference "COUNT")) (.number 1))
    (.unary .not boardRemainder)

/-- The quotient has an undefined operand and the value of nothing, and the remainder fails. -/
theorem boardTree_fails :
    boardScope.HasNumericMacros ∧ boardTree.IsNumeric boardScope ∧
      Reaches boardScope boardTree boardRemainder ∧
      DividesByZero boardScope boardRemainder .moduloByZero ∧
      evaluate boardScope boardTree = .error .moduloByZero := by
  have macros : boardScope.HasNumericMacros := by
    intro name text bound
    obtain ⟨value, found, rfl⟩ := Option.map_eq_some_iff.mp bound
    obtain ⟨definition, held, rfl⟩ := Option.map_eq_some_iff.mp found
    have all : ∀ definition ∈ boardMacros.definitions,
        (Value.ofText (boardMacros.replaceAll definition.value)).isNumber = true := by
      decide +kernel
    exact all definition (List.mem_of_find?_eq_some held)
  have dotted : Text.splitOnce '.' "gBoard.PcdLimit" = some ("gBoard", "PcdLimit") := by
    decide +kernel
  have bound : boardScope.pcdText "gBoard" "PcdLimit" = some "0x10" := by decide +kernel
  have limit : (Expr.word "gBoard.PcdLimit").IsNumeric boardScope :=
    .word dotted bound (by decide +kernel)
  have numeric : boardTree.IsNumeric boardScope :=
    .binary (.binary (.binary (.reference _) (.reference _)) (.number _))
      (.unary (.binary limit (.reference _)))
  have missing : boardScope.macroText "MISSING" = none := by decide +kernel
  have zero : boardScope.macroText "COUNT" = some "0" := by decide +kernel
  have count : evaluate boardScope (.reference "COUNT") = .ok (.int 0) := by
    have read : Value.ofText "0" = .int 0 := by decide +kernel
    simp only [evaluate, zero, read]
  have size : evaluate boardScope (.word "gBoard.PcdLimit") = .ok (.int 16) := by
    have read : Value.ofText "0x10" = .int 16 := by decide +kernel
    simp only [evaluate, wordValue, dotted, bound, read]
  have quotient : evaluate boardScope
      (.binary .eq (.binary .div (.reference "MISSING") (.reference "COUNT")) (.number 1)) =
        .ok (.bool false) := by
    simp only [evaluate, missing, zero]
    rfl
  have reaches : Reaches boardScope boardTree boardRemainder :=
    .right quotient rfl (.operand (.whole _))
  have byZero : DividesByZero boardScope boardRemainder .moduloByZero :=
    .remainder size count ⟨nofun, nofun⟩ rfl
  have ⟨_, failed, _⟩ := evaluate_numeric boardScope macros boardTree numeric
  exact ⟨macros, numeric, reaches, byZero, (failed _).mpr ⟨_, reaches, byZero⟩⟩

end FirmwareWorkspace.Expression
