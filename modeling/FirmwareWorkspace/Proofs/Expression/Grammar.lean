import FirmwareWorkspace.Expression.Parser

/-!
# The grammar of conditions

A phrase is a condition with its parentheses, a derivation of the grammar

    E ::= prefix E | E binary E | literal | reference | word | ( E )

The grammar leaves open how operators share their operands; `Phrase.IsGrouped` settles that by
their strengths. The reader accepts exactly the sentences of the grammar, and the tree that it
gives is the one of every grouped phrase with these tokens.

Main result: `readFrom_accepts_sentences`.
-/
namespace FirmwareWorkspace.Expression

/-! ### Phrases -/

/-- The token of a prefix operator; negation is written like subtraction. -/
def PrefixOp.token : PrefixOp → Token
  | not => .not
  | complement => .complement
  | negate => .binary .sub

/-- A literal, a reference or a word. -/
inductive Leaf where
  | truth (value : Bool)
  | number (value : Nat)
  | quoted (text : String)
  | reference (name : String)
  | word (text : String)
  deriving DecidableEq, Repr

namespace Leaf

def token : Leaf → Token
  | truth value => .truth value
  | number value => .number value
  | quoted text => .quoted text
  | reference name => .reference name
  | word text => .word text

def tree : Leaf → Expr
  | truth value => .truth value
  | number value => .number value
  | quoted text => .quoted text
  | reference name => .reference name
  | word text => .word text

end Leaf

inductive Phrase where
  | leaf (operand : Leaf)
  | prefixed (op : PrefixOp) (operand : Phrase)
  | joined (left : Phrase) (op : BinaryOp) (right : Phrase)
  /-- A phrase in parentheses. -/
  | enclosed (inner : Phrase)
  deriving DecidableEq, Repr

namespace Phrase

/-- A phrase read in order, with its parentheses. -/
def tokens : Phrase → List Token
  | leaf operand => [operand.token]
  | prefixed op operand => op.token :: operand.tokens
  | joined left op right => left.tokens ++ .binary op :: right.tokens
  | enclosed inner => .opening :: (inner.tokens ++ [.closing])

/-- The tree of a phrase, in which no parentheses are left. -/
def tree : Phrase → Expr
  | leaf operand => operand.tree
  | prefixed op operand => .unary op operand.tree
  | joined left op right => .binary op left.tree right.tree
  | enclosed inner => inner.tree

/-- Strength of the operator at the top, if that is a binary one outside all parentheses. -/
def strength? : Phrase → Option Nat
  | joined _ op _ => some op.strength
  | _ => none

/-- Whether the end of the phrase belongs to a prefix expression outside all parentheses. -/
def endsPrefixed : Phrase → Bool
  | prefixed _ _ => true
  | joined _ _ right => right.endsPrefixed
  | _ => false

/-- The operator at the top has some strength or more, if it is binary and outside all
parentheses. -/
def IsAtLeast (phrase : Phrase) (strength : Nat) : Prop :=
  ∀ own, phrase.strength? = some own → strength ≤ own

/-- An operator of some strength may have this phrase as its left operand. A prefix operator
extends as far to the right as operators of strength `PrefixOp.operandStrength` or more allow, so
the left operand of one of these is no prefix expression, and does not end in one either. -/
structure IsLeftOf (phrase : Phrase) (strength : Nat) : Prop where
  atLeast : phrase.IsAtLeast strength
  ends : PrefixOp.operandStrength ≤ strength → phrase.endsPrefixed = false

/-- Operands are shared out by strength, and to the left where strengths are equal. -/
def IsGrouped : Phrase → Prop
  | leaf _ => True
  | prefixed _ operand => operand.IsAtLeast PrefixOp.operandStrength ∧ operand.IsGrouped
  | joined left op right =>
    left.IsLeftOf op.strength ∧ right.IsAtLeast (op.strength + 1) ∧
      left.IsGrouped ∧ right.IsGrouped
  | enclosed inner => inner.IsGrouped

end Phrase

/-- The token lists that the grammar derives. -/
def IsSentence (tokens : List Token) : Prop :=
  ∃ phrase : Phrase, phrase.tokens = tokens

/-- A phrase whose tokens stand at some columns. -/
inductive Spells : List Placed → Phrase → Prop
  | leaf {leaf : Leaf} {column : Nat} : Spells [⟨leaf.token, column⟩] (.leaf leaf)
  | prefixed {op : PrefixOp} {operand : Phrase} {column : Nat} {inside : List Placed}
      (spelled : Spells inside operand) :
      Spells (⟨op.token, column⟩ :: inside) (.prefixed op operand)
  | joined {left right : Phrase} {op : BinaryOp} {column : Nat} {before after : List Placed}
      (first : Spells before left) (second : Spells after right) :
      Spells (before ++ ⟨.binary op, column⟩ :: after) (.joined left op right)
  | enclosed {inner : Phrase} {column closed : Nat} {inside : List Placed}
      (spelled : Spells inside inner) :
      Spells (⟨.opening, column⟩ :: (inside ++ [⟨.closing, closed⟩])) (.enclosed inner)

theorem Spells.of_tokens (phrase : Phrase) (placed : List Placed)
    (same : placed.map Placed.token = phrase.tokens) : Spells placed phrase := by
  induction phrase generalizing placed with
  | leaf leaf =>
    obtain ⟨⟨token, column⟩, none, rfl, rfl, empty⟩ := List.map_eq_cons_iff.mp same
    rw [List.map_eq_nil_iff.mp empty]
    exact .leaf
  | prefixed op operand ih =>
    obtain ⟨⟨token, column⟩, inside, rfl, rfl, behind⟩ := List.map_eq_cons_iff.mp same
    exact .prefixed (ih inside behind)
  | joined left op right leftIH rightIH =>
    obtain ⟨before, _, rfl, front, back⟩ := List.map_eq_append_iff.mp same
    obtain ⟨⟨token, column⟩, after, rfl, rfl, behind⟩ := List.map_eq_cons_iff.mp back
    exact .joined (leftIH before front) (rightIH after behind)
  | enclosed inner ih =>
    obtain ⟨⟨token, column⟩, _, rfl, rfl, behind⟩ := List.map_eq_cons_iff.mp same
    obtain ⟨inside, _, rfl, front, back⟩ := List.map_eq_append_iff.mp behind
    obtain ⟨⟨token, closed⟩, none, rfl, rfl, empty⟩ := List.map_eq_cons_iff.mp back
    rw [List.map_eq_nil_iff.mp empty]
    exact .enclosed (ih inside front)

/-! ### Steps of the reader -/

section Steps

variable (finish column : Nat) (waiting : List Waiting) (outer : List Suspended) (operand : Expr)
  (rest : List Placed)

theorem readFrom_leaf (leaf : Leaf) :
    readFrom finish waiting outer none (⟨leaf.token, column⟩ :: rest) =
      readFrom finish waiting outer (some leaf.tree) rest := by
  cases leaf with
  | truth | number | quoted | reference | word => rfl

theorem readFrom_prefix (op : PrefixOp) :
    readFrom finish waiting outer none (⟨op.token, column⟩ :: rest) =
      readFrom finish (.unary op :: waiting) outer none rest := by
  cases op with
  | not | complement | negate => rfl

theorem readFrom_opening :
    readFrom finish waiting outer none (⟨.opening, column⟩ :: rest) =
      readFrom finish [] (⟨column, waiting⟩ :: outer) none rest := rfl

theorem readFrom_binary (op : BinaryOp) :
    readFrom finish waiting outer (some operand) (⟨.binary op, column⟩ :: rest) =
      readFrom finish (.binary (settle op.strength waiting operand).2 op ::
        (settle op.strength waiting operand).1) outer none rest := by
  rw [readFrom]

theorem readFrom_closing (group : Suspended) :
    readFrom finish waiting (group :: outer) (some operand) (⟨.closing, column⟩ :: rest) =
      readFrom finish group.waiting outer (some (settleAll waiting operand)) rest := by
  rw [readFrom]

/-- What a token is that stands where an operand is due. -/
theorem token_of_due (token : Token) (result : Expr)
    (read : readFrom finish waiting outer none (⟨token, column⟩ :: rest) = .ok result) :
    (∃ leaf : Leaf, token = leaf.token) ∨ (∃ op : PrefixOp, token = op.token) ∨
      token = .opening := by
  cases token with
  | truth value => exact .inl ⟨.truth value, rfl⟩
  | number value => exact .inl ⟨.number value, rfl⟩
  | quoted text => exact .inl ⟨.quoted text, rfl⟩
  | reference name => exact .inl ⟨.reference name, rfl⟩
  | word text => exact .inl ⟨.word text, rfl⟩
  | not => exact .inr (.inl ⟨.not, rfl⟩)
  | complement => exact .inr (.inl ⟨.complement, rfl⟩)
  | binary op =>
    cases op with
    | sub => exact .inr (.inl ⟨.negate, rfl⟩)
    | _ => cases read
  | opening => exact .inr (.inr rfl)
  | closing => cases read

/-- What a token is that stands behind an operand. -/
theorem token_of_behind (token : Token) (result : Expr)
    (read : readFrom finish waiting outer (some operand) (⟨token, column⟩ :: rest) = .ok result) :
    (∃ op, token = .binary op) ∨ token = .closing ∧ outer ≠ [] := by
  cases token with
  | binary op => exact .inl ⟨op, rfl⟩
  | closing =>
    cases outer with
    | nil => cases read
    | cons => exact .inr ⟨rfl, List.cons_ne_nil _ _⟩
  | _ => cases outer <;> cases read

end Steps

/-! ### Every sentence is read -/

/-- Whatever waits, a sentence is taken in up to an operand; operators of its own may wait. -/
theorem Spells.readFrom_some {placed : List Placed} {phrase : Phrase}
    (spelled : Spells placed phrase) (finish : Nat) (waiting : List Waiting)
    (outer : List Suspended) (rest : List Placed) :
    ∃ after operand, readFrom finish waiting outer none (placed ++ rest) =
      readFrom finish after outer (some operand) rest := by
  induction spelled generalizing waiting outer rest with
  | leaf => exact ⟨_, _, readFrom_leaf _ _ _ _ _ _⟩
  | prefixed _ ih =>
    rw [List.cons_append, readFrom_prefix]
    exact ih _ outer rest
  | @joined _ _ op column before after _ _ firstIH secondIH =>
    obtain ⟨_, _, read⟩ := firstIH waiting outer (⟨.binary op, column⟩ :: (after ++ rest))
    rw [List.append_assoc, List.cons_append, read, readFrom_binary]
    exact secondIH _ outer rest
  | @enclosed _ column closed inside _ ih =>
    obtain ⟨_, _, read⟩ := ih [] (⟨column, waiting⟩ :: outer) (⟨.closing, closed⟩ :: rest)
    rw [List.cons_append, List.append_assoc, List.singleton_append, readFrom_opening, read,
      readFrom_closing]
    exact ⟨_, _, rfl⟩

/-! ### Grouped phrases are read as their trees -/

/-- An arriving operator of some strength takes an operand away from what waits. -/
def Yields (waiting : List Waiting) (strength : Nat) : Prop :=
  ∀ top, waiting.head? = some top → top.yieldsTo ≤ strength

theorem yields_cons (top : Waiting) (below : List Waiting) (strength : Nat) :
    Yields (top :: below) strength ↔ top.yieldsTo ≤ strength := by
  simp [Yields]

theorem settle_cons (top : Waiting) (below : List Waiting) (strength : Nat) (operand : Expr)
    (settles : strength < top.yieldsTo) :
    settle strength (top :: below) operand = settle strength below (top.apply operand) := by
  rw [settle, if_pos settles]

theorem settle_of_yields (waiting : List Waiting) (strength : Nat) (operand : Expr)
    (yields : Yields waiting strength) : settle strength waiting operand = (waiting, operand) := by
  cases waiting with
  | nil => rfl
  | cons top below => rw [settle, if_neg (Nat.not_lt.mpr ((yields_cons _ _ _).mp yields))]

namespace Phrase

/-- The operators of a phrase that wait when its last operand has been read. -/
def spine : Phrase → List Waiting
  | prefixed op operand => operand.spine ++ [.unary op]
  | joined left op right => right.spine ++ [.binary left.tree op]
  | _ => []

/-- The last operand of a phrase. -/
def last : Phrase → Expr
  | leaf operand => operand.tree
  | prefixed _ operand => operand.last
  | joined _ _ right => right.last
  | enclosed inner => inner.tree

theorem settleAll_spine (phrase : Phrase) (waiting : List Waiting) :
    settleAll (phrase.spine ++ waiting) phrase.last = settleAll waiting phrase.tree := by
  induction phrase generalizing waiting with
  | leaf | enclosed => rfl
  | prefixed op operand ih =>
    rw [spine, List.append_assoc, last, ih]
    rfl
  | joined left op right _ ih =>
    rw [spine, List.append_assoc, last, ih]
    rfl

/-- An operator that takes a whole phrase settles everything that waits in it. -/
theorem settle_spine (phrase : Phrase) (strength : Nat) (waiting : List Waiting)
    (grouped : phrase.IsGrouped) (left : phrase.IsLeftOf strength) :
    settle strength (phrase.spine ++ waiting) phrase.last =
      settle strength waiting phrase.tree := by
  induction phrase generalizing waiting with
  | leaf | enclosed => rfl
  | prefixed op operand ih =>
    -- The phrase ends prefixed, so the operator is weaker than any inside the operand.
    have weak : strength < PrefixOp.operandStrength := by
      apply Nat.lt_of_not_le
      intro strong
      cases left.ends strong
    have inner : operand.IsLeftOf strength := by
      refine ⟨fun own joins => ?_, fun strong => absurd weak (Nat.not_lt.mpr strong)⟩
      exact Nat.le_trans (Nat.le_of_lt weak) (grouped.1 own joins)
    rw [spine, List.append_assoc, last, ih _ grouped.2 inner, List.singleton_append,
      settle_cons _ _ _ _ weak]
    rfl
  | joined front op right _ ih =>
    have weak : strength ≤ op.strength := left.atLeast _ rfl
    have inner : right.IsLeftOf strength := by
      refine ⟨fun own joins => ?_, left.ends⟩
      have stronger := grouped.2.1 own joins
      omega
    rw [spine, List.append_assoc, last, ih _ grouped.2.2.2 inner, List.singleton_append,
      settle_cons _ _ _ _ (Nat.lt_succ_of_le weak)]
    rfl

/-- What waits in front of a phrase leaves its operands to its own operators. -/
def FitsOn (phrase : Phrase) (waiting : List Waiting) : Prop :=
  ∀ own, phrase.strength? = some own → Yields waiting own

theorem fitsOn_nil (phrase : Phrase) : phrase.FitsOn [] :=
  fun _ _ _ top => nomatch top

theorem fitsOn_cons (phrase : Phrase) (top : Waiting) (below : List Waiting) :
    phrase.FitsOn (top :: below) ↔ phrase.IsAtLeast top.yieldsTo := by
  simp only [FitsOn, IsAtLeast, yields_cons]

theorem IsAtLeast.fitsOn {phrase : Phrase} {waiting : List Waiting} {strength : Nat}
    (strong : phrase.IsAtLeast strength) (yields : Yields waiting strength) :
    phrase.FitsOn waiting :=
  fun own joins top first => Nat.le_trans (yields top first) (strong own joins)

end Phrase

/-- A grouped phrase is taken in as its spine says. -/
theorem Spells.readFrom_spine {placed : List Placed} {phrase : Phrase}
    (spelled : Spells placed phrase) (grouped : phrase.IsGrouped) (finish : Nat)
    (waiting : List Waiting) (outer : List Suspended) (rest : List Placed)
    (fits : phrase.FitsOn waiting) :
    readFrom finish waiting outer none (placed ++ rest) =
      readFrom finish (phrase.spine ++ waiting) outer (some phrase.last) rest := by
  induction spelled generalizing waiting outer rest with
  | leaf => exact readFrom_leaf _ _ _ _ _ _
  | @prefixed op operand _ _ _ ih =>
    have inner := (operand.fitsOn_cons (.unary op) waiting).mpr grouped.1
    rw [List.cons_append, readFrom_prefix, ih grouped.2 _ outer rest inner, Phrase.spine,
      List.append_assoc]
    rfl
  | @joined left right op column before after _ _ firstIH secondIH =>
    obtain ⟨leftOf, rightAtLeast, groupedLeft, groupedRight⟩ := grouped
    -- The operator settles the left operand as a whole, and nothing in front of it.
    have yields : Yields waiting op.strength := fits _ rfl
    have settled := (left.settle_spine op.strength waiting groupedLeft leftOf).trans
      (settle_of_yields waiting op.strength left.tree yields)
    have inner := (right.fitsOn_cons (.binary left.tree op) waiting).mpr rightAtLeast
    rw [List.append_assoc, List.cons_append,
      firstIH groupedLeft waiting outer _ (leftOf.atLeast.fitsOn yields), readFrom_binary, settled,
      secondIH groupedRight _ outer rest inner, Phrase.spine, List.append_assoc]
    rfl
  | @enclosed inner column closed inside _ ih =>
    rw [List.cons_append, List.append_assoc, List.singleton_append, readFrom_opening,
      ih grouped [] _ _ inner.fitsOn_nil, readFrom_closing, inner.settleAll_spine]
    rfl

/-- A grouped phrase is read as its tree. -/
theorem readFrom_of_grouped (finish : Nat) (placed : List Placed) (phrase : Phrase)
    (grouped : phrase.IsGrouped) (same : phrase.tokens = placed.map Placed.token) :
    readFrom finish [] [] none placed = .ok phrase.tree := by
  have read := (Spells.of_tokens phrase placed same.symm).readFrom_spine grouped finish [] [] []
    phrase.fitsOn_nil
  rw [List.append_nil] at read
  rw [read, readFrom, phrase.settleAll_spine]
  rfl

/-! ### What is read is a grouped phrase -/

/-- A waiting operator with the phrase in front of it. -/
inductive Pending where
  | prefixed (op : PrefixOp)
  | joined (left : Phrase) (op : BinaryOp)
  deriving DecidableEq, Repr

namespace Pending

def waiting : Pending → Waiting
  | prefixed op => .unary op
  | joined left op => .binary left.tree op

def tokens : Pending → List Token
  | prefixed op => [op.token]
  | joined left op => left.tokens ++ [.binary op]

def apply : Pending → Phrase → Phrase
  | prefixed op, operand => .prefixed op operand
  | joined left op, right => .joined left op right

/-- What waits below a pending operator leaves the left operand to it. -/
def FitsOn : Pending → List Waiting → Prop
  | prefixed _, _ => True
  | joined left op, below => left.IsGrouped ∧ left.IsLeftOf op.strength ∧ Yields below op.strength

variable (top : Pending) (operand : Phrase) (below : List Waiting)

theorem tree_apply : (top.apply operand).tree = top.waiting.apply operand.tree := by
  cases top with
  | prefixed | joined => rfl

theorem tokens_apply : (top.apply operand).tokens = top.tokens ++ operand.tokens := by
  cases top with
  | prefixed op => rfl
  | joined left op => simp [apply, Phrase.tokens, tokens]

theorem grouped_apply (fits : top.FitsOn below) (grouped : operand.IsGrouped)
    (strong : operand.IsAtLeast top.waiting.yieldsTo) : (top.apply operand).IsGrouped := by
  cases top with
  | prefixed op => exact ⟨strong, grouped⟩
  | joined left op => exact ⟨fits.2.1, strong, fits.1, grouped⟩

theorem fitsOn_apply (fits : top.FitsOn below) : (top.apply operand).FitsOn below := by
  cases top with
  | prefixed op => exact fun _ joins => nomatch joins
  | joined left op =>
    intro own joins
    cases joins
    exact fits.2.2

/-- An operator to which the top does not yield may take the phrase that the top gives. -/
theorem isLeftOf_apply (strength : Nat) (settles : strength < top.waiting.yieldsTo)
    (left : operand.IsLeftOf strength) : (top.apply operand).IsLeftOf strength := by
  cases top with
  | prefixed op =>
    exact ⟨fun _ joins => (nomatch joins), fun strong => absurd settles (Nat.not_lt.mpr strong)⟩
  | joined front op =>
    refine ⟨fun own joins => ?_, left.ends⟩
    cases joins
    exact Nat.le_of_lt_succ settles

end Pending

/-- The pending operators of one group, innermost first. -/
def IsStack : List Pending → Prop
  | [] => True
  | top :: below => top.FitsOn (below.map Pending.waiting) ∧ IsStack below

def stackTokens (stack : List Pending) : List Token :=
  stack.reverse.flatMap Pending.tokens

theorem stackTokens_cons (top : Pending) (below : List Pending) :
    stackTokens (top :: below) = stackTokens below ++ top.tokens := by
  simp [stackTokens]

/-- A phrase that stands behind pending operators. -/
structure Phrase.StandsOn (phrase : Phrase) (stack : List Pending) : Prop where
  grouped : phrase.IsGrouped
  ordered : IsStack stack
  fits : phrase.FitsOn (stack.map Pending.waiting)

/-- The top of the pending operators takes the phrase behind it. -/
theorem Phrase.StandsOn.apply {phrase : Phrase} {top : Pending} {below : List Pending}
    (stands : phrase.StandsOn (top :: below)) : (top.apply phrase).StandsOn below where
  grouped := top.grouped_apply phrase _ stands.ordered.1 stands.grouped
    ((phrase.fitsOn_cons _ _).mp stands.fits)
  ordered := stands.ordered.2
  fits := top.fitsOn_apply phrase _ stands.ordered.1

theorem settle_stack (strength : Nat) (stack : List Pending) (operand : Phrase)
    (stands : operand.StandsOn stack) (left : operand.IsLeftOf strength) :
    ∃ (below : List Pending) (phrase : Phrase),
      settle strength (stack.map Pending.waiting) operand.tree =
        (below.map Pending.waiting, phrase.tree) ∧
      phrase.StandsOn below ∧ phrase.IsLeftOf strength ∧
      Yields (below.map Pending.waiting) strength ∧
      stackTokens below ++ phrase.tokens = stackTokens stack ++ operand.tokens := by
  -- Every operator that settles makes a longer phrase of the operand, with its own tokens in front.
  induction stack generalizing operand with
  | nil => exact ⟨[], operand, rfl, stands, left, fun _ top => (nomatch top), rfl⟩
  | cons top below ih =>
    rw [List.map_cons, settle]
    by_cases settles : strength < top.waiting.yieldsTo
    · obtain ⟨rest, phrase, settled, behind, leftOf, yields, same⟩ :=
        ih (top.apply operand) stands.apply (top.isLeftOf_apply operand strength settles left)
      rw [if_pos settles, ← top.tree_apply, settled]
      refine ⟨rest, phrase, rfl, behind, leftOf, yields, ?_⟩
      rw [same, top.tokens_apply, stackTokens_cons, List.append_assoc]
    · rw [if_neg settles]
      exact ⟨top :: below, operand, rfl, stands, left,
        (yields_cons _ _ _).mpr (Nat.not_lt.mp settles), rfl⟩

theorem settleAll_stack (stack : List Pending) (operand : Phrase)
    (stands : operand.StandsOn stack) :
    ∃ phrase : Phrase, settleAll (stack.map Pending.waiting) operand.tree = phrase.tree ∧
      phrase.IsGrouped ∧ phrase.tokens = stackTokens stack ++ operand.tokens := by
  induction stack generalizing operand with
  | nil => exact ⟨operand, rfl, stands.grouped, rfl⟩
  | cons top below ih =>
    obtain ⟨phrase, settled, grouped, same⟩ := ih (top.apply operand) stands.apply
    refine ⟨phrase, ?_, grouped, ?_⟩
    · rw [← settled, top.tree_apply]
      rfl
    · rw [same, top.tokens_apply, stackTokens_cons, List.append_assoc]

/-- A group that is interrupted by an open parenthesis. -/
structure Interrupted where
  column : Nat
  stack : List Pending
  deriving DecidableEq, Repr

def Interrupted.suspended (group : Interrupted) : Suspended :=
  ⟨group.column, group.stack.map Pending.waiting⟩

def groupTokens (groups : List Interrupted) : List Token :=
  groups.reverse.flatMap fun group => stackTokens group.stack ++ [.opening]

theorem groupTokens_cons (group : Interrupted) (outer : List Interrupted) :
    groupTokens (group :: outer) =
      groupTokens outer ++ (stackTokens group.stack ++ [.opening]) := by
  simp [groupTokens]

/-- A phrase that is a single operand. -/
structure Phrase.IsAtom (phrase : Phrase) : Prop where
  grouped : phrase.IsGrouped
  unjoined : phrase.strength? = none
  ends : phrase.endsPrefixed = false

theorem Phrase.IsAtom.isLeftOf {phrase : Phrase} (atom : phrase.IsAtom) (strength : Nat) :
    phrase.IsLeftOf strength := by
  refine ⟨fun own joins => ?_, fun _ => atom.ends⟩
  cases joins.symm.trans atom.unjoined

theorem Phrase.IsAtom.standsOn {phrase : Phrase} (atom : phrase.IsAtom) {stack : List Pending}
    (ordered : IsStack stack) : phrase.StandsOn stack := by
  refine ⟨atom.grouped, ordered, fun own joins => ?_⟩
  cases joins.symm.trans atom.unjoined

/-- A condition that has been read in part. -/
structure HalfRead where
  /-- The pending operators of the innermost group. -/
  stack : List Pending
  groups : List Interrupted
  /-- The operand just read, if none is due. -/
  operand : Option Phrase
  deriving DecidableEq, Repr

namespace HalfRead

/-- The tokens that have been read. -/
def tokens (half : HalfRead) : List Token :=
  groupTokens half.groups ++ (stackTokens half.stack ++ (half.operand.map Phrase.tokens).getD [])

structure IsSound (half : HalfRead) : Prop where
  stack : IsStack half.stack
  groups : ∀ group ∈ half.groups, IsStack group.stack
  operand : ∀ phrase, half.operand = some phrase → phrase.IsAtom

/-- What the reader makes of the remaining tokens. -/
def readOn (half : HalfRead) (finish : Nat) (placed : List Placed) : Except EvalError Expr :=
  readFrom finish (half.stack.map Pending.waiting) (half.groups.map Interrupted.suspended)
    (half.operand.map Phrase.tree) placed

/-- A half-read condition from which reading goes on behind one more token. -/
structure Follows (half next : HalfRead) (finish : Nat) (token : Token) (rest : List Placed)
    (result : Expr) : Prop where
  sound : next.IsSound
  tokens : next.tokens = half.tokens ++ [token]
  read : next.readOn finish rest = .ok result

variable {stack : List Pending} {groups : List Interrupted} {finish column : Nat} {token : Token}
  {rest : List Placed} {result : Expr}

theorem step_due (sound : IsSound ⟨stack, groups, none⟩)
    (read : readOn ⟨stack, groups, none⟩ finish (⟨token, column⟩ :: rest) = .ok result) :
    ∃ next, Follows ⟨stack, groups, none⟩ next finish token rest result := by
  rcases token_of_due finish column _ _ rest token result read with
    ⟨leaf, rfl⟩ | ⟨op, rfl⟩ | rfl
  · rw [readOn, Option.map_none, readFrom_leaf] at read
    refine ⟨⟨stack, groups, some (.leaf leaf)⟩, { sound with operand := ?_ }, ?_, read⟩
    · rintro phrase ⟨⟩
      exact ⟨trivial, rfl, rfl⟩
    · simp [tokens, Phrase.tokens]
  · rw [readOn, Option.map_none, readFrom_prefix] at read
    refine ⟨⟨.prefixed op :: stack, groups, none⟩, { sound with stack := ?_ }, ?_, read⟩
    · exact ⟨trivial, sound.stack⟩
    · simp [tokens, stackTokens_cons, Pending.tokens]
  · rw [readOn, Option.map_none, readFrom_opening] at read
    refine ⟨⟨[], ⟨column, stack⟩ :: groups, none⟩, { sound with stack := trivial, groups := ?_ },
      ?_, read⟩
    · exact List.forall_mem_cons.mpr ⟨sound.stack, sound.groups⟩
    · simp [tokens, groupTokens_cons, stackTokens]

theorem step_behind {operand : Phrase} (sound : IsSound ⟨stack, groups, some operand⟩)
    (read : readOn ⟨stack, groups, some operand⟩ finish (⟨token, column⟩ :: rest) = .ok result) :
    ∃ next, Follows ⟨stack, groups, some operand⟩ next finish token rest result := by
  have atom := sound.operand operand rfl
  have stands := atom.standsOn sound.stack
  rcases token_of_behind finish column _ _ _ rest token result read with ⟨op, rfl⟩ | ⟨rfl, inside⟩
  · obtain ⟨below, left, settled, behind, leftOf, yields, moved⟩ :=
      settle_stack op.strength stack operand stands (atom.isLeftOf op.strength)
    rw [readOn, Option.map_some, readFrom_binary, settled] at read
    refine ⟨⟨.joined left op :: below, groups, none⟩,
      ⟨?_, sound.groups, fun _ given => nomatch given⟩, ?_, read⟩
    · exact ⟨⟨behind.grouped, leftOf, yields⟩, behind.ordered⟩
    · simp only [tokens, stackTokens_cons, Pending.tokens, Option.map_some, Option.getD_some,
        Option.map_none, Option.getD_none, ← List.append_assoc, List.append_nil]
      rw [List.append_assoc _ (stackTokens below), moved, ← List.append_assoc]
  · cases groups with
    | nil => exact absurd rfl inside
    | cons group outer =>
      -- The group that ends is one operand of the group around it.
      obtain ⟨inner, settled, grouped, made⟩ := settleAll_stack stack operand stands
      have ⟨first, others⟩ := List.forall_mem_cons.mp sound.groups
      rw [readOn, Option.map_some, List.map_cons, readFrom_closing, settled] at read
      refine ⟨⟨group.stack, outer, some (.enclosed inner)⟩, ⟨first, others, ?_⟩, ?_, read⟩
      · rintro phrase ⟨⟩
        exact ⟨grouped, rfl, rfl⟩
      · simp [tokens, groupTokens_cons, Phrase.tokens, made]

/-- What has been read and what is read from there make up a grouped phrase. -/
theorem exists_grouped (half : HalfRead) (placed : List Placed) (sound : half.IsSound)
    (read : half.readOn finish placed = .ok result) :
    ∃ phrase : Phrase, phrase.IsGrouped ∧ phrase.tree = result ∧
      phrase.tokens = half.tokens ++ placed.map Placed.token := by
  induction placed generalizing half with
  | nil =>
    obtain ⟨stack, groups, operand⟩ := half
    cases operand with
    | none => cases read
    | some operand =>
      cases groups with
      | cons => cases read
      | nil =>
        obtain ⟨phrase, settled, grouped, same⟩ :=
          settleAll_stack stack operand ((sound.operand operand rfl).standsOn sound.stack)
        rw [readOn, Option.map_some, List.map_nil, readFrom, settled] at read
        cases read
        exact ⟨phrase, grouped, rfl, by simpa [tokens, groupTokens] using same⟩
  | cons first rest ih =>
    -- One token further the condition is half-read again, and what was read is one token longer.
    have ⟨next, follows⟩ : ∃ next, Follows half next finish first.token rest result := by
      obtain ⟨stack, groups, operand⟩ := half
      cases operand with
      | none => exact step_due sound read
      | some operand => exact step_behind sound read
    obtain ⟨phrase, grouped, tree, same⟩ := ih next follows.sound follows.read
    refine ⟨phrase, grouped, tree, ?_⟩
    rw [same, follows.tokens, List.append_assoc]
    rfl

end HalfRead

theorem exists_grouped_of_readFrom (finish : Nat) (placed : List Placed) (result : Expr)
    (read : readFrom finish [] [] none placed = .ok result) :
    ∃ phrase : Phrase, phrase.IsGrouped ∧ phrase.tree = result ∧
      phrase.tokens = placed.map Placed.token :=
  HalfRead.exists_grouped ⟨[], [], none⟩ placed
    ⟨trivial, fun _ member => (nomatch member), fun _ given => (nomatch given)⟩ read

/-! ### The reader and the grammar -/

/-- The reader succeeds on exactly the sentences of the grammar, and gives the tree of the phrase
that spells the tokens and is grouped by strength. -/
theorem readFrom_accepts_sentences (finish : Nat) (placed : List Placed) :
    ((∃ result, readFrom finish [] [] none placed = .ok result) ↔
      IsSentence (placed.map Placed.token)) ∧
    ∀ result, readFrom finish [] [] none placed = .ok result ↔
      ∃ phrase : Phrase, phrase.tree = result ∧ phrase.tokens = placed.map Placed.token ∧
        phrase.IsGrouped := by
  refine ⟨⟨?_, ?_⟩, fun result => ⟨?_, ?_⟩⟩
  · rintro ⟨result, read⟩
    obtain ⟨phrase, _, _, same⟩ := exists_grouped_of_readFrom finish placed result read
    exact ⟨phrase, same⟩
  · rintro ⟨phrase, same⟩
    obtain ⟨waiting, operand, read⟩ :=
      (Spells.of_tokens phrase placed same.symm).readFrom_some finish [] [] []
    rw [List.append_nil] at read
    exact ⟨settleAll waiting operand, read⟩
  · intro read
    obtain ⟨phrase, grouped, tree, same⟩ := exists_grouped_of_readFrom finish placed result read
    exact ⟨phrase, tree, same, grouped⟩
  · rintro ⟨phrase, rfl, same, grouped⟩
    exact readFrom_of_grouped finish placed phrase grouped same

-- The prefix operator takes in the membership behind it, and no more.
example :
    (parse "A * -B in C == D").toOption =
      some (.binary .eq (.binary .mul (.word "A")
        (.unary .negate (.binary .isIn (.word "B") (.word "C")))) (.word "D")) := by
  decide +kernel

end FirmwareWorkspace.Expression
