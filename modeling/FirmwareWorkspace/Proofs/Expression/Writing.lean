import FirmwareWorkspace.Proofs.Expression.Grammar
import FirmwareWorkspace.Proofs.Expression.Lexeme

/-!
# Writing conditions and reading them back

A tree is written with every sub-expression in parentheses, so that no strength matters, and each
token in its own spelling. A tree that was read from some text holds only what can be spelled, and
what is written of it is read as the same tree.

Main result: `parse_written`.
-/
namespace FirmwareWorkspace.Expression

/-! ### Written trees -/

/-- A tree as a phrase with every sub-expression in parentheses. -/
def Expr.enclosed : Expr → Phrase
  | truth value => .enclosed (.leaf (.truth value))
  | number value => .enclosed (.leaf (.number value))
  | quoted text => .enclosed (.leaf (.quoted text))
  | reference name => .enclosed (.leaf (.reference name))
  | word text => .enclosed (.leaf (.word text))
  | unary op operand => .enclosed (.prefixed op operand.enclosed)
  | binary op left right => .enclosed (.joined left.enclosed op right.enclosed)

/-- Tokens in their spellings, with the same blanks behind each. -/
def spelled (gap : List Char) (tokens : List Token) : List Char :=
  tokens.flatMap fun token => token.spelling ++ gap

/-- A tree as a text with every sub-expression in parentheses. -/
def Expr.written (gap : List Char) (tree : Expr) : String :=
  .ofList (spelled gap tree.enclosed.tokens)

namespace Expr

theorem tree_enclosed (tree : Expr) : tree.enclosed.tree = tree := by
  induction tree with
  | truth | number | quoted | reference | word => rfl
  | unary op operand ih => simp only [enclosed, Phrase.tree, ih]
  | binary op left right leftIH rightIH => simp only [enclosed, Phrase.tree, leftIH, rightIH]

/-- Written trees start with a parenthesis. -/
theorem tokens_enclosed (tree : Expr) : ∃ inside, tree.enclosed.tokens = .opening :: inside := by
  cases tree with
  | _ => exact ⟨_, rfl⟩

theorem isAtLeast_enclosed (tree : Expr) (strength : Nat) : tree.enclosed.IsAtLeast strength := by
  cases tree with
  | _ => exact fun _ joins => nomatch joins

theorem isLeftOf_enclosed (tree : Expr) (strength : Nat) : tree.enclosed.IsLeftOf strength := by
  refine ⟨tree.isAtLeast_enclosed strength, fun _ => ?_⟩
  cases tree with
  | _ => rfl

theorem isGrouped_enclosed (tree : Expr) : tree.enclosed.IsGrouped := by
  induction tree with
  | truth | number | quoted | reference | word => trivial
  | unary op operand ih => exact ⟨operand.isAtLeast_enclosed _, ih⟩
  | binary op left right leftIH rightIH =>
    exact ⟨left.isLeftOf_enclosed _, right.isAtLeast_enclosed _, leftIH, rightIH⟩

end Expr

/-! ### Reading spelled tokens -/

/-- The characters that a token covers are passed over. -/
theorem tokensFrom_covered (column : Nat) (front rest : List Char) :
    ∃ later, tokensFrom column front.length (front ++ rest) = tokensFrom later 0 rest := by
  induction front generalizing column with
  | nil => exact ⟨column, rfl⟩
  | cons c front ih =>
    rw [List.length_cons, List.cons_append, tokensFrom]
    exact ih _

theorem tokensFrom_gap (column : Nat) (gap rest : List Char) (blank : ∀ c ∈ gap, isGap c = true) :
    ∃ later, tokensFrom column 0 (gap ++ rest) = tokensFrom later 0 rest := by
  induction gap generalizing column with
  | nil => exact ⟨column, rfl⟩
  | cons c gap ih =>
    have ⟨first, others⟩ := List.forall_mem_cons.mp blank
    have passed : lexeme c (gap ++ rest) = .blank := by rw [lexeme, if_pos first]
    rw [List.cons_append, tokensFrom, passed]
    exact ih _ others

theorem tokensFrom_token (column : Nat) (token : Token) (rest : List Char)
    (reads : token.ReadsBefore rest) :
    ∃ later, tokensFrom column 0 (token.spelling ++ rest) =
      (tokensFrom later 0 rest).map (⟨token, column⟩ :: ·) := by
  obtain ⟨c, cs, spelling, read⟩ := reads
  rw [spelling, List.length_cons] at read
  obtain ⟨later, passed⟩ := tokensFrom_covered (column + c.utf8Size) cs rest
  refine ⟨later, ?_⟩
  rw [spelling, List.cons_append, tokensFrom, read]
  dsimp only
  rw [Nat.add_sub_cancel, passed]
  cases tokensFrom later 0 rest with
  | error | ok => rfl

/-- No token runs into the next one. -/
def IsParted (gap : List Char) : List Token → Prop
  | [] => True
  | token :: rest =>
    (token.isParenthesis = true ∨ IsDelimited (gap ++ spelled gap rest)) ∧ IsParted gap rest

theorem tokensFrom_spelled (gap : List Char) (blank : ∀ c ∈ gap, isGap c = true)
    (tokens : List Token) (written : ∀ token ∈ tokens, token.IsWritten)
    (parted : IsParted gap tokens) (column : Nat) :
    ∃ placed, tokensFrom column 0 (spelled gap tokens) = .ok placed ∧
      placed.map Placed.token = tokens := by
  induction tokens generalizing column with
  | nil => exact ⟨[], rfl, rfl⟩
  | cons token rest ih =>
    have ⟨first, others⟩ := List.forall_mem_cons.mp written
    obtain ⟨later, read⟩ := tokensFrom_token column token (gap ++ spelled gap rest)
      (lexeme_spelling token _ first parted.1)
    obtain ⟨next, passed⟩ := tokensFrom_gap later gap (spelled gap rest) blank
    obtain ⟨placed, tokenized, same⟩ := ih others parted.2 next
    refine ⟨⟨token, column⟩ :: placed, ?_, by rw [List.map_cons, same]⟩
    have split : spelled gap (token :: rest) = token.spelling ++ (gap ++ spelled gap rest) := by
      rw [spelled, List.flatMap_cons, List.append_assoc]
      rfl
    rw [split, read, passed, tokenized]
    rfl

theorem isParted_enclosed (gap : List Char) (blank : ∀ c ∈ gap, isGap c = true) (tree : Expr)
    (rest : List Token) (parted : IsParted gap rest) :
    IsParted gap (tree.enclosed.tokens ++ rest) := by
  -- Every token that is no parenthesis stands in front of one.
  have before (paren : Token) (known : paren.isParenthesis = true) (tail : List Token) :
      IsDelimited (gap ++ spelled gap (paren :: tail)) := by
    apply isDelimited_append gap _ blank
    cases paren with
    | opening | closing =>
      rintro c ⟨⟩
      decide
    | _ => cases known
  have closed : IsParted gap (.closing :: rest) := ⟨.inl rfl, parted⟩
  induction tree generalizing rest with
  | truth | number | quoted | reference | word =>
    exact ⟨.inl rfl, .inr (before .closing rfl rest), closed⟩
  | unary op operand ih =>
    have inner := ih (.closing :: rest) closed ⟨.inl rfl, closed⟩
    obtain ⟨inside, opens⟩ := operand.tokens_enclosed
    simp only [Expr.enclosed, Phrase.tokens, List.cons_append, List.append_assoc, List.nil_append]
    rw [opens] at inner ⊢
    exact ⟨.inl rfl, .inr (before .opening rfl _), inner⟩
  | binary op left right leftIH rightIH =>
    have second := rightIH (.closing :: rest) closed ⟨.inl rfl, closed⟩
    obtain ⟨inside, opens⟩ := right.tokens_enclosed
    have joined : IsParted gap (.binary op :: (right.enclosed.tokens ++ .closing :: rest)) := by
      rw [opens] at second ⊢
      exact ⟨.inr (before .opening rfl _), second⟩
    have first := leftIH _ joined ⟨.inl rfl, joined⟩
    simp only [Expr.enclosed, Phrase.tokens, List.cons_append, List.append_assoc, List.nil_append]
    exact ⟨.inl rfl, first⟩

/-! ### What a tree holds that was read -/

theorem isWritten_of_tokensFrom (column covered : Nat) (cs : List Char) (placed : List Placed)
    (tokenized : tokensFrom column covered cs = .ok placed) :
    ∀ entry ∈ placed, entry.token.IsWritten := by
  fun_induction tokensFrom column covered cs generalizing placed with
  | case1 =>
    cases tokenized
    exact fun _ member => nomatch member
  | case2 column c rest left ih => exact ih placed tokenized
  | case3 column c rest blank ih => exact ih placed tokenized
  | case4 => cases tokenized
  | case5 => cases tokenized
  | case6 column c rest token size read tokens inner ih =>
    cases tokenized
    exact List.forall_mem_cons.mpr ⟨isWritten_of_lexeme c rest token size read, ih tokens inner⟩

theorem Leaf.enclosed_tree (leaf : Leaf) : leaf.tree.enclosed = .enclosed (.leaf leaf) := by
  cases leaf with
  | _ => rfl

theorem PrefixOp.isWritten_token (op : PrefixOp) : op.token.IsWritten := by
  cases op with
  | _ => trivial

/-- Parentheses and operators apart, a written tree has the tokens of the phrase it came from. -/
theorem Phrase.isWritten_enclosed (phrase : Phrase)
    (written : ∀ token ∈ phrase.tokens, token.IsWritten) :
    ∀ token ∈ phrase.tree.enclosed.tokens, token.IsWritten := by
  have closing : ∀ token ∈ [Token.closing], token.IsWritten := by simp [Token.IsWritten]
  induction phrase with
  | leaf leaf =>
    rw [tree, leaf.enclosed_tree]
    exact List.forall_mem_cons.mpr ⟨trivial, List.forall_mem_append.mpr ⟨written, closing⟩⟩
  | prefixed op operand ih =>
    obtain ⟨_, inner⟩ := List.forall_mem_cons.mp written
    exact List.forall_mem_cons.mpr ⟨trivial, List.forall_mem_append.mpr
      ⟨List.forall_mem_cons.mpr ⟨op.isWritten_token, ih inner⟩, closing⟩⟩
  | joined left op right leftIH rightIH =>
    obtain ⟨first, others⟩ := List.forall_mem_append.mp written
    obtain ⟨_, second⟩ := List.forall_mem_cons.mp others
    exact List.forall_mem_cons.mpr ⟨trivial, List.forall_mem_append.mpr
      ⟨List.forall_mem_append.mpr ⟨leftIH first,
        List.forall_mem_cons.mpr ⟨trivial, rightIH second⟩⟩, closing⟩⟩
  | enclosed inner ih =>
    obtain ⟨_, others⟩ := List.forall_mem_cons.mp written
    exact ih (List.forall_mem_append.mp others).1

/-! ### Reading written trees -/

theorem parse_eq_ok_iff (text : String) (tree : Expr) :
    parse text = .ok tree ↔ ∃ placed, tokenize text = .ok placed ∧
      readFrom (Text.byteLength text) [] [] none placed = .ok tree := by
  unfold parse
  cases tokenize text with
  | error fault => simp
  | ok placed =>
    cases placed with
    | nil => simp [readFrom]
    | cons first rest => simp

/-- A tree that was read is read again from what is written of it, with any blanks between the
tokens. -/
theorem parse_written (text : String) (tree : Expr) (gap : List Char)
    (blank : ∀ c ∈ gap, isGap c = true) (parsed : parse text = .ok tree) :
    parse (tree.written gap) = .ok tree := by
  obtain ⟨placed, tokenized, read⟩ := (parse_eq_ok_iff text tree).mp parsed
  obtain ⟨phrase, _, rfl, same⟩ := exists_grouped_of_readFrom _ placed tree read
  have written : ∀ token ∈ phrase.tokens, token.IsWritten := by
    rw [same]
    exact List.forall_mem_map.mpr (isWritten_of_tokensFrom 0 0 text.toList placed tokenized)
  have parted := isParted_enclosed gap blank phrase.tree [] trivial
  rw [List.append_nil] at parted
  obtain ⟨again, retokenized, spelling⟩ := tokensFrom_spelled gap blank _
    (phrase.isWritten_enclosed written) parted 0
  refine (parse_eq_ok_iff _ _).mpr ⟨again, ?_, ?_⟩
  · rw [tokenize, Expr.written, String.toList_ofList]
    exact retokenized
  · rw [readFrom_of_grouped _ again phrase.tree.enclosed (Expr.isGrouped_enclosed _) spelling.symm,
      Expr.tree_enclosed]

theorem isDelimited_space (rest : List Char) : IsDelimited (' ' :: rest) := by
  rintro c ⟨⟩
  decide

/-- Two operands with an operator between them, and single blanks, are read as such. -/
theorem parse_joined (text : String) (left right : Leaf) (op : BinaryOp)
    (written : left.token.IsWritten) (writtenToo : right.token.IsWritten)
    (spelled : text.toList = left.token.spelling ++ ' ' :: (op.symbol.toList ++
      ' ' :: right.token.spelling)) :
    parse text = .ok (.binary op left.tree right.tree) := by
  have blank : ∀ c ∈ [' '], isGap c = true := List.all_eq_true.mp rfl
  obtain ⟨behindLeft, first⟩ := tokensFrom_token 0 left.token
    (' ' :: (op.symbol.toList ++ ' ' :: right.token.spelling))
    (lexeme_spelling _ _ written (.inr (isDelimited_space _)))
  obtain ⟨atOp, firstGap⟩ := tokensFrom_gap behindLeft [' ']
    (op.symbol.toList ++ ' ' :: right.token.spelling) blank
  obtain ⟨behindOp, middle⟩ := tokensFrom_token atOp (.binary op) (' ' :: right.token.spelling)
    (lexeme_spelling _ _ trivial (.inr (isDelimited_space _)))
  obtain ⟨atRight, secondGap⟩ := tokensFrom_gap behindOp [' '] right.token.spelling blank
  obtain ⟨behindRight, last⟩ := tokensFrom_token atRight right.token []
    (lexeme_spelling _ _ writtenToo (.inr fun _ none => nomatch none))
  refine (parse_eq_ok_iff _ _).mpr ⟨[⟨left.token, 0⟩, ⟨.binary op, atOp⟩, ⟨right.token, atRight⟩],
    ?_, readFrom_of_grouped _ _ (.joined (.leaf left) op (.leaf right)) ?_ rfl⟩
  · rw [List.append_nil] at last
    rw [tokenize, spelled, first]
    exact congrArg _ (firstGap.trans (middle.trans (congrArg _ (secondGap.trans last))))
  · exact ⟨⟨nofun, fun _ => rfl⟩, nofun, trivial, trivial⟩

/-! ### A condition with an inner quote -/

def sampleTree : Expr :=
  .unary .not (.binary .shl
    (.binary .isIn (.quoted "say \"hi\"") (.word "gSpace.PcdNames[1]")) (.number 31))

/-- The quotes change, since the text holds double ones, and the number is written in decimal. -/
theorem sampleTree_written :
    parse "NOT 'say \"hi\"' IN gSpace.PcdNames[1] << 0x1F" = .ok sampleTree ∧
      sampleTree.written [] = "(not((('say \"hi\"')in(gSpace.PcdNames[1]))<<(31)))" ∧
      parse (sampleTree.written []) = .ok sampleTree := by
  have parsed : parse "NOT 'say \"hi\"' IN gSpace.PcdNames[1] << 0x1F" = .ok sampleTree := by
    decide +kernel
  exact ⟨parsed, by decide +kernel, parse_written _ _ [] (fun _ blank => nomatch blank) parsed⟩

end FirmwareWorkspace.Expression
