import FirmwareWorkspace.Expression.Lexer
import Mathlib.Data.List.Basic
import Mathlib.Data.List.TakeWhile

/-!
# Spellings of tokens

Many texts are read as the same token: letter case, the base of a number and the quotes of a
string are not kept. Every token that some text is read as has one spelling, which is read as that
token again wherever a blank, a parenthesis or the end of the text follows.

Main results: `isWritten_of_lexeme` and `lexeme_spelling`.
-/
namespace FirmwareWorkspace.Expression

/-! ### Delimiters -/

/-- The characters at which every token but a string ends. -/
def delimiters : List Char :=
  [' ', '\t', '\r', '\n', '\x0c', '(', ')']

/-- A delimiter comes next, or nothing. -/
def IsDelimited (rest : List Char) : Prop :=
  ∀ c, rest.head? = some c → c ∈ delimiters

theorem mem_delimiters_of_isGap (c : Char) (gap : isGap c = true) : c ∈ delimiters := by
  simp only [isGap, Bool.or_eq_true, beq_iff_eq] at gap
  rcases gap with (((rfl | rfl) | rfl) | rfl) | rfl <;> decide

theorem isGap_eq_false (isKind : Char → Bool) (c : Char) (kind : isKind c = true)
    (apart : delimiters.any isKind = false) : isGap c = false := by
  rw [Bool.eq_false_iff]
  intro gap
  exact List.any_eq_false.mp apart c (mem_delimiters_of_isGap c gap) kind

theorem isDelimited_append (gap rest : List Char) (blank : ∀ c ∈ gap, isGap c = true)
    (delimited : IsDelimited rest) : IsDelimited (gap ++ rest) := by
  cases gap with
  | nil => exact delimited
  | cons first others =>
    rintro c ⟨⟩
    exact mem_delimiters_of_isGap _ (blank _ (.head _))

/-- Characters of a kind to which no delimiter belongs are taken up to the delimiter. -/
theorem takeWhile_of_delimited (isKind : Char → Bool) (front rest : List Char)
    (kind : ∀ c ∈ front, isKind c = true) (apart : delimiters.any isKind = false)
    (delimited : IsDelimited rest) :
    (front ++ rest).takeWhile isKind = front ∧ (front ++ rest).dropWhile isKind = rest := by
  rw [List.takeWhile_append_of_pos kind, List.dropWhile_append_of_pos kind]
  cases rest with
  | nil => simp
  | cons c others => simp [List.any_eq_false.mp apart c (delimited c rfl)]

/-! ### Bodies of strings -/

/-- The text between two such quotes. -/
inductive IsBody (quote : Char) : List Char → Prop
  | nil : IsBody quote []
  | plain {c : Char} {rest : List Char} (other : c ≠ quote) (unescaped : c ≠ '\\')
      (tail : IsBody quote rest) : IsBody quote (c :: rest)
  | escaped {c : Char} {rest : List Char} (foreign : '\\' ≠ quote) (inLine : c ≠ '\n')
      (tail : IsBody quote rest) : IsBody quote ('\\' :: c :: rest)

theorem isBody_of_quotedBody (quote : Char) (cs : List Char) (size : Nat)
    (closed : quotedBody quote cs = (size, true)) : IsBody quote (cs.take size) := by
  fun_induction quotedBody quote cs generalizing size with
  | case1 | case3 | case4 | case6 => cases closed
  | case2 | case5 =>
    cases closed
    exact .nil
  | case7 c rest inLine inner ends found foreign ih =>
    cases closed
    exact .escaped foreign inLine (ih inner found)
  | case8 c d rest other unescaped inner ends found ih =>
    cases closed
    exact .plain other unescaped (ih inner found)

theorem quotedBody_append {quote : Char} {body : List Char} (isBody : IsBody quote body)
    (rest : List Char) : quotedBody quote (body ++ quote :: rest) = (body.length, true) := by
  induction isBody with
  | nil =>
    cases rest with
    | nil | cons => simp [quotedBody]
  | @plain c body other unescaped _ ih =>
    -- Behind a plain character there is at least the closing quote.
    obtain ⟨d, others, next⟩ : ∃ d others, body ++ quote :: rest = d :: others :=
      List.exists_cons_of_ne_nil (by simp)
    rw [next] at ih
    simp [next, quotedBody, other, unescaped, ih]
  | escaped foreign inLine _ ih => simp [quotedBody, foreign, inLine, ih]

/-! ### Tails of words -/

/-- A word behind its first character. -/
inductive IsTail : Bool → List Char → Prop
  | nil {dotted : Bool} : IsTail dotted []
  | part {dotted : Bool} {c : Char} {rest : List Char} (inside : wordTail.inSegment dotted c = true)
      (tail : IsTail dotted rest) : IsTail dotted (c :: rest)
  | dot {dotted : Bool} {c : Char} {rest : List Char} (starts : Chars.isIdentStart c = true)
      (tail : IsTail true rest) : IsTail dotted ('.' :: c :: rest)

theorem isTail_take (dotted : Bool) (cs : List Char) :
    IsTail dotted (cs.take (wordTail dotted cs)) := by
  fun_induction wordTail dotted cs with
  | case1 | case3 | case6 => exact .nil
  | case2 dotted c inside => exact .part inside .nil
  | case4 dotted c d rest inside ih => exact .part inside ih
  | case5 dotted c d rest _ starts ih =>
    simp only [Bool.and_eq_true, decide_eq_true_eq] at starts
    rw [starts.1]
    exact .dot starts.2 ih

theorem isTail_of_identifier (dotted : Bool) (cs : List Char)
    (parts : cs.all Chars.isIdentPart = true) : IsTail dotted cs := by
  induction cs with
  | nil => exact .nil
  | cons c rest ih =>
    simp only [List.all_cons, Bool.and_eq_true] at parts
    exact .part (by simp [wordTail.inSegment, parts.1]) (ih parts.2)

theorem any_inSegment_delimiters (dotted : Bool) :
    delimiters.any (wordTail.inSegment dotted) = false := by
  cases dotted <;> decide

theorem wordTail_of_delimited (dotted : Bool) (rest : List Char) (delimited : IsDelimited rest) :
    wordTail dotted rest = 0 := by
  cases rest with
  | nil => rfl
  | cons c others =>
    have ends := delimited c rfl
    have outside := List.any_eq_false.mp (any_inSegment_delimiters dotted) c ends
    have undotted : c ≠ '.' := by
      rintro rfl
      exact absurd ends (by decide)
    cases others with
    | nil | cons => simp [wordTail, outside, undotted]

theorem wordTail_append {dotted : Bool} {tail : List Char} (isTail : IsTail dotted tail)
    (rest : List Char) (delimited : IsDelimited rest) :
    wordTail dotted (tail ++ rest) = tail.length := by
  induction isTail with
  | nil => exact wordTail_of_delimited _ rest delimited
  | @part dotted c tail inside _ ih =>
    cases next : tail ++ rest with
    | nil =>
      rw [next] at ih
      simp [next, wordTail, inside, ← ih]
    | cons d others =>
      rw [next] at ih
      simp [next, wordTail, inside, ih]
  | @dot dotted c tail starts _ ih =>
    have outside : wordTail.inSegment dotted '.' = false := by cases dotted <;> decide
    simp [wordTail, outside, starts, ih]

/-! ### Tokens that are read from some text -/

/-- What a token is like that some text is read as. -/
def Token.IsWritten : Token → Prop
  | reference name => ∃ c cs, name = .ofList (c :: cs) ∧ Chars.isIdentStart c = true ∧
      ∀ d ∈ cs, Chars.isIdentPart d = true
  | number value => value ≤ Integer.largest
  | quoted text => IsBody '"' text.toList ∨ IsBody '\'' text.toList
  | word text => keyword? text = none ∧
      ∃ c cs, text = .ofList (c :: cs) ∧ Chars.isIdentStart c = true ∧ IsTail false cs
  | _ => True

section Written

variable (c : Char) (rest : List Char) (token : Token) (size : Nat)

theorem isWritten_of_reference (read : referenceLexeme rest = .token token size) :
    token.IsWritten := by
  unfold referenceLexeme at read
  split at read
  next c others =>
    split at read
    next starts =>
      dsimp only at read
      split at read
      · cases read
        exact ⟨c, _, rfl, starts, fun _ part => List.mem_takeWhile_imp part⟩
      · cases read
    · cases read
  · cases read

theorem isWritten_of_number (value length : Nat)
    (read : numberLexeme value length = .token token size) : token.IsWritten := by
  unfold numberLexeme at read
  split at read
  next small =>
    cases read
    exact small
  · cases read

theorem isWritten_of_digits (read : digitsLexeme c rest = .token token size) :
    token.IsWritten := by
  unfold digitsLexeme at read
  split at read
  · split at read
    · exact isWritten_of_number _ _ _ _ read
    · exact isWritten_of_number _ _ _ _ read
  · exact isWritten_of_number _ _ _ _ read

theorem isWritten_of_quoted (opening : Nat) (quote : Char) (known : quote = '"' ∨ quote = '\'')
    (read : quotedLexeme opening quote rest = .token token size) : token.IsWritten := by
  unfold quotedLexeme at read
  split at read
  next length closed =>
    cases read
    have body := isBody_of_quotedBody quote rest length closed
    rw [Token.IsWritten, String.toList_ofList]
    rcases known with rfl | rfl
    · exact .inl body
    · exact .inr body
  · cases read

theorem isWritten_of_keyword (word : String) (found : keyword? word = some token) :
    token.IsWritten := by
  unfold keyword? at found
  split at found
  all_goals cases found
  all_goals trivial

theorem isWritten_of_word (starts : Chars.isIdentStart c = true)
    (read : wordLexeme c rest = .token token size) : token.IsWritten := by
  unfold wordLexeme at read
  cases found : keyword? (.ofList (c :: rest.take (wordTail false rest))) with
  | none =>
    simp only [found, Option.getD_none] at read
    cases read
    exact ⟨found, c, _, rfl, starts, isTail_take false rest⟩
  | some known =>
    simp only [found, Option.getD_some] at read
    cases read
    exact isWritten_of_keyword _ _ found

theorem isWritten_of_symbol (next : Option Char) (read : symbolLexeme c next = .token token size) :
    token.IsWritten := by
  unfold symbolLexeme at read
  split at read
  all_goals cases read
  all_goals trivial

theorem isWritten_of_lexeme (read : lexeme c rest = .token token size) : token.IsWritten := by
  -- The first character tells the kind of the token; the cases come in the order of the tests.
  unfold lexeme at read
  split at read
  · cases read
  split at read
  · exact isWritten_of_reference rest token size read
  split at read
  · exact isWritten_of_digits c rest token size read
  split at read
  next quote =>
    simp only [Bool.or_eq_true, decide_eq_true_eq] at quote
    exact isWritten_of_quoted rest token size 1 c quote read
  split at read
  · exact isWritten_of_quoted _ token size 2 '"' (.inl rfl) read
  split at read
  next starts => exact isWritten_of_word c rest token size starts read
  · exact isWritten_of_symbol c token size _ read

end Written

/-! ### Spellings -/

/-- A quote under which a text is read as one string, if there is one. -/
def quoteFor (text : String) : Char :=
  if quotedBody '"' (text.toList ++ ['"']) = (text.toList.length, true) then '"' else '\''

/-- The spelling of a token. -/
def Token.spelling : Token → List Char
  | reference name => "$(".toList ++ name.toList ++ [')']
  | number value => (toString value).toList
  | quoted text => quoteFor text :: (text.toList ++ [quoteFor text])
  | truth value => (truthText value).toList
  | word text => text.toList
  | binary op => op.symbol.toList
  | not => PrefixOp.not.symbol.toList
  | complement => PrefixOp.complement.symbol.toList
  | opening => ['(']
  | closing => [')']

theorem isBody_quoteFor (text : String)
    (written : IsBody '"' text.toList ∨ IsBody '\'' text.toList) :
    IsBody (quoteFor text) text.toList := by
  unfold quoteFor
  split
  next closes =>
    have body := isBody_of_quotedBody _ _ _ closes
    rwa [List.take_left] at body
  next unclosed =>
    exact written.resolve_left fun body => unclosed (quotedBody_append body [])

/-- A spelling is read as its token, whatever follows it. -/
def Token.ReadsBefore (token : Token) (rest : List Char) : Prop :=
  ∃ c cs, token.spelling = c :: cs ∧ lexeme c (cs ++ rest) = .token token token.spelling.length

section Spelled

variable (rest : List Char)

theorem isDigit_of_isIdentStart (c : Char) (starts : Chars.isIdentStart c = true) :
    c.isDigit = false := by
  simp only [Chars.isIdentStart, Bool.or_eq_true, beq_iff_eq] at starts
  rcases starts with letter | rfl
  · -- Letters come behind the digits, in both cases.
    have behind : '9'.val < c.val := by
      rcases Bool.or_eq_true_iff.mp letter with upper | lower
      · exact UInt32.lt_of_lt_of_le (by decide) (of_decide_eq_true upper).1
      · obtain ⟨first, _⟩ := Bool.and_eq_true_iff.mp lower
        exact UInt32.lt_of_lt_of_le (by decide) (of_decide_eq_true first)
    simp only [Char.isDigit, Bool.and_eq_false_iff, decide_eq_false_iff_not]
    exact .inr (UInt32.not_le.mpr behind)
  · decide

/-- A word up to a delimiter is read as one token. -/
theorem lexeme_word (c : Char) (tail : List Char) (starts : Chars.isIdentStart c = true)
    (isTail : IsTail false tail) (delimited : IsDelimited rest) :
    lexeme c (tail ++ rest) =
      .token ((keyword? (.ofList (c :: tail))).getD (.word (.ofList (c :: tail))))
        (tail.length + 1) := by
  have other (d : Char) (apart : Chars.isIdentStart d = false) : c ≠ d := by
    rintro rfl
    exact Bool.false_ne_true (apart.symm.trans starts)
  -- The letter that opens a wide string does so only in front of a quote.
  have unquoted : (tail ++ rest).head? ≠ some '"' := by
    cases isTail with
    | nil =>
      intro quote
      exact absurd (delimited _ quote) (by decide)
    | part inside _ =>
      rintro ⟨⟩
      exact absurd inside (by decide)
    | dot => exact fun quote => nomatch quote
  rw [lexeme, isGap_eq_false Chars.isIdentStart c starts (by decide)]
  simp only [Bool.false_eq_true, if_false, other '$' (by decide), isDigit_of_isIdentStart c starts,
    other '"' (by decide), other '\'' (by decide), unquoted, starts, if_true, decide_false,
    Bool.or_self, Bool.and_false]
  rw [wordLexeme, wordTail_append isTail rest delimited, List.take_left]

theorem readsBefore_keyword (token : Token) (c : Char) (tail : List Char)
    (spelled : token.spelling = c :: tail) (starts : Chars.isIdentStart c = true)
    (parts : tail.all Chars.isIdentPart = true)
    (known : keyword? (.ofList (c :: tail)) = some token) (delimited : IsDelimited rest) :
    token.ReadsBefore rest := by
  refine ⟨c, tail, spelled, ?_⟩
  rw [lexeme_word rest c tail starts (isTail_of_identifier _ _ parts) delimited, known, spelled]
  rfl

theorem readsBefore_reference (name : String) (written : (Token.reference name).IsWritten) :
    (Token.reference name).ReadsBefore rest := by
  obtain ⟨c, cs, rfl, starts, parts⟩ := written
  refine ⟨'$', '(' :: c :: (cs ++ [')']), by simp [Token.spelling], ?_⟩
  have ⟨taken, dropped⟩ := takeWhile_of_delimited Chars.isIdentPart cs (')' :: rest) parts
    (by decide) (by rintro d ⟨⟩; decide)
  have read : lexeme '$' ('(' :: c :: (cs ++ [')']) ++ rest) =
      referenceLexeme ('(' :: c :: (cs ++ ')' :: rest)) := by
    rw [List.cons_append, List.cons_append, List.append_assoc]
    rfl
  rw [read]
  simp [referenceLexeme, starts, taken, dropped, Token.spelling]

theorem digitsValue_toDigits (value : Nat) :
    Chars.digitsValue 10 (Nat.toDigits 10 value) = value := by
  have same : Chars.digitsValue 10 (Nat.toDigits 10 value) =
      Nat.ofDigitChars 10 (Nat.toDigits 10 value) 0 := by
    apply List.foldl_ext
    intro sum c member
    have digit := Nat.isDigit_of_mem_toDigits (by decide) (by decide) member
    rw [Chars.digitValue, if_pos digit, Nat.mul_comm]
  rw [same, Nat.ofDigitChars_toDigits (by decide) (by decide)]

theorem digitsLexeme_decimal (c : Char)
    (plain : ∀ x, rest.head? = some x → x ≠ 'x' ∧ x ≠ 'X') :
    digitsLexeme c rest = digitsLexeme.decimal c rest := by
  unfold digitsLexeme
  split
  next x d more =>
    have ⟨small, capital⟩ := plain x rfl
    simp [small, capital]
  · rfl

theorem readsBefore_number (value : Nat) (small : value ≤ Integer.largest)
    (delimited : IsDelimited rest) : (Token.number value).ReadsBefore rest := by
  have spelled : (Token.number value).spelling = Nat.toDigits 10 value := by
    rw [Token.spelling, Nat.toString_eq_ofList_toDigits, String.toList_ofList]
  have digits : ∀ c ∈ Nat.toDigits 10 value, c.isDigit = true :=
    fun c => Nat.isDigit_of_mem_toDigits (by decide) (by decide)
  have valued := digitsValue_toDigits value
  obtain ⟨c, cs, written⟩ := List.exists_cons_of_ne_nil (Nat.toDigits_ne_nil (b := 10) (n := value))
  rw [written] at spelled digits valued
  refine ⟨c, cs, spelled, ?_⟩
  have ⟨first, others⟩ := List.forall_mem_cons.mp digits
  have ⟨taken, _⟩ := takeWhile_of_delimited Char.isDigit cs rest others (by decide) delimited
  -- Neither a digit nor a delimiter makes the number a hexadecimal one.
  have plain (x : Char) (next : (cs ++ rest).head? = some x) : x ≠ 'x' ∧ x ≠ 'X' := by
    have either : x.isDigit = true ∨ x ∈ delimiters := by
      cases cs with
      | nil => exact .inr (delimited x next)
      | cons d more =>
        cases next
        exact .inl (others _ (.head _))
    constructor
    all_goals
      rintro rfl
      exact absurd either (by decide)
  have foreign : c ≠ '$' := by
    rintro rfl
    exact absurd first (by decide)
  rw [lexeme, isGap_eq_false Char.isDigit c first (by decide)]
  simp only [Bool.false_eq_true, if_false, foreign, first, if_true]
  rw [digitsLexeme_decimal _ c plain, digitsLexeme.decimal, taken, valued, numberLexeme,
    if_pos small, spelled]

theorem readsBefore_quoted (text : String) (written : (Token.quoted text).IsWritten) :
    (Token.quoted text).ReadsBefore rest := by
  have body := quotedBody_append (isBody_quoteFor text written) rest
  have read : lexeme (quoteFor text) (text.toList ++ quoteFor text :: rest) =
      quotedLexeme 1 (quoteFor text) (text.toList ++ quoteFor text :: rest) := by
    unfold quoteFor
    split <;> rfl
  refine ⟨quoteFor text, text.toList ++ [quoteFor text], rfl, ?_⟩
  rw [List.append_assoc, List.singleton_append, read, quotedLexeme, body]
  simp [Token.spelling, Nat.add_comm]

theorem readsBefore_word (text : String) (written : (Token.word text).IsWritten)
    (delimited : IsDelimited rest) : (Token.word text).ReadsBefore rest := by
  obtain ⟨free, c, tail, rfl, starts, isTail⟩ := written
  refine ⟨c, tail, String.toList_ofList, ?_⟩
  rw [lexeme_word rest c tail starts isTail delimited, free]
  simp [Token.spelling]

/-- An operator of one character is not prolonged by a delimiter. -/
theorem symbolLexeme_of_delimited (c : Char) (token : Token)
    (short : ∀ next ∈ none :: delimiters.map some, symbolLexeme c next = .token token 1)
    (delimited : IsDelimited rest) : symbolLexeme c rest.head? = .token token 1 := by
  apply short
  cases next : rest.head? with
  | none => exact .head _
  | some d => exact .tail _ (List.mem_map_of_mem (delimited d next))

theorem readsBefore_binary (op : BinaryOp) (delimited : IsDelimited rest) :
    (Token.binary op).ReadsBefore rest := by
  have short (c : Char) := symbolLexeme_of_delimited rest c (.binary op)
  cases op with
  | or => exact readsBefore_keyword rest _ 'o' ['r'] rfl rfl rfl (by decide) delimited
  | and => exact readsBefore_keyword rest _ 'a' ['n', 'd'] rfl rfl rfl (by decide) delimited
  | isIn => exact readsBefore_keyword rest _ 'i' ['n'] rfl rfl rfl (by decide) delimited
  | eq | ne | le | ge | shl | shr => exact ⟨_, _, rfl, rfl⟩
  | bitOr => exact ⟨'|', [], rfl, short '|' (by decide) delimited⟩
  | bitXor => exact ⟨'^', [], rfl, short '^' (by decide) delimited⟩
  | bitAnd => exact ⟨'&', [], rfl, short '&' (by decide) delimited⟩
  | lt => exact ⟨'<', [], rfl, short '<' (by decide) delimited⟩
  | gt => exact ⟨'>', [], rfl, short '>' (by decide) delimited⟩
  | add => exact ⟨'+', [], rfl, short '+' (by decide) delimited⟩
  | sub => exact ⟨'-', [], rfl, short '-' (by decide) delimited⟩
  | mul => exact ⟨'*', [], rfl, short '*' (by decide) delimited⟩
  | div => exact ⟨'/', [], rfl, short '/' (by decide) delimited⟩
  | rem => exact ⟨'%', [], rfl, short '%' (by decide) delimited⟩

end Spelled

/-- The tokens that end in front of any character. -/
def Token.isParenthesis : Token → Bool
  | opening | closing => true
  | _ => false

/-- What some text is read as can be spelled in front of a delimiter, and a parenthesis in front
of anything. -/
theorem lexeme_spelling (token : Token) (rest : List Char) (written : token.IsWritten)
    (parted : token.isParenthesis = true ∨ IsDelimited rest) : token.ReadsBefore rest := by
  have delimited (other : token.isParenthesis = false) : IsDelimited rest :=
    parted.resolve_left (Bool.eq_false_iff.mp other)
  cases token with
  | reference name => exact readsBefore_reference rest name written
  | number value => exact readsBefore_number rest value written (delimited rfl)
  | quoted text => exact readsBefore_quoted rest text written
  | truth value =>
    cases value with
    | true =>
      exact readsBefore_keyword rest _ 'T' ['R', 'U', 'E'] rfl rfl rfl (by decide) (delimited rfl)
    | false =>
      exact readsBefore_keyword rest _ 'F' ['A', 'L', 'S', 'E'] rfl rfl rfl (by decide)
        (delimited rfl)
  | word text => exact readsBefore_word rest text written (delimited rfl)
  | binary op => exact readsBefore_binary rest op (delimited rfl)
  | not => exact readsBefore_keyword rest _ 'n' ['o', 't'] rfl rfl rfl (by decide) (delimited rfl)
  | complement =>
    exact ⟨'~', [], rfl, symbolLexeme_of_delimited rest '~' _ (by decide) (delimited rfl)⟩
  | opening => exact ⟨'(', [], rfl, rfl⟩
  | closing => exact ⟨')', [], rfl, rfl⟩

end FirmwareWorkspace.Expression
