import FirmwareWorkspace.Document.Directive

/-!
# Conditionals as brackets

The keywords of a file tell how its conditionals nest, whatever their conditions are:
some open a conditional, some switch to another branch and one closes. Counting openings
and closings on the lines in front of each line gives one of three verdicts. Either all
is closed in the end, or a first line has nothing to switch or close, or an outermost
opening stays open.

The verdict is declared by counts. `Tracks` ties these to the lines of the conditionals
that are open, which is what a reader going from line to line knows.
-/
namespace FirmwareWorkspace

/-- The part that a line plays in the nesting of conditionals. -/
inductive Bracket where
  | opens
  | switches
  | closes
  deriving DecidableEq, Repr

def Bracket.ofKeyword? : String → Option Bracket
  | "if" | "ifdef" | "ifndef" => some opens
  | "elseif" | "else" => some switches
  | "endif" => some closes
  | _ => none

namespace Line

/-- The keyword of a directive, in lower case. -/
def keyword? (raw : String) : Option String :=
  match (code raw).toList with
  | '!' :: rest => some (.ofList (Chars.lower (rest.takeWhile Char.isAlpha)))
  | _ => none

def bracket? (raw : String) : Option Bracket :=
  (keyword? raw).bind Bracket.ofKeyword?

theorem bracket_of_keyword (raw keyword : String) (spelled : keyword? raw = some keyword) :
    bracket? raw = Bracket.ofKeyword? keyword := by
  rw [bracket?, spelled, Option.bind_some]

end Line

/-- The keywords that a directive can have. -/
def Directive.SpelledBy (keyword : String) : Directive → Prop
  | openIf _ => keyword = "if"
  | openIfDefined true _ => keyword = "ifdef"
  | openIfDefined false _ => keyword = "ifndef"
  | elseIf _ => keyword = "elseif"
  | elseBranch _ => keyword = "else"
  | endIf _ => keyword = "endif"
  | includeFile _ | fail _ | inert => Bracket.ofKeyword? keyword = none

namespace Line

/-- Only lines that start with an exclamation mark are directives. -/
theorem starts_of_directive (raw : String) (directive : Directive)
    (parsed : Directive.ofCode? (code raw) = some directive) :
    ∃ rest, (code raw).toList = '!' :: rest := by
  unfold Directive.ofCode? at parsed
  split at parsed
  next rest spelled => exact ⟨rest, spelled⟩
  · cases parsed

theorem keyword_of_directive (raw : String) (directive : Directive)
    (parsed : Directive.ofCode? (code raw) = some directive) :
    ∃ keyword, keyword? raw = some keyword ∧ directive.SpelledBy keyword := by
  obtain ⟨rest, spelled⟩ := starts_of_directive raw directive parsed
  simp only [Directive.ofCode?, spelled] at parsed
  simp only [keyword?, spelled]
  refine ⟨_, rfl, ?_⟩
  cases Option.some.inj parsed
  split
  iterate 6 assumption
  -- No other keyword belongs to a conditional.
  next keyword => rw [Directive.SpelledBy, keyword]; rfl
  next keyword => rw [Directive.SpelledBy, keyword]; rfl
  · simp only [Directive.SpelledBy, Bracket.ofKeyword?]

theorem bracket_of_no_directive (raw : String) (plain : Directive.ofCode? (code raw) = none) :
    bracket? raw = none := by
  cases spelled : keyword? raw with
  | none => rw [bracket?, spelled, Option.bind_none]
  | some keyword =>
    unfold keyword? at spelled
    split at spelled
    next rest starts =>
      rw [Directive.ofCode?, starts] at plain
      cases plain
    · cases spelled

theorem bracket_of_blank (raw : String) (blank : code raw = "") : bracket? raw = none :=
  bracket_of_no_directive raw (by rw [blank]; rfl)

end Line

/-! ### Verdicts -/

def opened (marks : List (Option Bracket)) : Nat :=
  marks.count (some .opens)

def closed (marks : List (Option Bracket)) : Nat :=
  marks.count (some .closes)

/-- A line that switches or closes where no conditional is open. -/
structure Dangles (marks : List (Option Bracket)) (line : Nat) : Prop where
  mark : marks[line]? = some (some .switches) ∨ marks[line]? = some (some .closes)
  level : opened (marks.take line) = closed (marks.take line)

/-- An opening outside all conditionals that is still open after every later line. -/
structure IsOutermost (marks : List (Option Bracket)) (line : Nat) : Prop where
  mark : marks[line]? = some (some .opens)
  level : opened (marks.take line) = closed (marks.take line)
  after : ∀ count, line < count → closed (marks.take count) < opened (marks.take count)

inductive Verdict where
  | balanced
  | underflow (line : Nat)
  | unterminated (line count : Nat)
  deriving DecidableEq, Repr

/-- What a verdict says about brackets. -/
inductive Verdict.Holds (marks : List (Option Bracket)) : Verdict → Prop
  | balanced (sound : ∀ line, ¬Dangles marks line)
      (nested : ∀ count, closed (marks.take count) ≤ opened (marks.take count))
      (level : opened marks = closed marks) : Holds marks .balanced
  /-- The first line that dangles. -/
  | underflow (line : Nat) (dangles : Dangles marks line)
      (first : ∀ earlier, earlier < line → ¬Dangles marks earlier) : Holds marks (.underflow line)
  | unterminated (line count : Nat) (sound : ∀ line, ¬Dangles marks line)
      (outermost : IsOutermost marks line) (level : opened marks = closed marks + count) :
      Holds marks (.unterminated line count)

theorem opened_append (front back : List (Option Bracket)) :
    opened (front ++ back) = opened front + opened back :=
  List.count_append

theorem closed_append (front back : List (Option Bracket)) :
    closed (front ++ back) = closed front + closed back :=
  List.count_append

/-- Lines behind a line do not matter for whether it dangles. -/
theorem dangles_append (front back : List (Option Bracket)) (line : Nat)
    (inside : line < front.length) : Dangles (front ++ back) line ↔ Dangles front line := by
  have taken : (front ++ back).take line = front.take line :=
    List.take_append_of_le_length (Nat.le_of_lt inside)
  have same : (front ++ back)[line]? = front[line]? := List.getElem?_append_left inside
  constructor
  · rintro ⟨mark, level⟩
    exact ⟨same ▸ mark, taken ▸ level⟩
  · rintro ⟨mark, level⟩
    exact ⟨same.symm ▸ mark, by rw [taken]; exact level⟩

theorem Dangles.lt_length {marks : List (Option Bracket)} {line : Nat}
    (dangles : Dangles marks line) : line < marks.length := by
  rcases dangles.mark with mark | mark
  · exact (List.getElem?_eq_some_iff.mp mark).1
  · exact (List.getElem?_eq_some_iff.mp mark).1

theorem IsOutermost.unclosed {marks : List (Option Bracket)} {line : Nat}
    (outermost : IsOutermost marks line) : closed marks < opened marks := by
  have inside := (List.getElem?_eq_some_iff.mp outermost.mark).1
  have after := outermost.after marks.length inside
  rwa [List.take_length] at after

/-- There is only one outermost opening. -/
theorem IsOutermost.unique {marks : List (Option Bracket)} {line other : Nat}
    (one : IsOutermost marks line) (two : IsOutermost marks other) : line = other := by
  rcases Nat.lt_trichotomy line other with before | same | behind
  · exact absurd two.level (Nat.ne_of_gt (one.after other before))
  · exact same
  · exact absurd one.level (Nat.ne_of_gt (two.after line behind))

/-- Brackets deserve one verdict at most. -/
theorem Verdict.Holds.unique {marks : List (Option Bracket)} {verdict other : Verdict}
    (one : verdict.Holds marks) (two : other.Holds marks) : verdict = other := by
  -- Verdicts of two kinds exclude each other, and those of one kind agree on the line.
  cases one with
  | balanced sound nested level =>
    cases two with
    | balanced => rfl
    | underflow line dangles => exact absurd dangles (sound line)
    | unterminated _ _ _ outermost => exact absurd level (Nat.ne_of_gt outermost.unclosed)
  | underflow line dangles first =>
    cases two with
    | balanced sound => exact absurd dangles (sound line)
    | underflow line' dangles' first' =>
      rcases Nat.lt_trichotomy line line' with before | rfl | behind
      · exact absurd dangles (first' line before)
      · rfl
      · exact absurd dangles' (first line' behind)
    | unterminated _ _ sound => exact absurd dangles (sound line)
  | unterminated line count sound outermost level =>
    cases two with
    | balanced _ _ level' => exact absurd level' (Nat.ne_of_gt outermost.unclosed)
    | underflow line' dangles => exact absurd dangles (sound line')
    | unterminated line' count' _ outermost' level' =>
      cases outermost.unique outermost'
      have same : count = count' := by omega
      rw [same]

/-! ### Going from line to line -/

/-- What a line makes of the lines of the open conditionals, outermost first. -/
inductive Follows (line : Nat) : Option Bracket → List Nat → List Nat → Prop
  | plain (openLines : List Nat) : Follows line none openLines openLines
  | opens (openLines : List Nat) : Follows line (some .opens) openLines (openLines ++ [line])
  | switches (openLines : List Nat) (inside : openLines ≠ []) :
      Follows line (some .switches) openLines openLines
  | closes (openLines : List Nat) (innermost : Nat) :
      Follows line (some .closes) (openLines ++ [innermost]) openLines

/-- Lines have nothing that dangles and leave the conditionals of `openLines` open. -/
structure Tracks (marks : List (Option Bracket)) (openLines : List Nat) : Prop where
  sound : ∀ line, ¬Dangles marks line
  nested : ∀ count, closed (marks.take count) ≤ opened (marks.take count)
  level : opened marks = closed marks + openLines.length
  outermost : ∀ line, openLines.head? = some line → IsOutermost marks line

namespace Tracks

variable {front : List (Option Bracket)} {openLines : List Nat}

theorem nil : Tracks [] [] where
  sound _ dangles := absurd dangles.lt_length (Nat.not_lt_zero _)
  nested _ := by rw [List.take_nil]; exact Nat.le_refl _
  level := rfl
  outermost _ absent := nomatch absent

theorem take_concat (mark : Option Bracket) (count : Nat) :
    count ≤ front.length ∧ (front ++ [mark]).take count = front.take count ∨
      front.length < count ∧ (front ++ [mark]).take count = front ++ [mark] := by
  rcases Nat.lt_or_ge front.length count with beyond | within
  · refine .inr ⟨beyond, List.take_of_length_le ?_⟩
    rw [List.length_append, List.length_singleton]
    exact beyond
  · exact .inl ⟨within, List.take_append_of_le_length within⟩

/-- One more line, given what it makes of the counts and of the outermost opening. -/
theorem concat (tracks : Tracks front openLines) (mark : Option Bracket) (next : List Nat)
    (fits : ¬Dangles (front ++ [mark]) front.length)
    (level : opened (front ++ [mark]) = closed (front ++ [mark]) + next.length)
    (outermost : ∀ line, next.head? = some line →
      openLines.head? = some line ∨ line = front.length ∧ mark = some .opens ∧ openLines = []) :
    Tracks (front ++ [mark]) next where
  sound line dangles := by
    have inside := dangles.lt_length
    rw [List.length_append, List.length_singleton] at inside
    rcases Nat.lt_or_ge line front.length with before | reached
    · exact tracks.sound line ((dangles_append front [mark] line before).mp dangles)
    · cases Nat.le_antisymm (Nat.le_of_lt_succ inside) reached
      exact fits dangles
  nested count := by
    rcases take_concat mark count with ⟨_, same⟩ | ⟨_, all⟩
    · rw [same]
      exact tracks.nested count
    · rw [all, level]
      exact Nat.le_add_right _ _
  level := level
  outermost line first := by
    have unclosed : closed (front ++ [mark]) < opened (front ++ [mark]) := by
      have some : 0 < next.length := List.length_pos_iff.mpr (by rintro rfl; cases first)
      omega
    rcases outermost line first with old | ⟨rfl, rfl, empty⟩
    · -- It was outermost before, and the new line leaves it open.
      have before := tracks.outermost line old
      have inside := (List.getElem?_eq_some_iff.mp before.mark).1
      refine ⟨?_, ?_, fun count later => ?_⟩
      · rw [List.getElem?_append_left inside]
        exact before.mark
      · rw [List.take_append_of_le_length (Nat.le_of_lt inside)]
        exact before.level
      · rcases take_concat mark count with ⟨_, same⟩ | ⟨_, all⟩
        · rw [same]
          exact before.after count later
        · rwa [all]
    · -- It is the new line itself, with nothing open in front of it.
      have settled := tracks.level
      rw [empty, List.length_nil, Nat.add_zero] at settled
      refine ⟨List.getElem?_concat_length, ?_, fun count later => ?_⟩
      · rwa [List.take_left]
      · rcases take_concat (some .opens) count with ⟨within, _⟩ | ⟨_, all⟩
        · exact absurd later (Nat.not_lt.mpr within)
        · rwa [all]

/-- The brackets in front and one more that does not dangle. -/
theorem follow (tracks : Tracks front openLines) {mark : Option Bracket} {next : List Nat}
    (follows : Follows front.length mark openLines next) : Tracks (front ++ [mark]) next := by
  have level := tracks.level
  have markAt {other : Option Bracket} (found : (front ++ [mark])[front.length]? = some other) :
      mark = other :=
    Option.some.inj (List.getElem?_concat_length.symm.trans found)
  -- A line that switches or closes has a conditional around it.
  have inside (some : openLines ≠ []) : ¬Dangles (front ++ [mark]) front.length := by
    intro dangles
    have settled := dangles.level
    have positive := List.length_pos_iff.mpr some
    rw [List.take_left] at settled
    omega
  cases follows with
  | plain =>
    refine tracks.concat none _ (fun dangles => ?_) ?_ fun _ first => .inl first
    · rcases dangles.mark with mark | mark <;> cases markAt mark
    · rw [opened_append, closed_append]
      exact level
  | opens =>
    refine tracks.concat _ _ (fun dangles => ?_) ?_ fun line first => ?_
    · rcases dangles.mark with mark | mark <;> cases markAt mark
    · have one : opened [some .opens] = 1 := rfl
      have zero : closed [some .opens] = 0 := rfl
      rw [opened_append, closed_append, List.length_append, List.length_singleton]
      omega
    · cases openLines with
      | nil => exact .inr ⟨(Option.some.inj first).symm, rfl, rfl⟩
      | cons => exact .inl first
  | switches _ some =>
    refine tracks.concat _ _ (inside some) ?_ fun _ first => .inl first
    rw [opened_append, closed_append]
    exact level
  | closes _ innermost =>
    refine tracks.concat _ _ (inside (List.append_ne_nil_of_right_ne_nil _ (List.cons_ne_nil _ _)))
      ?_ fun line first => .inl ?_
    · have zero : opened [some .closes] = 0 := rfl
      have one : closed [some .closes] = 1 := rfl
      rw [List.length_append, List.length_singleton] at level
      rw [opened_append, closed_append]
      omega
    · rw [List.head?_append, first]
      rfl

theorem balanced (tracks : Tracks front []) : Verdict.balanced.Holds front :=
  .balanced tracks.sound tracks.nested tracks.level

theorem unterminated {first : Nat} {rest : List Nat} (tracks : Tracks front (first :: rest)) :
    (Verdict.unterminated first (rest.length + 1)).Holds front :=
  .unterminated _ _ tracks.sound (tracks.outermost first rfl) tracks.level

theorem mark_between (front back : List (Option Bracket)) (mark : Option Bracket) :
    (front ++ mark :: back)[front.length]? = some mark := by
  rw [List.getElem?_append_right (Nat.le_refl _), Nat.sub_self]
  rfl

/-- No line dangles up to one that does not dangle itself. -/
theorem sound_until (tracks : Tracks front openLines) (mark : Option Bracket)
    (back : List (Option Bracket)) (fits : mark = some .opens ∨ openLines ≠ []) (line : Nat)
    (reached : line ≤ front.length) : ¬Dangles (front ++ mark :: back) line := by
  intro dangles
  rcases Nat.lt_or_eq_of_le reached with before | rfl
  · exact tracks.sound line ((dangles_append front _ line before).mp dangles)
  · have settled := dangles.level
    have level := tracks.level
    have here : (front ++ mark :: back)[front.length]? = some mark := mark_between _ _ _
    rw [List.take_left] at settled
    rcases fits with rfl | some
    · rcases dangles.mark with mark | mark <;> cases here.symm.trans mark
    · have positive := List.length_pos_iff.mpr some
      omega

theorem underflow (tracks : Tracks front []) (mark : Option Bracket)
    (back : List (Option Bracket)) (ends : mark = some .switches ∨ mark = some .closes) :
    (Verdict.underflow front.length).Holds (front ++ mark :: back) := by
  refine .underflow _ ⟨?_, ?_⟩ fun earlier before dangles => ?_
  · rw [mark_between]
    exact ends.imp (congrArg some) (congrArg some)
  · rw [List.take_left]
    exact tracks.level
  · exact tracks.sound earlier ((dangles_append front _ earlier before).mp dangles)

/-- The lines behind cannot spoil that there is a verdict. -/
theorem exists_verdict (tracks : Tracks front openLines) (back : List (Option Bracket)) :
    ∃ verdict : Verdict, verdict.Holds (front ++ back) := by
  induction back generalizing front openLines with
  | nil =>
    rw [List.append_nil]
    cases openLines with
    | nil => exact ⟨_, tracks.balanced⟩
    | cons first rest => exact ⟨_, tracks.unterminated⟩
  | cons mark rest ih =>
    -- A mark that follows leaves the verdict to the marks behind it.
    have go {next : List Nat} (follows : Follows front.length mark openLines next) :
        ∃ verdict : Verdict, verdict.Holds (front ++ mark :: rest) := by
      rw [List.append_cons]
      exact ih (tracks.follow follows)
    match mark with
    | none => exact go (.plain openLines)
    | some .opens => exact go (.opens openLines)
    | some .switches =>
      by_cases empty : openLines = []
      · subst empty
        exact ⟨_, tracks.underflow _ rest (.inl rfl)⟩
      · exact go (.switches openLines empty)
    | some .closes =>
      rcases List.eq_nil_or_concat openLines with rfl | ⟨outer, innermost, same⟩
      · exact ⟨_, tracks.underflow _ rest (.inr rfl)⟩
      · rw [List.concat_eq_append] at same
        subst same
        exact go (.closes outer innermost)

end Tracks

/-- Brackets deserve exactly one verdict. -/
theorem existsUnique_verdict (marks : List (Option Bracket)) :
    ∃ verdict : Verdict, ∀ other : Verdict, other.Holds marks ↔ other = verdict := by
  obtain ⟨verdict, holds⟩ := Tracks.nil.exists_verdict marks
  refine ⟨verdict, fun other => ⟨fun given => given.unique holds, ?_⟩⟩
  rintro rfl
  exact holds

end FirmwareWorkspace
