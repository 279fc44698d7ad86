import FirmwareWorkspace.Proofs.Document.Merging
import Mathlib.Data.String.Basic

/-!
# Where symbols stand

A symbol stands on the line that emitted it and covers the code of that line, which it keeps as its
text. A comment and the blanks around the code are left out, and as columns count bytes, the bytes
between the two columns of a symbol are those of its text.

A pass takes in the lines of its file one by one, and no line emits two symbols. So the symbols of
a pass stand on ascending lines, and each of them quotes its line.
-/
namespace FirmwareWorkspace

/-! ### Code in its line -/

theorem Text.byteLength_eq (text : String) : byteLength text = text.utf8ByteSize := by
  have counted (cs : List Char) : Chars.byteLength cs = (String.ofList cs).utf8ByteSize := by
    induction cs with
    | nil => rfl
    | cons c rest ih =>
      rw [Chars.byteLength, ih, String.ofList_cons, String.utf8ByteSize_append,
        String.utf8ByteSize_singleton]
  rw [byteLength, counted, String.ofList_toList]

/-- The bytes of a part of a text. -/
theorem Text.extract_append (front part behind : String) :
    (front ++ part ++ behind).toUTF8.extract front.utf8ByteSize
      (front.utf8ByteSize + part.utf8ByteSize) = part.toUTF8 := by
  rw [String.toUTF8, String.toByteArray_append, String.toByteArray_append,
    ← String.size_toByteArray, ← String.size_toByteArray, ByteArray.append_assoc]
  calc (front.toByteArray ++ (part.toByteArray ++ behind.toByteArray)).extract
        (front.toByteArray.size + 0) (front.toByteArray.size + part.toByteArray.size)
      = (part.toByteArray ++ behind.toByteArray).extract 0 part.toByteArray.size :=
        ByteArray.extract_append_size_add
    _ = part.toByteArray := ByteArray.extract_append_eq_left rfl

namespace Line

theorem exists_comment (quoted : Bool) (cs : List Char) :
    ∃ comment, cs = dropComment quoted cs ++ comment := by
  fun_induction dropComment quoted cs with
  | case1 => exact ⟨[], rfl⟩
  | case2 quoted rest ih =>
    obtain ⟨comment, split⟩ := ih
    exact ⟨comment, congrArg ('"' :: ·) split⟩
  | case3 quoted c rest _ _ => exact ⟨c :: rest, rfl⟩
  | case4 quoted c rest _ _ ih =>
    obtain ⟨comment, split⟩ := ih
    exact ⟨comment, congrArg (c :: ·) split⟩

/-- A comment begins with a number sign, which is not blank. -/
theorem takeWhile_dropComment (quoted : Bool) (cs : List Char) :
    (dropComment quoted cs).takeWhile Chars.isBlank = cs.takeWhile Chars.isBlank := by
  fun_induction dropComment quoted cs with
  | case1 => rfl
  | case2 quoted rest _ => rfl
  | case3 quoted c rest _ comment =>
    rw [comment.1]
    rfl
  | case4 quoted c rest _ _ ih => rw [List.takeWhile_cons, List.takeWhile_cons, ih]

/-- The code of a line stands behind its indentation. -/
theorem exists_around_code (raw : String) :
    ∃ front behind, raw = front ++ code raw ++ behind ∧ front.utf8ByteSize = indentation raw := by
  obtain ⟨comment, split⟩ := exists_comment false raw.toList
  let kept := dropComment false raw.toList
  -- Trimming takes blanks off both ends, and those in front are the indentation.
  have front : kept.takeWhile Chars.isBlank ++ Chars.trimStart kept = kept :=
    List.takeWhile_append_dropWhile
  have back : Chars.trim kept ++ (Chars.trimStart kept).rtakeWhile Chars.isBlank =
      Chars.trimStart kept := List.rdropWhile_append_rtakeWhile
  refine ⟨.ofList (kept.takeWhile Chars.isBlank),
    .ofList ((Chars.trimStart kept).rtakeWhile Chars.isBlank ++ comment), ?_, ?_⟩
  · rw [code, ← String.ofList_append, ← String.ofList_append, List.append_assoc,
      ← List.append_assoc (Chars.trim _), back, ← List.append_assoc, front, ← split,
      String.ofList_toList]
  · rw [takeWhile_dropComment, ← Text.byteLength_eq, Text.byteLength, String.toList_ofList,
      indentation]

/-- The bytes of a line between the columns of its code are those of the code. -/
theorem extract_code (raw : String) :
    raw.toUTF8.extract (indentation raw) (indentation raw + Text.byteLength (code raw)) =
      (code raw).toUTF8 := by
  obtain ⟨front, behind, split, indented⟩ := exists_around_code raw
  calc raw.toUTF8.extract (indentation raw) (indentation raw + Text.byteLength (code raw))
      = (front ++ code raw ++ behind).toUTF8.extract front.utf8ByteSize
          (front.utf8ByteSize + (code raw).utf8ByteSize) := by
        rw [indented, Text.byteLength_eq, ← split]
    _ = (code raw).toUTF8 := Text.extract_append front (code raw) behind

end Line

theorem Symbol.StandsOn.extract {symbol : Symbol} {line : Nat} {raw : String}
    (stands : symbol.StandsOn line raw) :
    raw.toUTF8.extract symbol.startColumn symbol.endColumn = symbol.detail.toUTF8 := by
  rw [stands.start, stands.stop, stands.detail, Line.extract_code]

/-! ### The lines of a pass -/

/-- The symbols of a pass stand on ascending lines in front of one, each on its own line of the
text. -/
structure FilePass.QuotesBefore (pass : FilePass) (lines : List String) (line : Nat) : Prop where
  before : ∀ symbol ∈ pass.symbols, symbol.line < line
  ascending : pass.symbols.Pairwise (·.line < ·.line)
  quoted : ∀ symbol ∈ pass.symbols,
    ∃ raw, lines[symbol.line]? = some raw ∧ symbol.StandsOn symbol.line raw

/-- The symbols of a pass stand on lines of its file. -/
def FilePass.Quotes (pass : FilePass) (system : FileSystem) : Prop :=
  ∃ text line, system.read pass.path = .ok text ∧ pass.QuotesBefore (Text.lines text) line

namespace FilePass.QuotesBefore

theorem new (file : FileId) (path : Path) (dialect : Dialect) (lines : List String) :
    (FilePass.new file path dialect).QuotesBefore lines 0 where
  before _ member := nomatch member
  ascending := .nil
  quoted _ member := nomatch member

variable {state later : PassState} {lines : List String} {line : Nat} {raw : String}

theorem add (quotes : state.pass.QuotesBefore lines line)
    (adds : PassState.AddsAt line raw state later) (here : lines[line]? = some raw) :
    later.pass.QuotesBefore lines (line + 1) := by
  constructor
  · refine adds.forall_symbols
      (fun symbol member => Nat.lt_succ_of_lt (quotes.before symbol member)) fun symbol stands => ?_
    rw [stands.line]
    exact Nat.lt_succ_self line
  · obtain ⟨added, extended, single, stands⟩ := adds
    rw [extended, List.pairwise_append]
    refine ⟨quotes.ascending, ?_, fun symbol old other new => ?_⟩
    · -- There are no two new symbols to compare.
      rcases added with _ | ⟨symbol, _ | ⟨other, more⟩⟩
      · exact .nil
      · exact List.pairwise_singleton _ _
      · simp at single
    · rw [(stands other new).line]
      exact quotes.before symbol old
  · refine adds.forall_symbols quotes.quoted fun symbol stands => ?_
    exact ⟨raw, stands.line ▸ here, { stands with line := rfl }⟩

/-- A line up to the moment when it enters a file. -/
theorem entry (quotes : state.pass.QuotesBefore lines line) (here : lines[line]? = some raw)
    (system : FileSystem) (entry : Entry) (enters : state.entryAt? system line raw = some entry) :
    entry.state.pass.QuotesBefore lines (line + 1) := by
  obtain ⟨target, path, _, _, rfl⟩ := (state.entry_eq_some_iff system line raw entry).mp enters
  exact quotes.add ((state.noteInclude_addsAt line system raw target).addInclude path) here

end FilePass.QuotesBefore

/-- Every pass of a run quotes its file, if the lines ahead are those behind the ones that were
taken in. -/
theorem Runs.quotes {system : FileSystem} {depth line : Nat} {state : PassState}
    {ahead : List String} {events : List ReadEvent} {outcome : Step}
    (run : Runs system depth state line ahead events outcome) (lines : List String)
    (rest : lines.drop line = ahead) (quotes : state.pass.QuotesBefore lines line) :
    (∃ last, outcome.1.pass.QuotesBefore lines last) ∧
      ∀ pass ∈ passes events, pass.Quotes system := by
  have first {line : Nat} {raw : String} {lines ahead : List String}
      (rest : lines.drop line = raw :: ahead) : lines[line]? = some raw := by
    rw [← List.head?_drop, rest]
    rfl
  have next {line : Nat} {raw : String} {lines ahead : List String}
      (rest : lines.drop line = raw :: ahead) : lines.drop (line + 1) = ahead := by
    rw [← List.tail_drop, rest]
    rfl
  induction run generalizing lines with
  | done => exact ⟨⟨_, quotes⟩, fun _ member => nomatch member⟩
  | @stop _ state _ line raw _ _ _ stopped =>
    have stepped := quotes.add (state.step_addsAt line system raw) (first rest)
    rw [stopped] at stepped
    rw [passes_emittedUntil]
    exact ⟨⟨_, stepped⟩, fun _ member => nomatch member⟩
  | @advance _ state _ line raw _ _ _ _ moved _ ih =>
    have stepped := quotes.add (state.step_addsAt line system raw) (first rest)
    rw [moved] at stepped
    rw [passes_emittedUntil_append]
    exact ih lines (next rest) stepped
  | @shut _ state line raw _ entry _ _ enters _ _ ih =>
    rw [passes_emittedUntil_append]
    exact ih lines (next rest) (quotes.entry (first rest) system entry enters)
  | @enter _ state last line raw text _ entry _ _ fatal _ enters readable inside _ innerIH ih =>
    -- The entered file has lines of its own, and its pass begins in front of them.
    have ⟨⟨final, ended⟩, inner⟩ := innerIH (Text.lines text) rfl (.new _ _ _ _)
    have ⟨reached, after⟩ := ih lines (next rest) (quotes.entry (first rest) system entry enters)
    have own : last.pass.path = entry.target.normalize := inside.stays.2.1
    exact ⟨reached, forall_passes_enter inner ⟨text, final, own ▸ readable, ended⟩ after⟩

/-- Every pass that reading a file makes quotes its file. -/
theorem Reader.quotes_of_mem_passes (system : FileSystem) (depth : Nat) (path : Path)
    (inherited : Option Dialect) (place : SectionState) (reader : Reader) (pass : FilePass)
    (member : pass ∈ passes (journal system depth path inherited place reader)) :
    pass.Quotes system := by
  refine forall_passes_journal (motive := (·.Quotes system)) system depth path inherited place
    reader ?_ pass member
  intro levels text events outcome readable run
  have ⟨⟨final, ended⟩, inner⟩ := run.quotes (Text.lines text) rfl (.new _ _ _ _)
  have own : outcome.1.pass.path = path.normalize := run.stays.2.1
  exact ⟨⟨text, final, own ▸ readable, ended⟩, inner⟩

end FirmwareWorkspace
