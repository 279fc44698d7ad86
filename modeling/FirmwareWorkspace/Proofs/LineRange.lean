import FirmwareWorkspace.Position
import Mathlib.Algebra.Ring.Nat
import Mathlib.Data.List.Induction
import Mathlib.Data.List.Sort

/-!
# Ranges of lines

Ranges that are in order and leave a line free between each other are written in one way only:
the lines that they hold, one after the other, give them back. Joining ascending lines to ranges
is the way there, so the ranges are the maximal runs of the lines, and counting the lines of the
ranges counts the lines.

Line numbers have 32 bits. Joining lines and counting a range add one to a number, and neither
gets beyond the last number, unless a single range holds all of them.

Main results: `decomposes_coalesce`, `Decomposes.eq_coalesce`, `coalesce_eq_some`.
-/
namespace FirmwareWorkspace.LineRange

/-- Ranges are the maximal runs of lines: they ascend with at least one line between each other,
and hold exactly the lines. -/
structure Decomposes (ranges : List LineRange) (lines : List Nat) : Prop where
  ordered : ∀ range ∈ ranges, range.first ≤ range.last
  apart : ranges.Pairwise fun earlier later => earlier.last + 1 < later.first
  covers : ∀ line, (∃ range ∈ ranges, range.contains line = true) ↔ line ∈ lines

theorem contains_iff (range : LineRange) (line : Nat) :
    range.contains line = true ↔ range.first ≤ line ∧ line ≤ range.last := by
  rw [contains, Bool.and_eq_true, decide_eq_true_iff, decide_eq_true_iff]

theorem contains_last (range : LineRange) (ordered : range.first ≤ range.last) :
    range.contains range.last = true :=
  (range.contains_iff range.last).mpr ⟨ordered, Nat.le_refl _⟩

/-! ### Joining lines -/

theorem coalesce_concat (lines : List Nat) (line : Nat) :
    coalesce (lines ++ [line]) = (extend (coalesce lines).reverse line).reverse := by
  rw [coalesce, coalesce, List.foldl_append, List.reverse_reverse]
  rfl

/-- A line next to the last range makes it longer, and any other line is a range of its own. -/
theorem reverse_extend (ranges : List LineRange) (line : Nat) :
    (∃ front latest, ranges = front ++ [latest] ∧ latest.last + 1 = line ∧
      (extend ranges.reverse line).reverse = front ++ [⟨latest.first, line⟩]) ∨
    (∀ latest ∈ ranges.getLast?, latest.last + 1 ≠ line) ∧
      (extend ranges.reverse line).reverse = ranges ++ [⟨line, line⟩] := by
  rcases List.eq_nil_or_concat ranges with rfl | ⟨front, latest, rfl⟩
  · exact .inr ⟨nofun, rfl⟩
  · simp only [List.concat_eq_append, List.reverse_append, List.reverse_singleton,
      List.singleton_append, extend, List.getLast?_append, List.getLast?_singleton]
    by_cases next : latest.last + 1 = line
    · exact .inl ⟨front, latest, rfl, next, by simp [next]⟩
    · exact .inr ⟨by simpa using next, by simp [next]⟩

namespace Decomposes

variable {ranges : List LineRange} {lines : List Nat}

theorem nil : Decomposes [] [] where
  ordered _ member := nomatch member
  apart := .nil
  covers _ := by simp

theorem last_mem (decomposes : Decomposes ranges lines) (range : LineRange)
    (member : range ∈ ranges) : range.last ∈ lines :=
  (decomposes.covers range.last).mp
    ⟨range, member, range.contains_last (decomposes.ordered range member)⟩

/-- A line behind all others that is not next to the last of them. -/
theorem add (decomposes : Decomposes ranges lines) (line : Nat)
    (behind : ∀ range ∈ ranges, range.last + 1 < line) :
    Decomposes (ranges ++ [⟨line, line⟩]) (lines ++ [line]) where
  ordered := by
    simpa only [List.forall_mem_append, List.forall_mem_singleton, Nat.le_refl, and_true] using
      decomposes.ordered
  apart := by
    rw [List.pairwise_append]
    refine ⟨decomposes.apart, List.pairwise_singleton _ _, fun range member other here => ?_⟩
    rw [List.mem_singleton.mp here]
    exact behind range member
  covers number := by
    have alone : (⟨line, line⟩ : LineRange).contains number = true ↔ number = line := by
      simp only [contains_iff]
      omega
    simp only [List.mem_append, List.mem_singleton, or_and_right, exists_or, exists_eq_left, alone,
      decomposes.covers]

/-- A line next to the last one. -/
theorem lengthen (front : List LineRange) (latest : LineRange)
    (decomposes : Decomposes (front ++ [latest]) lines) :
    Decomposes (front ++ [⟨latest.first, latest.last + 1⟩]) (lines ++ [latest.last + 1]) where
  ordered := by
    have ordered := decomposes.ordered
    simp only [List.forall_mem_append, List.forall_mem_singleton] at ordered ⊢
    exact ⟨ordered.1, Nat.le_succ_of_le ordered.2⟩
  apart := by
    -- The gap in front of a range depends on its first line only.
    have apart := decomposes.apart
    simp only [List.pairwise_append, List.mem_singleton, forall_eq] at apart ⊢
    exact ⟨apart.1, List.pairwise_singleton _ _, apart.2.2⟩
  covers number := by
    have longer : (⟨latest.first, latest.last + 1⟩ : LineRange).contains number = true ↔
        latest.contains number = true ∨ number = latest.last + 1 := by
      have ordered := decomposes.ordered latest (List.mem_append_right _ (.head _))
      simp only [contains_iff]
      omega
    have covers := decomposes.covers number
    simp only [List.mem_append, List.mem_singleton, or_and_right, exists_or, exists_eq_left]
      at covers ⊢
    rw [longer, ← covers, or_assoc]

/-- What lies behind the last line of the last range lies behind all ranges. -/
theorem behind (decomposes : Decomposes ranges lines) (line : Nat)
    (beyond : ∀ earlier ∈ lines, earlier < line)
    (gap : ∀ latest ∈ ranges.getLast?, latest.last + 1 ≠ line) :
    ∀ range ∈ ranges, range.last + 1 < line := by
  rcases List.eq_nil_or_concat ranges with rfl | ⟨front, latest, rfl⟩
  · exact nofun
  · rw [List.concat_eq_append] at decomposes gap ⊢
    have last := beyond _ (decomposes.last_mem latest (List.mem_append_right _ (.head _)))
    have apart := (List.pairwise_append.mp decomposes.apart).2.2
    have ordered := decomposes.ordered latest (List.mem_append_right _ (.head _))
    have next : latest.last + 1 ≠ line := gap latest (by simp)
    intro range member
    rcases List.mem_append.mp member with earlier | here
    · have between := apart range earlier latest (.head _)
      omega
    · rw [List.mem_singleton.mp here]
      omega

/-- One line more: the step of joining. -/
theorem extend (decomposes : Decomposes ranges lines) (line : Nat)
    (beyond : ∀ earlier ∈ lines, earlier < line) :
    Decomposes (LineRange.extend ranges.reverse line).reverse (lines ++ [line]) := by
  rcases reverse_extend ranges line with ⟨front, latest, rfl, rfl, longer⟩ | ⟨gap, longer⟩
  · rw [longer]
    exact decomposes.lengthen front latest
  · rw [longer]
    exact decomposes.add line (decomposes.behind line beyond gap)

end Decomposes

/-- Joining ascending lines gives their runs. -/
theorem decomposes_coalesce (lines : List Nat) (ascending : lines.Pairwise (· < ·)) :
    Decomposes (coalesce lines) lines := by
  induction lines using List.reverseRecOn with
  | nil => exact .nil
  | append_singleton lines line ih =>
    have ⟨front, _, beyond⟩ := List.pairwise_append.mp ascending
    rw [coalesce_concat]
    exact (ih front).extend line fun earlier member => beyond earlier member line (.head _)

/-! ### The lines of ranges -/

/-- The lines of a range in order. -/
def toList (range : LineRange) : List Nat :=
  List.range' range.first range.lineCount

theorem mem_toList_iff (range : LineRange) (ordered : range.first ≤ range.last) (line : Nat) :
    line ∈ range.toList ↔ range.contains line = true := by
  rw [toList, List.mem_range'_1, contains_iff, lineCount]
  omega

namespace Decomposes

variable {ranges : List LineRange} {lines : List Nat}

/-- The runs of ascending lines hold these lines in their order. -/
theorem flatMap_toList (decomposes : Decomposes ranges lines)
    (ascending : lines.Pairwise (· < ·)) : ranges.flatMap toList = lines := by
  have inside : ∀ range ∈ ranges, ∀ line, line ∈ range.toList ↔ range.contains line = true :=
    fun range member => range.mem_toList_iff (decomposes.ordered range member)
  apply List.Pairwise.eq_of_mem_iff (r := (· < ·)) _ ascending
  · intro line
    rw [List.mem_flatMap, ← decomposes.covers line]
    exact exists_congr fun range => and_congr_right fun member => inside range member line
  · refine List.pairwise_flatMap.mpr ⟨fun range _ => List.pairwise_lt_range', ?_⟩
    refine decomposes.apart.imp_of_mem fun {range later} here there gap line first other second => ?_
    have above := ((range.contains_iff line).mp ((inside range here line).mp first)).2
    have below := ((later.contains_iff other).mp ((inside later there other).mp second)).1
    omega

theorem sum_lineCount (decomposes : Decomposes ranges lines)
    (ascending : lines.Pairwise (· < ·)) :
    (ranges.map lineCount).sum = lines.length := by
  rw [← decomposes.flatMap_toList ascending, List.length_flatMap]
  simp only [toList, List.length_range']

end Decomposes

/-- The lines of a range that stands behind the others are joined to that range. -/
theorem foldl_extend_toList (ranges : List LineRange) (range : LineRange)
    (ordered : range.first ≤ range.last)
    (gap : ∀ latest ∈ ranges.head?, latest.last + 1 < range.first) :
    range.toList.foldl extend ranges = range :: ranges := by
  have joined (count : Nat) : (List.range' range.first (count + 1)).foldl extend ranges =
      ⟨range.first, range.first + count⟩ :: ranges := by
    induction count with
    | zero =>
      cases ranges with
      | nil => rfl
      | cons latest earlier =>
        have apart := gap latest rfl
        exact if_neg (by omega)
    | succ count ih =>
      rw [List.range'_1_concat, List.foldl_append, ih]
      exact if_pos (Nat.add_assoc _ _ _)
  have whole : range.first + (range.last - range.first) = range.last := by omega
  rw [toList, lineCount, joined, whole]

/-- Ranges that are apart are the ranges of their lines. -/
theorem coalesce_flatMap_toList (ranges : List LineRange)
    (ordered : ∀ range ∈ ranges, range.first ≤ range.last)
    (apart : ranges.Pairwise fun earlier later => earlier.last + 1 < later.first) :
    coalesce (ranges.flatMap toList) = ranges := by
  have joined : (ranges.flatMap toList).foldl extend [] = ranges.reverse := by
    induction ranges using List.reverseRecOn with
    | nil => rfl
    | append_singleton front range ih =>
      have ⟨before, _, gaps⟩ := List.pairwise_append.mp apart
      rw [List.forall_mem_append, List.forall_mem_singleton] at ordered
      rw [List.flatMap_append, List.foldl_append, ih ordered.1 before, List.flatMap_singleton,
        foldl_extend_toList front.reverse range ordered.2, List.reverse_append]
      · rfl
      · intro latest last
        rw [List.head?_reverse] at last
        exact gaps latest (List.mem_of_getLast? last) range (.head _)
  rw [coalesce, joined, List.reverse_reverse]

/-- Lines have one decomposition. -/
theorem Decomposes.eq_coalesce {ranges : List LineRange} {lines : List Nat}
    (decomposes : Decomposes ranges lines) (ascending : lines.Pairwise (· < ·)) :
    ranges = coalesce lines := by
  rw [← decomposes.flatMap_toList ascending,
    coalesce_flatMap_toList ranges decomposes.ordered decomposes.apart]

/-! ### Numbers of 32 bits -/

/-- How many line numbers there are. -/
def lineLimit : Nat := 2 ^ 32

/-- The next line number, unless the sum overflows. -/
def next? (line : Nat) : Option Nat :=
  if line + 1 < lineLimit then some (line + 1) else none

/-- `extend` with line numbers of 32 bits. -/
def extend? (ranges : List LineRange) (line : Nat) : Option (List LineRange) :=
  match ranges with
  | [] => some [⟨line, line⟩]
  | latest :: earlier =>
    (next? latest.last).map fun next =>
      if next = line then ⟨latest.first, line⟩ :: earlier
      else ⟨line, line⟩ :: latest :: earlier

/-- `coalesce` with line numbers of 32 bits; nothing if a sum overflows. -/
def coalesce? (lines : List Nat) : Option (List LineRange) :=
  (lines.foldlM extend? []).map List.reverse

/-- `lineCount` with line numbers of 32 bits; nothing if the difference or the sum overflows. -/
def lineCount? (range : LineRange) : Option Nat :=
  if range.first ≤ range.last then next? (range.last - range.first) else none

theorem extend_eq_some (ranges : List LineRange) (line : Nat)
    (fits : ∀ latest ∈ ranges.head?, latest.last + 1 < lineLimit) :
    extend? ranges line = some (extend ranges line) := by
  cases ranges with
  | nil => rfl
  | cons latest earlier => rw [extend?, next?, if_pos (fits latest rfl), Option.map_some, extend]

/-- Joining ascending line numbers overflows nowhere. -/
theorem coalesce_eq_some (lines : List Nat) (ascending : lines.Pairwise (· < ·))
    (bounded : ∀ line ∈ lines, line < lineLimit) : coalesce? lines = some (coalesce lines) := by
  have joined : lines.foldlM extend? [] = some (lines.foldl extend []) := by
    induction lines using List.reverseRecOn with
    | nil => rfl
    | append_singleton lines line ih =>
      have ⟨front, _, beyond⟩ := List.pairwise_append.mp ascending
      rw [List.forall_mem_append, List.forall_mem_singleton] at bounded
      -- A sum is formed for the latest range only, and the new line is not in front of it.
      have fits : ∀ latest ∈ (lines.foldl extend []).head?, latest.last + 1 < lineLimit := by
        intro latest last
        have member : latest ∈ coalesce lines := List.mem_reverse.mpr (List.mem_of_head? last)
        have inside := (decomposes_coalesce lines front).last_mem latest member
        exact Nat.lt_of_le_of_lt (beyond _ inside line (.head _)) bounded.2
      rw [List.foldlM_append, ih front bounded.1, List.foldl_append]
      simp only [Option.bind_eq_bind, Option.bind_some, List.foldlM_cons, List.foldlM_nil,
        extend_eq_some _ line fits, Option.pure_def, List.foldl_cons, List.foldl_nil]
  rw [coalesce?, joined]
  rfl

/-- The lines of a range can be counted if some line number is in none of the ranges. -/
theorem Decomposes.lineCount_eq_some {ranges : List LineRange} {lines : List Nat}
    (decomposes : Decomposes ranges lines) (ascending : lines.Pairwise (· < ·))
    (bounded : ∀ line ∈ lines, line < lineLimit) (missing : Nat) (fits : missing < lineLimit)
    (absent : missing ∉ lines) (range : LineRange) (member : range ∈ ranges) :
    range.lineCount? = some range.lineCount := by
  have distinct : (missing :: lines).Nodup :=
    List.nodup_cons.mpr ⟨absent, ascending.imp Nat.ne_of_lt⟩
  have within : missing :: lines ⊆ List.range lineLimit := by
    intro line listed
    rw [List.mem_range]
    rcases List.mem_cons.mp listed with rfl | old
    · exact fits
    · exact bounded line old
  have counted : lines.length + 1 ≤ lineLimit := by
    simpa only [List.length_cons, List.length_range] using
      (List.subperm_of_subset distinct within).length_le
  have part : range.toList.length ≤ lines.length := by
    rw [← decomposes.flatMap_toList ascending, List.flatMap_def]
    exact (List.sublist_flatten_of_mem (List.mem_map_of_mem member)).length_le
  rw [toList, List.length_range', lineCount] at part
  rw [lineCount?, if_pos (decomposes.ordered range member), next?, if_pos (by omega), lineCount]

end FirmwareWorkspace.LineRange
