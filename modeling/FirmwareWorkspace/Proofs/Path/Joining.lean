import FirmwareWorkspace.Proofs.Path.Normal
import Mathlib.Data.List.Induction
import Mathlib.Logic.Function.Iterate

/-!
# Where a relative path leads

A relative path is normalized before it is joined to a directory. The result is the same as if
the two were joined first, unless more than one parent step of the path leads above its
beginning: the second of them takes back the first, which should have stayed.
-/
namespace FirmwareWorkspace

theorem Chars.fields_append_cons (separator : Char → Bool) (left right : List Char) (c : Char)
    (separates : separator c = true) :
    fields separator (left ++ c :: right) = fields separator left ++ fields separator right := by
  rw [fields_eq_splitOnP, fields_eq_splitOnP, fields_eq_splitOnP,
    List.splitOnP_append_cons left right separates]

namespace Path

/-! ### Parent steps above the beginning -/

/-- One part of a path, with the number of parent steps above the beginning and the number of
names that the next parent steps take back. -/
def climb : Nat × Nat → Part → Nat × Nat
  | (climbs, depth), .name _ => (climbs, depth + 1)
  | (climbs, 0), .up => (climbs + 1, 0)
  | (climbs, depth + 1), .up => (climbs, depth)
  | counts, .root | counts, .here => counts

/-- How many parent steps of the path lead above its beginning. -/
def climbs (path : Path) : Nat :=
  (path.unified.parts.foldl climb (0, 0)).1

/-- The names of the place above a place; names stand last first. -/
def above (names : List String) : List String :=
  foldPart names .up

/-- Parts lead from any place to names of their own, below the place to which the parent steps
above their beginning lead. -/
theorem exists_own_names (parts : List Part) (plain : ∀ part ∈ parts, part.IsPlain) :
    ∃ own : List String, own.length = (parts.foldl climb (0, 0)).2 ∧ (∀ name ∈ own, name ≠ "..") ∧
      ∀ names, parts.foldl foldPart names = own ++ above^[(parts.foldl climb (0, 0)).1] names := by
  -- Parts are read from the left, so the last part acts on what the others lead to.
  induction parts using List.reverseRecOn with
  | nil => exact ⟨[], rfl, (fun _ absent => nomatch absent), fun _ => rfl⟩
  | append_singleton parts part ih =>
    simp only [List.foldl_append, List.foldl_cons, List.foldl_nil]
    obtain ⟨own, length, proper, folded⟩ :=
      ih fun other member => plain other (List.mem_append_left _ member)
    have isPlain := plain part (List.mem_append_right _ (.head _))
    generalize parts.foldl climb (0, 0) = counts at *
    obtain ⟨climbs, depth⟩ := counts
    cases part with
    | root | here => exact ⟨own, length, proper, folded⟩
    | name text =>
      refine ⟨text :: own, congrArg Nat.succ length, ?_, fun names => ?_⟩
      · exact List.forall_mem_cons.mpr ⟨isPlain.2, proper⟩
      · rw [folded]
        rfl
    | up =>
      cases own with
      | cons last own =>
        subst length
        refine ⟨own, rfl, (List.forall_mem_cons.mp proper).2, fun names => ?_⟩
        rw [folded]
        rfl
      | nil =>
        -- The parts have no name left, so this step leads one place further up.
        subst length
        refine ⟨[], rfl, proper, fun names => ?_⟩
        rw [folded]
        exact (Function.iterate_succ_apply' above climbs names).symm

theorem iterate_above (names : List String) (count : Nat) (enough : count ≤ names.length) :
    above^[count] names = names.drop count := by
  induction count generalizing names with
  | zero => rfl
  | succ count ih =>
    cases names with
    | nil => cases enough
    | cons last earlier => exact ih earlier (Nat.le_of_succ_le_succ enough)

/-- From the beginning every second parent step takes back the one before it. -/
theorem iterate_above_nil (count : Nat) :
    above^[count] [] = if count % 2 = 0 then [] else [".."] := by
  induction count with
  | zero => rfl
  | succ count ih =>
    rw [Function.iterate_succ_apply', ih]
    rcases Nat.mod_two_eq_zero_or_one count with even | odd
    · rw [if_pos even, if_neg (by omega)]
      rfl
    · rw [if_neg (by omega), if_pos (by omega)]
      rfl

/-- Of the parent steps above the beginning the normal form keeps one or none; all else leads
where the path leads. -/
theorem exists_led_names (path : Path) :
    ∃ own : List String, ∀ names,
      path.unified.parts.foldl foldPart names = own ++ above^[path.climbs] names ∧
        (path.normalNames.map Part.ofName).foldl foldPart names =
          own ++ above^[path.climbs % 2] names := by
  obtain ⟨own, _, proper, folded⟩ :=
    exists_own_names path.unified.parts (isPlain_of_mem_parts path)
  refine ⟨own, fun names => ⟨folded names, ?_⟩⟩
  have pushed (names : List String) :
      (own.reverse.map Part.ofName).foldl foldPart names = own ++ names := by
    rw [foldl_pushed _ _ fun name member => proper name (List.mem_reverse.mp member),
      List.reverse_reverse]
  rw [normalNames, folded, ← climbs, iterate_above_nil]
  rcases Nat.mod_two_eq_zero_or_one path.climbs with even | odd
  · rw [if_pos even, List.append_nil, pushed, even]
    rfl
  · rw [if_neg (by omega), List.reverse_append, List.map_append, List.foldl_append, pushed, odd]
    rfl

/-- With at most one parent step above the beginning, the normal form leads from any place to
where the path leads. -/
theorem foldl_normalNames (path : Path) (few : path.climbs ≤ 1) (names : List String) :
    (path.normalNames.map Part.ofName).foldl foldPart names =
      path.unified.parts.foldl foldPart names := by
  obtain ⟨own, led⟩ := path.exists_led_names
  rw [(led names).1, (led names).2, Nat.mod_eq_of_lt (by omega)]

/-- From a place that is deep enough it leads there in no other case. -/
theorem foldl_normalNames_iff (path : Path) (names : List String)
    (room : path.climbs ≤ names.length) :
    (path.normalNames.map Part.ofName).foldl foldPart names =
      path.unified.parts.foldl foldPart names ↔ path.climbs ≤ 1 := by
  refine ⟨fun same => ?_, fun few => foldl_normalNames path few names⟩
  obtain ⟨own, led⟩ := path.exists_led_names
  have kept := Nat.mod_le path.climbs 2
  rw [(led names).1, (led names).2, iterate_above _ _ room,
    iterate_above _ _ (Nat.le_trans kept room)] at same
  -- The two places lie at different depths unless the counts agree.
  have depths := congrArg List.length same
  simp only [List.length_append, List.length_drop] at depths
  omega

/-- Only parent steps can lead above the beginning. -/
theorem climbs_le_count (path : Path) : path.climbs ≤ path.unified.parts.count .up := by
  have counted (parts : List Part) (counts : Nat × Nat) :
      (parts.foldl climb counts).1 ≤ counts.1 + parts.count .up := by
    induction parts generalizing counts with
    | nil => exact Nat.le_refl _
    | cons part rest ih =>
      have step : (climb counts part).1 ≤ counts.1 + [part].count .up := by
        obtain ⟨climbs, depth⟩ := counts
        cases part with
        | root | here | name => exact Nat.le_refl _
        | up =>
          cases depth with
          | zero => exact Nat.le_refl _
          | succ depth => exact Nat.le_succ _
      have later := ih (climb counts part)
      rw [← List.singleton_append, List.count_append, List.singleton_append, List.foldl_cons]
      omega
  have bound := counted path.unified.parts (0, 0)
  rwa [Nat.zero_add] at bound

/-! ### Joining before normalizing -/

theorem isAbsolute_of_unified (path : Path) (relative : path.unified.isAbsolute = false) :
    path.isAbsolute = false := by
  rw [isAbsolute] at relative ⊢
  cases spelled : path.text.toList with
  | nil => rfl
  | cons c rest =>
    rw [unified, String.toList_ofList, spelled] at relative
    refine beq_eq_false_iff_ne.mpr fun slash => ?_
    cases slash
    cases relative

theorem unified_join (directory path : Path) (normal : directory.unified = directory)
    (relative : path.unified.isAbsolute = false) :
    (directory.join path).unified = directory.join path.unified := by
  have kept : String.ofList (directory.text.toList.map fun c => if c = '\\' then '/' else c) =
      directory.text := congrArg text normal
  rw [join, join, isAbsolute_of_unified path relative, relative, if_neg Bool.false_ne_true,
    if_neg Bool.false_ne_true]
  split <;> simp [unified, kept, String.append_assoc]

theorem segments_ne_nil (path : Path) : path.segments ≠ [] := by
  rw [segments, Chars.fields_eq_splitOnP]
  exact List.splitOnP_ne_nil _ _

/-- Before the first separator of an absolute path there is nothing. -/
theorem segments_of_absolute (path : Path) (absolute : path.isAbsolute = true) :
    ∃ rest, rest ≠ [] ∧ path.segments = [] :: rest := by
  obtain ⟨cs, spelled⟩ := List.head?_eq_some_iff.mp (beq_iff_eq.mp absolute)
  refine ⟨segments ⟨.ofList cs⟩, segments_ne_nil _, ?_⟩
  rw [segments, segments, spelled, String.toList_ofList]
  rfl

/-- Only the empty path and an absolute one begin with an empty segment. -/
theorem begins_empty (path : Path) (rest : List (List Char)) (found : path.segments = [] :: rest) :
    path.text = "" ∧ rest = [] ∨ path.isAbsolute = true ∧ rest ≠ [] := by
  cases spelled : path.text.toList with
  | nil =>
    rw [segments, spelled] at found
    cases found
    exact .inl ⟨String.toList_inj.mp spelled, rfl⟩
  | cons c cs =>
    by_cases slash : c = '/'
    · have absolute : path.isAbsolute = true := by
        rw [isAbsolute, spelled, slash]
        rfl
      obtain ⟨others, more, begins⟩ := path.segments_of_absolute absolute
      cases begins.symm.trans found
      exact .inr ⟨absolute, more⟩
    · rw [segments, spelled, Chars.fields, if_neg (by simpa using slash)] at found
      split at found <;> cases found

theorem rest_of_relative (path : Path) (rest : List (List Char))
    (relative : path.isAbsolute = false) (found : path.segments = [] :: rest) : rest = [] := by
  rcases path.begins_empty rest found with ⟨_, none⟩ | ⟨absolute, _⟩
  · exact none
  · exact absurd (absolute.symm.trans relative) Bool.noConfusion

/-- A single dot at the beginning leads nowhere. -/
theorem foldl_parts (path : Path) (relative : path.isAbsolute = false) (names : List String) :
    path.parts.foldl foldPart names =
      (path.segments.filterMap Part.ofSegment?).foldl foldPart names := by
  rw [parts]
  cases found : path.segments with
  | nil => rfl
  | cons first rest =>
    dsimp only
    rw [List.foldl_append, ← List.singleton_append, List.filterMap_append, List.foldl_append]
    congr 1
    by_cases empty : first = []
    · subst empty
      rw [path.rest_of_relative rest relative found]
      rfl
    · by_cases dot : first = ['.']
      · subst dot
        rfl
      · rw [Part.ofFirst?, if_neg empty, if_neg dot]
        cases parsed : Part.ofSegment? first <;> simp [parsed]

theorem parts_append (directory path : Path) (someText : directory.text ≠ "") :
    parts ⟨directory.text ++ "/" ++ path.text⟩ =
      directory.parts ++ path.segments.filterMap Part.ofSegment? := by
  have joined : segments ⟨directory.text ++ "/" ++ path.text⟩ =
      directory.segments ++ path.segments := by
    rw [segments, String.toList_append, String.toList_append, List.append_assoc]
    exact Chars.fields_append_cons _ _ _ '/' rfl
  rw [parts, parts, joined]
  cases found : directory.segments with
  | nil => exact absurd found directory.segments_ne_nil
  | cons first rest =>
    dsimp only [List.cons_append]
    rw [List.filterMap_append, ← List.append_assoc]
    congr 2
    by_cases empty : first = []
    · subst empty
      rcases directory.begins_empty rest found with ⟨noText, _⟩ | ⟨_, more⟩
      · exact absurd noText someText
      · rw [List.isEmpty_eq_false_iff.mpr more,
          List.isEmpty_eq_false_iff.mpr (List.append_ne_nil_of_left_ne_nil more _)]
    · rw [Part.ofFirst?, Part.ofFirst?, if_neg empty, if_neg empty]

theorem ofSegment_ne_root (segment : List Char) : Part.ofSegment? segment ≠ some .root := by
  rw [Part.ofSegment?]
  split
  · exact Option.some_ne_none _ |>.symm
  · split <;> (intro equal; cases equal)

theorem fromRoot_eq (path : Path) : path.fromRoot = path.unified.isAbsolute := by
  rw [fromRoot]
  generalize path.unified = path
  cases absolute : path.isAbsolute with
  | true =>
    obtain ⟨rest, more, found⟩ := path.segments_of_absolute absolute
    rw [parts, found]
    dsimp only
    rw [List.isEmpty_eq_false_iff.mpr more]
    rfl
  | false =>
    -- A root part is made of the first segment only, and only if that one is empty.
    refine beq_eq_false_iff_ne.mpr fun headed => ?_
    have root := List.mem_of_mem_head? headed
    rw [parts] at root
    split at root
    · cases root
    next first rest found =>
      rcases List.mem_append.mp root with begins | later
      · rw [Option.mem_toList, Part.ofFirst?] at begins
        split at begins
        next empty =>
          rw [path.rest_of_relative rest absolute (empty ▸ found)] at begins
          cases begins
        · split at begins
          · cases begins
          · exact ofSegment_ne_root first begins
      · obtain ⟨segment, _, parsed⟩ := List.mem_filterMap.mp later
        exact ofSegment_ne_root segment parsed

theorem parts_join (absolute : Bool) (names : List String) (path : Path)
    (isName : ∀ name ∈ names, IsName name) (relative : path.isAbsolute = false)
    (someText : ofNames absolute names ≠ ⟨""⟩) :
    ((ofNames absolute names).join path).parts =
      (ofNames absolute names).parts ++ path.segments.filterMap Part.ofSegment? := by
  rw [join, relative, if_neg Bool.false_ne_true]
  rcases List.eq_nil_or_concat names with rfl | ⟨front, back, rfl⟩
  · cases absolute with
    | false => exact absurd rfl someText
    | true =>
      -- The root ends with a separator of its own.
      have below : segments ⟨"/" ++ path.text⟩ = [] :: path.segments := by
        rw [segments, String.toList_append]
        rfl
      have headed : Part.ofFirst? [] path.segments.isEmpty = some .root := by
        rw [List.isEmpty_eq_false_iff.mpr path.segments_ne_nil]
        rfl
      rw [if_pos (.inr rfl)]
      change parts ⟨"/" ++ path.text⟩ = _
      rw [parts, below]
      dsimp only
      rw [headed]
      rfl
  · rw [List.concat_eq_append] at isName ⊢
    have openEnd := ofNames_open absolute front back (isName back (by simp))
    rw [if_neg openEnd, parts_append _ _ (not_or.mp openEnd).1]

/-- From a directory, the parts of a path lead on from its names. -/
theorem names_join (directory path : Path) (normal : directory.normalize = directory)
    (relative : path.unified.isAbsolute = false) :
    (directory.join path).fromRoot = directory.fromRoot ∧
      (directory.join path).normalNames =
        (path.unified.parts.foldl foldPart directory.normalNames.reverse).reverse := by
  have unified := unified_of_normal directory normal
  rw [fromRoot, normalNames, unified_join directory path unified relative]
  -- Only the empty path has no parts of its own before those of the other path.
  by_cases empty : directory = ⟨""⟩
  · subst empty
    have own : join ⟨""⟩ path.unified = path.unified := by
      rw [join, relative, if_neg Bool.false_ne_true, if_pos (.inl rfl), String.empty_append]
    have headed := path.fromRoot_eq.trans relative
    rw [fromRoot] at headed
    rw [own, headed]
    exact ⟨rfl, rfl⟩
  · have joined := parts_join directory.fromRoot directory.normalNames path.unified
      (isNormal_normalNames directory).isName relative
    rw [← normalize_eq_ofNames, normal] at joined
    have someParts : directory.parts ≠ [] := by
      intro none
      rw [normalize, unified, none] at normal
      exact empty normal.symm
    rw [joined empty, List.foldl_append, foldl_parts _ relative, normalNames, fromRoot, unified,
      List.reverse_reverse, List.head?_append, List.head?_eq_some_head someParts, Option.some_or]
    exact ⟨rfl, rfl⟩

/-- So do the names of its normal form, of which parent steps are the only other parts. -/
theorem names_join_normalize (directory path : Path) (normal : directory.normalize = directory)
    (relative : path.normalize.isAbsolute = false) :
    (directory.join path.normalize).fromRoot = directory.fromRoot ∧
      (directory.join path.normalize).normalNames =
        ((path.normalNames.map Part.ofName).foldl foldPart
          directory.normalNames.reverse).reverse := by
  have unified : path.normalize.unified = path.normalize :=
    unified_of_normal _ path.normalize_normalize
  have parts : path.normalize.parts = path.normalNames.map Part.ofName := by
    have isName := (isNormal_normalNames path).isName
    rw [normalize_eq_ofNames, isAbsolute_ofNames _ _ isName] at relative
    rw [normalize_eq_ofNames, parts_ofNames _ _ isName, relative, if_neg Bool.false_ne_true,
      List.nil_append]
  have joined := names_join directory path.normalize normal (by rw [unified, relative])
  rwa [unified, parts] at joined

theorem unified_of_relative (path : Path) (relative : path.normalize.isAbsolute = false) :
    path.unified.isAbsolute = false := by
  rw [normalize_eq_ofNames, isAbsolute_ofNames _ _ (isNormal_normalNames path).isName] at relative
  rw [← path.fromRoot_eq, relative]

/-- Normalizing a path first does not change where it leads, unless it has more than one parent
step above its beginning. -/
theorem normalize_join_normalize (directory path : Path) (normal : directory.normalize = directory)
    (relative : path.normalize.isAbsolute = false) (few : path.climbs ≤ 1) :
    (directory.join path.normalize).normalize = (directory.join path).normalize := by
  have ⟨root, names⟩ := names_join directory path normal (path.unified_of_relative relative)
  have ⟨rootToo, namesToo⟩ := names_join_normalize directory path normal relative
  rw [normalize_eq_iff, root, rootToo, names, namesToo, foldl_normalNames path few]
  exact ⟨rfl, rfl⟩

/-- From a directory that is deep enough it changes where the path leads in every other case. -/
theorem normalize_join_normalize_iff (directory path : Path)
    (normal : directory.normalize = directory) (relative : path.normalize.isAbsolute = false)
    (room : path.climbs ≤ directory.normalNames.length) :
    (directory.join path.normalize).normalize = (directory.join path).normalize ↔
      path.climbs ≤ 1 := by
  refine ⟨fun same => ?_, normalize_join_normalize directory path normal relative⟩
  have names := (names_join directory path normal (path.unified_of_relative relative)).2
  have namesToo := (names_join_normalize directory path normal relative).2
  have led := ((normalize_eq_iff _ _).mp same).2
  rw [names, namesToo] at led
  rw [← List.length_reverse] at room
  exact (foldl_normalNames_iff path _ room).mp (List.reverse_inj.mp led)

end Path

end FirmwareWorkspace
