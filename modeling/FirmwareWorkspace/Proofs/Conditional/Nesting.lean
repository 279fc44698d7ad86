import FirmwareWorkspace.Conditional

/-!
# Nested conditionals

A region is a tree of lines and chains. A chain has an opening directive, any
number of further branches with conditions, and possibly a last branch without
one. The meaning of a region is told from the tree: a line is live when it stands
in the selected branch of every chain around it. The stack sees only the
directives one after the other; the main result is that it comes to the same
meaning and ends as it was.
-/
namespace FirmwareWorkspace

/-- The directive that opens a chain. -/
inductive Opening where
  -- a condition that is evaluated when it is asked for, or a value known beforehand
  | asked (value : Bool)
  | known (value : Bool)
  deriving DecidableEq, Repr

def Opening.value : Opening → Bool
  | asked value | known value => value

mutual
/-- Lines and chains, one after the other. -/
inductive Region where
  | empty
  | line (rest : Region)
  | chain (opening : Opening) (openedAt : Nat) (body : Region) (further : Branches)
      (rest : Region)

/-- What follows the body of a branch in its chain. -/
inductive Branches where
  | close
  | elseIf (value : Bool) (body : Region) (further : Branches)
  | elseBranch (body : Region)
end

/-! ### Meaning of the tree -/

def Branches.conditions : Branches → List Bool
  | close => []
  | elseIf value _ further => value :: further.conditions
  | elseBranch _ => []

/-- The number of the selected branch of a chain: the first whose condition holds. -/
def selectedBranch (conditions : List Bool) : Nat :=
  -- If none holds, this is the number that a last branch without a condition has.
  conditions.findIdx id

/-- A branch of a chain with these conditions. -/
structure Standing where
  conditions : List Bool
  branch : Nat
  deriving DecidableEq, Repr

def Standing.isSelected (standing : Standing) : Bool :=
  selectedBranch standing.conditions = standing.branch

/-- A place in a region that itself stands in live or dead code. -/
structure Place where
  outerLive : Bool
  -- one for each chain that encloses the place
  standings : List Standing
  deriving DecidableEq, Repr

namespace Place

def isLive (place : Place) : Bool :=
  place.outerLive && place.standings.all Standing.isSelected

def within (place : Place) (conditions : List Bool) (branch : Nat) : Place :=
  { place with standings := ⟨conditions, branch⟩ :: place.standings }

@[simp] theorem isLive_within (place : Place) (conditions : List Bool) (branch : Nat) :
    (place.within conditions branch).isLive =
      (place.isLive && decide (selectedBranch conditions = branch)) := by
  simp only [isLive, within, List.all_cons, Standing.isSelected]
  ac_rfl

end Place

/-- What can be seen on the way through a region. -/
inductive Sighting where
  | line (live : Bool)
  | condition (evaluated : Bool)
  deriving DecidableEq, Repr

def Opening.sightings (place : Place) : Opening → List Sighting
  | asked _ => [.condition place.isLive]
  | known _ => []

mutual
/-- The sightings that the meaning of a region at a place gives. -/
def Region.sightings (place : Place) : Region → List Sighting
  | .empty => []
  | .line rest => .line place.isLive :: rest.sightings place
  | .chain opening _ body further rest =>
    opening.sightings place ++
      (body.sightings (place.within (opening.value :: further.conditions) 0) ++
        (further.sightings place [opening.value] ++ rest.sightings place))

/-- The same for the later branches of a chain; `earlier` are the conditions before them. -/
def Branches.sightings (place : Place) (earlier : List Bool) : Branches → List Sighting
  | .close => []
  | .elseIf value body further =>
    -- Evaluated if the chain stands in live code and all conditions before it, which were
    -- evaluated then, are false.
    .condition (place.isLive && earlier.all (!·)) ::
      (body.sightings (place.within (earlier ++ value :: further.conditions) earlier.length) ++
        further.sightings place (earlier ++ [value]))
  | .elseBranch body => body.sightings (place.within earlier earlier.length)
end

/-! ### Driving the stack -/

/-- A line or a directive of a region. -/
inductive Mark where
  | line
  | openIf (openedAt : Nat) (value : Bool)
  | push (openedAt : Nat) (value : Bool)
  | elseIf (value : Bool)
  | elseBranch
  | close
  deriving DecidableEq, Repr

def Opening.mark (openedAt : Nat) : Opening → Mark
  | asked value => .openIf openedAt value
  | known value => .push openedAt value

mutual
def Region.marks : Region → List Mark
  | .empty => []
  | .line rest => .line :: rest.marks
  | .chain opening openedAt body further rest =>
    opening.mark openedAt :: (body.marks ++ (further.marks ++ rest.marks))

def Branches.marks : Branches → List Mark
  | .close => [.close]
  | .elseIf value body further => .elseIf value :: (body.marks ++ further.marks)
  | .elseBranch body => .elseBranch :: (body.marks ++ [.close])
end

namespace ConditionalStack

/-- Whether opening a conditional calls the condition. -/
def callsOnOpen (stack : ConditionalStack) (line : Nat) : Bool :=
  -- A condition that always fails is noticed exactly if it is called.
  match stack.openIf line fun _ => (.error () : Except Unit Bool) with
  | .error _ => true
  | .ok _ => false

def callsOnElseIf (stack : ConditionalStack) : Bool :=
  match stack.elseIf fun _ => (.error () : Except Unit Bool) with
  | .ok (_, failure) => failure.isSome
  | .error _ => false

/-- Take in one mark. Conditions do not fail here. -/
def advance (stack : ConditionalStack) :
    Mark → Except BranchError (ConditionalStack × List Sighting)
  | .line => .ok (stack, [.line stack.isActive])
  | .openIf openedAt value =>
    match stack.openIf openedAt fun _ => (.ok value : Except Empty Bool) with
    | .ok next => .ok (next, [.condition (stack.callsOnOpen openedAt)])
  | .push openedAt value => .ok (stack.push openedAt value, [])
  | .elseIf value =>
    match stack.elseIf fun _ => (.ok value : Except Empty Bool) with
    | .ok (next, none) => .ok (next, [.condition stack.callsOnElseIf])
    | .error error => .error error
  | .elseBranch => stack.elseBranch.map fun next => (next, [])
  | .close => stack.close.map fun next => (next, [])

/-- Take in marks one after the other and note what is seen. -/
def drive (stack : ConditionalStack) :
    List Mark → Except BranchError (ConditionalStack × List Sighting)
  | [] => .ok (stack, [])
  | mark :: rest =>
    match stack.advance mark with
    | .error error => .error error
    | .ok (next, seen) => (next.drive rest).map fun (last, later) => (last, seen ++ later)

theorem drive_cons (stack mid last : ConditionalStack) (mark : Mark) (marks : List Mark)
    (seen later : List Sighting) (first : stack.advance mark = .ok (mid, seen))
    (rest : mid.drive marks = .ok (last, later)) :
    stack.drive (mark :: marks) = .ok (last, seen ++ later) := by
  simp only [drive, first, rest, Except.map]

theorem drive_append (stack mid last : ConditionalStack) (marks more : List Mark)
    (seen later : List Sighting) (first : stack.drive marks = .ok (mid, seen))
    (rest : mid.drive more = .ok (last, later)) :
    stack.drive (marks ++ more) = .ok (last, seen ++ later) := by
  induction marks generalizing stack seen with
  | nil =>
    simp only [drive, Except.ok.injEq, Prod.mk.injEq] at first
    obtain ⟨rfl, rfl⟩ := first
    exact rest
  | cons mark marks ih =>
    simp only [drive] at first
    split at first
    · cases first
    next next noted advanced =>
      cases driven : next.drive marks with
      | error error => simp [driven, Except.map] at first
      | ok result =>
        obtain ⟨reached, after⟩ := result
        simp only [driven, Except.map, Except.ok.injEq, Prod.mk.injEq] at first
        obtain ⟨rfl, rfl⟩ := first
        rw [List.append_assoc]
        exact drive_cons stack next last mark _ noted _ advanced (ih next after driven)

/-! ### The invariant of an open chain -/

/-- The frame of a chain in code that is live or dead, after the conditions `earlier`.
A later branch may be taken only in live code and if all conditions so far are false. -/
structure Follows (top : Frame) (live : Bool) (earlier : List Bool) : Prop where
  unfinished : top.seenElse = false
  settled : top.settled = !(live && earlier.all (!·))

@[simp] theorem isActive_cons (top : Frame) (outer : List Frame) :
    isActive ⟨top :: outer⟩ = (top.live && isActive ⟨outer⟩) := rfl

@[simp] theorem isEnclosingActive_cons (top : Frame) (outer : List Frame) :
    isEnclosingActive ⟨top :: outer⟩ = isActive ⟨outer⟩ := rfl

theorem advance_opening (stack : ConditionalStack) (place : Place) (opening : Opening)
    (openedAt : Nat) (live : stack.isActive = place.isLive) :
    ∃ top, stack.advance (opening.mark openedAt) =
        .ok (⟨top :: stack.frames⟩, opening.sightings place) ∧
      top.live = (place.isLive && opening.value) ∧
      Follows top place.isLive [opening.value] := by
  refine ⟨⟨place.isLive && opening.value, !place.isLive || opening.value, false, openedAt⟩,
    ?_, rfl, rfl, ?_⟩
  -- In dead code the condition is not asked for, but the frame is the same.
  · cases opening with
    | known value => simp [Opening.mark, Opening.sightings, Opening.value, advance, push, live]
    | asked value =>
      cases active : place.isLive <;>
        simp [Opening.mark, Opening.sightings, Opening.value, advance, openIf, evaluatesIf, push,
          callsOnOpen, live, active, Except.map]
  · cases place.isLive <;> cases opening.value <;> rfl

theorem advance_elseIf (top : Frame) (outer : List Frame) (live value : Bool)
    (earlier : List Bool) (around : isActive ⟨outer⟩ = live)
    (follows : Follows top live earlier) :
    ∃ next, advance ⟨top :: outer⟩ (.elseIf value) =
        .ok (⟨next :: outer⟩, [.condition (live && earlier.all (!·))]) ∧
      next.live = (live && earlier.all (!·) && value) ∧ Follows next live (earlier ++ [value]) := by
  obtain ⟨unfinished, settled⟩ := follows
  cases undecided : live && earlier.all (!·) with
  | false =>
    -- Dead code around, or an earlier branch was taken: the chain is settled.
    rw [undecided] at settled
    refine ⟨{ top with live := false, settled := true }, ?_, rfl, unfinished, ?_⟩
    · simp [advance, elseIf, evaluatesElseIf, callsOnElseIf, unfinished, settled]
    · simp only [List.all_append, ← Bool.and_assoc, undecided, Bool.false_and, Bool.not_false]
  | true =>
    -- The chain is open, so the condition decides.
    rw [undecided] at settled
    have active : live = true := (Bool.and_eq_true_iff.mp undecided).1
    refine ⟨{ top with live := value, settled := value }, ?_, rfl, unfinished, ?_⟩
    · simp [advance, elseIf, evaluatesElseIf, callsOnElseIf, unfinished, settled, around, active]
    · simp only [List.all_append, ← Bool.and_assoc, undecided, Bool.true_and]
      cases value <;> rfl

theorem advance_elseBranch (top : Frame) (outer : List Frame) (live : Bool)
    (earlier : List Bool) (follows : Follows top live earlier) :
    ∃ next, advance ⟨top :: outer⟩ .elseBranch = .ok (⟨next :: outer⟩, []) ∧
      next.live = (live && earlier.all (!·)) := by
  obtain ⟨unfinished, settled⟩ := follows
  refine ⟨{ top with seenElse := true, live := !top.settled, settled := true }, ?_, ?_⟩
  · simp [advance, elseBranch, unfinished, Except.map]
  · simp [settled]

/-! ### The run -/

theorem selectedBranch_middle (earlier later : List Bool) (value : Bool) :
    selectedBranch (earlier ++ value :: later) = earlier.length ↔
      (earlier.all (!·) && value) = true := by
  induction earlier with
  | nil => cases value <;> simp [selectedBranch, List.findIdx_cons]
  | cons first rest ih =>
    unfold selectedBranch at ih ⊢
    cases first <;> simp [List.findIdx_cons, ih]

theorem selectedBranch_last (conditions : List Bool) :
    selectedBranch conditions = conditions.length ↔ conditions.all (!·) = true := by
  induction conditions with
  | nil => simp [selectedBranch]
  | cons first rest ih =>
    unfold selectedBranch at ih ⊢
    cases first <;> simp [List.findIdx_cons, ih]

/-- The stack agrees with the place inside a branch if its top frame does. -/
theorem isActive_within (top : Frame) (outer : List Frame) (place : Place)
    (conditions : List Bool) (branch : Nat) (chosen : Bool)
    (around : isActive ⟨outer⟩ = place.isLive) (topLive : top.live = (place.isLive && chosen))
    (selected : selectedBranch conditions = branch ↔ chosen = true) :
    isActive ⟨top :: outer⟩ = (place.within conditions branch).isLive := by
  have same : decide (selectedBranch conditions = branch) = chosen := by
    cases chosen <;> simpa using selected
  rw [isActive_cons, Place.isLive_within, around, topLive, same]
  cases place.isLive <;> simp

-- The stack does not see the tree. Below an open chain, `Follows` ties its top frame to the
-- conditions read so far, and the frames under it agree with the place around the chain.
mutual
/-- Driving a region from a stack that agrees with the place comes back to the stack. -/
theorem drive_region (region : Region) (stack : ConditionalStack) (place : Place)
    (live : stack.isActive = place.isLive) :
    stack.drive region.marks = .ok (stack, region.sightings place) := by
  match region with
  | .empty => rfl
  | .line rest =>
    have seen : stack.advance .line = .ok (stack, [.line place.isLive]) := by
      rw [← live]
      rfl
    exact drive_cons _ _ _ _ _ _ _ seen (drive_region rest stack place live)
  | .chain opening openedAt body further rest =>
    obtain ⟨top, opened, topLive, follows⟩ := advance_opening stack place opening openedAt live
    -- The body is branch 0, with no condition before its own.
    have first := selectedBranch_middle [] further.conditions opening.value
    have inside := isActive_within top stack.frames place _ _ _ live topLive first
    have bodyRun := drive_region body _ _ inside
    have furtherRun := drive_branches further top stack.frames place [opening.value] live follows
    have restRun := drive_region rest stack place live
    exact drive_cons _ _ _ _ _ _ _ opened
      (drive_append _ _ _ _ _ _ _ bodyRun (drive_append _ _ _ _ _ _ _ furtherRun restRun))
termination_by structural region

/-- Driving the later branches of a chain closes the chain. -/
theorem drive_branches (further : Branches) (top : Frame) (outer : List Frame) (place : Place)
    (earlier : List Bool) (live : isActive ⟨outer⟩ = place.isLive)
    (follows : Follows top place.isLive earlier) :
    drive ⟨top :: outer⟩ further.marks = .ok (⟨outer⟩, further.sightings place earlier) := by
  match further with
  | .close => rfl
  | .elseIf value body further =>
    obtain ⟨next, switched, nextLive, follows⟩ :=
      advance_elseIf top outer place.isLive value earlier live follows
    have chosen := selectedBranch_middle earlier further.conditions value
    have inside := isActive_within next outer place _ _ _ live
      (nextLive.trans (Bool.and_assoc _ _ _)) chosen
    have bodyRun := drive_region body _ _ inside
    have furtherRun := drive_branches further next outer place (earlier ++ [value]) live follows
    exact drive_cons _ _ _ _ _ _ _ switched (drive_append _ _ _ _ _ _ _ bodyRun furtherRun)
  | .elseBranch body =>
    obtain ⟨next, switched, nextLive⟩ := advance_elseBranch top outer place.isLive earlier follows
    -- Its number is that of the conditions, so it is selected if none of them holds.
    have inside := isActive_within next outer place _ _ _ live nextLive
      (selectedBranch_last earlier)
    have bodyRun := drive_region body _ _ inside
    have closed : drive ⟨next :: outer⟩ [.close] = .ok (⟨outer⟩, []) := rfl
    have whole := drive_cons _ _ _ _ _ _ _ switched (drive_append _ _ _ _ _ _ _ bodyRun closed)
    rw [List.append_nil] at whole
    exact whole
termination_by structural further
end

/-- Driven by the directives of a nested structure, the stack finds live exactly the lines that
stand in the selected branch of every chain around them, calls a condition exactly if its
chain stands in live code and all conditions before it in the chain are false, and is in
the end what it was before. -/
theorem drive_marks_eq_meaning (stack : ConditionalStack) (region : Region) :
    stack.drive region.marks = .ok (stack, region.sightings ⟨stack.isActive, []⟩) := by
  apply drive_region
  simp [Place.isLive]

end ConditionalStack

end FirmwareWorkspace
