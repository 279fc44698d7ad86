/-!
# Conditional directives

A stack holds one frame for each open conditional, innermost first. A line is
live when every frame's current branch is. A frame is settled when no later
branch of its chain may be taken: one was taken already, or the chain stands in
dead code.
-/
namespace FirmwareWorkspace

/-- Why a branch directive cannot be applied. -/
inductive BranchError where
  /-- No conditional is open. -/
  | underflow
  /-- The chain has had its last branch. -/
  | afterElse
  deriving DecidableEq, Repr

structure Frame where
  /-- Whether the current branch is taken. -/
  live : Bool
  settled : Bool
  seenElse : Bool
  /-- Line of the opening directive. -/
  openedAt : Nat
  deriving DecidableEq, Repr

structure ConditionalStack where
  frames : List Frame
  deriving DecidableEq, Repr, Inhabited

namespace ConditionalStack

def empty : ConditionalStack := ⟨[]⟩

/-- Whether the lines at this place are live. -/
def isActive (stack : ConditionalStack) : Bool :=
  stack.frames.all (·.live)

/-- Whether the code around the innermost conditional is live. -/
def isEnclosingActive (stack : ConditionalStack) : Bool :=
  stack.frames.tail.all (·.live)

def depth (stack : ConditionalStack) : Nat :=
  stack.frames.length

/-- Lines of the open conditionals, outermost first. -/
def openLines (stack : ConditionalStack) : List Nat :=
  (stack.frames.map (·.openedAt)).reverse

/-- Open a conditional whose value is known. -/
def push (stack : ConditionalStack) (line : Nat) (value : Bool) : ConditionalStack :=
  ⟨⟨stack.isActive && value, !stack.isActive || value, false, line⟩ :: stack.frames⟩

/-- Whether opening a conditional here has its condition evaluated. -/
def evaluatesIf (stack : ConditionalStack) : Bool :=
  stack.isActive

/-- Open a conditional. The condition is evaluated in live code only, and an
error leaves the stack as it was. -/
def openIf {ε : Type} (stack : ConditionalStack) (line : Nat) (condition : Unit → Except ε Bool) :
    Except ε ConditionalStack :=
  if stack.evaluatesIf then (condition ()).map (stack.push line) else .ok (stack.push line false)

/-- Whether switching to another branch here has its condition evaluated. -/
def evaluatesElseIf (stack : ConditionalStack) : Bool :=
  match stack.frames with
  | [] => false
  | top :: _ => !top.seenElse && !top.settled && stack.isEnclosingActive

/-- Switch to a further branch with a condition. The condition is evaluated only
if the chain is unsettled and its surroundings are live; an error in it settles
the chain dead and is handed on with the stack. -/
def elseIf {ε : Type} (stack : ConditionalStack) (condition : Unit → Except ε Bool) :
    Except BranchError (ConditionalStack × Option ε) :=
  match stack.frames with
  | [] => .error .underflow
  | top :: outer =>
    if top.seenElse then .error .afterElse
    else if stack.evaluatesElseIf then
      match condition () with
      | .ok live => .ok (⟨{ top with live := live, settled := live } :: outer⟩, none)
      | .error error => .ok (⟨{ top with live := false, settled := true } :: outer⟩, some error)
    else .ok (⟨{ top with live := false, settled := true } :: outer⟩, none)

/-- Switch to the last branch, which is taken if no earlier one was. -/
def elseBranch (stack : ConditionalStack) : Except BranchError ConditionalStack :=
  match stack.frames with
  | [] => .error .underflow
  | top :: outer =>
    if top.seenElse then .error .afterElse
    else .ok ⟨{ top with seenElse := true, live := !top.settled, settled := true } :: outer⟩

/-- Close the innermost conditional. -/
def close (stack : ConditionalStack) : Except BranchError ConditionalStack :=
  match stack.frames with
  | [] => .error .underflow
  | _ :: outer => .ok ⟨outer⟩

end ConditionalStack

end FirmwareWorkspace
