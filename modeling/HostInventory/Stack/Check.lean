import HostInventory.Text.Basic
/-!
# Nested calls and the stack limit

The program runs on a call stack of bounded depth. Every function it enters takes one more place
on the stack, and a few built-in operations take one while they run: a test of a value against
several types at once, a call to a built-in through the generic calling path, and writing the
printed form of a value. Each of them checks the depth first. A check deeper than `stackLimit`
is refused, and the whole operation then fails with a refusal that names the kind of check that
found the stack full.

Depths count places from the bottom of the stack, the program's outermost frame being at depth
1. A traversal of a nested value takes places in proportion to the nesting, so these checks
decide how deep a value may nest before an operation over it fails, and which refusal it gets.
-/

namespace HostInventory

/-- The kinds of check a growing stack makes. -/
inductive StackCheck where
  /-- Entering a function. -/
  | call
  /-- Testing a value against several types at once. -/
  | instanceCheck
  /-- Calling a built-in through the generic calling path. -/
  | callObject
  /-- Writing the printed form of a value. -/
  | reprObject
deriving DecidableEq, Repr

/-- The words a refusal adds after `maximum recursion depth exceeded`. -/
def StackCheck.suffix : StackCheck → String
  | .call => ""
  | .instanceCheck => " in __instancecheck__"
  | .callObject => " while calling a Python object"
  | .reprObject => " while getting the repr of an object"

/-- The deepest place a check passes at. -/
def stackLimit : Nat := 1000

/-- A check at a depth: refused, naming its kind, when the stack is full there. -/
def StackCheck.at (k : StackCheck) (depth : Nat) : Except StackCheck Unit :=
  if stackLimit < depth then throw k else pure ()

/-- A check passes exactly up to the limit. -/
theorem StackCheck.at_ok_iff (k : StackCheck) (depth : Nat) :
    k.at depth = .ok () ↔ depth ≤ stackLimit := by
  unfold StackCheck.at
  by_cases h : stackLimit < depth
  · simp only [h, if_true]
    constructor
    · intro e; cases e
    · intro lt; omega
  · simp only [h, if_false]
    constructor
    · intro _; omega
    · intro _; rfl

end HostInventory
