import HostInventory.Stack.Check
import HostInventory.Datum.Problem
/-!
# Stack use of traversals over metadata values

Four traversals walk a free-form metadata value, each taking stack places in its own pattern.
Write `d` for the depth of the traversal's frame at a value. The checks are listed in the order
they are made, so the first refused one is the one an operation fails with.

* The search for a part JSON cannot hold (`problemSearch`) takes one place per level. At `d` it
  enters its frame; any value but `null` is then tested against several types (`d + 1`), and
  a container against several more (`d + 1`); a number that is not finite has its printed form
  written (`d + 1`). Items and member values are searched at `d + 1`, and the search stops at
  the first part with a problem.
* The plain copy (`copyChecks`) takes two places per level: its frame, the test against several
  types (`d + 1`), for an object the built-in call listing its members (`d + 1`), and the frame
  building the copy (`d + 1`), in which the items are copied at `d + 2`.
* The conversion into dictionaries (`recordChecks`) takes two places per level: its frame, the
  frame testing for a record (`d + 1`), the test against several types (`d + 1`), for an object
  the call listing its members (`d + 1`), and the frame building the result (`d + 1`), in which
  the items, and the members' keys then values, are converted at `d + 2`. A scalar is copied by
  the general copier (`d + 1`), which makes a built-in call and enters the copier for plain
  values (both `d + 2`).
* The replacement of dates and enumerations by plain values (`plainChecks`) takes two places per
  level: its frame, for an object the call listing its members and the frame building the result
  (`d + 1`), for anything else the test against several types (`d + 1`) and, for an array, the
  frame building the result (`d + 1`); items and member values are replaced at `d + 2`.
-/

namespace HostInventory.Json

mutual

/-- The checks of searching a value for a part JSON cannot hold, from a frame at `d`, and
whether a problem was found. -/
def problemSearch (d : Nat) : Json → Except StackCheck Bool
  | .null => do
    StackCheck.call.at d
    pure false
  | .float x => do
    StackCheck.call.at d
    StackCheck.instanceCheck.at (d + 1)
    if Datum.finiteFloat x then pure false
    else do
      StackCheck.reprObject.at (d + 1)
      pure true
  | .arr items => do
    StackCheck.call.at d
    StackCheck.instanceCheck.at (d + 1)
    StackCheck.instanceCheck.at (d + 1)
    problemSearchItems (d + 1) items
  | .obj members => do
    StackCheck.call.at d
    StackCheck.instanceCheck.at (d + 1)
    StackCheck.instanceCheck.at (d + 1)
    problemSearchMembers (d + 1) members
  | _ => do
    StackCheck.call.at d
    StackCheck.instanceCheck.at (d + 1)
    pure false

/-- The checks of searching items in order, up to the first with a problem. -/
def problemSearchItems (d : Nat) : List Json → Except StackCheck Bool
  | [] => pure false
  | v :: rest => do
    if ← problemSearch d v then pure true else problemSearchItems d rest

/-- The checks of searching member values in order, up to the first with a problem. -/
def problemSearchMembers (d : Nat) : List (Text × Json) → Except StackCheck Bool
  | [] => pure false
  | (_, v) :: rest => do
    if ← problemSearch d v then pure true else problemSearchMembers d rest

end

mutual

/-- The checks of copying a value into plain arrays and objects, from a frame at `d`. -/
def copyChecks (d : Nat) : Json → Except StackCheck Unit
  | .arr items => do
    StackCheck.call.at d
    StackCheck.instanceCheck.at (d + 1)
    StackCheck.call.at (d + 1)
    copyItems (d + 2) items
  | .obj members => do
    StackCheck.call.at d
    StackCheck.instanceCheck.at (d + 1)
    StackCheck.callObject.at (d + 1)
    StackCheck.call.at (d + 1)
    copyMembers (d + 2) members
  | _ => do
    StackCheck.call.at d
    StackCheck.instanceCheck.at (d + 1)

/-- The checks of copying items in order. -/
def copyItems (d : Nat) : List Json → Except StackCheck Unit
  | [] => pure ()
  | v :: rest => do
    copyChecks d v
    copyItems d rest

/-- The checks of copying member values in order. -/
def copyMembers (d : Nat) : List (Text × Json) → Except StackCheck Unit
  | [] => pure ()
  | (_, v) :: rest => do
    copyChecks d v
    copyMembers d rest

end

/-- The checks of converting a scalar into a dictionary entry, from a frame at `d`. -/
def recordScalarChecks (d : Nat) : Except StackCheck Unit := do
  StackCheck.call.at d
  StackCheck.call.at (d + 1)
  StackCheck.instanceCheck.at (d + 1)
  StackCheck.call.at (d + 1)
  StackCheck.callObject.at (d + 2)
  StackCheck.call.at (d + 2)

mutual

/-- The checks of converting a value into dictionaries, from a frame at `d`. -/
def recordChecks (d : Nat) : Json → Except StackCheck Unit
  | .arr items => do
    StackCheck.call.at d
    StackCheck.call.at (d + 1)
    StackCheck.instanceCheck.at (d + 1)
    StackCheck.call.at (d + 1)
    recordItems (d + 2) items
  | .obj members => do
    StackCheck.call.at d
    StackCheck.call.at (d + 1)
    StackCheck.instanceCheck.at (d + 1)
    StackCheck.callObject.at (d + 1)
    StackCheck.call.at (d + 1)
    recordMembers (d + 2) members
  | _ => recordScalarChecks d

/-- The checks of converting items in order. -/
def recordItems (d : Nat) : List Json → Except StackCheck Unit
  | [] => pure ()
  | v :: rest => do
    recordChecks d v
    recordItems d rest

/-- The checks of converting members in order, each key before its value. -/
def recordMembers (d : Nat) : List (Text × Json) → Except StackCheck Unit
  | [] => pure ()
  | (_, v) :: rest => do
    recordScalarChecks d
    recordChecks d v
    recordMembers d rest

end

mutual

/-- The checks of replacing dates and enumerations in a value by plain values, from a frame at
`d`. -/
def plainChecks (d : Nat) : Json → Except StackCheck Unit
  | .obj members => do
    StackCheck.call.at d
    StackCheck.callObject.at (d + 1)
    StackCheck.call.at (d + 1)
    plainMembers (d + 2) members
  | .arr items => do
    StackCheck.call.at d
    StackCheck.instanceCheck.at (d + 1)
    StackCheck.call.at (d + 1)
    plainItems (d + 2) items
  | _ => do
    StackCheck.call.at d
    StackCheck.instanceCheck.at (d + 1)

/-- The checks of replacing in items in order. -/
def plainItems (d : Nat) : List Json → Except StackCheck Unit
  | [] => pure ()
  | v :: rest => do
    plainChecks d v
    plainItems d rest

/-- The checks of replacing in member values in order. -/
def plainMembers (d : Nat) : List (Text × Json) → Except StackCheck Unit
  | [] => pure ()
  | (_, v) :: rest => do
    plainChecks d v
    plainMembers d rest

end

mutual

/-- The first container of a value, in document order, that opens with no room left for
nesting, and whether it is an array. -/
def firstTooDeep (room : Nat) : Json → Option Bool
  | .arr items =>
    if room == 0 then some true else firstTooDeepItems (room - 1) items
  | .obj members =>
    if room == 0 then some false else firstTooDeepMembers (room - 1) members
  | _ => none

/-- The first container too deep among items. -/
def firstTooDeepItems (room : Nat) : List Json → Option Bool
  | [] => none
  | v :: rest =>
    match firstTooDeep room v with
    | some array => some array
    | none => firstTooDeepItems room rest

/-- The first container too deep among member values. -/
def firstTooDeepMembers (room : Nat) : List (Text × Json) → Option Bool
  | [] => none
  | (_, v) :: rest =>
    match firstTooDeep room v with
    | some array => some array
    | none => firstTooDeepMembers room rest

end

end HostInventory.Json
