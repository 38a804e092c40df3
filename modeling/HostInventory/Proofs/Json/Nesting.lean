import HostInventory.Proofs.Json.ReadBack
import HostInventory.Stack.Metadata
/-!
# Values nested too deep

Arrays nested inside one another are the simplest values that meet the two limits on nesting.
Their canonical text is a run of opening brackets and a run of closing ones, so it is a JSON text
of any depth. The reader refuses it all the same once it nests more arrays than the room it is
given, where the first array past the room opens (`readWithin_bracketsText`). And converting such
a value into dictionaries, which takes two places on the stack per level, is refused by a call
check once it reaches past the stack limit (`recordChecks_nestedArrays`).
-/

namespace HostInventory.Json

/-- Arrays nested `n + 1` deep, the innermost one empty. -/
def nestedArrays : Nat → Json
  | 0 => .arr []
  | n + 1 => .arr [nestedArrays n]

/-- The text of `n` nested arrays: `n` opening brackets, then `n` closing ones. -/
def bracketsText (n : Nat) : Text := ⟨List.replicate n 0x5B ++ List.replicate n 0x5D⟩

theorem canonical_nestedArrays (n : Nat) :
    (nestedArrays n).canonical = .ok (bracketsText (n + 1)) := by
  induction n with
  | zero => rfl
  | succ n ih =>
    simp only [nestedArrays, canonical, canonicalItems, ih, bind, Except.bind, pure, Except.pure]
    congr 1
    apply Text.points_injective
    simp [bracketsText, Text.intercalate, Text.ofString, List.replicate_succ]
    rw [← List.replicate_succ', List.replicate_succ]

namespace Source

/-- A run of opening brackets longer than the room for nesting is refused where the first bracket
past the room opens. The fuel is the reader's own, two steps per level. -/
theorem value_opens_too_deep {s : Source} : ∀ {room fuel i : Nat}, 2 * room < fuel →
    (∀ j ≤ room, s.at? (i + j) = some 0x5B) → s.value fuel room i = .error (.tooDeep true)
  | 0, fuel + 1, i, _, opens => by
    have lead := opens 0 le_rfl
    simp only [Nat.add_zero] at lead
    simp [value, lead, throw, throwThe, MonadExceptOf.throw]
  | room + 1, fuel + 2, i, enough, opens => by
    have lead := opens 0 (Nat.zero_le _)
    have next := opens 1 (by omega)
    simp only [Nat.add_zero] at lead
    rw [value_array lead (by omega), Nat.add_sub_cancel]
    have stay : s.skipBlanks (i + 1) = i + 1 :=
      skipBlanks_of_rest (by rw [← at?_eq_head?, next]; simp)
    -- the array's first item is the next bracket, with one place less of room
    have inner : s.value fuel room (i + 1) = .error (.tooDeep true) :=
      value_opens_too_deep (by omega) (fun j within => by
        rw [Nat.add_assoc, Nat.add_comm 1 j]
        exact opens (j + 1) (by omega))
    simp [stay, elements, is, next, inner, bind, Except.bind]
  | 0, 0, _, enough, _ => by omega
  | _ + 1, 0, _, enough, _ => by omega
  | _ + 1, 1, _, enough, _ => by omega

end Source

/-- A document of more nested arrays than the room is refused as too deep. -/
theorem readWithin_bracketsText {room n : Nat} (deep : room < n) :
    readWithin room (bracketsText n) = .error (.tooDeep true) := by
  let s : Source := ⟨(bracketsText n).points.toArray⟩
  have opens : ∀ j ≤ room, s.at? (0 + j) = some 0x5B := by
    intro j within
    have inside : j < (List.replicate n 0x5B).length := by simp; omega
    simp only [s, Source.at?, bracketsText, List.getElem?_toArray, Nat.zero_add,
      List.getElem?_append_left inside, List.getElem?_replicate]
    simp only [List.length_replicate] at inside
    simp [inside]
  have first : s.at? 0 = some 0x5B := opens 0 (Nat.zero_le _)
  have stay : s.skipBlanks 0 = 0 :=
    Source.skipBlanks_of_rest (by rw [← Source.at?_eq_head?, first]; simp)
  have size : s.size = 2 * n := by
    simp only [s, Source.size, bracketsText, List.size_toArray, List.length_append,
      List.length_replicate]
    omega
  have refused : s.value (2 * s.size + 2) room 0 = .error (.tooDeep true) :=
    Source.value_opens_too_deep (by omega) opens
  simp [readWithin, Source.is, s, first, stay, refused, bind, Except.bind]

/-- An array whose own frame or first check is past the stack limit is refused at a call. -/
theorem recordChecks_arr_full {d : Nat} (full : stackLimit < d + 1) (items : List Json) :
    recordChecks d (.arr items) = .error .call := by
  by_cases past : stackLimit < d
  · simp [recordChecks, StackCheck.at, past, bind, Except.bind, throw, throwThe,
      MonadExceptOf.throw]
  · simp [recordChecks, StackCheck.at, past, full, bind, Except.bind, throw, throwThe,
      MonadExceptOf.throw, pure, Except.pure]

/-- Converting arrays nested past the stack limit into dictionaries is refused at a call. -/
theorem recordChecks_nestedArrays : ∀ {n d : Nat}, stackLimit < d + 2 * n + 1 →
    recordChecks d (nestedArrays n) = .error .call
  | 0, d, full => recordChecks_arr_full full []
  | n + 1, d, full => by
    by_cases room : stackLimit < d + 1
    · exact recordChecks_arr_full room _
    · -- the array's own checks pass, and its one item is converted two places deeper
      have inner := recordChecks_nestedArrays (n := n) (d := d + 2) (by omega)
      have here : ¬ stackLimit < d := by omega
      simp [nestedArrays, recordChecks, recordItems, StackCheck.at, here, room, inner, bind,
        Except.bind, pure, Except.pure]

end HostInventory.Json
