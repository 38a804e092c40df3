import Mathlib
import HostInventory.Inventory.Fingerprint
/-!
# Orders and reorderings

The canonical writer sorts object members by name, and the stable fingerprint sorts octet
strings. Both compare with `Text.lexLt`, which is the lexicographic order on lists of naturals.
This file identifies the two, so that the order facts of the list library apply. It then shows
what the sorts forget: a sort whose comparison is antisymmetric on its input gives one list for
every ordering of that input.

Mapping a list through a function that may fail (`mapM` into `Except`) is described by
`List.Forall₂`. So a reordering of the input reorders the output, and one ordering fails exactly
when the other does.
-/

namespace HostInventory

namespace Text

theorem points_injective {a b : Text} (same : a.points = b.points) : a = b := by
  cases a
  cases b
  simp_all

theorem lexLt_iff_lt : ∀ a b : List Nat, lexLt a b = true ↔ a < b
  | [], [] => by simp [lexLt]
  | [], _ :: _ => by simp [lexLt]
  | _ :: _, [] => by simp [lexLt]
  | x :: xs, y :: ys => by
    simp [lexLt, List.cons_lt_cons_iff, lexLt_iff_lt xs ys]

/-- The comparison both sorts use: `a` may stay before `b` unless `b` is strictly smaller. -/
theorem not_lexLt_iff_le (a b : List Nat) : (!lexLt b a) = true ↔ a ≤ b := by
  rw [Bool.not_eq_true', ← Bool.not_eq_true, lexLt_iff_lt, not_lt]

end Text

section Sorting

variable {α : Type}

/-- Sorting by a key under the code-point order gives one list for every ordering of the input,
provided no two elements share a key. -/
theorem mergeSort_byKey_eq_of_perm (key : α → List Nat) {l₁ l₂ : List α} (perm : l₁.Perm l₂)
    (keyInjective : ∀ a ∈ l₁, ∀ b ∈ l₁, key a = key b → a = b) :
    l₁.mergeSort (fun a b => !Text.lexLt (key b) (key a)) =
      l₂.mergeSort (fun a b => !Text.lexLt (key b) (key a)) := by
  have trans : ∀ a b c : α, (!Text.lexLt (key b) (key a)) = true →
      (!Text.lexLt (key c) (key b)) = true → (!Text.lexLt (key c) (key a)) = true := by
    intro a b c ab bc
    rw [Text.not_lexLt_iff_le] at ab bc ⊢
    exact ab.trans bc
  have total : ∀ a b : α, ((!Text.lexLt (key b) (key a)) || (!Text.lexLt (key a) (key b))) = true := by
    intro a b
    rw [Bool.or_eq_true, Text.not_lexLt_iff_le, Text.not_lexLt_iff_le]
    exact le_total _ _
  refine List.Perm.eq_of_pairwise ?_ (List.pairwise_mergeSort trans total l₁)
    (List.pairwise_mergeSort trans total l₂)
    ((List.mergeSort_perm l₁ _).trans (perm.trans (List.mergeSort_perm l₂ _).symm))
  intro a b memA memB ab ba
  rw [Text.not_lexLt_iff_le] at ab ba
  have memA₁ : a ∈ l₁ := (List.mergeSort_perm l₁ _).subset memA
  have memB₁ : b ∈ l₁ := perm.symm.subset ((List.mergeSort_perm l₂ _).subset memB)
  exact keyInjective a memA₁ b memB₁ (le_antisymm ab ba)

/-- The stable fingerprint's sort forgets the order of its octet strings. -/
theorem sortOctets_eq_of_perm {l₁ l₂ : List (List Nat)} (perm : l₁.Perm l₂) :
    sortOctets l₁ = sortOctets l₂ :=
  mergeSort_byKey_eq_of_perm id perm (fun _ _ _ _ same => same)

/-- The canonical writer's sort forgets the order of members with distinct names. -/
theorem sortMembers_eq_of_perm {l₁ l₂ : List (Text × α)} (perm : l₁.Perm l₂)
    (distinct : (l₁.map Prod.fst).Nodup) :
    Json.sortMembers l₁ = Json.sortMembers l₂ := by
  have byKey := mergeSort_byKey_eq_of_perm (fun m : Text × α => m.1.points) perm
    (fun a memA b memB samePoints =>
      List.inj_on_of_nodup_map distinct memA memB (Text.points_injective samePoints))
  simpa [Json.sortMembers, Text.before] using byKey

end Sorting

section Outcomes

variable {ε α β : Type}

/-- An outcome that reports success has a value. -/
theorem Except.exists_eq_ok_of_isOk {x : Except ε β} (succeeds : x.isOk = true) :
    ∃ b, x = .ok b := by
  cases x with
  | error e => simp [Except.isOk, Except.toBool] at succeeds
  | ok b => exact ⟨b, rfl⟩

/-- A computation that may fail, followed by another, succeeds exactly when both steps do. -/
theorem Except.bind_eq_ok_iff {x : Except ε α} {f : α → Except ε β} {b : β} :
    x >>= f = .ok b ↔ ∃ a, x = .ok a ∧ f a = .ok b := by
  cases x <;> simp [bind, Except.bind]

/-- A computation that may fail, followed by another, fails where the first step fails or where
the second fails after the first succeeds. -/
theorem Except.bind_eq_error_iff {x : Except ε α} {f : α → Except ε β} {e : ε} :
    x >>= f = .error e ↔ x = .error e ∨ ∃ a, x = .ok a ∧ f a = .error e := by
  cases x <;> simp [bind, Except.bind]

theorem Except.map_eq_ok_iff {f : α → β} {x : Except ε α} {b : β} :
    x.map f = .ok b ↔ ∃ a, x = .ok a ∧ f a = b := by
  cases x <;> simp [Except.map]

theorem Except.mapError_eq_ok_iff {ε' : Type} {f : ε → ε'} {x : Except ε α} {a : α} :
    x.mapError f = .ok a ↔ x = .ok a := by
  cases x <;> simp [Except.mapError]

theorem Except.map_isOk_iff (f : α → β) (x : Except ε α) :
    (∃ b, x.map f = .ok b) ↔ ∃ a, x = .ok a := by
  cases x <;> simp [Except.map]

theorem Except.map_eq_error {f : α → β} {x : Except ε α} {e : ε}
    (failed : x.map f = .error e) : x = .error e := by
  cases x <;> simp_all [Except.map]

/-- Two outcomes that agree on success agree everywhere that matters to a caller: both succeed
with one value, or both fail. -/
theorem Except.ok_and_ok_or_error_and_error {x y : Except ε α}
    (agree : x.toOption = y.toOption) :
    (∃ a, x = .ok a ∧ y = .ok a) ∨ (∃ e₁ e₂, x = .error e₁ ∧ y = .error e₂) := by
  cases x <;> cases y <;> simp_all [Except.toOption]

end Outcomes

section Mapping

variable {α β ε : Type} {f : α → Except ε β}

/-- A mapping that may fail succeeds with `r` exactly when every element maps to its partner
in `r`. -/
theorem mapM_eq_ok_iff : ∀ {l : List α} {r : List β},
    l.mapM f = .ok r ↔ List.Forall₂ (fun a b => f a = .ok b) l r
  | [], r => by cases r <;> simp [pure, Except.pure]
  | a :: l, r => by
    cases fa : f a with
    | error e => cases r <;> simp [fa, bind, Except.bind]
    | ok b =>
      cases r with
      | nil =>
        cases ml : l.mapM f <;> simp [fa, ml, bind, Except.bind, pure, Except.pure]
      | cons b' r =>
        rw [List.forall₂_cons, ← mapM_eq_ok_iff]
        cases ml : l.mapM f <;> simp [fa, ml, bind, Except.bind, pure, Except.pure]

/-- A mapping that may fail succeeds exactly when every element maps. -/
theorem mapM_isOk_iff {l : List α} :
    (∃ r, l.mapM f = .ok r) ↔ ∀ a ∈ l, ∃ b, f a = .ok b := by
  induction l with
  | nil => simp [pure, Except.pure]
  | cons a l ih =>
    rw [List.forall_mem_cons, ← ih]
    cases fa : f a <;> cases ml : l.mapM f <;>
      simp [fa, ml, bind, Except.bind, pure, Except.pure]

/-- A failed mapping fails with the failure of one of the elements. -/
theorem mapM_eq_error : ∀ {l : List α} {e : ε}, l.mapM f = .error e → ∃ a ∈ l, f a = .error e
  | [], e, failed => by simp [pure, Except.pure] at failed
  | a :: l, e, failed => by
    cases fa : f a with
    | error e' =>
      simp only [List.mapM_cons, fa, bind, Except.bind] at failed
      exact ⟨a, List.mem_cons_self, Except.error.inj failed ▸ fa⟩
    | ok b =>
      cases ml : l.mapM f with
      | error e' =>
        simp only [List.mapM_cons, fa, ml, bind, Except.bind] at failed
        rcases mapM_eq_error ml with ⟨x, memX, fx⟩
        exact ⟨x, List.mem_cons_of_mem a memX, Except.error.inj failed ▸ fx⟩
      | ok bs => simp [fa, ml, bind, Except.bind, pure, Except.pure] at failed

/-- Every output of a successful mapping is the image of an input. -/
theorem exists_of_mem_mapM_ok {l : List α} {r : List β} (mapped : l.mapM f = .ok r) {b : β}
    (mem : b ∈ r) : ∃ a ∈ l, f a = .ok b := by
  rw [mapM_eq_ok_iff] at mapped
  induction mapped with
  | nil => cases mem
  | cons head _ ih =>
    rcases List.mem_cons.mp mem with rfl | later
    · exact ⟨_, List.mem_cons_self, head⟩
    · rcases ih later with ⟨a, memA, image⟩
      exact ⟨a, List.mem_cons_of_mem _ memA, image⟩

/-- A mapping that succeeds on every element succeeds with their images. -/
theorem mapM_map_ok {γ : Type} {g : γ → α} {k : γ → β} :
    ∀ {l : List γ}, (∀ a ∈ l, f (g a) = .ok (k a)) → (l.map g).mapM f = .ok (l.map k)
  | [], _ => rfl
  | a :: l, each => by
    simp only [List.map_cons, List.mapM_cons, each a List.mem_cons_self,
      mapM_map_ok (fun b mem => each b (List.mem_cons_of_mem a mem)), bind, Except.bind, pure,
      Except.pure]

/-- A successful mapping lists the results of the function, element by element. -/
theorem map_eq_of_mapM_eq_ok {l : List α} {r : List β} (mapped : l.mapM f = .ok r) :
    l.map f = r.map .ok := by
  rw [mapM_eq_ok_iff] at mapped
  induction mapped with
  | nil => rfl
  | cons head _ ih => rw [List.map_cons, List.map_cons, head, ih]

/-- A second mapping that agrees with a successful one wherever that one succeeds succeeds with
the same results. -/
theorem mapM_eq_ok_of_agree {ε' : Type} {g : α → Except ε' β} {l : List α} {r : List β}
    (mapped : l.mapM f = .ok r) (agree : ∀ a ∈ l, ∀ {b : β}, f a = .ok b → g a = .ok b) :
    l.mapM g = .ok r := by
  rw [mapM_eq_ok_iff] at mapped ⊢
  induction mapped with
  | nil => exact .nil
  | cons head _ ih =>
    exact .cons (agree _ List.mem_cons_self head)
      (ih fun a mem b image => agree a (List.mem_cons_of_mem _ mem) image)

/-- Elementwise equal mappings give equal results. -/
theorem mapM_eq_of_forall₂ : ∀ {l₁ l₂ : List α},
    List.Forall₂ (fun a b => f a = f b) l₁ l₂ → l₁.mapM f = l₂.mapM f
  | [], [], _ => rfl
  | a :: l₁, b :: l₂, .cons same rest => by
    simp only [List.mapM_cons, same, mapM_eq_of_forall₂ rest]

/-- Reordering the input of a successful mapping reorders its output. -/
theorem mapM_ok_of_perm {l₁ l₂ : List α} {r₁ : List β} (perm : l₁.Perm l₂)
    (mapped : l₁.mapM f = .ok r₁) : ∃ r₂, l₂.mapM f = .ok r₂ ∧ r₁.Perm r₂ := by
  rw [mapM_eq_ok_iff] at mapped
  rcases List.perm_comp_forall₂ perm.symm mapped with ⟨r₂, pairs, reordered⟩
  exact ⟨r₂, mapM_eq_ok_iff.mpr pairs, reordered.symm⟩

end Mapping

end HostInventory
