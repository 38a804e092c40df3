import HostInventory.Proofs.Json.Delimiting
/-!
# Where a surrogate can come from

Canonical text has a UTF-8 form unless it holds a surrogate, and the writer adds none of its
own: what it writes around strings (quotes, escapes, punctuation, numbers and literals) is ASCII,
and a code point of a string or a member name is written as itself unless it is escaped, in which
case it is ASCII. So a value's canonical text holds a surrogate exactly when one of the texts the
value holds does (`canonical_hasSurrogate`), and a value whose doubles are finite has canonical
bytes exactly when none of its texts holds a surrogate (`encodedBytes_isOk_iff`).
-/

namespace HostInventory

namespace Text

/-- Whether a text holds a surrogate. -/
def hasSurrogate (t : Text) : Bool := t.points.any isSurrogate

@[simp] theorem hasSurrogate_append (a b : Text) :
    (a ++ b).hasSurrogate = (a.hasSurrogate || b.hasSurrogate) := by
  simp [hasSurrogate]

/-- A character of a string literal is a scalar value, never a surrogate. -/
@[simp] theorem hasSurrogate_ofString (s : String) : (ofString s).hasSurrogate = false := by
  simp only [hasSurrogate, ofString, List.any_map, List.any_eq_false, Function.comp_apply,
    Bool.not_eq_true]
  intro c _
  have valid := c.valid
  simp only [Nat.isValidChar, UInt32.isValidChar] at valid
  simp only [isSurrogate, Char.toNat, Bool.and_eq_false_iff, decide_eq_false_iff_not, Nat.not_le]
  omega

theorem hasSurrogate_eq_false_iff (t : Text) :
    t.hasSurrogate = false ↔ ∀ c ∈ t.points, isSurrogate c = false := by
  simp [hasSurrogate]

theorem hasSurrogate_intercalate {sep : Text} (plain : sep.hasSurrogate = false) :
    ∀ ts : List Text, (intercalate sep ts).hasSurrogate = ts.any hasSurrogate
  | [] => rfl
  | [t] => by simp [intercalate]
  | t :: u :: rest => by
    change (t ++ sep ++ intercalate sep (u :: rest)).hasSurrogate = _
    rw [hasSurrogate_append, hasSurrogate_append, plain, hasSurrogate_intercalate plain (u :: rest)]
    simp

end Text

namespace Json

mutual

/-- The texts a value holds: its strings and its member names, depth first. -/
def heldTexts : Json → List Text
  | .str t => [t]
  | .arr items => itemsTexts items
  | .obj members => membersTexts members
  | _ => []

/-- The texts items hold, in order. -/
def itemsTexts : List Json → List Text
  | [] => []
  | v :: rest => v.heldTexts ++ itemsTexts rest

/-- The texts members hold: each name, then what its value holds. -/
def membersTexts : List (Text × Json) → List Text
  | [] => []
  | (name, v) :: rest => name :: v.heldTexts ++ membersTexts rest

end

@[simp] theorem itemsTexts_eq_flatMap (xs : List Json) : itemsTexts xs = xs.flatMap heldTexts := by
  induction xs with
  | nil => rfl
  | cons x xs ih => simp [itemsTexts, ih]

@[simp] theorem membersTexts_eq_flatMap (ms : List (Text × Json)) :
    membersTexts ms = ms.flatMap fun m => m.1 :: m.2.heldTexts := by
  induction ms with
  | nil => rfl
  | cons m ms ih =>
    obtain ⟨_, v⟩ := m
    simp [membersTexts, ih]

/-- A text of neutral code points, all below `{`, holds no surrogate. -/
theorem NeutralText.hasSurrogate_eq_false {t : Text} (neutral : NeutralText t) :
    t.hasSurrogate = false := by
  rw [Text.hasSurrogate_eq_false_iff]
  intro c mem
  have below := (neutral c mem).2
  simp only [Text.isSurrogate, Bool.and_eq_false_iff, decide_eq_false_iff_not, Nat.not_le]
  omega

/-- A code point is escaped into ASCII or written as itself. -/
theorem canonicalPoint_hasSurrogate (c : Nat) :
    (canonicalPoint c).any Text.isSurrogate = Text.isSurrogate c := by
  unfold canonicalPoint
  split_ifs with quote backslash newline carriage tab backspace formFeed control
  -- the quote, the backslash and the five one-letter escapes
  iterate 7 · simp_all [Text.isSurrogate]
  -- `\u00` and two hexadecimal digits
  · have small : Text.isSurrogate c = false := by
      simp only [Text.isSurrogate, Bool.and_eq_false_iff, decide_eq_false_iff_not, Nat.not_le]
      omega
    rw [small, hexDigits_two]
    simp only [List.cons_append, List.nil_append, List.any_cons, List.any_nil, Bool.or_false]
    simp only [Text.isSurrogate]
    split_ifs <;> simp <;> omega
  · simp

@[simp] theorem canonicalString_hasSurrogate (t : Text) :
    (canonicalString t).hasSurrogate = t.hasSurrogate := by
  have quote : Text.isSurrogate 0x22 = false := by decide
  simp [canonicalString, Text.hasSurrogate, List.any_flatMap, canonicalPoint_hasSurrogate, quote]

/-- Two lists related pointwise by a relation that keeps a test give the same answer to `any`. -/
theorem any_eq_of_forall₂ {α β : Type} {R : α → β → Prop} {p : α → Bool} {q : β → Bool} :
    ∀ {l₁ : List α} {l₂ : List β}, (∀ a ∈ l₁, ∀ b, R a b → p a = q b) →
      List.Forall₂ R l₁ l₂ → l₁.any p = l₂.any q
  | [], [], _, .nil => rfl
  | a :: _, _ :: _, keeps, .cons related rest => by
    rw [List.any_cons, List.any_cons, keeps a List.mem_cons_self _ related,
      any_eq_of_forall₂ (fun a' mem => keeps a' (List.mem_cons_of_mem a mem)) rest]

mutual

/-- A value's canonical text holds a surrogate exactly when a text the value holds does. -/
theorem canonical_hasSurrogate : (v : Json) → ∀ {t : Text}, v.canonical = .ok t →
    t.hasSurrogate = v.heldTexts.any Text.hasSurrogate
  | .null, t, written => by
    simp only [canonical, pure, Except.pure, Except.ok.injEq] at written
    simp [← written, heldTexts]
  | .bool b, t, written => by
    simp only [canonical, pure, Except.pure, Except.ok.injEq] at written
    simp [← written, heldTexts]
  | .int n, t, written => by
    simp only [canonical, pure, Except.pure, Except.ok.injEq] at written
    rw [← written, (neutralText_ofInt n).hasSurrogate_eq_false]
    rfl
  | .float x, t, written => by
    rw [(neutralText_floatText (canonical_float_eq_ok_iff.mp written)).hasSurrogate_eq_false]
    rfl
  | .str s, t, written => by
    simp only [canonical, pure, Except.pure, Except.ok.injEq] at written
    simp [← written, heldTexts]
  | .arr items, t, written => by
    obtain ⟨ts, parts, rfl⟩ := canonical_arr_eq_ok_iff.mp written
    rw [Text.hasSurrogate_append, Text.hasSurrogate_append,
      Text.hasSurrogate_intercalate (Text.hasSurrogate_ofString _), itemsHaveSurrogate items parts]
    simp [heldTexts, List.any_flatMap]
  | .obj ms, t, written => by
    obtain ⟨ws, mapped, rfl⟩ := canonical_obj_eq_ok_iff.mp written
    -- the members are written in name order, which `any` does not see
    rw [sortMembers_canonicalMembers, mapM_eq_ok_iff, List.forall₂_map_left_iff] at mapped
    have each : (sortMembers ms).any (fun m => m.1.hasSurrogate ||
        m.2.heldTexts.any Text.hasSurrogate) = ws.any Text.hasSurrogate := by
      refine any_eq_of_forall₂ ?_ mapped
      intro m sortedMem w memberWritten
      have mem : m ∈ ms := (List.mergeSort_perm ms _).subset sortedMem
      rcases memberText_eq_ok memberWritten with ⟨u, value, rfl⟩
      rw [Text.hasSurrogate_append, Text.hasSurrogate_append, canonicalString_hasSurrogate,
        Text.hasSurrogate_ofString, membersHaveSurrogate ms m mem value]
      simp
    rw [objectText, Text.hasSurrogate_append, Text.hasSurrogate_append,
      Text.hasSurrogate_intercalate (Text.hasSurrogate_ofString _), ← each, sortMembers,
      (List.mergeSort_perm ms _).any_eq]
    simp [heldTexts, List.any_flatMap]

theorem itemsHaveSurrogate : (xs : List Json) → ∀ {ts : List Text}, canonicalItems xs = .ok ts →
    ts.any Text.hasSurrogate = (xs.flatMap heldTexts).any Text.hasSurrogate
  | [], ts, written => by
    simp only [canonicalItems, pure, Except.pure, Except.ok.injEq] at written
    simp [← written]
  | x :: xs, ts, written => by
    cases head : x.canonical with
    | error e => simp [canonicalItems, head, bind, Except.bind] at written
    | ok u =>
      cases tail : canonicalItems xs with
      | error e => simp [canonicalItems, head, tail, bind, Except.bind] at written
      | ok us =>
        simp only [canonicalItems, head, tail, bind, Except.bind, pure, Except.pure,
          Except.ok.injEq] at written
        rw [← written, List.any_cons, canonical_hasSurrogate x head, itemsHaveSurrogate xs tail]
        simp [List.any_append]

theorem membersHaveSurrogate : (ms : List (Text × Json)) → ∀ m ∈ ms, ∀ {u : Text},
    m.2.canonical = .ok u → u.hasSurrogate = m.2.heldTexts.any Text.hasSurrogate
  | [], m, mem, _, _ => by simp at mem
  | (name, v) :: ms, m, mem, u, value => by
    rcases List.mem_cons.mp mem with rfl | later
    · exact canonical_hasSurrogate v value
    · exact membersHaveSurrogate ms m later value

end

/-- A value whose doubles are finite has canonical bytes exactly when no text it holds has a
surrogate. -/
theorem encodedBytes_isOk_iff {v : Json} (finite : v.finite = true) :
    (∃ octets, v.encodedBytes = .ok octets) ↔ v.heldTexts.any Text.hasSurrogate = false := by
  rcases (canonical_ok_iff v).mpr finite with ⟨t, written⟩
  rw [← canonical_hasSurrogate v written, Text.hasSurrogate_eq_false_iff, ← Text.utf8_isOk_iff]
  simp only [encodedBytes_eq, written, Text.encoded, Except.mapError_eq_ok_iff]

end Json

end HostInventory
