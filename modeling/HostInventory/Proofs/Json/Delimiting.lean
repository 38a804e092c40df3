import HostInventory.Proofs.Text.Decoding
/-!
# Where a canonical object ends

The entries of a stable fingerprint are canonical object texts written one after another with
nothing between them. They can still be told apart, because an object's text ends where its braces
balance. A reader that counts open braces and skips what stands inside strings (`Scan`) first
returns to depth zero at the object's closing brace (`closes_canonical_obj`): braces inside strings
do not count, a backslash inside a string makes the next code point ordinary, and no other text of
a canonical value holds a brace or a quote.

So a list of canonical object texts is determined by their concatenation
(`flatten_closes_inj`).
-/

namespace HostInventory.Json

/-- What a reader of braces knows after a prefix of a text: how many braces are open, whether it
is inside a string, and whether the last code point was a backslash inside a string. -/
structure Scan where
  depth : Nat
  quoted : Bool
  escaped : Bool

namespace Scan

/-- Outside any string, with `d` braces open. -/
abbrev outside (d : Nat) : Scan := ⟨d, false, false⟩

/-- Inside a string, with `d` braces open. -/
abbrev inside (d : Nat) : Scan := ⟨d, true, false⟩

/-- The reader after one more code point. -/
def step (s : Scan) (c : Nat) : Scan :=
  if s.escaped then ⟨s.depth, s.quoted, false⟩
  else if s.quoted then
    if c = 0x5C then ⟨s.depth, true, true⟩
    else if c = 0x22 then outside s.depth
    else s
  else if c = 0x22 then inside s.depth
  else if c = 0x7B then outside (s.depth + 1)
  else if c = 0x7D then outside (s.depth - 1)
  else s

/-- What follows the first code point at which no brace is open outside a string, if there is
one. -/
def close (s : Scan) : List Nat → Option (List Nat)
  | [] => none
  | c :: cs =>
    if (s.step c).depth = 0 ∧ (s.step c).quoted = false then some cs else (s.step c).close cs

/-- The reader never stops where it starts: what follows is shorter. -/
theorem close_length_lt :
    ∀ {s : Scan} {t r : List Nat}, s.close t = some r → r.length < t.length
  | _, [], _, closed => by simp [close] at closed
  | s, c :: cs, r, closed => by
    unfold close at closed
    split_ifs at closed
    · rw [← Option.some.inj closed]
      simp
    · have shorter := close_length_lt closed
      simp only [List.length_cons]
      omega

end Scan

open Scan

/-- A code point that is neither a quote nor a brace. -/
def Neutral (c : Nat) : Prop := c ≠ 0x22 ∧ c < 0x7B

instance (c : Nat) : Decidable (Neutral c) := inferInstanceAs (Decidable (_ ∧ _))

/-- Text that the reader, outside strings with a brace open, passes over without change. -/
def Inert (t : List Nat) : Prop :=
  ∀ d, 0 < d → ∀ r, close (outside d) (t ++ r) = close (outside d) r

/-- Text that the reader, inside a string, passes over without change. -/
def InertQuoted (t : List Nat) : Prop :=
  ∀ d r, close (inside d) (t ++ r) = close (inside d) r

theorem Inert.nil : Inert [] := fun _ _ _ => rfl

theorem Inert.append {a b : List Nat} (first : Inert a) (second : Inert b) : Inert (a ++ b) := by
  intro d open_ r
  rw [List.append_assoc, first d open_, second d open_]

theorem inert_of_neutral : ∀ {t : List Nat}, (∀ c ∈ t, Neutral c) → Inert t
  | [], _ => Inert.nil
  | c :: t, neutral => by
    intro d open_ r
    rcases neutral c List.mem_cons_self with ⟨notQuote, belowBrace⟩
    have passes : (outside d).step c = outside d := by
      simp [step, notQuote, show c ≠ 0x7B by omega, show c ≠ 0x7D by omega]
    rw [List.cons_append, close, passes, if_neg (by simp [Nat.pos_iff_ne_zero.mp open_])]
    exact inert_of_neutral (fun c' mem => neutral c' (List.mem_cons_of_mem c mem)) d open_ r

/-- Every code point of the text is neutral. -/
def NeutralText (t : Text) : Prop := ∀ c ∈ t.points, Neutral c

instance (t : Text) : Decidable (NeutralText t) :=
  inferInstanceAs (Decidable (∀ c ∈ t.points, Neutral c))

@[simp] theorem neutralText_append {a b : Text} :
    NeutralText (a ++ b) ↔ NeutralText a ∧ NeutralText b := by
  simp only [NeutralText, Text.points_append, List.mem_append]
  constructor
  · intro both
    exact ⟨fun c mem => both c (Or.inl mem), fun c mem => both c (Or.inr mem)⟩
  · rintro ⟨first, second⟩ c (inA | inB)
    · exact first c inA
    · exact second c inB

theorem digit_toNat {ch : Char} (h : ch.isDigit = true) :
    0x30 ≤ ch.toNat ∧ ch.toNat ≤ 0x39 := by
  simp only [Char.isDigit, Bool.and_eq_true, decide_eq_true_eq, ge_iff_le,
    UInt32.le_iff_toNat_le] at h
  exact h

theorem digit_of_mem_toString {n c : Nat} (mem : c ∈ (toString n).toList.map Char.toNat) :
    0x30 ≤ c ∧ c ≤ 0x39 := by
  simp only [List.mem_map, Nat.toString_eq_repr, Nat.toList_repr] at mem
  rcases mem with ⟨ch, memDigits, rfl⟩
  exact digit_toNat (Nat.isDigit_of_mem_toDigits (by decide) (by decide) memDigits)

theorem neutralText_ofNat (n : Nat) : NeutralText (Text.ofNat n) := by
  intro c mem
  have digit := digit_of_mem_toString mem
  exact ⟨by omega, by omega⟩

theorem neutralText_ofInt (n : Int) : NeutralText (Text.ofInt n) := by
  intro c mem
  cases n with
  | ofNat m =>
    have digit := digit_of_mem_toString (n := m) mem
    exact ⟨by omega, by omega⟩
  | negSucc m =>
    simp only [Text.ofInt, Text.ofString, toString, Int.repr, String.toList_append,
      List.map_append, List.mem_append] at mem
    rcases mem with sign | digits
    · revert c; decide
    · have digit := digit_of_mem_toString (n := m + 1) digits
      exact ⟨by omega, by omega⟩

theorem neutralText_digitText {ds : List Nat} (digits : ∀ d ∈ ds, d < 10) :
    NeutralText (Binary64.digitText ds) := by
  intro c mem
  simp only [Binary64.digitText, List.mem_map] at mem
  rcases mem with ⟨d, memD, rfl⟩
  have small := digits d memD
  exact ⟨by omega, by omega⟩

theorem neutralText_zeros (k : Nat) : NeutralText ⟨List.replicate k 0x30⟩ := by
  intro c mem
  rw [List.eq_of_mem_replicate mem]
  decide

theorem neutralText_padZeros (width n : Nat) : NeutralText (padZeros width n) :=
  neutralText_append.mpr ⟨neutralText_zeros _, neutralText_ofNat n⟩

theorem neutralText_ite {p : Prop} [Decidable p] {a b : Text} :
    NeutralText (if p then a else b) ↔ (p → NeutralText a) ∧ (¬p → NeutralText b) := by
  split_ifs with holds <;> simp [holds]

theorem neutralText_empty : NeutralText Text.empty := by
  decide

/-- A literal is neutral when each of its characters is. -/
theorem neutralText_ofString {s : String}
    (neutral : (s.toList.map Char.toNat).all (fun c => decide (Neutral c)) = true) :
    NeutralText (Text.ofString s) := by
  simpa [NeutralText, Text.ofString] using neutral

theorem neutralText_render (layout : Binary64.Layout) (negative : Bool) (d : Binary64.Digits)
    (digits : ∀ k ∈ d.digits, k < 10) : NeutralText (layout.render negative d) := by
  have whole := neutralText_digitText digits
  have front : ∀ n, NeutralText (Binary64.digitText (d.digits.take n)) := fun n =>
    neutralText_digitText (fun k mem => digits k (List.mem_of_mem_take mem))
  have back : ∀ n, NeutralText (Binary64.digitText (d.digits.drop n)) := fun n =>
    neutralText_digitText (fun k mem => digits k (List.mem_of_mem_drop mem))
  unfold Binary64.Layout.render
  dsimp only
  rw [neutralText_ite]
  refine ⟨fun _ => ?_, fun _ => ?_⟩
  · simp (disch := decide) only [neutralText_append, neutralText_ite, neutralText_ofString,
      neutralText_empty, neutralText_zeros, whole, front, back, and_self, implies_true]
  · simp (disch := decide) only [neutralText_append, neutralText_ite, neutralText_ofString,
      neutralText_empty, neutralText_padZeros, and_self, implies_true, true_and, and_true]
    -- the mantissa: a first digit, then the others after a point
    split
    · decide
    next first single =>
      exact neutralText_digitText (fun k mem => digits k (single ▸ mem))
    next first rest _ several =>
      have mantissaDigits : ∀ k ∈ first :: rest, k < 10 :=
        fun k mem => digits k (several ▸ mem)
      refine neutralText_append.mpr ⟨neutralText_append.mpr ⟨?_, by decide⟩, ?_⟩
      · exact neutralText_digitText (fun k mem => mantissaDigits k (by simp_all))
      · exact neutralText_digitText
          (fun k mem => mantissaDigits k (List.mem_cons_of_mem first mem))

theorem decimalDigits_lt (n : Nat) : ∀ k ∈ Binary64.decimalDigits n, k < 10 := by
  intro k mem
  simp only [Binary64.decimalDigits, List.mem_map] at mem
  rcases mem with ⟨ch, memDigits, rfl⟩
  have digit := digit_of_mem_toString (n := n) (List.mem_map_of_mem memDigits)
  omega

theorem shortest_digits_lt (m : Nat) (q : Int) :
    ∀ k ∈ (Binary64.shortest m q).digits, k < 10 := by
  have trimmed : ∃ n, (Binary64.shortest m q).digits =
      Binary64.dropTrailingZeros (Binary64.decimalDigits n) := by
    unfold Binary64.shortest
    dsimp only
    split <;> exact ⟨_, rfl⟩
  rcases trimmed with ⟨n, eq⟩
  intro k mem
  rw [eq, Binary64.dropTrailingZeros, List.mem_reverse] at mem
  exact decimalDigits_lt n k (List.mem_reverse.mp ((List.dropWhile_sublist _).subset mem))

theorem neutralText_floatText {x : Float} {t : Text} (written : floatText? x = some t) :
    NeutralText t := by
  unfold floatText? at written
  split at written
  · cases written
  · cases written
  · -- a zero is written as a literal, any other double by its shortest digits
    split_ifs at written <;> rw [← Option.some.inj written]
    · decide
    · decide
    · exact neutralText_render _ _ _ (shortest_digits_lt _ _)

theorem NeutralText.inert {t : Text} (neutral : NeutralText t) : Inert t.points :=
  inert_of_neutral neutral

theorem InertQuoted.append {a b : List Nat} (first : InertQuoted a) (second : InertQuoted b) :
    InertQuoted (a ++ b) := by
  intro d r
  rw [List.append_assoc, first d, second d]

/-- Inside a string, a code point other than a quote or a backslash changes nothing. -/
theorem inertQuoted_plain {c : Nat} (notBackslash : c ≠ 0x5C) (notQuote : c ≠ 0x22) :
    InertQuoted [c] := by
  intro d r
  have passes : (inside d).step c = inside d := by
    simp [step, notBackslash, notQuote]
  rw [List.singleton_append, close, passes, if_neg (by simp)]

/-- Inside a string, a backslash and the code point after it change nothing. -/
theorem inertQuoted_escape (e : Nat) : InertQuoted [0x5C, e] := by
  intro d r
  simp [close, step]

theorem inertQuoted_of_plain :
    ∀ {t : List Nat}, (∀ c ∈ t, c ≠ 0x5C ∧ c ≠ 0x22) → InertQuoted t
  | [], _ => fun _ _ => rfl
  | c :: t, plain => by
    rcases plain c List.mem_cons_self with ⟨notBackslash, notQuote⟩
    rw [← List.singleton_append]
    exact (inertQuoted_plain notBackslash notQuote).append
      (inertQuoted_of_plain (fun c' mem => plain c' (List.mem_cons_of_mem c mem)))

theorem inertQuoted_canonicalPoint (c : Nat) : InertQuoted (canonicalPoint c) := by
  unfold canonicalPoint
  split_ifs with quote backslash newline carriage tab backspace formFeed control
  -- the quote, the backslash and the five one-letter escapes
  iterate 7 exact inertQuoted_escape _
  -- `\u00` and two hexadecimal digits, none of which is a backslash or a quote
  · rw [show [0x5C, 0x75, 0x30, 0x30] ++ Text.hexDigits 2 c =
      [0x5C, 0x75] ++ ([0x30, 0x30] ++ Text.hexDigits 2 c) from rfl]
    refine (inertQuoted_escape 0x75).append (inertQuoted_of_plain ?_)
    intro h mem
    simp only [hexDigits_two, List.cons_append, List.nil_append, List.mem_cons,
      List.not_mem_nil, or_false] at mem
    rcases mem with rfl | rfl | rfl | rfl
    · decide
    · decide
    all_goals split_ifs <;> omega
  · simp at quote backslash
    exact inertQuoted_plain backslash quote

theorem close_outside_quote (d : Nat) (r : List Nat) :
    close (outside d) (0x22 :: r) = close (inside d) r := by
  simp [close, step]

theorem close_inside_quote {d : Nat} (open_ : 0 < d) (r : List Nat) :
    close (inside d) (0x22 :: r) = close (outside d) r := by
  simp [close, step, Nat.pos_iff_ne_zero.mp open_]

theorem close_outside_openBrace (d : Nat) (r : List Nat) :
    close (outside d) (0x7B :: r) = close (outside (d + 1)) r := by
  simp [close, step]

theorem close_outside_closeBrace (d : Nat) (r : List Nat) :
    close (outside (d + 1)) (0x7D :: r) = if d = 0 then some r else close (outside d) r := by
  by_cases top : d = 0 <;> simp [close, step, top]

/-- A canonical string leaves the reader outside strings again, with the same braces open. -/
theorem inert_canonicalString (t : Text) : Inert (canonicalString t).points := by
  intro d open_ r
  have content : InertQuoted (t.points.flatMap canonicalPoint) := by
    induction t.points with
    | nil => exact fun _ _ => rfl
    | cons c cs ih =>
      rw [List.flatMap_cons]
      exact (inertQuoted_canonicalPoint c).append ih
  simp only [canonicalString, List.cons_append, List.append_assoc, List.nil_append]
  rw [close_outside_quote, content d, close_inside_quote open_]

/-- Text between braces: the reader returns to the depth it had, and stops there at depth zero. -/
theorem close_braced {inner : List Nat} (balanced : Inert inner) (d : Nat) (r : List Nat) :
    close (outside d) (0x7B :: (inner ++ 0x7D :: r)) =
      if d = 0 then some r else close (outside d) r := by
  rw [close_outside_openBrace, balanced (d + 1) (Nat.succ_pos d), close_outside_closeBrace]

theorem inert_intercalate {sep : Text} (sepInert : Inert sep.points) :
    ∀ {ts : List Text}, (∀ t ∈ ts, Inert t.points) → Inert (Text.intercalate sep ts).points
  | [], _ => Inert.nil
  | [t], each => each t List.mem_cons_self
  | t :: u :: rest, each => by
    change Inert (t ++ sep ++ Text.intercalate sep (u :: rest)).points
    rw [Text.points_append, Text.points_append]
    exact ((each t List.mem_cons_self).append sepInert).append
      (inert_intercalate sepInert (fun t' mem => each t' (List.mem_cons_of_mem t mem)))

theorem objectText_points (written : List Text) : (objectText written).points =
    0x7B :: ((Text.intercalate (Text.ofString ",") written).points ++ [0x7D]) := rfl

theorem close_objectText {written : List Text} (members : ∀ w ∈ written, Inert w.points)
    (d : Nat) (r : List Nat) :
    close (outside d) ((objectText written).points ++ r) =
      if d = 0 then some r else close (outside d) r := by
  have inner := inert_intercalate (by decide : NeutralText (Text.ofString ",")).inert members
  rw [objectText_points, List.cons_append, List.append_assoc, List.singleton_append]
  exact close_braced inner d r

/-- Member texts are inert when the texts of the member values are. -/
theorem inert_memberTexts {ms : List (Text × Json)}
    (values : ∀ m ∈ canonicalMembers ms, ∀ {u : Text}, m.2 = .ok u → Inert u.points)
    {written : List Text}
    (mapped : (sortMembers (canonicalMembers ms)).mapM memberText = .ok written) :
    ∀ w ∈ written, Inert w.points := by
  intro w mem
  rcases exists_of_mem_mapM_ok mapped mem with ⟨m, sorted, member⟩
  rcases memberText_eq_ok member with ⟨u, value, rfl⟩
  have inMembers : m ∈ canonicalMembers ms := by
    rw [sortMembers, List.mem_mergeSort] at sorted
    exact sorted
  rw [Text.points_append, Text.points_append]
  have colon : NeutralText (Text.ofString ":") := by decide
  exact ((inert_canonicalString m.1).append colon.inert).append (values m inMembers value)

mutual

/-- A reader inside an object passes over the canonical text of any value. -/
theorem inert_canonical : (v : Json) → ∀ {t : Text}, v.canonical = .ok t → Inert t.points
  | .null, t, written => by
    simp only [canonical, pure, Except.pure, Except.ok.injEq] at written
    rw [← written]
    exact (by decide : NeutralText (Text.ofString "null")).inert
  | .bool b, t, written => by
    simp only [canonical, pure, Except.pure, Except.ok.injEq] at written
    rw [← written]
    cases b
    · exact (by decide : NeutralText (Text.ofString "false")).inert
    · exact (by decide : NeutralText (Text.ofString "true")).inert
  | .int n, t, written => by
    simp only [canonical, pure, Except.pure, Except.ok.injEq] at written
    rw [← written]
    exact (neutralText_ofInt n).inert
  | .float x, t, written => (neutralText_floatText (canonical_float_eq_ok_iff.mp written)).inert
  | .str s, t, written => by
    simp only [canonical, pure, Except.pure, Except.ok.injEq] at written
    rw [← written]
    exact inert_canonicalString s
  | .arr items, t, written => by
    obtain ⟨ts, parts, rfl⟩ := canonical_arr_eq_ok_iff.mp written
    rw [Text.points_append, Text.points_append]
    exact ((by decide : NeutralText (Text.ofString "[")).inert.append
      (inert_intercalate (by decide : NeutralText (Text.ofString ",")).inert
        (inertItems items parts))).append (by decide : NeutralText (Text.ofString "]")).inert
  | .obj ms, t, written => by
    obtain ⟨ws, mapped, rfl⟩ := canonical_obj_eq_ok_iff.mp written
    intro d open_ r
    rw [close_objectText (inert_memberTexts (inertMembers ms) mapped) d r,
      if_neg (Nat.pos_iff_ne_zero.mp open_)]

theorem inertItems : (xs : List Json) → ∀ {ts : List Text}, canonicalItems xs = .ok ts →
    ∀ t ∈ ts, Inert t.points
  | [], ts, written => by
    simp only [canonicalItems, pure, Except.pure, Except.ok.injEq] at written
    simp [← written]
  | x :: xs, ts, written => by
    cases head : x.canonical with
    | error e => simp [canonicalItems, head, bind, Except.bind] at written
    | ok u =>
      cases tail : canonicalItems xs with
      | error e => simp [canonicalItems, head, tail, bind, Except.bind] at written
      | ok us =>
        simp only [canonicalItems, head, tail, bind, Except.bind, pure, Except.pure,
          Except.ok.injEq] at written
        rw [← written]
        intro t mem
        rcases List.mem_cons.mp mem with rfl | later
        · exact inert_canonical x head
        · exact inertItems xs tail t later

theorem inertMembers : (ms : List (Text × Json)) →
    ∀ m ∈ canonicalMembers ms, ∀ {u : Text}, m.2 = .ok u → Inert u.points
  | [], m, mem, _, _ => by simp [canonicalMembers] at mem
  | (name, v) :: ms, m, mem, u, value => by
    rcases List.mem_cons.mp mem with rfl | later
    · exact inert_canonical v value
    · exact inertMembers ms m later value

end

/-- Text whose braces first balance at its last code point, read from outside any object. -/
def Closes (t : Text) : Prop := ∀ r, close (outside 0) (t.points ++ r) = some r

/-- The canonical text of an object ends at its closing brace. -/
theorem closes_canonical_obj {ms : List (Text × Json)} {t : Text}
    (written : (Json.obj ms).canonical = .ok t) : Closes t := by
  obtain ⟨ws, mapped, rfl⟩ := canonical_obj_eq_ok_iff.mp written
  intro r
  rw [close_objectText (inert_memberTexts (inertMembers ms) mapped) 0 r, if_pos rfl]

theorem Closes.ne_empty {t : Text} (closes : Closes t) : t.points ≠ [] := by
  intro empty
  have stops := closes []
  rw [empty] at stops
  simp [close] at stops

/-- Two texts that each end where their braces balance, at the front of one string, are the same
text, and what follows them is the same too. -/
theorem Closes.append_inj {t t' : Text} {r r' : List Nat} (closes : Closes t) (closes' : Closes t')
    (same : t.points ++ r = t'.points ++ r') : t = t' ∧ r = r' := by
  have rests : r = r' := by
    have stops := closes r
    rw [same, closes' r'] at stops
    exact (Option.some.inj stops).symm
  subst rests
  exact ⟨Text.points_injective (List.append_cancel_right same), rfl⟩

/-- Texts that each end where their braces balance are determined by their concatenation. -/
theorem flatten_closes_inj : ∀ {ts ts' : List Text},
    (∀ t ∈ ts, Closes t) → (∀ t ∈ ts', Closes t) →
    (ts.map Text.points).flatten = (ts'.map Text.points).flatten → ts = ts'
  | [], [], _, _, _ => rfl
  | [], t :: _, _, closes', same => by
    simp only [List.map_cons, List.flatten_cons, List.map_nil, List.flatten_nil] at same
    exact absurd (List.append_eq_nil_iff.mp same.symm).1 (closes' t List.mem_cons_self).ne_empty
  | t :: _, [], closes, _, same => by
    simp only [List.map_cons, List.flatten_cons, List.map_nil, List.flatten_nil] at same
    exact absurd (List.append_eq_nil_iff.mp same).1 (closes t List.mem_cons_self).ne_empty
  | t :: ts, t' :: ts', closes, closes', same => by
    simp only [List.map_cons, List.flatten_cons] at same
    rcases (closes t List.mem_cons_self).append_inj (closes' t' List.mem_cons_self) same
      with ⟨rfl, rests⟩
    rw [flatten_closes_inj (fun u mem => closes u (List.mem_cons_of_mem t mem))
      (fun u mem => closes' u (List.mem_cons_of_mem t mem)) rests]

/-! ### Objects of strings

An object whose members are all strings is read back member by member: each member is a quoted
name, a colon and a quoted value, and a quoted string ends at its closing quote. Two such objects
with the same names, in the same order, have the same canonical text only when their values agree.
-/

theorem intercalate_cons_cons_points (sep a b : Text) (rest : List Text) (r : List Nat) :
    (Text.intercalate sep (a :: b :: rest)).points ++ r =
      a.points ++ (sep.points ++ ((Text.intercalate sep (b :: rest)).points ++ r)) := by
  change (a ++ sep ++ Text.intercalate sep (b :: rest)).points ++ r = _
  simp only [Text.points_append, List.append_assoc]

/-- The canonical text of an object whose members are strings: the members in name order, each
its quoted name, a colon and its quoted value. -/
theorem canonical_stringRecord {α : Type} (L : List (Text × α)) (value : α → Text) :
    (Json.obj (L.map fun p => (p.1, Json.str (value p.2)))).canonical =
      .ok (objectText ((L.mergeSort fun a b => !Text.before b.1 a.1).map fun p =>
        canonicalString p.1 ++ Text.ofString ":" ++ canonicalString (value p.2))) := by
  have sorted : sortMembers (canonicalMembers (L.map fun p => (p.1, Json.str (value p.2)))) =
      (L.mergeSort fun a b => !Text.before b.1 a.1).map
        fun p => (p.1, (.ok (canonicalString (value p.2)) : Except NonFinite Text)) := by
    have values : canonicalMembers (L.map fun p => (p.1, Json.str (value p.2))) =
        L.map fun p => (p.1, (.ok (canonicalString (value p.2)) : Except NonFinite Text)) := by
      rw [canonicalMembers_eq_map, List.map_map]
      rfl
    rw [values, sortMembers]
    symm
    exact List.map_mergeSort (fun _ _ _ _ => rfl)
  have written : ((L.mergeSort fun a b => !Text.before b.1 a.1).map
      fun p => (p.1, (.ok (canonicalString (value p.2)) : Except NonFinite Text))).mapM memberText =
      .ok ((L.mergeSort fun a b => !Text.before b.1 a.1).map fun p =>
        canonicalString p.1 ++ Text.ofString ":" ++ canonicalString (value p.2)) :=
    mapM_map_ok (fun _ _ => rfl)
  rw [canonical_obj, sorted, written]
  rfl

/-- One member read back: with the same name, the quoted value and what follows it are
determined. -/
theorem member_append_inj {n x y : Text} {r r' : List Nat}
    (same : (canonicalString n ++ Text.ofString ":" ++ canonicalString x).points ++ r =
      (canonicalString n ++ Text.ofString ":" ++ canonicalString y).points ++ r') :
    x = y ∧ r = r' := by
  simp only [Text.points_append, List.append_assoc] at same
  exact canonicalString_append_inj (List.append_cancel_left (List.append_cancel_left same))

section StringMembers

variable {α : Type} (value value' : α → Text)

/-- The member texts of an object of strings with names `L` and values `value`. -/
abbrev stringMemberTexts (value : α → Text) (L : List (Text × α)) : List Text :=
  L.map fun p => canonicalString p.1 ++ Text.ofString ":" ++ canonicalString (value p.2)

/-- Members with the same names in the same order whose texts agree up to a closing brace have
the same values, and what follows the brace agrees too. -/
theorem stringMembers_inj : ∀ (L : List (Text × α)) {r r' : List Nat},
    (Text.intercalate (Text.ofString ",") (stringMemberTexts value L)).points ++ 0x7D :: r =
      (Text.intercalate (Text.ofString ",") (stringMemberTexts value' L)).points ++ 0x7D :: r' →
      (∀ p ∈ L, value p.2 = value' p.2) ∧ r = r'
  | [], r, r', same => by
    simp only [stringMemberTexts, List.map_nil, Text.intercalate, Text.empty, List.nil_append,
      List.cons.injEq, true_and] at same
    exact ⟨by simp, same⟩
  | [p], r, r', same => by
    rcases member_append_inj same with ⟨sameValue, rest⟩
    exact ⟨by simpa using sameValue, (List.cons.inj rest).2⟩
  | p :: q :: rest, r, r', same => by
    simp only [stringMemberTexts, List.map_cons] at same
    rw [intercalate_cons_cons_points, intercalate_cons_cons_points] at same
    rcases member_append_inj same with ⟨sameValue, later⟩
    rcases stringMembers_inj (q :: rest) (List.append_cancel_left later) with ⟨values, rests⟩
    refine ⟨?_, rests⟩
    intro p' mem
    rcases List.mem_cons.mp mem with rfl | later
    · exact sameValue
    · exact values p' later

end StringMembers

/-- Two objects of strings with the same names in the same order have the same canonical text
only when each member has the same value in both. -/
theorem canonical_stringRecord_inj {L : List (Text × Text × Text)}
    (same : (Json.obj (L.map fun p => (p.1, .str p.2.1))).canonical =
      (Json.obj (L.map fun p => (p.1, .str p.2.2))).canonical) :
    ∀ p ∈ L, p.2.1 = p.2.2 := by
  rw [canonical_stringRecord L Prod.fst, canonical_stringRecord L Prod.snd, Except.ok.injEq]
    at same
  have texts := congrArg Text.points same
  simp only [objectText_points, List.cons.injEq, true_and] at texts
  have decoded := (stringMembers_inj Prod.fst Prod.snd _ texts).1
  intro p mem
  exact decoded p ((List.mergeSort_perm L _).mem_iff.mpr mem)

end HostInventory.Json
