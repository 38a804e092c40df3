import HostInventory.Proofs.Json.Unambiguous
import HostInventory.Proofs.Json.Surrogates
/-!
# Reading canonical text back

The reader reads a canonical text back as a value equivalent to the one it was written from
(`read_canonical`), when every integer in the value has at most as many digits as the reader
converts. The proof follows the reader: one lemma for each branch the first code point selects
(`Source.value_str`, `Source.value_number`, `Source.value_array`, ...), one for each step of the
string reader (a plain code point, a one-letter escape, a `\u` escape of a control code point),
and one for each member or item of a container, which goes through the value's own reading.
Fuel and room for nesting are counted against the length of the text still to read. A reader's
object keeps its members in the order it meets them, which is name order, so the value read back
is equivalent to the value written, not equal to it.

Together with the unambiguity of canonical text, this makes canonical bytes faithful
(`canonicalBytes_faithful`): two values have the same bytes exactly when they are equivalent,
and the bytes read back.
-/

namespace HostInventory.Json

namespace Source

/-! ### Scanning -/

theorem rest_add (s : Source) (i k : Nat) : s.rest (i + k) = (s.rest i).drop k := by
  simp only [rest, List.drop_drop]

/-- The code point at an offset into what a source holds from a position. -/
theorem at?_add {s : Source} {i : Nat} {l r : List Nat} (split : s.rest i = l ++ r) {k : Nat}
    (within : k < l.length) : s.at? (i + k) = some l[k] := by
  rw [at?_eq_head?, rest_add, List.head?_drop, split, List.getElem?_append_left within,
    List.getElem?_eq_getElem within]

/-- A word the source holds at a position is spelled there. -/
theorem spells_of_rest {s : Source} {i : Nat} {word : String} {r : List Nat}
    (split : s.rest i = (Text.ofString word).points ++ r) : s.spells i word = true := by
  rw [spells, List.all_eq_true]
  rintro ⟨c, k⟩ mem
  obtain ⟨-, within, same⟩ := List.mem_zipIdx mem
  simp only [Nat.sub_zero, Nat.zero_add] at within same
  have points : k < (Text.ofString word).points.length := by simpa [Text.ofString] using within
  simp only [is, at?_add split points, same]
  simp [Text.ofString]

/-- A word is not spelled where the source holds another code point in its place. -/
theorem spells_of_ne {s : Source} {i k : Nat} {word : String} (within : k < word.toList.length)
    (other : s.at? (i + k) ≠ some (word.toList[k]).toNat) : s.spells i word = false := by
  rw [spells, List.all_eq_false]
  refine ⟨(word.toList[k], k), List.mem_zipIdx_iff_getElem?.mpr (by simp), ?_⟩
  simpa [is] using other

/-- Whether a code point is one of the blanks the reader skips. -/
abbrev isBlankCode (c : Nat) : Bool := c == 0x20 || c == 0x09 || c == 0x0A || c == 0x0D

/-- Where no blank stands, skipping blanks stays in place. -/
theorem skipBlanks_of_rest {s : Source} {i : Nat}
    (stop : ∀ c ∈ (s.rest i).head?, isBlankCode c = false) : s.skipBlanks i = i := by
  rw [skipBlanks, skipBlanks.go, at?_eq_head?]
  cases head : (s.rest i).head? with
  | none => rfl
  | some c => simp [stop c head]

/-- Whether a code point goes into a string as it stands, so the reader's run of plain content
does not stop at it. -/
abbrev isPlainCode (c : Nat) : Bool := !(c == 0x22 || c == 0x5C || c < 0x20)

/-- Past the end the search for the end of plain content needs no more room. -/
theorem stringStop_go_succ {s : Source} : ∀ {fuel i : Nat}, s.size ≤ i + fuel →
    stringStop.go s (fuel + 1) i = stringStop.go s fuel i
  | 0, i, past => by
    have none : s.at? i = none := by simp [at?, Array.getElem?_eq_none (by simpa [size] using past)]
    simp [stringStop.go, none]
  | fuel + 1, i, past => by
    conv_lhs => rw [stringStop.go]
    conv_rhs => rw [stringStop.go]
    cases s.at? i with
    | none => rfl
    | some c =>
      simp only
      split_ifs
      · rfl
      · exact stringStop_go_succ (by omega)

/-- Plain content does not stop where it starts. -/
theorem stringStop_plain {s : Source} {i c : Nat} (at_ : s.at? i = some c)
    (plain : isPlainCode c = true) : s.stringStop i = s.stringStop (i + 1) := by
  have notStop : (c == 0x22 || c == 0x5C || c < 0x20) = false := by simpa using plain
  rw [stringStop, stringStop, stringStop.go, at_]
  simp only [notStop, Bool.false_eq_true, if_false]
  rw [stringStop_go_succ (by omega)]

theorem stringStop_ge {s : Source} : ∀ (fuel i : Nat), i ≤ stringStop.go s fuel i
  | 0, i => le_refl i
  | fuel + 1, i => by
    rw [stringStop.go]
    cases s.at? i with
    | none => exact le_refl i
    | some c =>
      simp only
      split_ifs
      · exact le_refl i
      · exact Nat.le_of_succ_le (stringStop_ge fuel (i + 1))

/-- A quote or a backslash stops plain content where it stands. -/
theorem stringStop_of_stop {s : Source} {i c : Nat} (at_ : s.at? i = some c)
    (stop : c = 0x22 ∨ c = 0x5C) : s.stringStop i = i := by
  rw [stringStop, stringStop.go, at_]
  rcases stop with rfl | rfl <;> simp

theorem slice_cons {s : Source} {i j c : Nat} (at_ : s.at? i = some c) (before : i < j) :
    s.slice i j = c :: s.slice (i + 1) j := by
  simp only [at?, Array.getElem?_eq_some_iff] at at_
  obtain ⟨within, rfl⟩ := at_
  simp only [slice, Array.toList_extract, List.extract_eq_take_drop]
  rw [List.drop_eq_getElem_cons (by simpa using within)]
  rw [show j - i = (j - (i + 1)) + 1 by omega, List.take_succ_cons]
  simp

theorem slice_self (s : Source) (i : Nat) : s.slice i i = [] := by
  simp [slice]

/-! ### Strings -/

/-- A plain code point joins the content read so far, at no cost in fuel. -/
theorem stringFrom_plain {s : Source} {start i c : Nat} (at_ : s.at? i = some c)
    (plain : isPlainCode c = true) (fuel : Nat) (acc : List Nat) :
    s.stringFrom start fuel i acc = s.stringFrom start fuel (i + 1) (c :: acc) := by
  cases fuel with
  | zero => rfl
  | succ fuel =>
    have past : i < s.stringStop (i + 1) :=
      Nat.lt_of_lt_of_le (Nat.lt_succ_self i) (stringStop_ge _ _)
    simp only [stringFrom, stringStop_plain at_ plain, slice_cons at_ past, List.reverse_cons,
      List.append_assoc, List.singleton_append]

/-- A one-letter escape is read as the code point it stands for. -/
theorem stringFrom_escape {s : Source} {start i e p : Nat} {r : List Nat}
    (split : s.rest i = 0x5C :: e :: r) (notUnicode : e ≠ 0x75) (escape : escapeValue e = some p)
    (fuel : Nat) (acc : List Nat) :
    s.stringFrom start (fuel + 1) i acc = s.stringFrom start fuel (i + 2) (p :: acc) := by
  have backslash := at?_of_rest split
  simp only [stringFrom, stringStop_of_stop backslash (.inr rfl), slice_self, backslash,
    at?_of_rest (rest_cons split), escape, List.reverse_nil, List.nil_append]
  simp [notUnicode]

theorem hexValue_digit {d : Nat} (small : d < 16) :
    hexValue (if d < 10 then 0x30 + d else 0x57 + d) = some d := by
  unfold hexValue
  split_ifs <;> simp_all <;> omega

/-- Four hexadecimal digits `00` and the two digits of a code point below `0x100`. -/
theorem hex4_of_rest {s : Source} {j c : Nat} {r : List Nat}
    (split : s.rest j = [0x30, 0x30] ++ Text.hexDigits 2 c ++ r) (small : c < 0x100) :
    s.hex4 j = some c := by
  rw [hexDigits_two] at split
  simp only [List.cons_append, List.nil_append] at split
  have at₀ := at?_add (l := [_, _, _, _]) (r := r) split (k := 0) (by simp)
  have at₁ := at?_add (l := [_, _, _, _]) (r := r) split (k := 1) (by simp)
  have at₂ := at?_add (l := [_, _, _, _]) (r := r) split (k := 2) (by simp)
  have at₃ := at?_add (l := [_, _, _, _]) (r := r) split (k := 3) (by simp)
  simp only [List.getElem_cons_zero, List.getElem_cons_succ, Nat.add_zero] at at₀ at₁ at₂ at₃
  simp only [hex4, List.foldl, Nat.add_zero, at₀, at₁, at₂, at₃, Option.bind_eq_bind,
    Option.bind_some, Option.pure_def, hexValue_digit (Nat.mod_lt (c / 16) (by decide)),
    hexValue_digit (Nat.mod_lt c (by decide))]
  simp [hexValue]
  omega

/-- The escape of a control code point, `\u00` and two hexadecimal digits, is read as that
code point. -/
theorem unicodeEscape_control {s : Source} {i c : Nat} {r : List Nat}
    (split : s.rest i = [0x5C, 0x75] ++ ([0x30, 0x30] ++ Text.hexDigits 2 c ++ r)) (more : r ≠ [])
    (control : c < 0x20) : s.unicodeEscape i = .ok (c, i + 6) := by
  have sized := size_eq split (Nat.le_of_lt (lt_size_of_rest split))
  have digits : Text.hexDigits 2 c = _ := hexDigits_two c
  have long : i + 6 < s.size := by
    have : r.length ≠ 0 := by simpa using more
    simp [digits] at sized
    omega
  have hex : s.hex4 (i + 2) = some c := hex4_of_rest (rest_append split) (by omega)
  simp only [unicodeEscape, Nat.not_le.mpr long, if_false, hex]
  simp [show ¬ 0xD800 ≤ c by omega, pure, Except.pure]

theorem stringFrom_unicode {s : Source} {start i c : Nat} {r : List Nat}
    (split : s.rest i = [0x5C, 0x75] ++ ([0x30, 0x30] ++ Text.hexDigits 2 c ++ r)) (more : r ≠ [])
    (control : c < 0x20) (fuel : Nat) (acc : List Nat) :
    s.stringFrom start (fuel + 1) i acc = s.stringFrom start fuel (i + 6) (c :: acc) := by
  have backslash := at?_of_rest split
  simp only [stringFrom, stringStop_of_stop backslash (.inr rfl), slice_self, backslash,
    at?_of_rest (rest_cons split), unicodeEscape_control split more control, List.reverse_nil,
    List.nil_append]
  simp [bind, Except.bind]

/-- A code point that is written as it stands. -/
theorem canonicalPoint_plain {c : Nat} (plain : isPlainCode c = true) : canonicalPoint c = [c] := by
  simp only [isPlainCode, Bool.not_eq_true', Bool.or_eq_false_iff, beq_eq_false_iff_ne,
    decide_eq_false_iff_not] at plain
  obtain ⟨⟨notQuote, notBackslash⟩, notControl⟩ := plain
  unfold canonicalPoint
  split_ifs <;> simp_all

/-- An escaped code point is read back at the cost of one step of fuel. -/
theorem stringFrom_escaped {s : Source} {start i c : Nat} {r : List Nat}
    (escaped : isPlainCode c = false) (split : s.rest i = canonicalPoint c ++ r) (more : r ≠ [])
    (fuel : Nat) (acc : List Nat) :
    s.stringFrom start (fuel + 1) i acc =
      s.stringFrom start fuel (i + (canonicalPoint c).length) (c :: acc) := by
  unfold canonicalPoint at split ⊢
  split_ifs at split ⊢ with quote backslash newline carriage tab backspace formFeed control
  · obtain rfl := beq_iff_eq.mp quote
    exact stringFrom_escape split (by decide) (by decide) fuel acc
  · obtain rfl := beq_iff_eq.mp backslash
    exact stringFrom_escape split (by decide) (by decide) fuel acc
  · obtain rfl := beq_iff_eq.mp newline
    exact stringFrom_escape split (by decide) (by decide) fuel acc
  · obtain rfl := beq_iff_eq.mp carriage
    exact stringFrom_escape split (by decide) (by decide) fuel acc
  · obtain rfl := beq_iff_eq.mp tab
    exact stringFrom_escape split (by decide) (by decide) fuel acc
  · obtain rfl := beq_iff_eq.mp backspace
    exact stringFrom_escape split (by decide) (by decide) fuel acc
  · obtain rfl := beq_iff_eq.mp formFeed
    exact stringFrom_escape split (by decide) (by decide) fuel acc
  · rw [List.append_assoc] at split
    simpa [hexDigits_two] using stringFrom_unicode split more control fuel acc
  · simp_all

/-- The content of a canonical string, up to its closing quote, is read back code point by
code point. -/
theorem stringFrom_canonical {s : Source} {start : Nat} {r : List Nat} :
    ∀ (cs : List Nat) (i fuel : Nat) (acc : List Nat),
      s.rest i = cs.flatMap canonicalPoint ++ 0x22 :: r → cs.length < fuel →
        s.stringFrom start fuel i acc =
          .ok (⟨acc.reverse ++ cs⟩, i + (cs.flatMap canonicalPoint).length + 1)
  | [], i, fuel + 1, acc, split, _ => by
    rw [List.flatMap_nil, List.nil_append] at split
    have quote := at?_of_rest split
    simp [stringFrom, stringStop_of_stop quote (.inl rfl), slice_self, quote, pure, Except.pure]
  | c :: cs, i, fuel, acc, split, enough => by
    rw [List.flatMap_cons, List.append_assoc] at split
    rw [List.length_cons] at enough
    cases plain : isPlainCode c with
    | true =>
      rw [canonicalPoint_plain plain, List.singleton_append] at split
      rw [stringFrom_plain (at?_of_rest split) plain,
        stringFrom_canonical cs (i + 1) fuel (c :: acc) (rest_cons split) (by omega)]
      simp [canonicalPoint_plain plain]
      omega
    | false =>
      obtain ⟨fuel, rfl⟩ : ∃ f, fuel = f + 1 := ⟨fuel - 1, by omega⟩
      rw [stringFrom_escaped plain split (by simp) fuel acc,
        stringFrom_canonical cs _ fuel (c :: acc) (rest_append split) (by omega)]
      simp
      omega

theorem length_le_flatMap_canonicalPoint :
    ∀ cs : List Nat, cs.length ≤ (cs.flatMap canonicalPoint).length
  | [] => le_refl 0
  | c :: cs => by
    have written : 0 < (canonicalPoint c).length :=
      List.length_pos_of_ne_nil (canonicalPoint_ne_nil c)
    have rest := length_le_flatMap_canonicalPoint cs
    simp only [List.flatMap_cons, List.length_append, List.length_cons]
    omega

/-- A canonical string is read back as the text it was written from. -/
theorem string_canonical {s : Source} {i : Nat} {u : Text} {r : List Nat}
    (split : s.rest i = (canonicalString u).points ++ r) :
    s.string i = .ok (u, i + (canonicalString u).points.length) := by
  simp only [canonicalString, List.cons_append, List.append_assoc] at split
  have sized := size_eq split (Nat.le_of_lt (lt_size_of_rest split))
  have longer := length_le_flatMap_canonicalPoint u.points
  simp only [List.length_cons, List.length_append] at sized
  rw [string, stringFrom_canonical u.points (i + 1) _ [] (rest_cons split) (by omega)]
  simp [canonicalString]
  omega

/-! ### Values by their first code point -/

theorem value_str {s : Source} {i fuel room : Nat} {u : Text} {r : List Nat}
    (split : s.rest i = (canonicalString u).points ++ r) :
    s.value (fuel + 1) room i = .ok (.str u, i + (canonicalString u).points.length) := by
  have quote : s.at? i = some 0x22 := by
    rw [at?_eq_head?, split]
    rfl
  simp [value, quote, string_canonical split, bind, Except.bind, pure, Except.pure]

theorem value_null {s : Source} {i fuel room : Nat} {r : List Nat}
    (split : s.rest i = (Text.ofString "null").points ++ r) :
    s.value (fuel + 1) room i = .ok (.null, i + 4) := by
  have lead : s.at? i = some 0x6E := by
    rw [at?_eq_head?, split]
    rfl
  simp [value, lead, spells_of_rest split, pure, Except.pure]

theorem value_true {s : Source} {i fuel room : Nat} {r : List Nat}
    (split : s.rest i = (Text.ofString "true").points ++ r) :
    s.value (fuel + 1) room i = .ok (.bool true, i + 4) := by
  have lead : s.at? i = some 0x74 := by
    rw [at?_eq_head?, split]
    rfl
  simp [value, lead, spells_of_rest split, pure, Except.pure]

theorem value_false {s : Source} {i fuel room : Nat} {r : List Nat}
    (split : s.rest i = (Text.ofString "false").points ++ r) :
    s.value (fuel + 1) room i = .ok (.bool false, i + 5) := by
  have lead : s.at? i = some 0x66 := by
    rw [at?_eq_head?, split]
    rfl
  simp [value, lead, spells_of_rest split, pure, Except.pure]

/-- Where a minus sign or a digit stands, and no `-Infinity`, the reader reads a number. -/
theorem value_number {s : Source} {i c fuel room : Nat} (lead : s.at? i = some c)
    (numeric : c = 0x2D ∨ isDigitCode c = true) (notInfinity : s.spells i "-Infinity" = false) :
    s.value (fuel + 1) room i = s.number i := by
  rcases numeric with rfl | digit
  · simp [value, lead, notInfinity]
  · simp only [isDigitCode, Bool.and_eq_true, decide_eq_true_eq] at digit
    have notOther : ¬ (c = 0x22 ∨ c = 0x7B ∨ c = 0x5B ∨ c = 0x6E ∨ c = 0x74 ∨ c = 0x66 ∨
        c = 0x4E ∨ c = 0x49 ∨ c = 0x2D) := by omega
    simp only [not_or] at notOther
    simp [value, lead, notOther]

theorem value_array {s : Source} {i fuel room : Nat} (lead : s.at? i = some 0x5B) (roomy : room ≠ 0) :
    s.value (fuel + 1) room i = s.elements fuel (room - 1) (s.skipBlanks (i + 1)) [] true := by
  simp [value, lead, roomy]

theorem value_object {s : Source} {i fuel room : Nat} (lead : s.at? i = some 0x7B) (roomy : room ≠ 0) :
    s.value (fuel + 1) room i = s.members fuel (room - 1) (s.skipBlanks (i + 1)) [] true := by
  simp [value, lead, roomy]

end Source

open Source

/-! ### Numbers -/

/-- A well-formed numeral never spells `-Infinity`: after a minus sign comes a digit. -/
theorem Numeral.WellFormed.spells_ne_infinity {n : Numeral} (wf : n.WellFormed) {s : Source}
    {i : Nat} {post : List Nat} (split : s.rest i = n.text ++ post) :
    s.spells i "-Infinity" = false := by
  obtain ⟨d, ds, whole⟩ := List.exists_cons_of_ne_nil wf.whole_ne
  have small := wf.whole_lt d (by simp [whole])
  cases negative : n.negative with
  | true =>
    -- the second code point is a digit, not the `I` of `-Infinity`
    have text : n.text = [0x2D, d + 0x30] ++ (digitCodes ds ++ (n.fractionText ++ n.exponentText)) := by
      simp [Numeral.text, Numeral.signText, negative, whole]
    rw [text, List.append_assoc] at split
    apply spells_of_ne (k := 1) (by decide)
    rw [at?_add split (by simp)]
    simp
    omega
  | false =>
    have text : n.text = [d + 0x30] ++ (digitCodes ds ++ (n.fractionText ++ n.exponentText)) := by
      simp [Numeral.text, Numeral.signText, negative, whole]
    rw [text, List.append_assoc] at split
    apply spells_of_ne (k := 0) (by decide)
    rw [at?_add split (by simp)]
    simp

/-- The reader reads a well-formed numeral that nothing continues as the value the number
grammar gives it. -/
theorem Numeral.value_read {n : Numeral} (wf : n.WellFormed) {s : Source} {i fuel room : Nat}
    {post : List Nat} (split : s.rest i = n.text ++ post) (ends : NumberEnds post) :
    s.value (fuel + 1) room i = n.value.map fun v => (v, i + n.text.length) := by
  obtain ⟨c, rest, text, lead⟩ := wf.text_cons
  have first : s.at? i = some c := by
    rw [at?_eq_head?, split, text]
    rfl
  rw [value_number first lead (wf.spells_ne_infinity split), number_eq_value wf split ends]

/-! ### Values read back -/

mutual

/-- Every integer in the value has at most as many decimal digits as the reader converts. -/
def intsFit : Json → Bool
  | .int n => decide ((Text.ofNat n.natAbs).points.length ≤ maxIntegerDigits)
  | .arr items => intsFitItems items
  | .obj members => intsFitMembers members
  | _ => true

/-- Every integer in the items fits the reader. -/
def intsFitItems : List Json → Bool
  | [] => true
  | v :: rest => v.intsFit && intsFitItems rest

/-- Every integer in the member values fits the reader. -/
def intsFitMembers : List (Text × Json) → Bool
  | [] => true
  | (_, v) :: rest => v.intsFit && intsFitMembers rest

end

@[simp] theorem intsFitItems_eq_all (xs : List Json) : intsFitItems xs = xs.all intsFit := by
  induction xs with
  | nil => rfl
  | cons x xs ih => simp [intsFitItems, ih]

@[simp] theorem intsFitMembers_eq_all (ms : List (Text × Json)) :
    intsFitMembers ms = ms.all (fun m => m.2.intsFit) := by
  induction ms with
  | nil => rfl
  | cons m ms ih =>
    obtain ⟨_, v⟩ := m
    simp [intsFitMembers, ih]

/-- The canonical text of the value is read back as an equivalent value, wherever it stands and
whatever may follow a value after it, by a reader with fuel for more than its length and room
for its length. -/
def ReadsBack (v : Json) : Prop :=
  ∀ {t : Text} {s : Source} {i : Nat} {post : List Nat} {fuel room : Nat},
    v.canonical = .ok t → s.rest i = t.points ++ post → Follows post →
    t.points.length < fuel → t.points.length ≤ room →
    ∃ w, s.value fuel room i = .ok (w, i + t.points.length) ∧ v.Equiv w

theorem readsBack_null : Json.null.ReadsBack := by
  intro t s i post fuel room written split _ enough _
  simp only [canonical, pure, Except.pure, Except.ok.injEq] at written
  subst written
  obtain ⟨fuel, rfl⟩ : ∃ f, fuel = f + 1 := ⟨fuel - 1, by omega⟩
  exact ⟨.null, value_null split, trivial⟩

theorem readsBack_bool (b : Bool) : (Json.bool b).ReadsBack := by
  intro t s i post fuel room written split _ enough _
  simp only [canonical, pure, Except.pure, Except.ok.injEq] at written
  subst written
  obtain ⟨fuel, rfl⟩ : ∃ f, fuel = f + 1 := ⟨fuel - 1, by omega⟩
  cases b with
  | true => exact ⟨.bool true, value_true split, rfl⟩
  | false => exact ⟨.bool false, value_false split, rfl⟩

theorem readsBack_int {n : Int} (fits : (Text.ofNat n.natAbs).points.length ≤ maxIntegerDigits) :
    (Json.int n).ReadsBack := by
  intro t s i post fuel room written split follows enough _
  simp only [canonical, pure, Except.pure, Except.ok.injEq] at written
  subst written
  obtain ⟨fuel, rfl⟩ : ∃ f, fuel = f + 1 := ⟨fuel - 1, by omega⟩
  rw [← Numeral.text_ofInt] at split ⊢
  rw [Numeral.value_read (Numeral.wellFormed_ofInt n) split follows.numberEnds,
    Numeral.value_ofInt, if_neg (by omega)]
  exact ⟨.int n, rfl, rfl⟩

theorem readsBack_float (x : Float) : (Json.float x).ReadsBack := by
  intro t s i post fuel room written split follows enough _
  obtain ⟨fuel, rfl⟩ : ∃ f, fuel = f + 1 := ⟨fuel - 1, by omega⟩
  obtain ⟨n, wf, text, value⟩ := floatText_numeral (canonical_float_eq_ok_iff.mp written)
  rw [← text] at split ⊢
  rw [Numeral.value_read wf split follows.numberEnds, value]
  exact ⟨.float x, rfl, rfl⟩

theorem readsBack_str (u : Text) : (Json.str u).ReadsBack := by
  intro t s i post fuel room written split _ enough _
  simp only [canonical, pure, Except.pure, Except.ok.injEq] at written
  subst written
  obtain ⟨fuel, rfl⟩ : ∃ f, fuel = f + 1 := ⟨fuel - 1, by omega⟩
  exact ⟨.str u, value_str split, rfl⟩

/-! ### Arrays -/

/-- No value's text starts with a blank. -/
theorem Leads.not_blank {v : Json} {c : Nat} (lv : v.Leads c) : isBlankCode c = false := by
  rcases v with _ | ⟨_ | _⟩ | _ | _ | _ | _ | _ <;> simp [Leads, isDigitCode] at lv ⊢ <;> omega

theorem skipBlanks_of_head {s : Source} {i c : Nat} {r : List Nat} (split : s.rest i = c :: r)
    (notBlank : isBlankCode c = false) : s.skipBlanks i = i :=
  skipBlanks_of_rest (by rw [split]; simpa using notBlank)

/-- The reader skips no blank before a value's canonical text. -/
theorem skipBlanks_canonical {v : Json} {t : Text} (written : v.canonical = .ok t) {s : Source}
    {i : Nat} {r : List Nat} (split : s.rest i = t.points ++ r) : s.skipBlanks i = i := by
  obtain ⟨c, rest, lead, lv⟩ := canonical_leads v written
  rw [lead, List.cons_append] at split
  exact skipBlanks_of_head split lv.not_blank

theorem length_intercalate_cons_cons (a b : Text) (rest : List Text) :
    (Text.intercalate (Text.ofString ",") (a :: b :: rest)).points.length =
      a.points.length + 1 + (Text.intercalate (Text.ofString ",") (b :: rest)).points.length := by
  have joined := intercalate_cons_cons_comma a b rest []
  simp only [List.append_nil] at joined
  rw [joined]
  simp
  omega

theorem intercalate_cons_append (sep t : Text) (ts : List Text) (r : List Nat) :
    ∃ r', (Text.intercalate sep (t :: ts)).points ++ r = t.points ++ r' := by
  cases ts with
  | nil => exact ⟨r, rfl⟩
  | cons u us => exact ⟨_, intercalate_cons_cons_points sep t u us r⟩

/-- One item is read: its value, which goes first among the items read so far, kept reversed;
then the array closes, or a comma leads to the next item. -/
theorem elements_step {s : Source} {i c : Nat} {r : List Nat} {x : Json} {t : Text}
    {acc : List Json} {first : Bool} (fuel room : Nat) (written : x.canonical = .ok t)
    (item : x.ReadsBack) (split : s.rest i = t.points ++ c :: r) (closing : c = 0x2C ∨ c = 0x5D)
    (enough : t.points.length < fuel) (roomy : t.points.length ≤ room) :
    ∃ y, x.Equiv y ∧ s.elements (fuel + 1) room i acc first =
      if c = 0x5D then .ok (.arr (y :: acc).reverse, i + t.points.length + 1)
      else s.elements fuel room (s.skipBlanks (i + t.points.length + 1)) (y :: acc) false := by
  -- an item's text does not start with the closing bracket, so the array goes on
  obtain ⟨d, more, lead, lx⟩ := canonical_leads x written
  have notClose : s.is i 0x5D = false := by
    rw [is_of_rest (by rw [split, lead, List.cons_append])]
    simpa using lx.ne_close.1
  obtain ⟨y, read, equiv⟩ := item written split (follows_cons (by omega) r) enough roomy
  have after := rest_append split
  refine ⟨y, equiv, ?_⟩
  simp only [elements, notClose, Bool.and_false, Bool.false_eq_true, if_false, read,
    skipBlanks_of_head after (by rcases closing with rfl | rfl <;> decide), is_of_rest after, bind,
    Except.bind]
  rcases closing with rfl | rfl
  · simp
  · simp [pure, Except.pure]

/-- The items of an array, with their commas, up to the closing bracket, are read back one by
one after the items `acc` read before them. -/
theorem elements_canonical {s : Source} {post : List Nat} :
    ∀ {xs : List Json} {ts : List Text}, List.Forall₂ (fun x t => x.canonical = .ok t) xs ts →
      (∀ x ∈ xs, x.ReadsBack) → xs ≠ [] →
      ∀ {i : Nat} (fuel room : Nat) {acc : List Json} {first : Bool},
        s.rest i = (Text.intercalate (Text.ofString ",") ts).points ++ 0x5D :: post →
        (Text.intercalate (Text.ofString ",") ts).points.length + 1 < fuel →
        (Text.intercalate (Text.ofString ",") ts).points.length ≤ room →
        ∃ ys, ItemsEquiv xs ys ∧ s.elements fuel room i acc first =
          .ok (.arr (acc.reverse ++ ys),
            i + (Text.intercalate (Text.ofString ",") ts).points.length + 1)
  | _, _, .nil, _, nonempty, _, _, _, _, _, _, _, _ => absurd rfl nonempty
  | _, _, .cons (a := x) (b := t) written .nil, items, _, i, fuel, room, acc, first, split, enough,
      roomy => by
    rw [intercalate_singleton] at split enough roomy ⊢
    obtain ⟨fuel, rfl⟩ : ∃ f, fuel = f + 1 := ⟨fuel - 1, by omega⟩
    obtain ⟨y, equiv, read⟩ := elements_step fuel room written (items x List.mem_cons_self) split
      (.inr rfl) (by omega) roomy
    refine ⟨[y], ⟨equiv, trivial⟩, ?_⟩
    rw [read, if_pos rfl, List.reverse_cons]
  | _, _, .cons (a := x) (b := t) written (.cons (a := x') (b := t') written' rest), items, _, i,
      fuel, room, acc, first, split, enough, roomy => by
    rw [intercalate_cons_cons_comma] at split
    rw [length_intercalate_cons_cons] at enough roomy ⊢
    obtain ⟨fuel, rfl⟩ : ∃ f, fuel = f + 1 := ⟨fuel - 1, by omega⟩
    obtain ⟨y, equiv, read⟩ := elements_step fuel room written (items x List.mem_cons_self) split
      (.inl rfl) (by omega) (by omega)
    have following := rest_cons (rest_append split)
    obtain ⟨ys, equivs, readRest⟩ := @elements_canonical _ _ _ _ (.cons written' rest)
      (fun z mem => items z (List.mem_cons_of_mem x mem)) (List.cons_ne_nil x' _) _
      fuel room (y :: acc) false following (by omega) (by omega)
    -- the next item starts right after the comma
    have nextItem : s.skipBlanks (i + t.points.length + 1) = i + t.points.length + 1 := by
      obtain ⟨r', after⟩ := intercalate_cons_append (Text.ofString ",") t' _ (0x5D :: post)
      rw [after] at following
      exact skipBlanks_canonical written' following
    refine ⟨y :: ys, ⟨equiv, equivs⟩, ?_⟩
    rw [read, if_neg (by decide), nextItem, readRest]
    simp
    omega

/-! ### Objects -/

/-- A member under a new name goes last. -/
theorem setMember_fresh {acc : List (Text × Json)} {name : Text} (fresh : name ∉ acc.map Prod.fst)
    (v : Json) : setMember acc name v = acc ++ [(name, v)] := by
  rw [setMember, if_neg]
  simpa using fresh

/-- One member is read: its quoted name, the colon and its value, which goes last among the
members read so far; then the object closes, or a comma leads to the next member. -/
theorem members_step {s : Source} {i c : Nat} {r : List Nat} {m : Text × Json}
    {w : Text} {acc : List (Text × Json)} {first : Bool} (fuel room : Nat)
    (written : memberText (m.1, m.2.canonical) = .ok w) (value : m.2.ReadsBack)
    (split : s.rest i = w.points ++ c :: r) (closing : c = 0x2C ∨ c = 0x7D)
    (fresh : m.1 ∉ acc.map Prod.fst) (enough : w.points.length < fuel)
    (roomy : w.points.length ≤ room) :
    ∃ v, m.2.Equiv v ∧ s.members (fuel + 1) room i acc first =
      if c = 0x7D then .ok (.obj (acc ++ [(m.1, v)]), i + w.points.length + 1)
      else s.members fuel room (s.skipBlanks (i + w.points.length + 1)) (acc ++ [(m.1, v)]) false := by
  obtain ⟨u, valueText, rfl⟩ := memberText_eq_ok written
  have named : s.rest i = (canonicalString m.1).points ++ 0x3A :: (u.points ++ c :: r) := by
    rw [split]
    simp only [Text.points_append, List.append_assoc]
    rfl
  have colon := rest_append named
  have valueAt := rest_cons colon
  obtain ⟨v, read, equiv⟩ : ∃ v, s.value fuel room (i + (canonicalString m.1).points.length + 1) =
      .ok (v, i + (canonicalString m.1).points.length + 1 + u.points.length) ∧ m.2.Equiv v :=
    value valueText valueAt (follows_cons (by omega) r) (by simp at enough; omega)
      (by simp at roomy; omega)
  have after := rest_append valueAt
  have quote : s.rest i =
      0x22 :: ((m.1.points.flatMap canonicalPoint ++ [0x22]) ++ 0x3A :: (u.points ++ c :: r)) := by
    rw [named]
    rfl
  refine ⟨v, equiv, ?_⟩
  simp only [members, is_of_rest quote, string_canonical named, skipBlanks_of_head colon (by decide),
    is_of_rest colon, skipBlanks_canonical valueText valueAt, read, setMember_fresh fresh,
    skipBlanks_of_head after (by rcases closing with rfl | rfl <;> decide), is_of_rest after,
    bind, Except.bind]
  have colonLength : (Text.ofString ":").points.length = 1 := rfl
  rcases closing with rfl | rfl
  · simp [colonLength]
    congr 2
    omega
  · simp [colonLength, pure, Except.pure]
    omega

/-- The text of a member starts with the quote of its name. -/
theorem memberText_quote {m : Text × Except NonFinite Text} {w : Text}
    (written : memberText m = .ok w) : ∃ rest, w.points = 0x22 :: rest := by
  obtain ⟨u, -, rfl⟩ := memberText_eq_ok written
  exact ⟨_, rfl⟩

/-- The members of an object, with their commas, up to the closing brace, are read back one by
one after the members `acc` read before them, none of whose names comes again. -/
theorem members_canonical {s : Source} {post : List Nat} :
    ∀ {ms : List (Text × Json)} {ws : List Text},
      List.Forall₂ (fun m w => memberText (m.1, m.2.canonical) = .ok w) ms ws →
      (∀ m ∈ ms, m.2.ReadsBack) → ms ≠ [] →
      ∀ {i : Nat} (fuel room : Nat) {acc : List (Text × Json)} {first : Bool},
        (acc.map Prod.fst ++ ms.map Prod.fst).Nodup →
        s.rest i = (Text.intercalate (Text.ofString ",") ws).points ++ 0x7D :: post →
        (Text.intercalate (Text.ofString ",") ws).points.length + 1 < fuel →
        (Text.intercalate (Text.ofString ",") ws).points.length ≤ room →
        ∃ ns, List.Forall₂ (fun m n => m.1 = n.1 ∧ m.2.Equiv n.2) ms ns ∧
          s.members fuel room i acc first =
            .ok (.obj (acc ++ ns), i + (Text.intercalate (Text.ofString ",") ws).points.length + 1)
  | _, _, .nil, _, nonempty, _, _, _, _, _, _, _, _, _ => absurd rfl nonempty
  | _, _, .cons (a := m) (b := w) written .nil, values, _, i, fuel, room, acc, first, names, split,
      enough, roomy => by
    rw [intercalate_singleton] at split enough roomy ⊢
    obtain ⟨fuel, rfl⟩ : ∃ f, fuel = f + 1 := ⟨fuel - 1, by omega⟩
    have fresh : m.1 ∉ acc.map Prod.fst := by
      rw [List.map_cons, List.nodup_middle, List.nodup_cons, List.mem_append, not_or] at names
      exact names.1.1
    obtain ⟨v, equiv, read⟩ := members_step fuel room written (values m List.mem_cons_self) split
      (.inr rfl) fresh (by omega) (by omega)
    refine ⟨[(m.1, v)], .cons ⟨rfl, equiv⟩ .nil, ?_⟩
    rw [read, if_pos rfl]
  | _, _, .cons (a := m) (b := w) written (.cons (a := m') (b := w') written' rest), values, _, i,
      fuel, room, acc, first, names, split, enough, roomy => by
    rw [intercalate_cons_cons_comma] at split
    rw [length_intercalate_cons_cons] at enough roomy ⊢
    obtain ⟨fuel, rfl⟩ : ∃ f, fuel = f + 1 := ⟨fuel - 1, by omega⟩
    have fresh : m.1 ∉ acc.map Prod.fst := by
      rw [List.map_cons, List.nodup_middle, List.nodup_cons, List.mem_append, not_or] at names
      exact names.1.1
    obtain ⟨v, equiv, read⟩ := members_step fuel room written (values m List.mem_cons_self) split
      (.inl rfl) fresh (by omega) (by omega)
    have following := rest_cons (rest_append split)
    obtain ⟨ns, related, readRest⟩ := @members_canonical _ _ _ _ (.cons written' rest)
      (fun n mem => values n (List.mem_cons_of_mem m mem)) (List.cons_ne_nil m' _) _ fuel room
      (acc ++ [(m.1, v)]) false (by simpa using names) following (by omega) (by omega)
    -- the next member starts right after the comma, with the quote of its name
    have nextMember : s.skipBlanks (i + w.points.length + 1) = i + w.points.length + 1 := by
      obtain ⟨r', after⟩ := intercalate_cons_append (Text.ofString ",") w' _ (0x7D :: post)
      obtain ⟨more, quote⟩ := memberText_quote written'
      rw [after, quote, List.cons_append] at following
      exact skipBlanks_of_head following (by decide)
    refine ⟨(m.1, v) :: ns, .cons ⟨rfl, equiv⟩ related, ?_⟩
    rw [read, if_neg (by decide), nextMember, readRest]
    simp
    omega

/-! ### Arrays and objects read back -/

theorem readsBack_arr {xs : List Json} (items : ∀ x ∈ xs, x.ReadsBack) :
    (Json.arr xs).ReadsBack := by
  intro t s i post fuel room written split follows enough roomy
  obtain ⟨ts, parts, text⟩ := canonical_arr_eq_ok written
  rw [text] at split enough roomy ⊢
  simp only [List.length_cons, List.length_append] at enough roomy ⊢
  rw [List.cons_append, List.append_assoc, List.singleton_append] at split
  obtain ⟨fuel, rfl⟩ : ∃ f, fuel = f + 1 := ⟨fuel - 1, by omega⟩
  have inner := rest_cons split
  rw [value_array (at?_of_rest split) (by omega)]
  cases parts with
  | nil =>
    have close : s.rest (i + 1) = 0x5D :: post := inner
    obtain ⟨fuel, rfl⟩ : ∃ f, fuel = f + 1 := ⟨fuel - 1, by omega⟩
    refine ⟨.arr [], ?_, trivial⟩
    simp [skipBlanks_of_head close (by decide), elements, is_of_rest close, pure, Except.pure,
      Text.intercalate, Text.empty]
  | cons first others =>
    -- the first item starts right after the bracket
    have start : s.skipBlanks (i + 1) = i + 1 := by
      obtain ⟨r', after⟩ := intercalate_cons_append (Text.ofString ",") _ _ (0x5D :: post)
      rw [after] at inner
      exact skipBlanks_canonical first inner
    obtain ⟨ys, equivs, read⟩ := @elements_canonical _ _ _ _ (.cons first others) items
      (List.cons_ne_nil _ _) _ fuel (room - 1) [] true inner (by omega) (by omega)
    refine ⟨.arr ys, ?_, equivs⟩
    rw [start, read]
    simp
    omega

theorem readsBack_obj {ms : List (Text × Json)} (names : (ms.map Prod.fst).Nodup)
    (values : ∀ m ∈ ms, m.2.ReadsBack) : (Json.obj ms).ReadsBack := by
  intro t s i post fuel room written split follows enough roomy
  obtain ⟨ws, parts, text⟩ := canonical_obj_eq_ok written
  rw [text] at split enough roomy ⊢
  simp only [List.length_cons, List.length_append] at enough roomy ⊢
  rw [List.cons_append, List.append_assoc, List.singleton_append] at split
  obtain ⟨fuel, rfl⟩ : ∃ f, fuel = f + 1 := ⟨fuel - 1, by omega⟩
  have inner := rest_cons split
  have sorted : (sortMembers ms).Perm ms := List.mergeSort_perm _ _
  rw [value_object (at?_of_rest split) (by omega)]
  cases ms with
  | nil =>
    rw [show sortMembers ([] : List (Text × Json)) = [] from List.mergeSort_nil] at parts
    cases parts
    have close : s.rest (i + 1) = 0x7D :: post := inner
    obtain ⟨fuel, rfl⟩ : ∃ f, fuel = f + 1 := ⟨fuel - 1, by omega⟩
    refine ⟨.obj [], ?_, names, [], trivial, List.Perm.refl _⟩
    simp [skipBlanks_of_head close (by decide), members, is_of_rest close, pure, Except.pure,
      Text.intercalate, Text.empty]
  | cons m rest =>
    obtain ⟨m', rest', sortedCons⟩ : ∃ m' rest', sortMembers (m :: rest) = m' :: rest' :=
      List.exists_cons_of_ne_nil (List.ne_nil_of_length_pos (by simp [sortMembers]))
    rw [sortedCons] at parts sorted
    cases parts with
    | cons first others =>
      -- the first member starts right after the brace, with the quote of its name
      have start : s.skipBlanks (i + 1) = i + 1 := by
        obtain ⟨r', after⟩ := intercalate_cons_append (Text.ofString ",") _ _ (0x7D :: post)
        obtain ⟨more, quote⟩ := memberText_quote first
        rw [after, quote, List.cons_append] at inner
        exact skipBlanks_of_head inner (by decide)
      have sortedNames : ((m' :: rest').map Prod.fst).Nodup :=
        (sorted.map Prod.fst).nodup_iff.mpr names
      obtain ⟨ns, related, read⟩ := @members_canonical _ _ _ _ (.cons first others)
        (fun n mem => values n (sorted.subset mem)) (List.cons_ne_nil _ _) _ fuel
        (room - 1) [] true (by simpa using sortedNames) inner (by omega) (by omega)
      refine ⟨.obj ns, ?_, equiv_obj_of_sorted names (sortedCons ▸ related) (List.Perm.refl _)⟩
      rw [start, read]
      simp
      omega

/-! ### Canonical text is read back -/

mutual

/-- The canonical text of a value whose objects name each member once and whose integers fit
the reader is read back. -/
theorem readsBack : (v : Json) → v.Distinct → v.intsFit = true → v.ReadsBack
  | .null, _, _ => readsBack_null
  | .bool b, _, _ => readsBack_bool b
  | .int n, _, fits => readsBack_int (by simpa [intsFit] using fits)
  | .float x, _, _ => readsBack_float x
  | .str u, _, _ => readsBack_str u
  | .arr xs, distinct, fits => readsBack_arr (itemsReadBack xs distinct fits)
  | .obj ms, distinct, fits => readsBack_obj distinct.1 (membersReadBack ms distinct.2 fits)

theorem itemsReadBack : (xs : List Json) → ItemsDistinct xs → intsFitItems xs = true →
    ∀ x ∈ xs, x.ReadsBack
  | [], _, _ => by simp
  | x :: xs, distinct, fits => by
    rw [intsFitItems, Bool.and_eq_true] at fits
    exact List.forall_mem_cons.mpr ⟨readsBack x distinct.1 fits.1,
      itemsReadBack xs distinct.2 fits.2⟩

theorem membersReadBack : (ms : List (Text × Json)) → MembersDistinct ms →
    intsFitMembers ms = true → ∀ m ∈ ms, m.2.ReadsBack
  | [], _, _ => by simp
  | (_, v) :: ms, distinct, fits => by
    rw [intsFitMembers, Bool.and_eq_true] at fits
    exact List.forall_mem_cons.mpr ⟨readsBack v distinct.1 fits.1,
      membersReadBack ms distinct.2 fits.2⟩

end

/-- No value's text starts with a byte order mark. -/
theorem Leads.ne_mark {v : Json} {c : Nat} (lv : v.Leads c) : c ≠ 0xFEFF := by
  rcases v with _ | ⟨_ | _⟩ | _ | _ | _ | _ | _ <;> simp [Leads, isDigitCode] at lv ⊢ <;> omega

/-- A document that is the canonical text of a value whose objects name each member once and
whose integers fit the reader is read as an equivalent value. -/
theorem read_canonical {v : Json} {t : Text} (distinct : v.Distinct) (fits : v.intsFit = true)
    (written : v.canonical = .ok t) : ∃ w, read t = .ok w ∧ v.Equiv w := by
  simp only [Json.read, readWithin]
  generalize source : (⟨t.points.toArray⟩ : Source) = s
  have whole : s.rest 0 = t.points ++ [] := by simp [← source, rest]
  have size : s.size = t.points.length := by simp [← source, Source.size]
  have noMark : s.is 0 0xFEFF = false := by
    obtain ⟨c, more, lead, lv⟩ := canonical_leads v written
    rw [is_of_rest (by rw [whole, lead, List.cons_append])]
    simpa using lv.ne_mark
  have ends : s.rest t.points.length = [] := by simpa using rest_append whole
  obtain ⟨w, read, equiv⟩ : ∃ w, s.value (2 * s.size + 2) t.length 0 =
      .ok (w, 0 + t.points.length) ∧ v.Equiv w :=
    readsBack v distinct fits written whole follows_nil (by omega) (by simp [Text.length])
  refine ⟨w, ?_, equiv⟩
  have stop : s.skipBlanks t.points.length = t.points.length :=
    skipBlanks_of_rest (by simp [ends])
  simp only [noMark, skipBlanks_canonical written whole, read]
  simp [stop, size, bind, Except.bind, pure, Except.pure]

/-! ### Canonical bytes -/

/-- Canonical bytes are the UTF-8 form of the canonical text. -/
theorem canonicalBytes_eq_ok {v : Json} {b : List Nat} :
    v.canonicalBytes = .ok b ↔ ∃ t, v.canonical = .ok t ∧ Text.utf8 t = .ok b := by
  rw [canonicalBytes_eq]
  split
  · next t written => simp [written, Except.mapError_eq_ok_iff]
  · next e written => simp [written]

theorem canonicalBytes_congr {v w : Json} (same : v.canonical = w.canonical) :
    v.canonicalBytes = w.canonicalBytes := by
  rw [canonicalBytes_eq, canonicalBytes_eq, same]

end HostInventory.Json
