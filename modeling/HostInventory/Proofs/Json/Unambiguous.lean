import HostInventory.Proofs.Json.NumberTexts
/-!
# Canonical text reads one way

A canonical text determines the value it was written from, up to the order of object members
(`equiv_of_canonical_eq`). The argument reads the text from the front, as a reader would, and
shows more: a value's text, followed by anything that may follow a value inside an array or an
object (`Follows`), can be split off in one way only (`Delimited`). Its first code point tells
the kind of value (`canonical_leads`). A number runs up to the first code point no numeral holds
(`append_inj_of_stop`), and the reader tells integers from doubles. A string ends at its closing
quote, and arrays and objects split at their commas item by item (`intercalate_append_inj`).
Object members are written in name order, so the members of two objects with the same text
match up to a permutation.
-/

namespace HostInventory

theorem Json.digitCodes_injective : Function.Injective Json.digitCodes :=
  List.map_injective_iff.mpr (add_left_injective _)

/-- Decimal numerals of different numbers differ. -/
theorem Text.ofNat_injective {a b : Nat} (same : Text.ofNat a = Text.ofNat b) : a = b := by
  have digits : Binary64.decimalDigits a = Binary64.decimalDigits b := by
    apply Json.digitCodes_injective
    rw [Json.digitCodes_decimalDigits, Json.digitCodes_decimalDigits, same]
  rw [← Binary64.decimalValue_decimalDigits a, digits, Binary64.decimalValue_decimalDigits]

/-- Decimal numerals of different integers differ: the sign and the digits of the magnitude. -/
theorem Text.ofInt_injective {a b : Int} (same : Text.ofInt a = Text.ofInt b) : a = b := by
  have points := congrArg Text.points same
  rw [← Json.Numeral.text_ofInt, ← Json.Numeral.text_ofInt] at points
  simp only [Json.Numeral.text, Json.Numeral.ofInt, Json.Numeral.signText,
    Json.Numeral.fractionText, Json.Numeral.exponentText, if_true, List.append_nil,
    decide_eq_true_eq] at points
  -- the digits of a magnitude start with a digit, never with a minus sign
  have unsigned : ∀ k, ∃ d ds, Json.digitCodes (Binary64.decimalDigits k) = d :: ds ∧ d ≠ 0x2D := by
    intro k
    obtain ⟨d, ds, digits⟩ := List.exists_cons_of_ne_nil (Json.Numeral.decimalDigits_leading k).1
    have small := Json.decimalDigits_lt k d (by simp [digits])
    exact ⟨d + 0x30, Json.digitCodes ds, by rw [digits, Json.digitCodes_cons], by omega⟩
  obtain ⟨d, ds, digitsA, signA⟩ := unsigned a.natAbs
  obtain ⟨e, es, digitsB, signB⟩ := unsigned b.natAbs
  have magnitudes : Binary64.decimalDigits a.natAbs = Binary64.decimalDigits b.natAbs ∧
      (a < 0 ↔ b < 0) := by
    by_cases negA : a < 0 <;> by_cases negB : b < 0 <;>
      simp only [negA, negB, if_true, if_false, List.singleton_append, List.nil_append,
        List.cons.injEq, digitsA, digitsB] at points
    · exact ⟨Json.digitCodes_injective (by rw [digitsA, digitsB, points.2.1, points.2.2]),
        by simp [negA, negB]⟩
    · exact absurd points.1.symm signB
    · exact absurd points.1 signA
    · exact ⟨Json.digitCodes_injective (by rw [digitsA, digitsB, points.1, points.2]),
        by simp [negA, negB]⟩
  have sameMagnitude : a.natAbs = b.natAbs := by
    rw [← Binary64.decimalValue_decimalDigits a.natAbs, magnitudes.1,
      Binary64.decimalValue_decimalDigits]
  omega

namespace Json

/-! ### What may follow a value -/

/-- What may follow a value in canonical text: nothing, a comma, or the end of the array or
object around it. -/
def Follows (r : List Nat) : Prop := ∀ c ∈ r.head?, c = 0x2C ∨ c = 0x5D ∨ c = 0x7D

theorem follows_nil : Follows [] := by simp [Follows]

theorem follows_cons {c : Nat} (closing : c = 0x2C ∨ c = 0x5D ∨ c = 0x7D) (r : List Nat) :
    Follows (c :: r) := by
  simpa [Follows] using closing

/-- What may follow a value ends a number. -/
theorem Follows.numberEnds {r : List Nat} (follows : Follows r) : NumberEnds r := by
  intro c mem
  rcases follows c mem with rfl | rfl | rfl <;> decide

/-! ### Numbers -/

/-- A code point numbers are written with. -/
def NumberCode (c : Nat) : Prop :=
  isDigitCode c = true ∨ c = 0x2D ∨ c = 0x2B ∨ c = 0x2E ∨ c = 0x65

/-- A well-formed numeral is written with number code points only. -/
theorem Numeral.numberCode_text {n : Numeral} (wf : n.WellFormed) : ∀ c ∈ n.text, NumberCode c := by
  have digits : ∀ ds : List Nat, (∀ d ∈ ds, d < 10) → ∀ c ∈ digitCodes ds, NumberCode c :=
    fun ds small c mem => Or.inl (digitCodes_digits small c mem)
  intro c mem
  simp only [Numeral.text, Numeral.signText, Numeral.fractionText, Numeral.exponentText,
    List.mem_append] at mem
  rcases mem with sign | whole | fraction | exponent
  · split_ifs at sign <;> simp_all [NumberCode]
  · exact digits _ wf.whole_lt c whole
  · split_ifs at fraction
    · simp at fraction
    · rcases List.mem_cons.mp fraction with rfl | mem
      · simp [NumberCode]
      · exact digits _ wf.fraction_lt c mem
  · split at exponent
    · simp at exponent
    next sign ds written =>
      have small := (wf.exponent sign ds written).2
      rcases List.mem_cons.mp exponent with rfl | mem
      · simp [NumberCode]
      rcases List.mem_cons.mp mem with rfl | mem
      · split_ifs <;> simp [NumberCode]
      · exact digits _ small c mem

/-- Two runs of code points of one class, each followed by something outside it, are the same
run, and what follows is the same. -/
theorem append_inj_of_stop {p : Nat → Prop} : ∀ {a b r r' : List Nat},
    (∀ c ∈ a, p c) → (∀ c ∈ b, p c) → (∀ c ∈ r.head?, ¬ p c) → (∀ c ∈ r'.head?, ¬ p c) →
      a ++ r = b ++ r' → a = b ∧ r = r'
  | [], [], _, _, _, _, _, _, same => ⟨rfl, same⟩
  | [], c :: b, r, r', _, inB, stop, _, same => by
    rw [List.nil_append, List.cons_append] at same
    exact absurd (inB c List.mem_cons_self) (stop c (by simp [same]))
  | c :: a, [], r, r', inA, _, _, stop', same => by
    rw [List.nil_append, List.cons_append] at same
    exact absurd (inA c List.mem_cons_self) (stop' c (by simp [← same]))
  | c :: a, d :: b, r, r', inA, inB, stop, stop', same => by
    simp only [List.cons_append, List.cons.injEq] at same
    obtain ⟨rfl, rest⟩ := same
    obtain ⟨rfl, sameRest⟩ := append_inj_of_stop (fun c' mem => inA c' (List.mem_cons_of_mem c mem))
      (fun c' mem => inB c' (List.mem_cons_of_mem c mem)) stop stop' rest
    exact ⟨rfl, sameRest⟩

/-- What may follow a value holds no number code point. -/
theorem Follows.stop {r : List Nat} (follows : Follows r) : ∀ c ∈ r.head?, ¬ NumberCode c := by
  intro c mem
  rcases follows c mem with rfl | rfl | rfl <;> simp [NumberCode]

/-! ### The first code point -/

/-- The code points the canonical text of a value can start with. -/
def Leads : Json → Nat → Prop
  | .null, c => c = 0x6E
  | .bool b, c => c = if b then 0x74 else 0x66
  | .int _, c => c = 0x2D ∨ isDigitCode c = true
  | .float _, c => c = 0x2D ∨ isDigitCode c = true
  | .str _, c => c = 0x22
  | .arr _, c => c = 0x5B
  | .obj _, c => c = 0x7B

/-- A well-formed numeral starts with a minus sign or a digit. -/
theorem Numeral.WellFormed.text_cons {n : Numeral} (wf : n.WellFormed) :
    ∃ c rest, n.text = c :: rest ∧ (c = 0x2D ∨ isDigitCode c = true) := by
  obtain ⟨d, ds, whole⟩ := List.exists_cons_of_ne_nil wf.whole_ne
  have digit := isDigitCode_digit (wf.whole_lt d (by simp [whole]))
  cases negative : n.negative with
  | true =>
    exact ⟨0x2D, digitCodes n.whole ++ (n.fractionText ++ n.exponentText),
      by simp [Numeral.text, Numeral.signText, negative], Or.inl rfl⟩
  | false =>
    exact ⟨d + 0x30, digitCodes ds ++ (n.fractionText ++ n.exponentText),
      by simp [Numeral.text, Numeral.signText, negative, whole], Or.inr digit⟩

/-- Canonical text is never empty, and its first code point tells the kind of value, numbers
apart. -/
theorem canonical_leads {t : Text} : (v : Json) → v.canonical = .ok t →
    ∃ c rest, t.points = c :: rest ∧ v.Leads c
  | .null, written => by
    simp only [canonical, pure, Except.pure, Except.ok.injEq] at written
    exact ⟨_, _, by rw [← written]; rfl, rfl⟩
  | .bool b, written => by
    simp only [canonical, pure, Except.pure, Except.ok.injEq] at written
    cases b <;> exact ⟨_, _, by rw [← written]; rfl, rfl⟩
  | .int n, written => by
    simp only [canonical, pure, Except.pure, Except.ok.injEq] at written
    obtain ⟨c, rest, text, lead⟩ := (Numeral.wellFormed_ofInt n).text_cons
    exact ⟨c, rest, by rw [← written, ← Numeral.text_ofInt, text], lead⟩
  | .float x, written => by
    obtain ⟨n, wf, text, -⟩ := floatText_numeral (canonical_float_eq_ok_iff.mp written)
    obtain ⟨c, rest, numeral, lead⟩ := wf.text_cons
    exact ⟨c, rest, by rw [← text, numeral], lead⟩
  | .str s, written => by
    simp only [canonical, pure, Except.pure, Except.ok.injEq] at written
    exact ⟨_, _, by rw [← written]; rfl, rfl⟩
  | .arr items, written => by
    obtain ⟨ts, -, rfl⟩ := canonical_arr_eq_ok_iff.mp written
    exact ⟨_, _, rfl, rfl⟩
  | .obj ms, written => by
    obtain ⟨ws, -, rfl⟩ := canonical_obj_eq_ok_iff.mp written
    exact ⟨_, _, rfl, rfl⟩

/-! ### Lists of texts -/

theorem head?_intercalate_append (sep : Text) {t : Text} {c : Nat} {rest : List Nat}
    (lead : t.points = c :: rest) (ts : List Text) (r : List Nat) :
    ((Text.intercalate sep (t :: ts)).points ++ r).head? = some c := by
  cases ts with
  | nil => simp [Text.intercalate, lead]
  | cons u us => rw [intercalate_cons_cons_points, lead, List.cons_append, List.head?_cons]

theorem intercalate_singleton (sep t : Text) : Text.intercalate sep [t] = t := rfl

/-- Texts joined by commas, one comma written as its code point. -/
theorem intercalate_cons_cons_comma (a b : Text) (rest : List Text) (r : List Nat) :
    (Text.intercalate (Text.ofString ",") (a :: b :: rest)).points ++ r =
      a.points ++ 0x2C :: ((Text.intercalate (Text.ofString ",") (b :: rest)).points ++ r) := by
  rw [intercalate_cons_cons_points]
  rfl

section Joined

variable {α β : Type} {R : α → β → Prop} {text : α → Text → Prop} {text' : β → Text → Prop}
  {close : Nat}

/-- Texts joined by commas and closed by a bracket read one way when each of them does among
texts followed by what may follow a value, and none starts with the bracket: the lists are
related pointwise, and what follows the bracket is the same. -/
theorem intercalate_append_inj (closes : close = 0x5D ∨ close = 0x7D)
    (leads : ∀ a t, text a t → ∃ c rest, t.points = c :: rest ∧ c ≠ close)
    (leads' : ∀ b t, text' b t → ∃ c rest, t.points = c :: rest ∧ c ≠ close) :
    ∀ {as : List α} {ts : List Text}, List.Forall₂ text as ts →
      (∀ a ∈ as, ∀ {b t t' r r'}, text a t → text' b t' → Follows r → Follows r' →
        t.points ++ r = t'.points ++ r' → R a b ∧ r = r') →
      ∀ {bs : List β} {ts' : List Text} {r r' : List Nat}, List.Forall₂ text' bs ts' →
        (Text.intercalate (Text.ofString ",") ts).points ++ close :: r =
          (Text.intercalate (Text.ofString ",") ts').points ++ close :: r' →
        List.Forall₂ R as bs ∧ r = r'
  | _, _, .nil, _, _, _, _, _, .nil, same => by
    simp only [Text.intercalate, Text.empty, List.nil_append, List.cons.injEq, true_and] at same
    exact ⟨.nil, same⟩
  | _, _, .nil, _, _, _, _, _, .cons (a := b) (b := t') written' _, same => by
    obtain ⟨c, more, lead, notClose⟩ := leads' b t' written'
    have heads := congrArg List.head? same
    rw [head?_intercalate_append _ lead] at heads
    simp only [Text.intercalate, Text.empty, List.nil_append, List.head?_cons,
      Option.some.injEq] at heads
    exact absurd heads.symm notClose
  | _, _, .cons (a := a) (b := t) written _, _, _, _, _, _, .nil, same => by
    obtain ⟨c, more, lead, notClose⟩ := leads a t written
    have heads := congrArg List.head? same
    rw [head?_intercalate_append _ lead] at heads
    simp only [Text.intercalate, Text.empty, List.nil_append, List.head?_cons,
      Option.some.injEq] at heads
    exact absurd heads notClose
  | _, _, .cons (a := a) (b := t) written .nil, each, _, _, _, _,
      .cons (a := b) (b := t') written' .nil, same => by
    rw [intercalate_singleton, intercalate_singleton] at same
    obtain ⟨related, tails⟩ := each a List.mem_cons_self written written'
      (follows_cons (Or.inr closes) _) (follows_cons (Or.inr closes) _) same
    exact ⟨.cons related .nil, (List.cons.inj tails).2⟩
  | _, _, .cons (a := a) (b := t) written .nil, each, _, _, _, _,
      .cons (a := b) (b := t') written' (.cons _ _), same => by
    rw [intercalate_singleton, intercalate_cons_cons_comma] at same
    obtain ⟨-, tails⟩ := each a List.mem_cons_self written written'
      (follows_cons (Or.inr closes) _) (follows_cons (Or.inl rfl) _) same
    have comma := (List.cons.inj tails).1
    rcases closes with rfl | rfl <;> simp at comma
  | _, _, .cons (a := a) (b := t) written (.cons _ _), each, _, _, _, _,
      .cons (a := b) (b := t') written' .nil, same => by
    rw [intercalate_singleton, intercalate_cons_cons_comma] at same
    obtain ⟨-, tails⟩ := each a List.mem_cons_self written written'
      (follows_cons (Or.inl rfl) _) (follows_cons (Or.inr closes) _) same
    have comma := (List.cons.inj tails).1
    rcases closes with rfl | rfl <;> simp at comma
  | _, _, .cons (a := a) (b := t) written (.cons written₂ rest), each, _, _, _, _,
      .cons (a := b) (b := t') written' (.cons written₂' rest'), same => by
    rw [intercalate_cons_cons_comma, intercalate_cons_cons_comma] at same
    obtain ⟨related, tails⟩ := each a List.mem_cons_self written written'
      (follows_cons (Or.inl rfl) _) (follows_cons (Or.inl rfl) _) same
    obtain ⟨others, rests⟩ := intercalate_append_inj closes leads leads' (.cons written₂ rest)
      (fun a' mem => each a' (List.mem_cons_of_mem a mem)) (.cons written₂' rest')
      (List.cons.inj tails).2
    exact ⟨.cons related others, rests⟩

end Joined

/-! ### Values -/

mutual

/-- Every object in the value names each member once, as every object a document gives does. -/
def Distinct : Json → Prop
  | .arr items => ItemsDistinct items
  | .obj members => (members.map Prod.fst).Nodup ∧ MembersDistinct members
  | _ => True

/-- Every object in the items names each member once. -/
def ItemsDistinct : List Json → Prop
  | [] => True
  | v :: rest => v.Distinct ∧ ItemsDistinct rest

/-- Every object in the member values names each member once. -/
def MembersDistinct : List (Text × Json) → Prop
  | [] => True
  | (_, v) :: rest => v.Distinct ∧ MembersDistinct rest

end

theorem itemsEquiv_of_forall₂ : ∀ {xs ys : List Json}, List.Forall₂ Equiv xs ys → ItemsEquiv xs ys
  | [], [], .nil => by simp [ItemsEquiv]
  | _ :: _, _ :: _, .cons head rest => by
    simp only [ItemsEquiv]
    exact ⟨head, itemsEquiv_of_forall₂ rest⟩

theorem membersEquiv_of_forall₂ : ∀ {ms ns : List (Text × Json)},
    List.Forall₂ (fun m n => m.1 = n.1 ∧ Equiv m.2 n.2) ms ns → MembersEquiv ms ns
  | [], [], .nil => by simp [MembersEquiv]
  | (_, _) :: _, (_, _) :: _, .cons head rest => by
    simp only [MembersEquiv]
    exact ⟨head.1, head.2, membersEquiv_of_forall₂ rest⟩

/-- The canonical text of the value reads one way among texts followed by what may follow a
value: a value whose text, so followed, reads the same is equivalent to it, and what follows
is the same. -/
def Delimited (v : Json) : Prop :=
  ∀ {w : Json} {t t' : Text} {r r' : List Nat}, v.canonical = .ok t → w.canonical = .ok t' →
    Follows r → Follows r' → t.points ++ r = t'.points ++ r' → v.Equiv w ∧ r = r'

/-- The first code points of two texts that read the same, each followed by something. -/
theorem lead_eq {t t' : Text} {c c' : Nat} {rest rest' r r' : List Nat}
    (lead : t.points = c :: rest) (lead' : t'.points = c' :: rest')
    (same : t.points ++ r = t'.points ++ r') : c = c' := by
  rw [lead, lead'] at same
  exact (List.cons.inj same).1

/-! ### Kinds of values -/

/-- Two values of one kind, integers and doubles counting as one kind; booleans alike are
equal. -/
def Alike : Json → Json → Prop
  | .null, .null => True
  | .bool a, .bool b => a = b
  | .int _, .int _ => True
  | .int _, .float _ => True
  | .float _, .int _ => True
  | .float _, .float _ => True
  | .str _, .str _ => True
  | .arr _, .arr _ => True
  | .obj _, .obj _ => True
  | _, _ => False

theorem Leads.alike {v w : Json} {c : Nat} (lv : v.Leads c) (lw : w.Leads c) : Alike v w := by
  rcases v with _ | ⟨_ | _⟩ | _ | _ | _ | _ | _ <;> rcases w with _ | ⟨_ | _⟩ | _ | _ | _ | _ | _ <;>
    simp [Leads, Alike, isDigitCode] at lv lw ⊢ <;> omega

/-- No value's text starts with a closing bracket. -/
theorem Leads.ne_close {v : Json} {c : Nat} (lv : v.Leads c) : c ≠ 0x5D ∧ c ≠ 0x7D := by
  rcases v with _ | ⟨_ | _⟩ | _ | _ | _ | _ | _ <;> simp [Leads, isDigitCode] at lv ⊢ <;> omega

/-- Values whose texts read the same up to what follows them are of one kind. -/
theorem alike_of_canonical {v w : Json} {t t' : Text} {r r' : List Nat}
    (written : v.canonical = .ok t) (written' : w.canonical = .ok t')
    (same : t.points ++ r = t'.points ++ r') : Alike v w := by
  obtain ⟨c, rest, lead, lv⟩ := canonical_leads v written
  obtain ⟨c', rest', lead', lw⟩ := canonical_leads w written'
  rw [lead_eq lead lead' same] at lv
  exact lv.alike lw

/-! ### Scalars -/

theorem numberCode_ofInt (n : Int) : ∀ c ∈ (Text.ofInt n).points, NumberCode c := by
  rw [← Numeral.text_ofInt]
  exact Numeral.numberCode_text (Numeral.wellFormed_ofInt n)

theorem numberCode_floatText {x : Float} {t : Text} (written : floatText? x = some t) :
    ∀ c ∈ t.points, NumberCode c := by
  obtain ⟨n, wf, text, -⟩ := floatText_numeral written
  rw [← text]
  exact Numeral.numberCode_text wf

/-- The reader gives one value to one numeral text. -/
theorem Numeral.value_eq_of_text_eq {n n' : Numeral} (wf : n.WellFormed) (wf' : n'.WellFormed)
    (same : n.text = n'.text) : n.value = n'.value := by
  let s : Source := ⟨n.text.toArray⟩
  have split : s.rest 0 = n.text ++ [] := by simp [s, Source.rest]
  have split' : s.rest 0 = n'.text ++ [] := by rw [split, same]
  have ends : NumberEnds [] := by simp [NumberEnds]
  have reads := (number_eq_value wf split ends).symm.trans (number_eq_value wf' split' ends)
  rw [same] at reads
  cases value : n.value <;> cases value' : n'.value <;> simp_all [Except.map]

/-- An integer is never written as a double is: the reader tells them apart. -/
theorem ofInt_ne_floatText (n : Int) {x : Float} {t : Text} (written : floatText? x = some t) :
    Text.ofInt n ≠ t := by
  intro same
  obtain ⟨n', wf', text', value'⟩ := floatText_numeral written
  have reads := Numeral.value_eq_of_text_eq (Numeral.wellFormed_ofInt n) wf'
    (by rw [Numeral.text_ofInt, same, text'])
  rw [value', Numeral.value_ofInt] at reads
  -- a numeral too long for an integer is refused, one that fits is read as an integer
  split_ifs at reads
  simp at reads

theorem delimited_null : Json.null.Delimited := by
  intro w t t' r r' written written' _ _ same
  have alike := alike_of_canonical written written' same
  cases w <;> simp only [Alike] at alike
  simp only [canonical, pure, Except.pure, Except.ok.injEq] at written written'
  subst written written'
  exact ⟨trivial, List.append_cancel_left same⟩

theorem delimited_bool (b : Bool) : (Json.bool b).Delimited := by
  intro w t t' r r' written written' _ _ same
  have alike := alike_of_canonical written written' same
  cases w <;> simp only [Alike] at alike
  subst alike
  simp only [canonical, pure, Except.pure, Except.ok.injEq] at written written'
  subst written written'
  exact ⟨rfl, List.append_cancel_left same⟩

theorem delimited_int (n : Int) : (Json.int n).Delimited := by
  intro w t t' r r' written written' follows follows' same
  have alike := alike_of_canonical written written' same
  simp only [canonical, pure, Except.pure, Except.ok.injEq] at written
  subst written
  cases w <;> simp only [Alike] at alike
  case int m =>
    simp only [canonical, pure, Except.pure, Except.ok.injEq] at written'
    subst written'
    obtain ⟨lexeme, rest⟩ := append_inj_of_stop (numberCode_ofInt n) (numberCode_ofInt m)
      follows.stop follows'.stop same
    exact ⟨Text.ofInt_injective (Text.points_injective lexeme), rest⟩
  case float y =>
    have shortest := canonical_float_eq_ok_iff.mp written'
    obtain ⟨lexeme, -⟩ := append_inj_of_stop (numberCode_ofInt n) (numberCode_floatText shortest)
      follows.stop follows'.stop same
    exact absurd (Text.points_injective lexeme) (ofInt_ne_floatText n shortest)

theorem delimited_float (x : Float) : (Json.float x).Delimited := by
  intro w t t' r r' written written' follows follows' same
  have alike := alike_of_canonical written written' same
  have shortest := canonical_float_eq_ok_iff.mp written
  cases w <;> simp only [Alike] at alike
  case int m =>
    simp only [canonical, pure, Except.pure, Except.ok.injEq] at written'
    subst written'
    obtain ⟨lexeme, -⟩ := append_inj_of_stop (numberCode_floatText shortest) (numberCode_ofInt m)
      follows.stop follows'.stop same
    exact absurd (Text.points_injective lexeme).symm (ofInt_ne_floatText m shortest)
  case float y =>
    have shortest' := canonical_float_eq_ok_iff.mp written'
    obtain ⟨lexeme, rest⟩ := append_inj_of_stop (numberCode_floatText shortest)
      (numberCode_floatText shortest') follows.stop follows'.stop same
    rw [← Text.points_injective lexeme] at shortest'
    exact ⟨by simp only [Equiv, floatText_injective shortest shortest'], rest⟩

theorem delimited_str (s : Text) : (Json.str s).Delimited := by
  intro w t t' r r' written written' _ _ same
  have alike := alike_of_canonical written written' same
  cases w <;> simp only [Alike] at alike
  simp only [canonical, pure, Except.pure, Except.ok.injEq] at written written'
  subst written written'
  exact canonicalString_append_inj same

/-! ### Arrays and objects -/

theorem canonicalItems_eq_mapM (xs : List Json) : canonicalItems xs = xs.mapM canonical := by
  induction xs with
  | nil => rfl
  | cons x xs ih => simp only [canonicalItems, List.mapM_cons, ih]

/-- An array is written item by item, in brackets. -/
theorem canonical_arr_eq_ok {xs : List Json} {t : Text} (written : (Json.arr xs).canonical = .ok t) :
    ∃ ts, List.Forall₂ (fun x u => x.canonical = .ok u) xs ts ∧
      t.points = 0x5B :: ((Text.intercalate (Text.ofString ",") ts).points ++ [0x5D]) := by
  obtain ⟨ts, parts, rfl⟩ := canonical_arr_eq_ok_iff.mp written
  rw [canonicalItems_eq_mapM, mapM_eq_ok_iff] at parts
  exact ⟨ts, parts, rfl⟩

/-- An object is written member by member, in name order, in braces. -/
theorem canonical_obj_eq_ok {ms : List (Text × Json)} {t : Text}
    (written : (Json.obj ms).canonical = .ok t) :
    ∃ ws, List.Forall₂ (fun m w => memberText (m.1, m.2.canonical) = .ok w) (sortMembers ms) ws ∧
      t.points = 0x7B :: ((Text.intercalate (Text.ofString ",") ws).points ++ [0x7D]) := by
  obtain ⟨ws, mapped, rfl⟩ := canonical_obj_eq_ok_iff.mp written
  rw [sortMembers_canonicalMembers, mapM_eq_ok_iff, List.forall₂_map_left_iff] at mapped
  exact ⟨ws, mapped, rfl⟩

/-- The text of a value never starts with a closing bracket. -/
theorem canonical_open {close : Nat} (closes : close = 0x5D ∨ close = 0x7D) (v : Json) (t : Text)
    (written : v.canonical = .ok t) : ∃ c rest, t.points = c :: rest ∧ c ≠ close := by
  obtain ⟨c, rest, lead, lv⟩ := canonical_leads v written
  refine ⟨c, rest, lead, ?_⟩
  rcases closes with rfl | rfl
  · exact lv.ne_close.1
  · exact lv.ne_close.2

/-- The text of a member starts with the quote of its name. -/
theorem memberText_open (m : Text × Json) (w : Text)
    (written : memberText (m.1, m.2.canonical) = .ok w) :
    ∃ c rest, w.points = c :: rest ∧ c ≠ 0x7D := by
  obtain ⟨u, -, rfl⟩ := memberText_eq_ok written
  exact ⟨0x22, _, rfl, by decide⟩

/-- A member's text reads one way when its value's does: the name, the value up to
equivalence, and what follows are determined. -/
theorem memberText_append_inj {m n : Text × Json} (value : m.2.Delimited) {w w' : Text}
    {r r' : List Nat} (written : memberText (m.1, m.2.canonical) = .ok w)
    (written' : memberText (n.1, n.2.canonical) = .ok w') (follows : Follows r)
    (follows' : Follows r') (same : w.points ++ r = w'.points ++ r') :
    (m.1 = n.1 ∧ m.2.Equiv n.2) ∧ r = r' := by
  obtain ⟨u, valueText, rfl⟩ := memberText_eq_ok written
  obtain ⟨u', valueText', rfl⟩ := memberText_eq_ok written'
  simp only [Text.points_append, List.append_assoc] at same
  obtain ⟨name, afterName⟩ := canonicalString_append_inj same
  obtain ⟨equiv, rest⟩ := value valueText valueText' follows follows'
    (List.append_cancel_left afterName)
  exact ⟨⟨name, equiv⟩, rest⟩

/-- An object whose members, in name order, match those of another list one by one is
equivalent to any permutation of that list. -/
theorem equiv_obj_of_sorted {ms ls ns : List (Text × Json)} (names : (ms.map Prod.fst).Nodup)
    (related : List.Forall₂ (fun m n => m.1 = n.1 ∧ m.2.Equiv n.2) (sortMembers ms) ls)
    (perm : ls.Perm ns) : (Json.obj ms).Equiv (.obj ns) := by
  -- matching the members as given takes a permutation
  obtain ⟨ls', pointwise, perm'⟩ := List.perm_comp_forall₂ (List.mergeSort_perm ms _).symm related
  exact ⟨names, ls', membersEquiv_of_forall₂ pointwise, perm'.trans perm⟩

theorem delimited_arr {xs : List Json} (items : ∀ x ∈ xs, x.Delimited) :
    (Json.arr xs).Delimited := by
  intro w t t' r r' written written' _ _ same
  have alike := alike_of_canonical written written' same
  cases w <;> simp only [Alike] at alike
  rename_i ys
  obtain ⟨ts, parts, text⟩ := canonical_arr_eq_ok written
  obtain ⟨ts', parts', text'⟩ := canonical_arr_eq_ok written'
  rw [text, text', List.cons_append, List.cons_append, List.append_assoc, List.append_assoc,
    List.singleton_append, List.singleton_append] at same
  obtain ⟨related, rest⟩ := intercalate_append_inj (Or.inl rfl) (canonical_open (Or.inl rfl))
    (canonical_open (Or.inl rfl)) parts items parts' (List.cons.inj same).2
  exact ⟨itemsEquiv_of_forall₂ related, rest⟩

theorem delimited_obj {ms : List (Text × Json)} (names : (ms.map Prod.fst).Nodup)
    (values : ∀ m ∈ ms, m.2.Delimited) : (Json.obj ms).Delimited := by
  intro w t t' r r' written written' _ _ same
  have alike := alike_of_canonical written written' same
  cases w <;> simp only [Alike] at alike
  rename_i ns
  obtain ⟨ws, parts, text⟩ := canonical_obj_eq_ok written
  obtain ⟨ws', parts', text'⟩ := canonical_obj_eq_ok written'
  rw [text, text', List.cons_append, List.cons_append, List.append_assoc, List.append_assoc,
    List.singleton_append, List.singleton_append] at same
  obtain ⟨related, rest⟩ := intercalate_append_inj (Or.inr rfl) memberText_open memberText_open
    parts (fun m mem => memberText_append_inj (values m ((List.mergeSort_perm ms _).subset mem)))
    parts' (List.cons.inj same).2
  exact ⟨equiv_obj_of_sorted names related (List.mergeSort_perm ns _), rest⟩

/-! ### Canonical text reads one way -/

mutual

/-- The canonical text of a value whose objects name each member once reads one way. -/
theorem delimited : (v : Json) → v.Distinct → v.Delimited
  | .null, _ => delimited_null
  | .bool b, _ => delimited_bool b
  | .int n, _ => delimited_int n
  | .float x, _ => delimited_float x
  | .str s, _ => delimited_str s
  | .arr xs, distinct => delimited_arr (itemsDelimited xs distinct)
  | .obj ms, distinct => delimited_obj distinct.1 (membersDelimited ms distinct.2)

theorem itemsDelimited : (xs : List Json) → ItemsDistinct xs → ∀ x ∈ xs, x.Delimited
  | [], _ => by simp
  | x :: xs, distinct =>
    List.forall_mem_cons.mpr ⟨delimited x distinct.1, itemsDelimited xs distinct.2⟩

theorem membersDelimited :
    (ms : List (Text × Json)) → MembersDistinct ms → ∀ m ∈ ms, m.2.Delimited
  | [], _ => by simp
  | (_, v) :: ms, distinct =>
    List.forall_mem_cons.mpr ⟨delimited v distinct.1, membersDelimited ms distinct.2⟩

end

/-- Canonical text is faithful: a value whose objects name each member once has the canonical
text of another value only when the two are equivalent. -/
theorem equiv_of_canonical_eq {v w : Json} {t : Text} (distinct : v.Distinct)
    (written : v.canonical = .ok t) (written' : w.canonical = .ok t) : v.Equiv w :=
  (delimited v distinct written written' follows_nil follows_nil rfl).1

end Json

end HostInventory
