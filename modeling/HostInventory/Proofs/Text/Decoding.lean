import HostInventory.Proofs.Json.Canonical
/-!
# Codes that read back one way

Two encodings of this library are read back with nothing between their words: the UTF-8 octets
of code points, which the stable fingerprint concatenates, and the escaped code points of a
canonical string, which runs to the first quote that no backslash escapes. Both are *prefix
codes*: when two strings begin with words of the code and are equal, the words are equal, and so
is what follows them. UTF-8 is one by the ranges of its lead octets. Canonical string content is
one because `Json.stringFront` reads its first code point back.

So a text is determined by its UTF-8 octets (`Text.utf8_injective`), and a canonical string is
determined by any string it begins (`Json.canonicalString_append_inj`).
-/

namespace HostInventory

/-- Words that can be told apart at the front of any string. -/
def PrefixCode {α : Type} (code : α → List Nat) : Prop :=
  ∀ a b r r', code a ++ r = code b ++ r' → a = b ∧ r = r'

namespace PrefixCode

variable {α : Type} {code : α → List Nat}

/-- A code whose first word can be read back, with what follows it, is a prefix code. -/
theorem of_front (front : List Nat → Option (α × List Nat))
    (reads : ∀ a r, front (code a ++ r) = some (a, r)) : PrefixCode code := by
  intro a b r r' same
  have readBack := reads a r
  rw [same, reads b r', Option.some.injEq, Prod.mk.injEq] at readBack
  exact ⟨readBack.1.symm, readBack.2.symm⟩

/-- Words of a prefix code, none of them empty, spell each sequence of words one way. -/
theorem flatMap_injective (decodable : PrefixCode code) (nonempty : ∀ a, code a ≠ []) :
    ∀ {xs ys : List α}, xs.flatMap code = ys.flatMap code → xs = ys
  | [], [], _ => rfl
  | [], y :: _, same => absurd (List.append_eq_nil_iff.mp same.symm).1 (nonempty y)
  | x :: _, [], same => absurd (List.append_eq_nil_iff.mp same).1 (nonempty x)
  | x :: xs, y :: ys, same => by
    rw [List.flatMap_cons, List.flatMap_cons] at same
    rcases decodable x y _ _ same with ⟨rfl, rest⟩
    rw [flatMap_injective decodable nonempty rest]

/-- A word that does not start with `q` begins no string that starts with `q`. -/
theorem append_ne_cons (nonempty : ∀ a, code a ≠ []) {q : Nat}
    (notStart : ∀ a, (code a).head? ≠ some q) (a : α) (s r : List Nat) :
    code a ++ s ≠ q :: r := by
  intro starts
  rcases word : code a with _ | ⟨c, rest⟩
  · exact nonempty a word
  · rw [word, List.cons_append, List.cons.injEq] at starts
    exact notStart a (by rw [word, starts.1]; rfl)

/-- Words of a prefix code followed by a terminator that no word starts with: the words, and what
follows the terminator, are determined. -/
theorem flatMap_terminated_inj (decodable : PrefixCode code) (nonempty : ∀ a, code a ≠ [])
    {q : Nat} (notStart : ∀ a, (code a).head? ≠ some q) :
    ∀ {xs ys : List α} {r r' : List Nat},
      xs.flatMap code ++ q :: r = ys.flatMap code ++ q :: r' → xs = ys ∧ r = r'
  | [], [], r, r', same => ⟨rfl, by simpa using same⟩
  | [], y :: ys, r, r', same => by
    rw [List.flatMap_cons, List.append_assoc] at same
    exact absurd same.symm (append_ne_cons nonempty notStart y _ r)
  | x :: xs, [], r, r', same => by
    rw [List.flatMap_cons, List.append_assoc] at same
    exact absurd same (append_ne_cons nonempty notStart x _ r')
  | x :: xs, y :: ys, r, r', same => by
    rw [List.flatMap_cons, List.flatMap_cons, List.append_assoc, List.append_assoc] at same
    rcases decodable x y _ _ same with ⟨rfl, rest⟩
    rcases flatMap_terminated_inj decodable nonempty notStart rest with ⟨rfl, rfl⟩
    exact ⟨rfl, rfl⟩

end PrefixCode

namespace Text

theorem utf8Point_ne_nil (c : Nat) : utf8Point c ≠ [] := by
  unfold utf8Point
  split_ifs <;> simp

/-- UTF-8 is a prefix code: a lead octet's range gives the width, and the octets give the bits. -/
theorem utf8Point_prefixCode : PrefixCode utf8Point := by
  intro a b r r' same
  have points : a = b := by
    unfold utf8Point at same
    split_ifs at same <;>
      simp only [List.cons_append, List.nil_append, List.cons.injEq] at same <;> omega
  subst points
  exact ⟨rfl, List.append_cancel_left same⟩

/-- A text has UTF-8 octets exactly when it holds no surrogate. -/
theorem utf8_isOk_iff (t : Text) :
    (∃ octets, utf8 t = .ok octets) ↔ ∀ c ∈ t.points, isSurrogate c = false := by
  rw [← List.findIdx?_eq_none_iff]
  unfold utf8
  cases t.points.findIdx? isSurrogate <;> simp

theorem utf8_eq_ok {t : Text} {octets : List Nat} (encoded : utf8 t = .ok octets) :
    octets = t.points.flatMap utf8Point := by
  unfold utf8 at encoded
  split at encoded
  · exact (Except.ok.inj encoded).symm
  · cases encoded

/-- Code points are determined by their UTF-8 octets. -/
theorem flatMap_utf8Point_injective {xs ys : List Nat}
    (same : xs.flatMap utf8Point = ys.flatMap utf8Point) : xs = ys :=
  utf8Point_prefixCode.flatMap_injective utf8Point_ne_nil same

/-- A text is determined by its UTF-8 octets. -/
theorem utf8_injective {t t' : Text} {octets : List Nat} (encoded : utf8 t = .ok octets)
    (encoded' : utf8 t' = .ok octets) : t = t' := by
  apply points_injective
  apply flatMap_utf8Point_injective
  rw [← utf8_eq_ok encoded, ← utf8_eq_ok encoded']

end Text

namespace Json

/-- The value of a lowercase hexadecimal digit. -/
def hexValue (h : Nat) : Nat := if h < 0x3A then h - 0x30 else h - 0x57

/-- The code point a one-letter escape stands for. -/
def unescape (e : Nat) : Nat :=
  if e = 0x6E then 0x0A else if e = 0x72 then 0x0D else if e = 0x74 then 0x09
  else if e = 0x62 then 0x08 else if e = 0x66 then 0x0C else e

/-- Reads the first code point of canonical string content, with what follows it. -/
def stringFront : List Nat → Option (Nat × List Nat)
  | 0x5C :: 0x75 :: _ :: _ :: h₁ :: h₂ :: rest =>
    some (hexValue h₁ * 16 + hexValue h₂, rest)
  | 0x5C :: e :: rest => some (unescape e, rest)
  | c :: rest => some (c, rest)
  | [] => none

theorem hexDigits_two (c : Nat) : Text.hexDigits 2 c =
    [if c / 16 % 16 < 10 then 0x30 + c / 16 % 16 else 0x57 + c / 16 % 16,
     if c % 16 < 10 then 0x30 + c % 16 else 0x57 + c % 16] := by
  simp [Text.hexDigits, List.range_succ]

theorem stringFront_canonicalPoint (c : Nat) (r : List Nat) :
    stringFront (canonicalPoint c ++ r) = some (c, r) := by
  unfold canonicalPoint
  split_ifs with quote backslash newline carriage tab backspace formFeed control
  -- the quote, the backslash and the five one-letter escapes
  iterate 7 · simp_all [stringFront, unescape]
  -- a control character without a short escape: `\u00` and two hexadecimal digits
  · simp only [hexDigits_two, List.cons_append, List.nil_append, stringFront,
      Option.some.injEq, Prod.mk.injEq, and_true]
    unfold hexValue
    split_ifs <;> omega
  · simp only [List.cons_append, List.nil_append]
    simp at quote backslash
    simp [stringFront, backslash]

theorem canonicalPoint_prefixCode : PrefixCode canonicalPoint :=
  PrefixCode.of_front stringFront stringFront_canonicalPoint

theorem canonicalPoint_ne_nil (c : Nat) : canonicalPoint c ≠ [] := by
  unfold canonicalPoint
  split_ifs <;> simp

/-- Inside a canonical string a quote is always escaped. -/
theorem canonicalPoint_head_ne_quote (c : Nat) : (canonicalPoint c).head? ≠ some 0x22 := by
  unfold canonicalPoint
  split_ifs with quote <;> simp_all

/-- A canonical string ends at its closing quote: whatever follows it, the string is
determined. -/
theorem canonicalString_append_inj {a b : Text} {r r' : List Nat}
    (same : (canonicalString a).points ++ r = (canonicalString b).points ++ r') :
    a = b ∧ r = r' := by
  simp only [canonicalString, List.cons_append, List.append_assoc, List.cons.injEq, true_and]
    at same
  rcases canonicalPoint_prefixCode.flatMap_terminated_inj canonicalPoint_ne_nil
    canonicalPoint_head_ne_quote same with ⟨points, rest⟩
  exact ⟨Text.points_injective points, rest⟩

end Json

end HostInventory
