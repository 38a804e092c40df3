import HostInventory.Proofs.Json.ReadBack
/-!
# Where canonical bytes fail

Canonical bytes fail for one of two reasons, met in this order. A value that holds a non-finite
double has no canonical text at all, and fails with that double. Otherwise the text is
there, and its UTF-8 form fails exactly when it holds a surrogate. The failure then names the first
run of surrogates of the canonical text, in positions of the escaped, key-sorted text and not of the
value: where the run starts, where it stops, and its first code point, which the message quotes
when the run has one code point (`canonicalBytes_fails_exactly`).

A first run is said without the encoder (`Text.IsFirstSurrogateRun`): the text splits into a
stretch free of surrogates, a nonempty stretch of surrogates, and a rest that does not start with
one. `Text.utf8` fails with exactly that run (`Text.utf8_eq_error_iff`).
-/

namespace HostInventory

namespace Text

/-- `run` is the first stretch of surrogates of `points`: no surrogate comes before it, it is a
nonempty stretch of surrogates that starts with `run.first`, and what follows it does not start
with a surrogate. `run.start` and `run.stop` count code points. -/
def IsFirstSurrogateRun (points : List Nat) (run : SurrogateRun) : Prop :=
  ∃ pre mid post, points = pre ++ mid ++ post ∧
    (∀ c ∈ pre, isSurrogate c = false) ∧ (∀ c ∈ mid, isSurrogate c = true) ∧
    (∀ c, post.head? = some c → isSurrogate c = false) ∧
    mid.head? = some run.first ∧ run.start = pre.length ∧ run.stop = pre.length + mid.length

/-- A stretch of surrogates before a rest that does not start with one is what `takeWhile`
keeps. -/
theorem takeWhile_surrogates {mid post : List Nat}
    (surrogates : ∀ c ∈ mid, isSurrogate c = true)
    (boundary : ∀ c, post.head? = some c → isSurrogate c = false) :
    (mid ++ post).takeWhile isSurrogate = mid := by
  rw [List.takeWhile_append_of_pos surrogates]
  cases post with
  | nil => simp
  | cons c rest => simp [boundary c rfl]

theorem utf8_of_isFirstSurrogateRun {points : List Nat} {run : SurrogateRun}
    (first : IsFirstSurrogateRun points run) : utf8 ⟨points⟩ = .error run := by
  obtain ⟨pre, mid, post, rfl, plain, surrogates, boundary, head, start, stop⟩ := first
  obtain ⟨c, rest, rfl⟩ : ∃ c rest, mid = c :: rest := by
    cases mid with
    | nil => simp at head
    | cons c rest => exact ⟨c, rest, rfl⟩
  have found : (pre ++ (c :: rest) ++ post).findIdx? isSurrogate = some pre.length := by
    have none : pre.findIdx? isSurrogate = none :=
      List.findIdx?_eq_none_iff.mpr (by simpa using plain)
    simp [List.findIdx?_append, none, List.findIdx?_cons, surrogates c List.mem_cons_self]
  have stretch :
      ((pre ++ (c :: rest) ++ post).drop pre.length).takeWhile isSurrogate = c :: rest := by
    rw [List.append_assoc, List.drop_left]
    exact takeWhile_surrogates surrogates boundary
  have firstPoint : (pre ++ (c :: rest) ++ post).getD pre.length 0 = run.first := by
    simp at head
    simp [head]
  rw [utf8]
  simp only [found]
  rw [stretch, firstPoint, ← stop, ← start]

theorem isFirstSurrogateRun_of_utf8 {points : List Nat} {run : SurrogateRun}
    (refused : utf8 ⟨points⟩ = .error run) : IsFirstSurrogateRun points run := by
  unfold utf8 at refused
  split at refused
  · cases refused
  · next i found =>
    cases refused
    obtain ⟨bound, surrogate, before⟩ := List.findIdx?_eq_some_iff_getElem.mp found
    have bound : i < points.length := bound
    -- the run is what `takeWhile` keeps from the first surrogate on
    refine ⟨points.take i, (points.drop i).takeWhile isSurrogate,
      (points.drop i).dropWhile isSurrogate, ?_, ?_, ?_, ?_, ?_, ?_, ?_⟩
    · rw [List.append_assoc, List.takeWhile_append_dropWhile, List.take_append_drop]
    · intro c mem
      obtain ⟨j, lt, rfl⟩ := List.getElem_of_mem mem
      simp only [List.length_take] at lt
      simpa using before j (by omega)
    · exact fun c mem => List.mem_takeWhile_imp mem
    · intro c head
      have stops := List.head?_dropWhile_not isSurrogate (points.drop i)
      simp_all
    · rw [List.drop_eq_getElem_cons bound, List.takeWhile_cons, if_pos surrogate]
      simp [List.getD_eq_getElem?_getD, bound]
    · simp only [List.length_take]
      omega
    · simp only [List.length_take]
      omega

/-- UTF-8 encoding fails exactly with the first run of surrogates. -/
theorem utf8_eq_error_iff (t : Text) (run : SurrogateRun) :
    utf8 t = .error run ↔ IsFirstSurrogateRun t.points run :=
  ⟨isFirstSurrogateRun_of_utf8, utf8_of_isFirstSurrogateRun⟩

/-- A text without surrogates encodes code point by code point. -/
theorem utf8_of_hasSurrogate_eq_false {t : Text} (plain : t.hasSurrogate = false) :
    utf8 t = .ok (t.points.flatMap utf8Point) := by
  obtain ⟨octets, encoded⟩ := (utf8_isOk_iff t).mpr ((hasSurrogate_eq_false_iff t).mp plain)
  rw [encoded, utf8_eq_ok encoded]

end Text

namespace Json

/-- A value without canonical text fails with the double that has none. -/
theorem canonicalBytes_of_canonical_error {v : Json} {e : NonFinite}
    (refused : v.canonical = .error e) : v.canonicalBytes = .error (.nonFinite e.value) := by
  rw [canonicalBytes_eq, refused]

/-- A value with canonical text has the UTF-8 form of that text, or fails with its first run of
surrogates. -/
theorem canonicalBytes_of_canonical_ok {v : Json} {t : Text} (written : v.canonical = .ok t) :
    v.canonicalBytes = (Text.utf8 t).mapError CanonicalError.surrogates := by
  rw [canonicalBytes_eq, written]

/-- Canonical bytes fail with a non-finite double exactly when the value holds one. -/
theorem canonicalBytes_nonFinite_iff (v : Json) :
    (∃ x, v.canonicalBytes = .error (.nonFinite x)) ↔ v.finite = false := by
  rw [← Bool.not_eq_true, ← canonical_ok_iff v]
  cases written : v.canonical with
  | error e => simp [canonicalBytes_of_canonical_error written]
  | ok t =>
    rw [canonicalBytes_of_canonical_ok written]
    cases Text.utf8 t <;> simp [Except.mapError]

/-- The position counts the canonical text: the member `a` sorts first and its line feed is
written as two code points, so the run of two surrogates starts at 15. -/
example : (Json.obj [(Text.ofString "b", .str ⟨[0xD800, 0xDC00, 0x61]⟩),
    (Text.ofString "a", .str (Text.ofString "\n"))]).canonicalBytes =
    .error (.surrogates ⟨15, 17, 0xD800⟩) := by
  cbv

end Json

end HostInventory
