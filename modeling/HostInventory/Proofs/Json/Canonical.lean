import HostInventory.Proofs.Order
/-!
# What canonical text depends on

Canonical text is meant to be a function of the value a document denotes, not of how the document
happened to be written. Two values are *equivalent* (`Json.Equiv`) when they differ at most in the
order of object members: every object names each member once, as every object a document can give
does, members are matched by name, and values are compared recursively. Integers, booleans and
doubles stay apart, and doubles are compared by their bits, so `0.0` and `-0.0` differ.
Equivalent values have the same canonical text (`canonical_congr`).

A value has canonical text exactly when every double in it is finite (`canonical_ok_iff`). Its
canonical bytes, and what the fingerprints digest of it, are the UTF-8 form of that text
(`canonicalBytes_eq`, `encodedBytes_eq`, `encodableText_eq`).
-/

namespace HostInventory

namespace Json

/-- A double is its bit pattern. -/
theorem float_eq_of_toBits_eq {x y : Float} (sameBits : x.toBits = y.toBits) : x = y := by
  cases x with
  | ofModel mx =>
    cases y with
    | ofModel my =>
      cases mx
      cases my
      simp_all [Float.toBits]

mutual

/-- Two values that differ at most in the order of object members, member names being distinct. -/
def Equiv : Json → Json → Prop
  | .null, .null => True
  | .bool a, .bool b => a = b
  | .int a, .int b => a = b
  | .float x, .float y => x.toBits = y.toBits
  | .str a, .str b => a = b
  | .arr xs, .arr ys => ItemsEquiv xs ys
  | .obj ms, .obj ns => (ms.map Prod.fst).Nodup ∧ ∃ ls, MembersEquiv ms ls ∧ ls.Perm ns
  | _, _ => False

/-- Item lists of the same length whose items are equivalent in order. -/
def ItemsEquiv : List Json → List Json → Prop
  | [], [] => True
  | x :: xs, y :: ys => Equiv x y ∧ ItemsEquiv xs ys
  | _, _ => False

/-- Member lists with the same names in the same order and equivalent values. -/
def MembersEquiv : List (Text × Json) → List (Text × Json) → Prop
  | [], [] => True
  | (a, v) :: ms, (b, w) :: ns => a = b ∧ Equiv v w ∧ MembersEquiv ms ns
  | _, _ => False

end

theorem MembersEquiv.names_eq : ∀ {ms ns : List (Text × Json)},
    MembersEquiv ms ns → ms.map Prod.fst = ns.map Prod.fst
  | [], [], _ => rfl
  | (a, _) :: ms, (b, _) :: ns, same => by
    rcases same with ⟨sameName, -, rest⟩
    simp [sameName, MembersEquiv.names_eq rest]

theorem canonicalMembers_eq_map :
    ∀ ms : List (Text × Json), canonicalMembers ms = ms.map (fun m => (m.1, m.2.canonical))
  | [] => rfl
  | (_, _) :: rest => by simp [canonicalMembers, canonicalMembers_eq_map rest]

mutual

/-- Equivalent values have the same canonical text. -/
theorem canonical_congr : (v w : Json) → v.Equiv w → v.canonical = w.canonical
  | .null, w, same => by cases w <;> simp_all [Equiv]
  | .bool a, w, same => by cases w <;> simp_all [Equiv]
  | .int a, w, same => by cases w <;> simp_all [Equiv]
  | .float x, w, same => by
    cases w with
    | float y => rw [float_eq_of_toBits_eq same]
    | _ => simp [Equiv] at same
  | .str a, w, same => by cases w <;> simp_all [Equiv]
  | .arr xs, w, same => by
    cases w with
    | arr ys => simp only [canonical, canonicalItems_congr xs ys same]
    | _ => simp [Equiv] at same
  | .obj ms, w, same => by
    cases w with
    | obj ns =>
      rcases same with ⟨distinct, ls, pointwise, perm⟩
      have sameTexts : canonicalMembers ms = canonicalMembers ls :=
        canonicalMembers_congr ms ls pointwise
      have reordered : (canonicalMembers ls).Perm (canonicalMembers ns) := by
        rw [canonicalMembers_eq_map, canonicalMembers_eq_map]
        exact perm.map _
      -- the names of `ls` are those of `ms`, hence distinct
      have distinctTexts : ((canonicalMembers ls).map Prod.fst).Nodup := by
        rw [← sameTexts, canonicalMembers_eq_map, List.map_map]
        simpa [Function.comp_def] using distinct
      simp only [canonical, sameTexts, sortMembers_eq_of_perm reordered distinctTexts]
    | _ => simp [Equiv] at same

theorem canonicalItems_congr :
    (xs ys : List Json) → ItemsEquiv xs ys → canonicalItems xs = canonicalItems ys
  | [], ys, same => by cases ys <;> simp_all [ItemsEquiv]
  | x :: xs, ys, same => by
    cases ys with
    | nil => simp [ItemsEquiv] at same
    | cons y ys =>
      rcases same with ⟨head, tail⟩
      simp only [canonicalItems, canonical_congr x y head, canonicalItems_congr xs ys tail]

theorem canonicalMembers_congr :
    (ms ns : List (Text × Json)) → MembersEquiv ms ns → canonicalMembers ms = canonicalMembers ns
  | [], ns, same => by cases ns <;> simp_all [MembersEquiv]
  | (a, v) :: ms, ns, same => by
    cases ns with
    | nil => simp [MembersEquiv] at same
    | cons n ns =>
      rcases n with ⟨b, w⟩
      rcases same with ⟨rfl, head, tail⟩
      simp only [canonicalMembers, canonical_congr v w head, canonicalMembers_congr ms ns tail]

end

mutual

/-- Every double in the value is finite. -/
def finite : Json → Bool
  | .float x => (floatText? x).isSome
  | .arr items => finiteItems items
  | .obj members => finiteMembers members
  | _ => true

/-- Every double in the items is finite. -/
def finiteItems : List Json → Bool
  | [] => true
  | v :: rest => v.finite && finiteItems rest

/-- Every double in the member values is finite. -/
def finiteMembers : List (Text × Json) → Bool
  | [] => true
  | (_, v) :: rest => v.finite && finiteMembers rest

end

@[simp] theorem finiteItems_eq_all : ∀ xs : List Json, finiteItems xs = xs.all finite
  | [] => rfl
  | x :: xs => by simp [finiteItems, finiteItems_eq_all xs]

@[simp] theorem finiteMembers_eq_all :
    ∀ ms : List (Text × Json), finiteMembers ms = ms.all (fun m => m.2.finite)
  | [] => rfl
  | (_, v) :: ms => by simp [finiteMembers, finiteMembers_eq_all ms]

/-- The text of one member: its name, a colon and the value's text; or why the value has none. -/
def memberText (m : Text × Except NonFinite Text) : Except NonFinite Text := do
  let t ← m.2
  pure (canonicalString m.1 ++ Text.ofString ":" ++ t)

/-- An object's text around the texts of its members. -/
def objectText (written : List Text) : Text :=
  Text.ofString "\x7b" ++ Text.intercalate (Text.ofString ",") written ++ Text.ofString "\x7d"

/-- An object is written member by member, in name order. -/
theorem canonical_obj (ms : List (Text × Json)) :
    (Json.obj ms).canonical = ((sortMembers (canonicalMembers ms)).mapM memberText).map objectText := by
  rw [canonical]
  change ((sortMembers (canonicalMembers ms)).mapM memberText >>= fun written =>
    pure (objectText written)) = _
  cases (sortMembers (canonicalMembers ms)).mapM memberText <;> rfl

/-- An object's text is written from its members' texts in name order. -/
theorem canonical_obj_eq_ok_iff {ms : List (Text × Json)} {t : Text} :
    (Json.obj ms).canonical = .ok t ↔
      ∃ ws, (sortMembers (canonicalMembers ms)).mapM memberText = .ok ws ∧ objectText ws = t := by
  rw [canonical_obj, Except.map_eq_ok_iff]

/-- Sorting the members commutes with writing their values. -/
theorem sortMembers_canonicalMembers (ms : List (Text × Json)) :
    sortMembers (canonicalMembers ms) = (sortMembers ms).map fun m => (m.1, m.2.canonical) := by
  rw [canonicalMembers_eq_map, sortMembers, sortMembers]
  symm
  exact List.map_mergeSort (fun _ _ _ _ => rfl)

/-- An array is written item by item, in brackets. -/
theorem canonical_arr (xs : List Json) :
    (Json.arr xs).canonical = (canonicalItems xs).map fun ts =>
      Text.ofString "[" ++ Text.intercalate (Text.ofString ",") ts ++ Text.ofString "]" := by
  rw [canonical]
  cases canonicalItems xs <;> rfl

theorem canonical_arr_eq_ok_iff {xs : List Json} {t : Text} :
    (Json.arr xs).canonical = .ok t ↔ ∃ ts, canonicalItems xs = .ok ts ∧
      Text.ofString "[" ++ Text.intercalate (Text.ofString ",") ts ++ Text.ofString "]" = t := by
  rw [canonical_arr, Except.map_eq_ok_iff]

/-- A double is written as its shortest text, and has none when it is not finite. -/
theorem canonical_float_eq_ok_iff {x : Float} {t : Text} :
    (Json.float x).canonical = .ok t ↔ floatText? x = some t := by
  cases shortest : floatText? x <;>
    simp [canonical, shortest, pure, Except.pure, throw, throwThe, MonadExceptOf.throw]

/-- A member's text is its quoted name, a colon and the text of its value. -/
theorem memberText_eq_ok {m : Text × Except NonFinite Text} {w : Text}
    (written : memberText m = .ok w) :
    ∃ u, m.2 = .ok u ∧ w = canonicalString m.1 ++ Text.ofString ":" ++ u := by
  rcases m with ⟨name, _ | u⟩
  · simp [memberText, bind, Except.bind] at written
  · exact ⟨u, rfl, (Except.ok.inj written).symm⟩

mutual

/-- A value has canonical text exactly when every double in it is finite. -/
theorem canonical_ok_iff : (v : Json) → ((∃ t, v.canonical = .ok t) ↔ v.finite = true)
  | .null => by simp [canonical, finite, pure, Except.pure]
  | .bool _ => by simp [canonical, finite, pure, Except.pure]
  | .int _ => by simp [canonical, finite, pure, Except.pure]
  | .float x => by
    simp only [canonical_float_eq_ok_iff, finite, Option.isSome_iff_exists]
  | .str _ => by simp [canonical, finite, pure, Except.pure]
  | .arr items => by
    rw [finite, ← canonicalItems_ok_iff items, canonical_arr, Except.map_isOk_iff]
  | .obj ms => by
    rw [finite, ← canonicalMembers_ok_iff ms, canonical_obj, Except.map_isOk_iff, mapM_isOk_iff]
    -- sorting keeps the members, and a member has a text exactly when its value does
    apply forall_congr'
    rintro ⟨name, result⟩
    rw [sortMembers, List.mem_mergeSort]
    apply imp_congr_right
    intro _
    cases result <;> simp [memberText, bind, Except.bind, pure, Except.pure]

theorem canonicalItems_ok_iff :
    (xs : List Json) → ((∃ ts, canonicalItems xs = .ok ts) ↔ finiteItems xs = true)
  | [] => by simp [canonicalItems, finiteItems, pure, Except.pure]
  | x :: xs => by
    rw [finiteItems, Bool.and_eq_true, ← canonical_ok_iff x, ← canonicalItems_ok_iff xs]
    cases head : x.canonical <;> cases tail : canonicalItems xs <;>
      simp [canonicalItems, head, tail, bind, Except.bind, pure, Except.pure]

theorem canonicalMembers_ok_iff : (ms : List (Text × Json)) →
    ((∀ m ∈ canonicalMembers ms, ∃ t, m.2 = .ok t) ↔ finiteMembers ms = true)
  | [] => by simp [canonicalMembers, finiteMembers]
  | (name, v) :: ms => by
    rw [finiteMembers, Bool.and_eq_true, ← canonical_ok_iff v, ← canonicalMembers_ok_iff ms]
    simp [canonicalMembers]

end

/-! ### Canonical bytes

Each encoding is the UTF-8 form of the canonical text, with its own failures. Later proofs rewrite
with these equations and never unfold the encoders. -/

/-- A value's canonical bytes are the UTF-8 form of its canonical text; a value with a double
that is not finite has none. -/
theorem canonicalBytes_eq (v : Json) :
    v.canonicalBytes =
      match v.canonical with
      | .ok t => (Text.utf8 t).mapError CanonicalError.surrogates
      | .error e => .error (.nonFinite e.value) := by
  unfold canonicalBytes canonicalText
  cases v.canonical with
  | error e => rfl
  | ok t =>
    dsimp only [bind, Except.bind]
    cases Text.utf8 t <;> rfl

/-- What a raw fingerprint digests of a value: the octets of its canonical text. -/
theorem encodedBytes_eq (v : Json) :
    v.encodedBytes =
      match v.canonical with
      | .ok t => t.encoded
      | .error e => .error (.nonFinite e.value) := by
  unfold encodedBytes canonicalBytes canonicalText Text.encoded
  cases v.canonical with
  | error e => rfl
  | ok t =>
    dsimp only [bind, Except.bind]
    cases Text.utf8 t <;> rfl

/-- A value's canonical text, kept when it has octets. -/
theorem encodableText_eq (v : Json) :
    v.encodableText =
      match v.canonical with
      | .ok t => t.encoded.map fun _ => t
      | .error e => .error (.nonFinite e.value) := by
  unfold encodableText canonicalText Text.encoded
  cases v.canonical with
  | error e => rfl
  | ok t =>
    dsimp only [bind, Except.bind, Except.mapError]
    cases Text.utf8 t <;> rfl

end Json

end HostInventory
