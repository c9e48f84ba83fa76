import Mathlib.Data.List.TakeWhile
import StoryPlayer.Proofs.Json.Spelled

/-!
# Objects of texts

An object of two texts is read with whatever blanks between its tokens. Where the second text is cut
off, the object is not read, since a quote is missing. What is left behind the cut is no object with
fields either: a field starts with a quote that stands behind a brace, and here every quote but the
last stands behind a backslash.
-/

namespace StoryPlayer.Json

/-- Tokens with blanks in front of each, and then `rest`. The blanks are those that do not end a
line. -/
inductive Spaced : List Text → Text → Text → Prop
  | nil {rest : Text} : Spaced [] rest rest
  | cons {gap token : Text} {tokens : List Text} {rest w : Text}
    (hgap : ∀ c ∈ gap, c = ' ' ∨ c = '\t') (h : Spaced tokens rest w) :
    Spaced (token :: tokens) rest (gap ++ (token ++ w))

/-- A text that needs no escapes, in quotes. -/
def quote (t : Text) : Text :=
  '"' :: (t ++ ['"'])

/-- The tokens of an object of two texts up to the quote that opens the second one. -/
def openingOf (first value second : Text) : List Text :=
  [['\x7b'], quote first, [':'], quote value, [','], quote second, [':'], ['"']]

section

variable {tokens : List Text} {rest w : Text}

theorem Spaced.forall_mem {p : Char → Bool} (h : Spaced tokens rest w) (hspace : p ' ' = true)
    (htab : p '\t' = true) (htokens : (tokens.all fun token => token.all p) = true)
    (hrest : ∀ c ∈ rest, p c = true) : ∀ c ∈ w, p c = true := by
  induction h with
  | nil => exact hrest
  | cons hgap h ih =>
    rw [List.all_cons, Bool.and_eq_true] at htokens
    rw [List.forall_mem_append, List.forall_mem_append]
    refine ⟨fun c hc => ?_, List.all_eq_true.mp htokens.1, ih htokens.2 hrest⟩
    rcases hgap c hc with rfl | rfl
    · exact hspace
    · exact htab

/-- The tokens do not depend on what is behind them. -/
theorem Spaced.exists_front (h : Spaced tokens rest w) :
    ∃ front, w = front ++ rest ∧ ∀ rest', Spaced tokens rest' (front ++ rest') := by
  induction h with
  | nil => exact ⟨[], rfl, fun rest' => .nil⟩
  | @cons gap token tokens rest w hgap h ih =>
    obtain ⟨front, rfl, hfront⟩ := ih
    refine ⟨gap ++ (token ++ front), by simp, fun rest' => ?_⟩
    have hcons : Spaced (token :: tokens) rest' (gap ++ (token ++ (front ++ rest'))) :=
      .cons hgap (hfront rest')
    rwa [← List.append_assoc token, ← List.append_assoc gap] at hcons

end

/-! ## Fields that are there -/

theorem skip_gap {gap : Text} (hgap : ∀ c ∈ gap, c = ' ' ∨ c = '\t') (t : Text) :
    skip (gap ++ t) = skip t := by
  induction gap with
  | nil => rfl
  | cons c gap ih =>
    rw [List.forall_mem_cons] at hgap
    have hc : isSpace c = true := by rcases hgap.1 with rfl | rfl <;> decide
    rw [List.cons_append, skip, List.dropWhile_cons_of_pos hc]
    exact ih hgap.2

theorem Spaced.exists_skip_eq {c : Char} {token rest w : Text} {tokens : List Text}
    (h : Spaced ((c :: token) :: tokens) rest w) (hc : isSpace c = false) :
    ∃ w', skip w = c :: (token ++ w') ∧ Spaced tokens rest w' := by
  cases h with
  | @cons gap _ _ _ w' hgap h =>
    refine ⟨w', ?_, h⟩
    rw [skip_gap hgap, List.cons_append, skip, List.dropWhile_cons_of_neg (by simp [hc])]

section

variable {depth fuel : Nat} {sofar : List (Text × Value)}
  {name body rest rest' value t tail more : Text} {f : Fault}

theorem readValue_quote (h : readText ('"' :: value) value = .ok (t, rest)) :
    readValue depth (fuel + 1) ('"' :: value) = .ok (.text t, rest) := by
  simp only [readValue, h]
  rfl

theorem readValue_quote_error (h : readText ('"' :: value) value = .error f) :
    readValue depth (fuel + 1) ('"' :: value) = .error f := by
  simp only [readValue, h]
  rfl

variable (hname : readText ('"' :: body) body = .ok (name, rest))
  (hcolon : skip rest = ':' :: rest') (hquote : skip rest' = '"' :: value)

include hname hcolon hquote

/-- A field that is a text, and others behind it. -/
theorem readFields_next (hvalue : readText ('"' :: value) value = .ok (t, tail))
    (hcomma : skip tail = ',' :: more) :
    readFields depth (fuel + 2) sofar ('"' :: body) =
      readFields depth (fuel + 1) (assign name (.text t) sofar) (skip more) := by
  rw [readFields]
  simp only [hname, hcolon, hquote, readValue_quote hvalue, hcomma]

theorem readFields_last (hvalue : readText ('"' :: value) value = .ok (t, tail))
    (hbrace : skip tail = '\x7d' :: more) :
    readFields depth (fuel + 2) sofar ('"' :: body) =
      .ok (assign name (.text t) sofar, more) := by
  rw [readFields]
  simp only [hname, hcolon, hquote, readValue_quote hvalue, hbrace]

theorem readFields_error (hvalue : readText ('"' :: value) value = .error f) :
    readFields depth (fuel + 2) sofar ('"' :: body) = .error f := by
  rw [readFields]
  simp only [hname, hcolon, hquote, readValue_quote_error hvalue]

end

section

variable {w inner body rest : Text} (hbrace : skip w = '\x7b' :: inner)
  (hquote : skip inner = '"' :: body)

include hbrace

theorem read_of_brace : read w = readWhole w := by
  unfold read
  split
  · cases hbrace
  · rfl

theorem exists_fuel : ∃ fuel, 2 * w.length + 2 = fuel + 3 + 1 := by
  cases w with
  | nil => cases hbrace
  | cons c w => exact ⟨2 * w.length, rfl⟩

include hquote

theorem readValue_of_brace (depth fuel : Nat) :
    readValue (depth + 1) (fuel + 1) (skip w) =
      (readFields depth fuel [] ('"' :: body)).map fun (fs, more) => (.object fs, more) := by
  rw [hbrace]
  simp only [readValue, hquote]
  rfl

theorem read_object_error {f : Fault}
    (h : ∀ fuel, readFields 959 (fuel + 3) [] ('"' :: body) = .error f) : read w = .error f := by
  obtain ⟨fuel, hfuel⟩ := exists_fuel hbrace
  have hvalue : readValue Limit.maxDepth (2 * w.length + 2) (skip w) = .error f := by
    rw [hfuel]
    refine (readValue_of_brace hbrace hquote 959 (fuel + 3)).trans ?_
    rw [h fuel]
    rfl
  rw [read_of_brace hbrace, readWhole, hvalue]

theorem read_object {fields : List (Text × Value)}
    (h : ∀ fuel, readFields 959 (fuel + 3) [] ('"' :: body) = .ok (fields, rest))
    (hend : skip rest = []) : read w = .ok (.object fields) := by
  obtain ⟨fuel, hfuel⟩ := exists_fuel hbrace
  have hvalue : readValue Limit.maxDepth (2 * w.length + 2) (skip w) =
      .ok (.object fields, rest) := by
    rw [hfuel]
    refine (readValue_of_brace hbrace hquote 959 (fuel + 3)).trans ?_
    rw [h fuel]
    rfl
  rw [read_of_brace hbrace, readWhole, hvalue]
  simp only [hend]

end

/-- An object of two texts is read as far as its second text is, and as a whole when that is closed
and nothing but the brace is left. -/
theorem Spaced.read_opening {first value second body w : Text}
    (hfirst : first.any needsEscape = false) (hvalue : value.any needsEscape = false)
    (hsecond : second.any needsEscape = false)
    (h : Spaced (openingOf first value second) body w) :
    (∀ f, readText ('"' :: body) body = .error f → read w = .error f) ∧
      (∀ t tail more, readText ('"' :: body) body = .ok (t, tail) → skip tail = '\x7d' :: more →
        skip more = [] →
        read w = .ok (.object (assign second (.text t) (assign first (.text value) [])))) := by
  have hread : ∀ {t : Text}, t.any needsEscape = false → ∀ rest : Text,
      readText ('"' :: (t ++ ['"'] ++ rest)) (t ++ ['"'] ++ rest) = .ok (t, rest) := by
    intro t ht rest
    rw [List.append_assoc]
    exact (spelled_self ht).readText_closed _ rest
  obtain ⟨w₁, hbrace, h⟩ := h.exists_skip_eq rfl
  obtain ⟨w₂, hquote₁, h⟩ := h.exists_skip_eq rfl
  obtain ⟨w₃, hcolon₁, h⟩ := h.exists_skip_eq rfl
  obtain ⟨w₄, hvalue₁, h⟩ := h.exists_skip_eq rfl
  obtain ⟨w₅, hcomma, h⟩ := h.exists_skip_eq rfl
  obtain ⟨w₆, hquote₂, h⟩ := h.exists_skip_eq rfl
  obtain ⟨w₇, hcolon₂, h⟩ := h.exists_skip_eq rfl
  obtain ⟨w₈, hvalue₂, h⟩ := h.exists_skip_eq rfl
  cases h
  have hfields : ∀ fuel, readFields 959 (fuel + 3) [] ('"' :: (first ++ ['"'] ++ w₂)) =
      readFields 959 (fuel + 2) (assign first (.text value) [])
        ('"' :: (second ++ ['"'] ++ w₆)) := by
    intro fuel
    rw [← hquote₂]
    exact readFields_next (hread hfirst w₂) hcolon₁ hvalue₁ (hread hvalue w₄) hcomma
  constructor
  · intro f hf
    refine read_object_error hbrace hquote₁ fun fuel => (hfields fuel).trans ?_
    exact readFields_error (hread hsecond w₆) hcolon₂ hvalue₂ hf
  · intro t tail more ht hclose hend
    refine read_object hbrace hquote₁ (fun fuel => (hfields fuel).trans ?_) hend
    exact readFields_last (hread hsecond w₆) hcolon₂ hvalue₂ ht hclose

/-! ## Fields that are not there -/

section

variable {depth fuel : Nat} {t rest : Text}

theorem named?_ne_object {v : Value} (h : named? t = some (v, rest))
    (fields : List (Text × Value)) : v ≠ .object fields := by
  simp only [named?, Option.orElse_eq_orElse, Option.orElse_eq_or, Option.or_eq_some_iff,
    Option.map_eq_some_iff, Prod.mk.injEq] at h
  grind

theorem number?_ne_object {negative : Bool} {v : Value}
    (h : number? negative t = some (.ok v, rest)) (fields : List (Text × Value)) :
    v ≠ .object fields := by
  simp only [number?, Option.map_eq_some_iff] at h
  obtain ⟨⟨ds, left⟩, -, h⟩ := h
  dsimp only at h
  split at h
  · cases h
    simp
  split at h
  · simp only [integer, Prod.mk.injEq] at h
    grind
  · cases h
    simp

theorem scalar_ne_object {v : Value} (h : scalar t = .ok (v, rest))
    (fields : List (Text × Value)) : v ≠ .object fields := by
  unfold scalar at h
  split at h
  next found hnamed =>
    cases h
    exact named?_ne_object hnamed fields
  next hnamed =>
    dsimp only at h
    split at h
    next read left hnumber =>
      cases read with
      | error f => cases h
      | ok found =>
        cases h
        split at hnumber <;> exact number?_ne_object hnumber fields
    next => cases h

theorem exists_of_map_eq_ok {α β : Type} {f : α → β} {r : Except Fault α} {b : β}
    (h : r.map f = .ok b) : ∃ a, r = .ok a ∧ f a = b := by
  cases r with
  | error e => cases h
  | ok a =>
    cases h
    exact ⟨a, rfl, rfl⟩

/-- Fields that are read start with the quote of a name, and another quote closes the name. -/
theorem readFields_eq_ok {sofar : List (Text × Value)} {r : List (Text × Value) × Text}
    (h : readFields depth fuel sofar t = .ok r) : ∃ body, t = '"' :: body ∧ '"' ∈ body := by
  cases fuel with
  | zero =>
    rw [readFields] at h
    cases h
  | succ fuel =>
    rw [readFields.eq_def] at h
    dsimp only at h
    split at h
    next body =>
      split at h
      next hname => cases h
      next name left hname => exact ⟨body, rfl, mem_of_readText_eq_ok hname⟩
    next => cases h

/-- An object that has fields starts with them. -/
theorem readValue_eq_ok_object {fields : List (Text × Value)} (hfields : fields ≠ [])
    (h : readValue depth fuel t = .ok (.object fields, rest)) :
    ∃ inner body, t = '\x7b' :: inner ∧ skip inner = '"' :: body ∧ '"' ∈ body := by
  cases fuel with
  | zero =>
    rw [readValue] at h
    cases h
  | succ fuel =>
    rw [readValue.eq_def] at h
    dsimp only at h
    split at h
    · obtain ⟨found, -, hvalue⟩ := exists_of_map_eq_ok h
      cases hvalue
    · cases h
    · split at h
      · cases h
      · obtain ⟨found, -, hvalue⟩ := exists_of_map_eq_ok h
        cases hvalue
    · cases h
    · split at h
      · cases h
        exact absurd rfl hfields
      next inner _ _ _ =>
        obtain ⟨found, hread, -⟩ := exists_of_map_eq_ok h
        obtain ⟨body, hbody⟩ := readFields_eq_ok hread
        exact ⟨inner, body, rfl, hbody⟩
    · exact absurd rfl (scalar_ne_object h fields)

/-- In a text that is read as an object with fields, a quote that stands behind no backslash has
another behind it. -/
theorem exists_of_read_eq_object {fields : List (Text × Value)} (hfields : fields ≠ [])
    (h : read t = .ok (.object fields)) :
    ∃ u v, t = u ++ '"' :: v ∧ '"' ∈ v ∧ u.getLast? ≠ some '\\' := by
  unfold Json.read at h
  split at h
  · cases h
  unfold readWhole at h
  split at h
  · cases h
  next value rest hvalue =>
    split at h
    · cases h
      obtain ⟨inner, body, hbrace, hbody, hquote⟩ := readValue_eq_ok_object hfields hvalue
      have hfront : t.takeWhile isSpace ++ '\x7b' :: inner = t := by
        rw [← hbrace]
        exact List.takeWhile_append_dropWhile
      have hinner : inner.takeWhile isSpace ++ '"' :: body = inner := by
        rw [← hbody]
        exact List.takeWhile_append_dropWhile
      refine ⟨t.takeWhile isSpace ++ '\x7b' :: inner.takeWhile isSpace, body, ?_, hquote, ?_⟩
      · rw [List.append_assoc, List.cons_append, hinner, hfront]
      · intro hlast
        rw [List.getLast?_append_cons] at hlast
        rcases List.mem_cons.mp (List.mem_of_getLast? hlast) with hback | hback
        · cases hback
        · cases List.mem_takeWhile_imp hback
    · cases h
end

/-- Where every quote but perhaps the last one is guarded, no field can start. -/
theorem Guarded.read_ne_object {x z : Text} (hx : Guarded x) (hz : '"' ∉ z)
    {fields : List (Text × Value)} (hfields : fields ≠ []) :
    Json.read x ≠ .ok (.object fields) ∧ Json.read (x ++ '"' :: z) ≠ .ok (.object fields) := by
  constructor
  · intro h
    obtain ⟨u, v, rfl, -, hlast⟩ := exists_of_read_eq_object hfields h
    exact hlast (hx u v rfl)
  · intro h
    obtain ⟨u, v, hcut, hv, hlast⟩ := exists_of_read_eq_object hfields h
    rcases List.append_eq_append_iff.mp hcut with ⟨front, rfl, hfront⟩ | ⟨back, rfl, hback⟩
    · cases front with
      | nil =>
        obtain ⟨-, rfl⟩ := List.cons.inj hfront
        exact hz hv
      | cons d front =>
        obtain ⟨-, rfl⟩ := List.cons.inj hfront
        simp at hz
    · cases back with
      | nil =>
        obtain ⟨-, rfl⟩ := List.cons.inj hback
        exact hz hv
      | cons d back =>
        obtain ⟨rfl, -⟩ := List.cons.inj hback
        exact hlast (hx u back rfl)

end StoryPlayer.Json
