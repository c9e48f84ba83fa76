import StoryPlayer.Proofs.Json.Numbers
import StoryPlayer.Proofs.Json.Spelled

/-!
# Values that are written and read

A value that is written with a line for every item and field is read back, with two exceptions. A
floating-point number that is not finite has become `null`, and a whole number may have more digits
than the reader takes, which makes the whole text unreadable. `Value.reread` says what comes back.
-/

namespace StoryPlayer.Json

/-! ## What comes back -/

mutual

/-- Whether the text of a value can be read: its texts can be encoded, no object has a name twice,
and lists and objects lie at most `depth` deep in one another. -/
def Value.Storable (depth : ℕ) : Value → Prop
  | .text t => Text.isWhole t = true
  | .list vs => 0 < depth ∧ itemsStorable (depth - 1) vs
  | .object fs => 0 < depth ∧ fieldsStorable (depth - 1) fs ∧ (fs.map Prod.fst).Nodup
  | _ => True

/-- Whether the texts of all items of a list can be read. -/
def itemsStorable (depth : ℕ) : List Value → Prop
  | [] => True
  | v :: vs => v.Storable depth ∧ itemsStorable depth vs

/-- Whether the texts of all fields of an object can be read. -/
def fieldsStorable (depth : ℕ) : List (Text × Value) → Prop
  | [] => True
  | (n, v) :: fs => Text.isWhole n = true ∧ v.Storable depth ∧ fieldsStorable depth fs

end

mutual

/-- What is read where a value was written, or the limit that the text of it runs into. -/
def Value.reread : Value → Except Fault Value
  | .int n =>
    let digits := Text.ofNat n.natAbs
    if Limit.maxDigits < digits.length then .error (.beyond (.digits digits.length))
    else .ok (.int n)
  | .float x => .ok (if x.isFinite then .float x else .null)
  | .list vs => (rereadItems vs).map .list
  | .object fs => (rereadFields fs).map .object
  | v => .ok v

/-- What is read where the items of a list were written. -/
def rereadItems : List Value → Except Fault (List Value)
  | [] => .ok []
  | v :: vs => do return (← v.reread) :: (← rereadItems vs)

/-- What is read where the fields of an object were written. -/
def rereadFields : List (Text × Value) → Except Fault (List (Text × Value))
  | [] => .ok []
  | (n, v) :: fs => do return (n, ← v.reread) :: (← rereadFields fs)

end

/-! ## The layout -/

theorem ends_lineBreak (k : ℕ) (rest : Text) : Ends (lineBreak k ++ rest) := by
  refine ⟨?_, by simp [lineBreak], ?_⟩ <;> rintro c ⟨⟩ <;> decide

theorem ends_comma (rest : Text) : Ends (',' :: rest) := by
  refine ⟨?_, by simp, ?_⟩ <;> rintro c ⟨⟩ <;> decide

theorem ends_nil : Ends [] := by
  refine ⟨?_, by simp, ?_⟩ <;> rintro c ⟨⟩

theorem skip_lineBreak (k : ℕ) (t : Text) : skip (lineBreak k ++ t) = skip t := by
  have hspaces : ∀ c ∈ lineBreak k, isSpace c = true := by
    intro c hc
    rcases List.mem_cons.mp hc with rfl | hc
    · rfl
    · rw [List.eq_of_mem_replicate hc]
      rfl
  rw [skip, List.dropWhile_append_of_pos hspaces]
  rfl

/-! ## Values that hold no other one -/

/-- Whether a character can start a value that is no text, list or object. -/
def startsScalar (c : Char) : Bool :=
  isDigit c || c == '-' || c == 'n' || c == 't' || c == 'f'

theorem exists_cons_ofInt (n : ℤ) :
    ∃ c more, Text.ofInt n = c :: more ∧ startsScalar c = true := by
  obtain ⟨c, cs, hcs⟩ := List.exists_cons_of_ne_nil (whole_ofNat n.natAbs).ne_nil
  have hc : isDigit c = true := isDigit_of_mem_ofNat (by rw [hcs]; exact List.mem_cons_self)
  rw [ofInt_eq, hcs]
  split
  · exact ⟨'-', c :: cs, rfl, rfl⟩
  · exact ⟨c, cs, rfl, by simp [startsScalar, hc]⟩

theorem exists_cons_writeFloat (x : Float) :
    ∃ c more, writeFloat x = c :: more ∧ startsScalar c = true := by
  unfold writeFloat
  split
  next hfinite =>
    obtain ⟨t, q, hdenotes, -, htext⟩ := exists_denotes_size hfinite
    obtain ⟨ds, more, -, hparts, hds, -, -⟩ := hdenotes false [] ends_nil
    obtain ⟨c, cs, rfl⟩ := List.exists_cons_of_ne_nil hds.ne_nil
    rw [List.append_nil] at hparts
    rw [htext, hparts]
    split
    · exact ⟨c, cs ++ more, rfl, by simp [startsScalar, hds.digits c List.mem_cons_self]⟩
    · exact ⟨'-', c :: cs ++ more, rfl, rfl⟩
  · exact ⟨'n', ['u', 'l', 'l'], rfl, rfl⟩

theorem readValue_of_startsScalar {c : Char} {t : Text} (hc : startsScalar c = true)
    (depth fuel : ℕ) : readValue depth (fuel + 1) (c :: t) = scalar (c :: t) := by
  rw [readValue.eq_def]
  dsimp only
  split <;> first | rfl | (rename_i heq; cases heq; cases hc)

section

variable {depth fuel : ℕ} {rest : Text}

theorem readValue_named (name : Text) {c : Char} {v : Value} (hc : startsScalar c = true)
    (h : ∀ rest, scalar (c :: name ++ rest) = .ok (v, rest)) :
    readValue depth (fuel + 1) (c :: name ++ rest) = .ok (v, rest) :=
  (readValue_of_startsScalar hc depth fuel).trans (h rest)

theorem readValue_ofInt (n : ℤ) (hrest : Ends rest) :
    readValue depth (fuel + 1) (Text.ofInt n ++ rest) =
      (Value.int n).reread.map fun v => (v, rest) := by
  obtain ⟨c, more, htext, hc⟩ := exists_cons_ofInt n
  have hscalar := scalar_ofInt n hrest
  rw [htext] at hscalar ⊢
  rw [List.cons_append, readValue_of_startsScalar hc]
  refine hscalar.trans ?_
  rw [Value.reread]
  split <;> rfl

theorem readValue_writeFloat (x : Float) (hrest : Ends rest) :
    readValue depth (fuel + 1) (writeFloat x ++ rest) =
      (Value.float x).reread.map fun v => (v, rest) := by
  obtain ⟨c, more, htext, hc⟩ := exists_cons_writeFloat x
  have hscalar : scalar (writeFloat x ++ rest) =
      .ok (if x.isFinite then .float x else .null, rest) := by
    split
    next hfinite => exact scalar_writeFloat hfinite hrest
    next hfinite =>
      rw [writeFloat, if_neg hfinite]
      rfl
  rw [htext] at hscalar ⊢
  exact (readValue_of_startsScalar hc depth fuel).trans hscalar

theorem readText_writeText {t : Text} (ht : Text.isWhole t = true) (rest : Text) :
    ∃ body, writeText t ++ rest = '"' :: body ∧ readText ('"' :: body) body = .ok (t, rest) := by
  refine ⟨t.flatMap escape ++ '"' :: rest, by simp [writeText], ?_⟩
  exact (spelled_escape ht).readText_closed _ rest

theorem readValue_writeText {t : Text} (ht : Text.isWhole t = true) :
    readValue depth (fuel + 1) (writeText t ++ rest) = .ok (.text t, rest) := by
  obtain ⟨body, hbody, hread⟩ := readText_writeText ht rest
  rw [hbody]
  simp only [readValue, hread]
  rfl

end

/-! ## Values that hold others -/

/-- A text starts with a token that closes nothing. -/
def Opens (t : Text) : Prop :=
  ∃ c more, t = c :: more ∧ isSpace c = false ∧ c ≠ ']' ∧ c ≠ '\x7d' ∧ c ≠ '\ufeff'

theorem Opens.skip {t : Text} (h : Opens t) : skip t = t := by
  obtain ⟨c, more, rfl, hspace, -⟩ := h
  exact List.dropWhile_cons_of_neg (by simp [hspace])

theorem opens_of_startsScalar {c : Char} {t : Text} (hc : startsScalar c = true) :
    Opens (c :: t) := by
  have hne : ∀ d, startsScalar d = false → c ≠ d := by
    rintro d hd rfl
    cases hc.symm.trans hd
  refine ⟨c, t, rfl, ?_, hne _ rfl, hne _ rfl, hne _ rfl⟩
  simp [isSpace, hne ' ' rfl, hne '\t' rfl, hne '\n' rfl, hne '\r' rfl]

theorem opens_indentedOnto (v : Value) (k : ℕ) (rest : Text) : Opens (v.indentedOnto k rest) := by
  cases v with
  | null => exact opens_of_startsScalar rfl
  | bool b => cases b <;> exact opens_of_startsScalar rfl
  | int n =>
    obtain ⟨c, more, htext, hc⟩ := exists_cons_ofInt n
    change Opens (Text.ofInt n ++ rest)
    rw [htext]
    exact opens_of_startsScalar hc
  | float x =>
    obtain ⟨c, more, htext, hc⟩ := exists_cons_writeFloat x
    change Opens (writeFloat x ++ rest)
    rw [htext]
    exact opens_of_startsScalar hc
  | text t => exact ⟨'"', _, rfl, rfl, by decide⟩
  | list vs => cases vs <;> exact ⟨'[', _, rfl, rfl, by decide⟩
  | object fs =>
    rcases fs with _ | ⟨⟨n, v⟩, fs⟩ <;> exact ⟨'\x7b', _, rfl, rfl, by decide⟩

mutual

theorem length_le_indentedOnto (k : ℕ) (rest : Text) :
    ∀ v : Value, rest.length ≤ (v.indentedOnto k rest).length
  | .null | .int _ | .float _ | .text _ => by simp [Value.indentedOnto]
  | .bool b => by simp [Value.indentedOnto]
  | .list [] | .object [] => by simp [Value.indentedOnto]; omega
  | .list (v :: vs) => by
    have hitems := length_le_indentedItemsOnto k rest vs
    have hvalue := length_le_indentedOnto (k + 1) (indentedItemsOnto k rest vs) v
    simp only [Value.indentedOnto, List.length_cons, List.length_append]
    omega
  | .object ((n, v) :: fs) => by
    have hfields := length_le_indentedFieldsOnto k rest fs
    have hvalue := length_le_indentedOnto (k + 1) (indentedFieldsOnto k rest fs) v
    simp only [Value.indentedOnto, List.length_cons, List.length_append]
    omega

theorem length_le_indentedItemsOnto (k : ℕ) (rest : Text) :
    ∀ vs : List Value, rest.length ≤ (indentedItemsOnto k rest vs).length
  | [] => by simp [indentedItemsOnto]; omega
  | v :: vs => by
    have hitems := length_le_indentedItemsOnto k rest vs
    have hvalue := length_le_indentedOnto (k + 1) (indentedItemsOnto k rest vs) v
    simp only [indentedItemsOnto, List.length_cons, List.length_append]
    omega

theorem length_le_indentedFieldsOnto (k : ℕ) (rest : Text) :
    ∀ fs : List (Text × Value), rest.length ≤ (indentedFieldsOnto k rest fs).length
  | [] => by simp [indentedFieldsOnto]; omega
  | (n, v) :: fs => by
    have hfields := length_le_indentedFieldsOnto k rest fs
    have hvalue := length_le_indentedOnto (k + 1) (indentedFieldsOnto k rest fs) v
    simp only [indentedFieldsOnto, List.length_cons, List.length_append]
    omega

end

section

variable {depth fuel : ℕ} {t inner rest more : Text} {r : Except Fault Value}

theorem readValue_list (hinner : skip t = inner) (hopens : Opens inner) :
    readValue (depth + 1) (fuel + 1) ('[' :: t) =
      (readItems depth fuel inner).map fun (vs, more) => (.list vs, more) := by
  obtain ⟨c, more, rfl, -, hc, -⟩ := hopens
  rw [readValue, hinner]
  split
  next heq => cases heq; exact absurd rfl hc
  next => rfl

theorem readValue_object (hinner : skip t = '"' :: inner) :
    readValue (depth + 1) (fuel + 1) ('\x7b' :: t) =
      (readFields depth fuel [] ('"' :: inner)).map fun (fs, more) => (.object fs, more) := by
  simp only [readValue, hinner]
  rfl

theorem readItems_last (hread : readValue depth fuel t = r.map fun v => (v, rest))
    (hrest : skip rest = ']' :: more) :
    readItems depth (fuel + 1) t = r.map fun v => ([v], more) := by
  cases r with
  | error e => simp only [readItems, hread, Except.map]
  | ok v => simp only [readItems, hread, Except.map, hrest]

theorem readItems_next (hread : readValue depth fuel t = r.map fun v => (v, rest))
    (hrest : skip rest = ',' :: more) :
    readItems depth (fuel + 1) t =
      r.bind fun v => (readItems depth fuel (skip more)).map fun (vs, more) => (v :: vs, more) := by
  cases r with
  | error e =>
    simp only [readItems, hread, Except.map]
    rfl
  | ok v =>
    simp only [readItems, hread, Except.map, hrest]
    rfl

variable {name body left left' : Text} {sofar : List (Text × Value)}
  (hname : readText ('"' :: body) body = .ok (name, left)) (hcolon : skip left = ':' :: left')
  (hread : readValue depth fuel (skip left') = r.map fun v => (v, rest))
include hname hcolon hread

theorem readFields_field_last (hrest : skip rest = '\x7d' :: more) :
    readFields depth (fuel + 1) sofar ('"' :: body) =
      r.map fun v => (assign name v sofar, more) := by
  cases r with
  | error e => simp only [readFields, hname, hcolon, hread, Except.map]
  | ok v => simp only [readFields, hname, hcolon, hread, Except.map, hrest]

theorem readFields_field_next (hrest : skip rest = ',' :: more) :
    readFields depth (fuel + 1) sofar ('"' :: body) =
      r.bind fun v => readFields depth fuel (assign name v sofar) (skip more) := by
  cases r with
  | error e =>
    simp only [readFields, hname, hcolon, hread, Except.map]
    rfl
  | ok v =>
    simp only [readFields, hname, hcolon, hread, Except.map, hrest]
    rfl

end

theorem assign_of_notMem {name : Text} {v : Value} {fields : List (Text × Value)}
    (h : name ∉ fields.map Prod.fst) : assign name v fields = fields ++ [(name, v)] := by
  induction fields with
  | nil => rfl
  | cons f fields ih =>
    obtain ⟨n, w⟩ := f
    rw [List.map_cons, List.mem_cons, not_or] at h
    rw [assign, if_neg (Ne.symm h.1), ih h.2]
    rfl

theorem rereadItems_cons (v : Value) (vs : List Value) :
    rereadItems (v :: vs) = v.reread.bind fun w => (rereadItems vs).map (w :: ·) := by
  rw [rereadItems]
  cases v.reread <;> cases rereadItems vs <;> rfl

theorem rereadFields_cons (n : Text) (v : Value) (fs : List (Text × Value)) :
    rereadFields ((n, v) :: fs) = v.reread.bind fun w => (rereadFields fs).map ((n, w) :: ·) := by
  rw [rereadFields]
  cases v.reread <;> cases rereadFields fs <;> rfl

/-! ## Reading with enough fuel

Every call of the reader hands on one unit of fuel less, and a value takes no more than two for
every character of its text. -/

section

variable (fuel : ℕ)

/-- With this fuel, a value is read up to what follows it. -/
def ReadsValues : Prop :=
  ∀ (v : Value) (depth k : ℕ) (rest : Text), v.Storable depth → Ends rest →
    2 * (v.indentedOnto k rest).length < fuel →
      readValue depth fuel (v.indentedOnto k rest) = v.reread.map fun w => (w, rest)

/-- With this fuel, the items of a list are read up to what follows its bracket. -/
def ReadsItems : Prop :=
  ∀ (v : Value) (vs : List Value) (depth k : ℕ) (rest : Text), itemsStorable depth (v :: vs) →
    2 * (v.indentedOnto (k + 1) (indentedItemsOnto k rest vs)).length + 1 < fuel →
      readItems depth fuel (v.indentedOnto (k + 1) (indentedItemsOnto k rest vs)) =
        (rereadItems (v :: vs)).map fun ws => (ws, rest)

/-- With this fuel, the fields of an object are read up to what follows its brace, and put behind
others. -/
def ReadsFields : Prop :=
  ∀ (n : Text) (v : Value) (fs sofar : List (Text × Value)) (depth k : ℕ) (rest : Text),
    fieldsStorable depth ((n, v) :: fs) →
      (sofar.map Prod.fst ++ n :: fs.map Prod.fst).Nodup →
      2 * (v.indentedOnto (k + 1) (indentedFieldsOnto k rest fs)).length + 1 < fuel →
        readFields depth fuel sofar
            (writeText n ++ ':' :: ' ' :: v.indentedOnto (k + 1) (indentedFieldsOnto k rest fs)) =
          (rereadFields ((n, v) :: fs)).map fun ws => (sofar ++ ws, rest)

end

section

variable {fuel : ℕ}

theorem ReadsItems.list (h : ReadsItems fuel) {v : Value} {vs : List Value} {depth k : ℕ}
    {rest : Text} (hv : itemsStorable depth (v :: vs))
    (hfuel : 2 * ((Value.list (v :: vs)).indentedOnto k rest).length < fuel + 1) :
    readValue (depth + 1) (fuel + 1) ((Value.list (v :: vs)).indentedOnto k rest) =
      (Value.list (v :: vs)).reread.map fun w => (w, rest) := by
  have hopens := opens_indentedOnto v (k + 1) (indentedItemsOnto k rest vs)
  simp only [Value.indentedOnto, List.length_cons, List.length_append] at hfuel
  rw [Value.indentedOnto, List.cons_append,
    readValue_list ((skip_lineBreak _ _).trans hopens.skip) hopens,
    h v vs depth k rest hv (by omega), Value.reread]
  cases rereadItems (v :: vs) <;> rfl

theorem ReadsFields.object (h : ReadsFields fuel) {n : Text} {v : Value} {fs : List (Text × Value)}
    {depth k : ℕ} {rest : Text} (hfs : fieldsStorable depth ((n, v) :: fs))
    (hnames : (n :: fs.map Prod.fst).Nodup)
    (hfuel : 2 * ((Value.object ((n, v) :: fs)).indentedOnto k rest).length < fuel + 1) :
    readValue (depth + 1) (fuel + 1) ((Value.object ((n, v) :: fs)).indentedOnto k rest) =
      (Value.object ((n, v) :: fs)).reread.map fun w => (w, rest) := by
  simp only [Value.indentedOnto, List.length_cons, List.length_append] at hfuel
  have hfields := h n v fs [] depth k rest hfs hnames (by omega)
  have htext : (Value.object ((n, v) :: fs)).indentedOnto k rest =
      '\x7b' :: (lineBreak (k + 1) ++ (writeText n ++ ':' :: ' ' ::
        v.indentedOnto (k + 1) (indentedFieldsOnto k rest fs))) := by
    simp [Value.indentedOnto]
  obtain ⟨body, hbody, -⟩ := readText_writeText hfs.1
    (':' :: ' ' :: v.indentedOnto (k + 1) (indentedFieldsOnto k rest fs))
  rw [hbody] at htext hfields
  rw [htext, readValue_object (skip_lineBreak (k + 1) _), hfields, Value.reread]
  cases rereadFields ((n, v) :: fs) <;> rfl

theorem readsValues_succ (hitems : ReadsItems fuel) (hfields : ReadsFields fuel) :
    ReadsValues (fuel + 1) := by
  intro v depth k rest hv hrest hfuel
  cases v with
  | null => exact readValue_named ['u', 'l', 'l'] rfl fun _ => rfl
  | bool b =>
    cases b with
    | true => exact readValue_named ['r', 'u', 'e'] rfl fun _ => rfl
    | false => exact readValue_named ['a', 'l', 's', 'e'] rfl fun _ => rfl
  | int n => exact readValue_ofInt n hrest
  | float x => exact readValue_writeFloat x hrest
  | text t =>
    rw [Value.Storable] at hv
    exact readValue_writeText hv
  | list vs =>
    rw [Value.Storable] at hv
    obtain ⟨depth, rfl⟩ := Nat.exists_eq_succ_of_ne_zero hv.1.ne'
    cases vs with
    | nil => rfl
    | cons v vs => exact hitems.list hv.2 hfuel
  | object fs =>
    rw [Value.Storable] at hv
    obtain ⟨depth, rfl⟩ := Nat.exists_eq_succ_of_ne_zero hv.1.ne'
    rcases fs with _ | ⟨⟨n, v⟩, fs⟩
    · rfl
    · exact hfields.object hv.2.1 hv.2.2 hfuel

theorem readsItems_succ (hvalues : ReadsValues fuel) (hitems : ReadsItems fuel) :
    ReadsItems (fuel + 1) := by
  intro v vs depth k rest hvs hfuel
  rw [itemsStorable] at hvs
  have hlength := length_le_indentedOnto (k + 1) (indentedItemsOnto k rest vs) v
  cases vs with
  | nil =>
    have hread := hvalues v depth (k + 1) _ hvs.1 (ends_lineBreak k (']' :: rest)) (by
      rw [indentedItemsOnto] at hfuel
      omega)
    rw [indentedItemsOnto, readItems_last hread (skip_lineBreak k _), rereadItems_cons]
    cases v.reread <;> rfl
  | cons v' vs =>
    have hrest := hitems v' vs depth k rest hvs.2
    have hskip := (opens_indentedOnto v' (k + 1) (indentedItemsOnto k rest vs)).skip
    set more := v'.indentedOnto (k + 1) (indentedItemsOnto k rest vs)
    have hnext : indentedItemsOnto k rest (v' :: vs) = ',' :: (lineBreak (k + 1) ++ more) := rfl
    rw [hnext] at hlength hfuel ⊢
    rw [List.length_cons, List.length_append] at hlength
    have hread :=
      hvalues v depth (k + 1) _ hvs.1 (ends_comma (lineBreak (k + 1) ++ more)) (by omega)
    rw [readItems_next hread rfl, skip_lineBreak, hskip, hrest (by omega), rereadItems_cons v]
    cases v.reread <;> cases rereadItems (v' :: vs) <;> rfl

theorem readsFields_succ (hvalues : ReadsValues fuel) (hfields : ReadsFields fuel) :
    ReadsFields (fuel + 1) := by
  intro n v fs sofar depth k rest hfs hnames hfuel
  rw [fieldsStorable] at hfs
  obtain ⟨hn, hv, hfs⟩ := hfs
  have hlength := length_le_indentedOnto (k + 1) (indentedFieldsOnto k rest fs) v
  obtain ⟨body, hbody, hname⟩ := readText_writeText hn
    (':' :: ' ' :: v.indentedOnto (k + 1) (indentedFieldsOnto k rest fs))
  have hassign (w : Value) : assign n w sofar = sofar ++ [(n, w)] := by
    refine assign_of_notMem fun hmem => ?_
    exact (List.nodup_append.mp hnames).2.2 n hmem n List.mem_cons_self rfl
  have hvalue : skip (' ' :: v.indentedOnto (k + 1) (indentedFieldsOnto k rest fs)) =
      v.indentedOnto (k + 1) (indentedFieldsOnto k rest fs) := (opens_indentedOnto v _ _).skip
  rw [hbody, rereadFields_cons]
  cases fs with
  | nil =>
    have hread := hvalues v depth (k + 1) (lineBreak k ++ '\x7d' :: rest) hv
      (ends_lineBreak k ('\x7d' :: rest)) (by rw [indentedFieldsOnto] at hfuel; omega)
    rw [indentedFieldsOnto] at hvalue hname
    rw [← hvalue] at hread
    rw [readFields_field_last hname rfl hread (skip_lineBreak k _)]
    cases v.reread with
    | error e => rfl
    | ok w => exact congrArg (fun fields => Except.ok (fields, rest)) (hassign w)
  | cons field fs =>
    obtain ⟨n', v'⟩ := field
    obtain ⟨body', hbody', -⟩ := readText_writeText hfs.1
      (':' :: ' ' :: v'.indentedOnto (k + 1) (indentedFieldsOnto k rest fs))
    have hnext : indentedFieldsOnto k rest ((n', v') :: fs) =
        ',' :: (lineBreak (k + 1) ++ (writeText n' ++ ':' :: ' ' ::
          v'.indentedOnto (k + 1) (indentedFieldsOnto k rest fs))) := by
      simp [indentedFieldsOnto]
    have hrest (w : Value) := hfields n' v' fs (sofar ++ [(n, w)]) depth k rest hfs
      (by simpa using hnames) (by
        rw [hnext] at hlength hfuel
        simp only [List.length_cons, List.length_append] at hlength
        omega)
    have hread := hvalues v depth (k + 1) (indentedFieldsOnto k rest ((n', v') :: fs)) hv
      (by rw [hnext]; exact ends_comma _) (by omega)
    rw [← hvalue] at hread
    rw [hbody'] at hnext hrest
    have hskip : skip (lineBreak (k + 1) ++ '"' :: body') = '"' :: body' := skip_lineBreak (k + 1) _
    rw [readFields_field_next hname rfl hread (by rw [hnext]; rfl)]
    simp only [hskip, hassign, hrest]
    cases v.reread with
    | error e => rfl
    | ok w => cases rereadFields ((n', v') :: fs) <;> simp [Except.bind, Except.map]

end

theorem readsValues (fuel : ℕ) : ReadsValues fuel := by
  have hall : ReadsValues fuel ∧ ReadsItems fuel ∧ ReadsFields fuel := by
    induction fuel with
    | zero =>
      refine ⟨?_, ?_, ?_⟩
      · intro v depth k rest hv hrest hfuel
        omega
      · intro v vs depth k rest hvs hfuel
        omega
      · intro n v fs sofar depth k rest hfs hnames hfuel
        omega
    | succ fuel ih =>
      obtain ⟨hvalues, hitems, hfields⟩ := ih
      exact ⟨readsValues_succ hitems hfields, readsItems_succ hvalues hitems,
        readsFields_succ hvalues hfields⟩
  exact hall.1

/-- What is written with a line for every item and field is read as the same value, but for numbers
that are not finite or have too many digits. -/
theorem read_writeIndented {v : Value} (hv : v.Storable Limit.maxDepth) :
    Json.read v.writeIndented = v.reread := by
  have hread : readValue Limit.maxDepth (2 * v.writeIndented.length + 2) v.writeIndented =
      v.reread.map fun w => (w, []) :=
    readsValues _ v Limit.maxDepth 0 [] hv ends_nil (by rw [Value.writeIndented]; omega)
  have hopens : Opens v.writeIndented := opens_indentedOnto v 0 []
  have hwhole : Json.read v.writeIndented = readWhole v.writeIndented := by
    obtain ⟨c, more, htext, -, -, -, hmark⟩ := hopens
    rw [htext, Json.read]
    intro tail heq
    exact hmark (List.cons.inj heq).1
  rw [hwhole, readWhole, hopens.skip, hread]
  cases v.reread <;> rfl

end StoryPlayer.Json
