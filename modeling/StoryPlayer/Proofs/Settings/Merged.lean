import StoryPlayer.Proofs.Settings.Stored

/-!
# Settings behind changes

A change names some of the settings. It passes when each of the values that it gives does, whatever
is stored, and then each setting takes what its value comes to, or stays as it was. So what a
setting holds after many changes was given by the last one that passed and named it.
-/

namespace StoryPlayer

open Json Schema

namespace Json

theorem lookup_append (name : Text) (fs gs : List (Text × Value)) :
    lookup name (fs ++ gs) = (lookup name fs).or (lookup name gs) := by
  induction fs with
  | nil => rfl
  | cons f fs ih =>
    obtain ⟨n, v⟩ := f
    rw [List.cons_append, lookup, lookup]
    split
    · rfl
    · exact ih

theorem lookup_filter {p : Text × Value → Bool} {name : Text} (h : ∀ v, p (name, v) = true)
    (fs : List (Text × Value)) : lookup name (fs.filter p) = lookup name fs := by
  induction fs with
  | nil => rfl
  | cons f fs ih =>
    obtain ⟨n, v⟩ := f
    by_cases hname : n = name
    · subst hname
      rw [List.filter_cons_of_pos (h v), lookup, lookup, if_pos rfl, if_pos rfl]
    · by_cases hp : p (n, v) = true
      · rw [List.filter_cons_of_pos hp, lookup, lookup, if_neg hname, if_neg hname, ih]
      · rw [List.filter_cons_of_neg hp, lookup, if_neg hname, ih]

/-- Of the fields that are put into an object one after the other, the last one of a name counts. -/
theorem lookup_foldl_assign (name : Text) (changes fs : List (Text × Value)) :
    lookup name (changes.foldl (fun fs c => assign c.1 c.2 fs) fs) =
      (lookup name changes.reverse).or (lookup name fs) := by
  induction changes generalizing fs with
  | nil => rfl
  | cons c changes ih =>
    obtain ⟨n, v⟩ := c
    rw [List.foldl_cons, ih, List.reverse_cons, lookup_append, Option.or_assoc, lookup, lookup]
    by_cases hname : n = name
    · subst hname
      rw [lookup_assign_self, if_pos rfl]
      rfl
    · rw [lookup_assign_of_ne (Ne.symm hname), if_neg hname]
      rfl

end Json

namespace Settings

/-- Where every setting can be read, all of them can. -/
theorem exists_ofValue {v : Value} (h : ∀ f : Field, ∃ x, f.read v = .ok x) :
    ∃ s, ofValue v = .ok s := by
  choose x hx using h
  refine ⟨⟨x .textSpeed, x .autoSpeed, x .autoMode, x .streamingAdvance, x .locationAdvance,
    x .streamTimeout, x .hidden⟩, ofValue_eq_ok_iff.mpr fun f => ?_⟩
  rw [hx]
  cases f <;> rfl

/-! ## One change -/

/-- The value that a change gives for a name, the last one if it gives several. -/
def given? (name : Text) (changes : List (Text × Value)) : Option Value :=
  lookup name changes.reverse

/-- What a setting holds behind a change: what the value comes to that is given for it, or else what
it held. -/
def Field.next (f : Field) (changes : List (Text × Value)) (old : f.Content) : f.Content :=
  ((given? f.name.toList changes).bind fun v => (f.check v).toOption).getD old

/-- Whether every value passes its check that a change gives for a setting. -/
def passes (changes : List (Text × Value)) : Bool :=
  Field.all.all fun f => (given? f.name.toList changes).all fun v => (f.check v).isOk

theorem passes_iff {changes : List (Text × Value)} :
    passes changes = true ↔
      ∀ (f : Field) v, given? f.name.toList changes = some v → ∃ x, f.check v = .ok x := by
  rw [passes, List.all_eq_true]
  constructor
  · intro h f v hv
    have hall := h f f.mem_all
    rw [hv, Option.all_some] at hall
    cases hcheck : f.check v with
    | ok x => exact ⟨x, rfl⟩
    | error complaints =>
      rw [hcheck] at hall
      cases hall
  · intro h f _
    cases hv : given? f.name.toList changes with
    | none => rfl
    | some v =>
      obtain ⟨x, hx⟩ := h f v hv
      rw [Option.all_some, hx]
      rfl

/-- A change that does not pass gives a value for a setting that does not pass the check of it. -/
theorem exists_of_not_passes {changes : List (Text × Value)} (h : passes changes = false) :
    ∃ (f : Field) (v : Value), given? f.name.toList changes = some v ∧ ∀ x, f.check v ≠ .ok x := by
  by_contra hnone
  push Not at hnone
  exact absurd (passes_iff.mpr hnone) (by rw [h]; exact Bool.false_ne_true)

/-- A setting of a change that passes takes what the value comes to that is given for it. -/
theorem Field.next_of_given {f : Field} {changes : List (Text × Value)} {v : Value}
    (hv : given? f.name.toList changes = some v) {x : f.Content} (hx : f.check v = .ok x)
    (old : f.Content) : f.next changes old = x := by
  rw [Field.next, hv, Option.bind_some, hx]
  rfl

theorem Field.next_of_none {f : Field} {changes : List (Text × Value)}
    (hnone : given? f.name.toList changes = none) (old : f.Content) : f.next changes old = old := by
  rw [Field.next, hnone]
  rfl

section

variable {s : Settings} (hs : s.InRange) {changes : List (Text × Value)}
include hs

/-- What is read of a setting in a record that changes have been put into. -/
theorem Field.read_merge (f : Field) (changes : List (Text × Value)) :
    f.read (.object ((changes.filter fun c => isField c.1).foldl
        (fun fs c => assign c.1 c.2 fs) s.fields)) =
      (given? f.name.toList changes).elim (.ok (f.of s)) fun v =>
        (f.check v).under f.name.toList := by
  have hfields := ofValue_eq_ok_iff.mp (ofValue_fields hs) f
  have hgiven : lookup f.name.toList (changes.filter fun c => isField c.1).reverse =
      given? f.name.toList changes := by
    rw [← List.filter_reverse]
    exact lookup_filter (fun _ => f.isField_name) _
  rw [Field.read_object] at hfields ⊢
  rw [lookup_foldl_assign, hgiven]
  cases given? f.name.toList changes with
  -- what is stored of a setting is read back as it was, being in range
  | none => exact hfields
  | some v => rfl

/-- A change that passes gives each setting its new value or leaves it. -/
theorem merge_of_passes (h : passes changes = true) :
    ∃ t, s.merge changes = .ok t ∧ ∀ f : Field, f.of t = f.next changes (f.of s) := by
  have hread : ∀ f : Field, f.read (.object ((changes.filter fun c => isField c.1).foldl
      (fun fs c => assign c.1 c.2 fs) s.fields)) = .ok (f.next changes (f.of s)) := by
    intro f
    rw [f.read_merge hs]
    cases hv : given? f.name.toList changes with
    | none => rw [Field.next_of_none hv]; rfl
    | some v =>
      obtain ⟨x, hx⟩ := passes_iff.mp h f v hv
      rw [Field.next_of_given hv hx, Option.elim_some, hx]
      rfl
  obtain ⟨t, ht⟩ := exists_ofValue fun f => ⟨_, hread f⟩
  refine ⟨t, ht, fun f => ?_⟩
  exact Except.ok.inj ((ofValue_eq_ok_iff.mp ht f).symm.trans (hread f))

/-- A change that does not pass gives no settings. -/
theorem merge_of_not_passes (h : passes changes = false) :
    ∃ complaints, s.merge changes = .error complaints := by
  cases hmerge : s.merge changes with
  | error complaints => exact ⟨complaints, rfl⟩
  | ok t =>
    have hpasses : passes changes = true := by
      refine passes_iff.mpr fun f v hv => ?_
      have hread := ofValue_eq_ok_iff.mp hmerge f
      rw [f.read_merge hs, hv, Option.elim_some] at hread
      cases hcheck : f.check v with
      | ok x => exact ⟨x, rfl⟩
      | error complaints =>
        rw [hcheck] at hread
        cases hread
    cases h.symm.trans hpasses

end

theorem merge_filter (s : Settings) (changes : List (Text × Value)) :
    s.merge (changes.filter fun c => isField c.1) = s.merge changes := by
  rw [merge, merge, List.filter_filter]
  simp only [Bool.and_self]

/-! ## What can be kept -/

instance (n : Int) : Decidable (IsShort n) :=
  inferInstanceAs (Decidable (_ ≤ _))

/-- Whether what a setting holds can be written and is read as it was. -/
def Field.storable : (f : Field) → f.Content → Bool
  | textSpeed | autoSpeed | autoMode => fun _ => true
  | streamingAdvance | locationAdvance => fun n => IsShort n
  | streamTimeout => fun x => x.isFinite
  | hidden => fun ts => ts.all Text.isWhole

/-- Whether what the values of a change come to can be kept: a deadline is finite, a whole number
has no more digits than the reader takes, and a name can be encoded. -/
def isStorable (changes : List (Text × Value)) : Bool :=
  Field.all.all fun f =>
    ((given? f.name.toList changes).bind fun v => (f.check v).toOption).all f.storable

theorem isStorable_next {changes : List (Text × Value)} (h : isStorable changes = true) {f : Field}
    {old : f.Content} (hold : f.storable old = true) : f.storable (f.next changes old) = true := by
  have hall := List.all_eq_true.mp h f f.mem_all
  rw [Field.next]
  cases hx : (given? f.name.toList changes).bind fun v => (f.check v).toOption with
  | none => exact hold
  | some x =>
    rw [hx] at hall
    exact hall

theorem survives_of_storable {s : Settings} (h : ∀ f : Field, f.storable (f.of s) = true) :
    s.Survives ∧ ∀ t ∈ s.hidden, Text.isWhole t = true :=
  ⟨⟨h .streamTimeout, of_decide_eq_true (h .streamingAdvance),
    of_decide_eq_true (h .locationAdvance)⟩, List.all_eq_true.mp (h .hidden)⟩

/-- What is given by a change that passes is what a setting holds behind it. -/
theorem Field.check_next (f : Field) {changes : List (Text × Value)} {v : Value}
    (h : passes changes = true) (hv : given? f.name.toList changes = some v) (old : f.Content) :
    f.check v = .ok (f.next changes old) := by
  obtain ⟨x, hx⟩ := passes_iff.mp h f v hv
  rw [Field.next_of_given hv hx, hx]

/-- A speed that has a range is the number that is given for it, put into that range. -/
theorem exists_speed {v : Value} {low high x y : Int}
    (h : (asInteger v).map (fun n => max low (min high n)) = .ok x) (hy : y = x) :
    ∃ n, asInteger v = .ok n ∧ y = max low (min high n) := by
  obtain ⟨n, hn, hx⟩ := Checked.map_eq_ok_iff.mp h
  exact ⟨n, hn, hy.trans hx⟩

/-! ## Many changes -/

/-- What a setting holds after changes: what the value comes to that the last of them gave that
passed and named it, or its default. -/
def Field.latest (f : Field) (calls : List (List (Text × Value))) : f.Content :=
  (((calls.filter passes).reverse.findSome? (given? f.name.toList)).bind fun v =>
    (f.check v).toOption).getD (f.of .default)

/-- What is given by the last change that passed and named a setting is what that holds. -/
theorem Field.check_latest (f : Field) {calls : List (List (Text × Value))} {v : Value}
    (hv : (calls.filter passes).reverse.findSome? (given? f.name.toList) = some v) :
    f.check v = .ok (f.latest calls) := by
  obtain ⟨c, hc, hgiven⟩ := List.exists_of_findSome?_eq_some hv
  have hpasses := (List.mem_filter.mp (List.mem_reverse.mp hc)).2
  obtain ⟨x, hx⟩ := passes_iff.mp hpasses f v hgiven
  rw [Field.latest, hv, Option.bind_some, hx]
  rfl

theorem Field.latest_concat_of_passes (f : Field) (calls : List (List (Text × Value)))
    {c : List (Text × Value)} (h : passes c = true) :
    f.latest (calls ++ [c]) = f.next c (f.latest calls) := by
  have hcalls : ((calls ++ [c]).filter passes).reverse = c :: (calls.filter passes).reverse := by
    simp [List.filter_append, h]
  rw [Field.latest, hcalls, List.findSome?_cons]
  cases hv : given? f.name.toList c with
  | none => rw [Field.next_of_none hv]; rfl
  | some v =>
    obtain ⟨x, hx⟩ := passes_iff.mp h f v hv
    rw [Field.next_of_given hv hx, Option.bind_some, hx]
    rfl

theorem Field.latest_concat_of_not_passes (f : Field) (calls : List (List (Text × Value)))
    {c : List (Text × Value)} (h : passes c = false) : f.latest (calls ++ [c]) = f.latest calls := by
  have hcalls : (calls ++ [c]).filter passes = calls.filter passes := by
    simp [List.filter_append, h]
  rw [Field.latest, hcalls, Field.latest]

end Settings

namespace SettingsFile

open Settings

/-- Settings can be stored if all their texts can be encoded. -/
theorem store_of_whole (file : SettingsFile) {s : Settings}
    (h : ∀ t ∈ s.hidden, Text.isWhole t = true) :
    file.store s = .ok { file with text := some s.toValue.writeIndented } := by
  rw [store, findSome?_unencodable?_eq_none_iff.mpr h]

section

variable {file : SettingsFile} {s : Settings} (h : file.Holds s)
  (hs : ∀ f : Field, f.storable (f.of s) = true) {changes : List (Text × Value)}
include h hs

theorem Holds.update_eq (changes : List (Text × Value)) :
    file.update (.object changes) = (passed (s.merge changes)).bind fun t =>
      (file.store t).bind fun g => .ok (g, t) := by
  rw [update, h.get (survives_of_storable hs).1]
  rfl

theorem Holds.update_of_not_passes (hpasses : passes changes = false) :
    ∃ complaints, file.update (.object changes) = .error (.invalid complaints) := by
  obtain ⟨complaints, hmerge⟩ := merge_of_not_passes h.inRange hpasses
  refine ⟨complaints, ?_⟩
  rw [h.update_eq hs, hmerge]
  rfl

theorem Holds.update_of_passes (hpasses : passes changes = true)
    (hstorable : isStorable changes = true) :
    ∃ g t, file.update (.object changes) = .ok (g, t) ∧
      (∀ f : Field, f.of t = f.next changes (f.of s)) ∧ ∀ f : Field, f.storable (f.of t) = true := by
  obtain ⟨t, hmerge, hnext⟩ := merge_of_passes h.inRange hpasses
  have ht : ∀ f : Field, f.storable (f.of t) = true := fun f => by
    rw [hnext f]
    exact isStorable_next hstorable (hs f)
  have hstore := store_of_whole file (survives_of_storable ht).2
  refine ⟨{ file with text := some t.toValue.writeIndented }, t, ?_, hnext, ht⟩
  rw [h.update_eq hs, hmerge, passed, Except.bind, hstore]
  rfl

end

/-- What is known of the file and the settings behind changes. -/
structure Keeps (last : SettingsFile × Settings) (calls : List (List (Text × Value))) : Prop where
  holds : last.1.Holds last.2
  storable : ∀ f : Field, f.storable (f.of last.2) = true
  latest : ∀ f : Field, f.of last.2 = f.latest calls

theorem keeps_nil : Keeps (new, .default) [] where
  holds := new_holds
  storable f := by cases f <;> decide
  latest _ := rfl

/-- One more change keeps what the settings hold, each given by the last change that passed and
named it. -/
theorem Keeps.concat {last : SettingsFile × Settings} {calls : List (List (Text × Value))}
    (h : Keeps last calls) {c : List (Text × Value)}
    (hc : passes c = true → isStorable c = true) :
    Keeps (change last (.object c)) (calls ++ [c]) := by
  -- a call that fails is not among those that count for the settings either
  cases hpasses : passes c with
  | false =>
    obtain ⟨complaints, hupdate⟩ := h.holds.update_of_not_passes h.storable hpasses
    have hchange : change last (.object c) = last := by rw [change, hupdate]
    rw [hchange]
    exact ⟨h.holds, h.storable, fun f =>
      (h.latest f).trans (f.latest_concat_of_not_passes calls hpasses).symm⟩
  | true =>
    obtain ⟨g, t, hupdate, hnext, hstorable⟩ :=
      h.holds.update_of_passes h.storable hpasses (hc hpasses)
    have hchange : change last (.object c) = (g, t) := by rw [change, hupdate]
    rw [hchange]
    refine ⟨h.holds.of_update hupdate, hstorable, fun f => ?_⟩
    rw [f.latest_concat_of_passes calls hpasses, ← h.latest f]
    exact hnext f

theorem keeps_changes {calls : List (List (Text × Value))}
    (hcalls : ∀ c ∈ calls, passes c = true → isStorable c = true) :
    Keeps ((calls.map .object).foldl change (new, .default)) calls := by
  induction calls using List.reverseRecOn with
  | nil => exact keeps_nil
  | append_singleton calls c ih =>
    rw [List.forall_mem_append] at hcalls
    rw [List.map_append, List.foldl_append]
    exact (ih hcalls.1).concat (hcalls.2 c List.mem_cons_self)

/-- Whatever changes were tried before, each setting holds what the last change gave that passed and
named it, its default if none did. The two speeds that have a range are in it: a number that is given
for one of them stays if it is in the range, and otherwise becomes the bound that is nearer. One more
change fails just if a value that it gives for a setting does not pass the check of that setting, and
then nothing is changed, whatever else it gives. If it passes, each setting takes what the value
comes to that is given for it, or stays as it was. What it says of names that are no settings does
not matter. All this as long as what passes can be kept: a deadline is finite, whole numbers have no
more digits than the reader takes, and names can be encoded. -/
theorem get_latest {calls : List (List (Text × Value))}
    (hcalls : ∀ c ∈ calls, passes c = true → isStorable c = true) :
    let last := (calls.map .object).foldl change (new, .default)
    let given (name : String) := (calls.filter passes).reverse.findSome? (given? name.toList)
    ∃ s, last.1.get = .ok s ∧ (∀ f : Field, f.of s = f.latest calls) ∧
      (∀ v, given "text_speed" = some v →
        ∃ n, asInteger v = .ok n ∧ s.textSpeed = max 10 (min 200 n)) ∧
      (∀ v, given "auto_speed" = some v →
        ∃ n, asInteger v = .ok n ∧ s.autoSpeed = max 500 (min 5000 n)) ∧
      (10 ≤ s.textSpeed ∧ s.textSpeed ≤ 200) ∧ (500 ≤ s.autoSpeed ∧ s.autoSpeed ≤ 5000) ∧
      ∀ c, (passes c = true → isStorable c = true) →
        ((∃ fault, last.1.update (.object c) = .error fault) ↔
          ∃ (f : Field) (v : Value),
            given? f.name.toList c = some v ∧ ∀ x, f.check v ≠ .ok x) ∧
        ((∃ fault, last.1.update (.object c) = .error fault) →
          (change last (.object c)).1 = last.1) ∧
        (∀ g t, last.1.update (.object c) = .ok (g, t) →
          (∀ f : Field, f.of t = f.next c (f.of s)) ∧
            (∀ v, given? "text_speed".toList c = some v →
              ∃ n, asInteger v = .ok n ∧ t.textSpeed = max 10 (min 200 n)) ∧
            ∀ v, given? "auto_speed".toList c = some v →
              ∃ n, asInteger v = .ok n ∧ t.autoSpeed = max 500 (min 5000 n)) ∧
        last.1.update (.object (c.filter fun p => isField p.1)) = last.1.update (.object c) := by
  intro last given
  have hkeeps : Keeps last calls := keeps_changes hcalls
  refine ⟨last.2, hkeeps.holds.get (survives_of_storable hkeeps.storable).1, hkeeps.latest,
    fun v hv => exists_speed (Field.textSpeed.check_latest hv) (hkeeps.latest .textSpeed),
    fun v hv => exists_speed (Field.autoSpeed.check_latest hv) (hkeeps.latest .autoSpeed),
    hkeeps.holds.inRange.textSpeed_bounds, hkeeps.holds.inRange.autoSpeed_bounds, fun c hc => ?_⟩
  have hunknown : last.1.update (.object (c.filter fun p => isField p.1)) =
      last.1.update (.object c) := by
    rw [hkeeps.holds.update_eq hkeeps.storable, hkeeps.holds.update_eq hkeeps.storable, merge_filter]
  cases hpasses : passes c with
  | false =>
    obtain ⟨complaints, hupdate⟩ := hkeeps.holds.update_of_not_passes hkeeps.storable hpasses
    refine ⟨⟨fun _ => ?_, fun _ => ⟨_, hupdate⟩⟩, fun _ => ?_, fun g t hok => ?_, hunknown⟩
    · exact exists_of_not_passes hpasses
    · rw [change, hupdate]
    · cases hupdate.symm.trans hok
  | true =>
    obtain ⟨g, t, hupdate, hnext, -⟩ :=
      hkeeps.holds.update_of_passes hkeeps.storable hpasses (hc hpasses)
    have hsucceeds : ¬∃ fault, last.1.update (.object c) = .error fault := by
      rintro ⟨fault, hfault⟩
      cases hupdate.symm.trans hfault
    refine ⟨⟨fun h => absurd h hsucceeds, ?_⟩, fun h => absurd h hsucceeds, ?_, hunknown⟩
    · rintro ⟨f, v, hv, hbad⟩
      obtain ⟨x, hx⟩ := passes_iff.mp hpasses f v hv
      exact absurd hx (hbad x)
    · intro g' t' hok
      cases hupdate.symm.trans hok
      exact ⟨hnext,
        fun v hv => exists_speed (Field.textSpeed.check_next hpasses hv _) (hnext .textSpeed),
        fun v hv => exists_speed (Field.autoSpeed.check_next hpasses hv _) (hnext .autoSpeed)⟩

/-- A speed out of its range and a deadline that is spelled out are kept. A speed that comes with a
mode that is none is not, nor can it be set then. -/
theorem get_latest_thrice :
    let calls : List (List (Text × Value)) :=
      [[("text_speed".toList, .int 300), ("font".toList, .text "serif".toList)],
        [("text_speed".toList, .int 20), ("auto_mode".toList, .text "maybe".toList)],
        [("stream_timeout".toList, .text "2.5".toList)]]
    let last := (calls.map .object).foldl change (new, .default)
    (∃ s, last.1.get = .ok s ∧ s.textSpeed = 200 ∧ s.autoMode = false ∧ s.streamTimeout = 2.5) ∧
      ∃ fault, last.1.update (.object
        [("text_speed".toList, .int 20), ("auto_mode".toList, .text "maybe".toList)]) =
          .error fault := by
  intro calls last
  have hcalls : ∀ c ∈ calls, passes c = true → isStorable c = true := by
    decide +kernel
  obtain ⟨s, hget, hlatest, -, -, -, -, hchange⟩ := get_latest hcalls
  refine ⟨⟨s, hget, hlatest .textSpeed, hlatest .autoMode, hlatest .streamTimeout⟩, ?_⟩
  exact (hchange _ (by decide +kernel)).1.mpr
    ⟨.autoMode, .text "maybe".toList, rfl, fun x hx => by cases hx⟩

end SettingsFile

end StoryPlayer
