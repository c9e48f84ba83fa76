import StoryPlayer.Proofs.Json.Written
import StoryPlayer.Proofs.Settings.Passed
import StoryPlayer.Settings.File

/-!
# Settings that come back

A change of the settings is checked, and all settings are written. Whoever asks for them next reads
them and checks them again. Both checks agree on all that can be written. What cannot be is a
deadline that is not finite: it passes the check when it is set, stands as `null` in the file, and
passes no more. A whole number with more digits than the reader takes is another such case. From
then on the file is of no use, since every change starts with what is stored.
-/

namespace StoryPlayer

open Json Schema

namespace Settings

/-! ## What is written passes the check -/

theorem items_asText (n : ℕ) (ts : List Text) : items asText n (ts.map .text) = .ok ts := by
  rw [items_eq_ok_iff, List.forall₂_map_left_iff, List.forall₂_same]
  exact fun t _ => rfl

/-- Settings as they are written pass the check again, as they are. -/
theorem ofValue_fields {s : Settings} (hs : s.InRange) : ofValue (.object s.fields) = .ok s := by
  have hhidden : fieldOr "hidden_characters" default.hidden asTexts (.object s.fields) =
      .ok s.hidden := congrArg (Checked.under _) (items_asText 0 s.hidden)
  have htext : (fieldOr "text_speed" default.textSpeed asInteger (.object s.fields)).map
      clampTextSpeed = .ok s.textSpeed := congrArg Except.ok hs.text
  have hauto : (fieldOr "auto_speed" default.autoSpeed asInteger (.object s.fields)).map
      clampAutoSpeed = .ok s.autoSpeed := congrArg Except.ok hs.auto
  rw [ofValue, hhidden, htext, hauto]
  rfl

/-- A record without a deadline does not pass, whatever else it says. -/
theorem ofValue_null_timeout (s : Settings) :
    ofValue (.object (assign "stream_timeout".toList .null s.fields)) =
      .error [⟨["stream_timeout".toList], .number⟩] := by
  set fields := assign "stream_timeout".toList .null s.fields with hfields
  have hhidden : fieldOr "hidden_characters" default.hidden asTexts (.object fields) =
      .ok s.hidden := congrArg (Checked.under _) (items_asText 0 s.hidden)
  rw [ofValue, hhidden]
  rfl

/-! ## What is read again -/

/-- Whether a whole number has no more digits than the reader takes. -/
def IsShort (n : ℤ) : Prop :=
  (Text.ofNat n.natAbs).length ≤ Limit.maxDigits

theorem isShort_of_lt {n : ℤ} (h : n.natAbs < 10 ^ 4) : IsShort n := by
  refine ((Nat.length_toDigits_le_iff (by decide) (by decide)).mpr h).trans ?_
  decide

theorem reread_int {n : ℤ} (h : IsShort n) : (Value.int n).reread = .ok (.int n) := by
  rw [Value.reread]
  exact if_neg (not_lt.mpr h)

theorem reread_int_long {n : ℤ} (h : ¬IsShort n) :
    (Value.int n).reread = .error (.beyond (.digits (Text.ofNat n.natAbs).length)) := by
  rw [Value.reread]
  exact if_pos (not_le.mp h)

/-- Settings that are read as they are written. -/
structure Survives (s : Settings) : Prop where
  timeout : s.streamTimeout.isFinite = true
  streaming : IsShort s.streamingAdvance
  location : IsShort s.locationAdvance

theorem itemsStorable_texts {ts : List Text} (h : ∀ t ∈ ts, Text.isWhole t = true) (depth : ℕ) :
    itemsStorable depth (ts.map .text) := by
  induction ts with
  | nil => trivial
  | cons t ts ih =>
    rw [List.forall_mem_cons] at h
    rw [List.map_cons, itemsStorable, Value.Storable]
    exact ⟨h.1, ih h.2⟩

theorem storable_toValue {s : Settings} (h : ∀ t ∈ s.hidden, Text.isWhole t = true) :
    s.toValue.Storable Limit.maxDepth := by
  have hnames : (s.fields.map Prod.fst).Nodup := by
    change (fieldNames.map String.toList).Nodup
    decide
  have hhidden := itemsStorable_texts h (Limit.maxDepth - 1 - 1)
  rw [toValue, Value.Storable]
  refine ⟨by decide, ?_, hnames⟩
  simp only [fields, List.map_cons, List.map_nil, fieldsStorable, Value.Storable, textsValue]
  exact ⟨by decide, trivial, by decide, trivial, by decide, trivial, by decide, trivial, by decide,
    trivial, by decide, trivial, by decide, ⟨by decide, hhidden⟩, trivial⟩

theorem rereadItems_texts (ts : List Text) : rereadItems (ts.map .text) = .ok (ts.map .text) := by
  induction ts with
  | nil => rfl
  | cons t ts ih =>
    rw [List.map_cons, rereadItems_cons, ih]
    rfl

theorem reread_textsValue (ts : List Text) : (textsValue ts).reread = .ok (textsValue ts) := by
  rw [textsValue, Value.reread, rereadItems_texts]
  rfl

section

variable {s : Settings} (hs : s.InRange)
include hs

theorem isShort_textSpeed : IsShort s.textSpeed := by
  refine isShort_of_lt ?_
  have hle := hs.textSpeed_le
  omega

theorem isShort_autoSpeed : IsShort s.autoSpeed := by
  refine isShort_of_lt ?_
  have hle := hs.autoSpeed_le
  omega

theorem Survives.reread (h : s.Survives) : s.toValue.reread = .ok s.toValue := by
  have htimeout : (Value.float s.streamTimeout).reread = .ok (.float s.streamTimeout) := by
    rw [Value.reread, if_pos h.timeout]
  rw [toValue, Value.reread, fields]
  simp only [List.map_cons, List.map_nil, rereadFields_cons, rereadFields, reread_textsValue,
    reread_int (isShort_textSpeed hs), reread_int (isShort_autoSpeed hs), reread_int h.streaming,
    reread_int h.location, htimeout]
  rfl

/-- Without a finite deadline, a record without a deadline is read. -/
theorem reread_of_not_finite (htimeout : ¬s.streamTimeout.isFinite = true)
    (hstreaming : IsShort s.streamingAdvance) (hlocation : IsShort s.locationAdvance) :
    s.toValue.reread = .ok (.object (assign "stream_timeout".toList .null s.fields)) := by
  have hnull : (Value.float s.streamTimeout).reread = .ok .null := by
    rw [Value.reread, if_neg htimeout]
  rw [toValue, Value.reread, fields]
  simp only [List.map_cons, List.map_nil, rereadFields_cons, rereadFields, reread_textsValue,
    reread_int (isShort_textSpeed hs), reread_int (isShort_autoSpeed hs), reread_int hstreaming,
    reread_int hlocation, hnull]
  rfl

/-- A delay that is too long stops the reader. -/
theorem reread_of_not_isShort (h : ¬(IsShort s.streamingAdvance ∧ IsShort s.locationAdvance)) :
    ∃ limit, s.toValue.reread = .error (.beyond limit) := by
  rw [toValue, Value.reread, fields]
  simp only [List.map_cons, List.map_nil, rereadFields_cons, rereadFields, reread_textsValue,
    reread_int (isShort_textSpeed hs), reread_int (isShort_autoSpeed hs)]
  by_cases hstreaming : IsShort s.streamingAdvance
  · have hlocation : ¬IsShort s.locationAdvance := fun hlocation => h ⟨hstreaming, hlocation⟩
    rw [reread_int hstreaming, reread_int_long hlocation]
    exact ⟨_, rfl⟩
  · rw [reread_int_long hstreaming]
    exact ⟨_, rfl⟩

end

end Settings

namespace SettingsFile

/-! ## The file -/

/-- A file that holds settings which passed the check. -/
structure Holds (f : SettingsFile) (s : Settings) : Prop where
  placed : f.placed = true
  inRange : s.InRange
  /-- The file holds all settings, or it is not there and they are the defaults. -/
  text : f.text = some s.toValue.writeIndented ∧ (∀ t ∈ s.hidden, Text.isWhole t = true) ∨
    f.text = none ∧ s = .default

theorem new_holds : new.Holds .default :=
  ⟨rfl, ⟨rfl, rfl⟩, .inr ⟨rfl, rfl⟩⟩

theorem survives_default : Settings.default.Survives := by
  refine ⟨rfl, Settings.isShort_of_lt ?_, Settings.isShort_of_lt ?_⟩
  · decide
  · decide

/-- Texts that can be encoded are those without half a character. -/
theorem findSome?_unencodable?_eq_none_iff {ts : List Text} :
    ts.findSome? Text.Encoding.utf8.unencodable? = none ↔ ∀ t ∈ ts, Text.isWhole t = true := by
  rw [List.findSome?_eq_none_iff]
  refine forall₂_congr fun t _ => ?_
  rw [Text.Encoding.unencodable?_eq_none_iff, Text.isWhole, List.all_eq_true]
  exact Iff.rfl

theorem update_of_get {f : SettingsFile} {fault : SettingsFault} (h : f.get = .error fault)
    (v : Value) : f.update v = .error fault := by
  rw [update, h]
  rfl

section

variable {f : SettingsFile} {s : Settings} (h : f.Holds s)
include h

theorem Holds.get (hs : s.Survives) : f.get = .ok s := by
  rw [SettingsFile.get, if_pos h.placed]
  rcases h.text with ⟨htext, hwhole⟩ | ⟨htext, rfl⟩
  · have hread : f.stored = .ok (.object s.fields) := by
      rw [stored, htext, Option.map_some, read_writeIndented (Settings.storable_toValue hwhole),
        hs.reread h.inRange]
      rfl
    rw [hread]
    exact congrArg passed (Settings.ofValue_fields h.inRange)
  · have hread : f.stored = .ok (.object []) := by rw [stored, htext]; rfl
    rw [hread]
    rfl

theorem Holds.text_of_not_survives (hs : ¬s.Survives) :
    f.text = some s.toValue.writeIndented ∧ ∀ t ∈ s.hidden, Text.isWhole t = true := by
  refine h.text.resolve_right ?_
  rintro ⟨-, rfl⟩
  exact hs survives_default

/-- A deadline that is not finite does not pass when it is read. -/
theorem Holds.get_of_not_finite (htimeout : ¬s.streamTimeout.isFinite = true)
    (hstreaming : Settings.IsShort s.streamingAdvance)
    (hlocation : Settings.IsShort s.locationAdvance) :
    f.get = .error (.invalid [⟨["stream_timeout".toList], .number⟩]) := by
  obtain ⟨htext, hwhole⟩ := h.text_of_not_survives fun hs => htimeout hs.timeout
  rw [SettingsFile.get, if_pos h.placed, stored, htext, Option.map_some,
    read_writeIndented (Settings.storable_toValue hwhole),
    Settings.reread_of_not_finite h.inRange htimeout hstreaming hlocation]
  exact congrArg passed (Settings.ofValue_null_timeout s)

theorem Holds.get_of_not_isShort
    (hdelays : ¬(Settings.IsShort s.streamingAdvance ∧ Settings.IsShort s.locationAdvance)) :
    ∃ limit, f.get = .error (.unreadable limit) := by
  obtain ⟨htext, hwhole⟩ := h.text_of_not_survives fun hs => hdelays ⟨hs.streaming, hs.location⟩
  obtain ⟨limit, hlimit⟩ := Settings.reread_of_not_isShort h.inRange hdelays
  rw [SettingsFile.get, if_pos h.placed, stored, htext, Option.map_some,
    read_writeIndented (Settings.storable_toValue hwhole), hlimit]
  exact ⟨limit, rfl⟩

/-- Settings that are not read as they are written are not read at all. -/
theorem Holds.get_of_not_survives (hs : ¬s.Survives) : ∃ fault, f.get = .error fault := by
  by_cases hdelays : Settings.IsShort s.streamingAdvance ∧ Settings.IsShort s.locationAdvance
  · have htimeout : ¬s.streamTimeout.isFinite = true := fun hfinite =>
      hs ⟨hfinite, hdelays.1, hdelays.2⟩
    exact ⟨_, h.get_of_not_finite htimeout hdelays.1 hdelays.2⟩
  · obtain ⟨limit, hlimit⟩ := h.get_of_not_isShort hdelays
    exact ⟨_, hlimit⟩

theorem Holds.of_store {g : SettingsFile} {t : Settings} (ht : t.InRange)
    (hstore : f.store t = .ok g) : g.Holds t := by
  unfold store at hstore
  split at hstore
  next => cases hstore
  next hwhole =>
    cases hstore
    exact ⟨h.placed, ht, .inl ⟨rfl, findSome?_unencodable?_eq_none_iff.mp hwhole⟩⟩

/-- A change that succeeds writes settings that passed the check. -/
theorem Holds.of_update {v : Value} {g : SettingsFile} {t : Settings}
    (hupdate : f.update v = .ok (g, t)) : g.Holds t := by
  simp only [update, bind, Except.bind, pure, Except.pure] at hupdate
  split at hupdate
  · cases hupdate
  next current hcurrent =>
    split at hupdate
    · cases hupdate
    next fields hfields =>
      split at hupdate
      · cases hupdate
      next settings hpassed =>
        split at hupdate
        · cases hupdate
        next stored hstored =>
          cases hupdate
          refine h.of_store ?_ hstored
          unfold passed at hpassed
          split at hpassed
          next hchecked =>
            cases hpassed
            exact Settings.inRange_of_ofValue hchecked
          next => cases hpassed

end

/-! ## Many changes -/

/-- The file and the settings behind one more change: those that it gives, and if it fails those
that there were. -/
def change (last : SettingsFile × Settings) (v : Value) : SettingsFile × Settings :=
  match last.1.update v with
  | .ok changed => changed
  | .error _ => last

theorem holds_change {last : SettingsFile × Settings} (h : last.1.Holds last.2) (v : Value) :
    (change last v).1.Holds (change last v).2 := by
  unfold change
  split
  next hupdate => exact h.of_update hupdate
  next => exact h

theorem holds_changes {last : SettingsFile × Settings} (h : last.1.Holds last.2) (vs : List Value) :
    (vs.foldl change last).1.Holds (vs.foldl change last).2 := by
  induction vs generalizing last with
  | nil => exact h
  | cons v vs ih => exact ih (holds_change h v)

/-- Whatever changes are tried, the settings are afterwards those that the last successful one gave,
the defaults if none did, as long as these have a finite deadline and delays that are not too long
for the reader. Otherwise there are no settings to be had any more, and no change can succeed. -/
theorem get_changes (vs : List Value) :
    let last := vs.foldl change (new, .default)
    (last.2.Survives → last.1.get = .ok last.2) ∧
      (¬last.2.Survives →
        ∃ fault, last.1.get = .error fault ∧ ∀ v, last.1.update v = .error fault) := by
  intro last
  have hholds : last.1.Holds last.2 := holds_changes new_holds vs
  refine ⟨hholds.get, fun hs => ?_⟩
  obtain ⟨fault, hfault⟩ := hholds.get_of_not_survives hs
  exact ⟨fault, hfault, update_of_get hfault⟩

/-- A speed out of its range is put into it, and stays so. A deadline may be set to infinity, and
that takes all settings away. -/
theorem get_changes_twice :
    let speed : Value := .object [("text_speed".toList, .int 300)]
    let deadline : Value := .object [("stream_timeout".toList, .text "inf".toList)]
    let last := [speed].foldl change (new, .default)
    let lost := [deadline].foldl change (new, .default)
    last.2.Survives ∧ last.1.get = .ok { Settings.default with textSpeed := 200 } ∧
      ¬lost.2.Survives ∧
        ∃ fault, lost.1.get = .error fault ∧ ∀ v, lost.1.update v = .error fault := by
  intro speed deadline last lost
  have hsettings : last.2 = { Settings.default with textSpeed := 200 } := rfl
  have hinfinite : lost.2 = { Settings.default with streamTimeout := 1.0 / 0.0 } := rfl
  have hlast : last.2.Survives := by
    rw [hsettings]
    exact ⟨survives_default.timeout, survives_default.streaming, survives_default.location⟩
  have hlost : ¬lost.2.Survives := by
    intro hs
    have hfinite := hs.timeout
    rw [hinfinite] at hfinite
    exact absurd hfinite (by decide)
  refine ⟨hlast, ?_, hlost, (get_changes [deadline]).2 hlost⟩
  rw [← hsettings]
  exact (get_changes [speed]).1 hlast

/-- Setting the deadline to infinity succeeds, and then there are no settings. -/
theorem get_update_infinite :
    ∃ f, new.update (.object [("stream_timeout".toList, .text "inf".toList)]) =
        .ok (f, { Settings.default with streamTimeout := 1.0 / 0.0 }) ∧
      f.get = .error (.invalid [⟨["stream_timeout".toList], .number⟩]) := by
  have hupdate : new.update (.object [("stream_timeout".toList, .text "inf".toList)]) =
      .ok (⟨true, some (Settings.toValue
        { Settings.default with streamTimeout := 1.0 / 0.0 }).writeIndented⟩,
        { Settings.default with streamTimeout := 1.0 / 0.0 }) := rfl
  refine ⟨_, hupdate, (new_holds.of_update hupdate).get_of_not_finite ?_ ?_ ?_⟩
  · decide
  · exact survives_default.streaming
  · exact survives_default.location

end SettingsFile

end StoryPlayer
