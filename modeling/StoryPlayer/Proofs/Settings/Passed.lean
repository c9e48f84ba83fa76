import Mathlib.Data.Int.Notation
import StoryPlayer.Proofs.Schema.Passed
import StoryPlayer.Settings.Basic

/-!
# Settings that passed their check

A record of settings passes when each of its fields does, and each setting is then what its own
field comes to. The two speeds that have a range are put into it by the check, so settings that
passed are in range, whatever they were read from.
-/

namespace StoryPlayer

open Json Schema

namespace Settings

/-! ## Settings one by one -/

/-- One of the settings. -/
inductive Field
  | textSpeed
  | autoSpeed
  | autoMode
  | streamingAdvance
  | locationAdvance
  | streamTimeout
  | hidden
deriving DecidableEq

namespace Field

def all : List Field :=
  [textSpeed, autoSpeed, autoMode, streamingAdvance, locationAdvance, streamTimeout, hidden]

def name : Field → String
  | textSpeed => "text_speed"
  | autoSpeed => "auto_speed"
  | autoMode => "auto_mode"
  | streamingAdvance => "streaming_advance_ms"
  | locationAdvance => "location_advance_ms"
  | streamTimeout => "stream_timeout"
  | hidden => "hidden_characters"

/-- What a setting holds. -/
abbrev Content : Field → Type
  | textSpeed | autoSpeed | streamingAdvance | locationAdvance => Int
  | autoMode => Bool
  | streamTimeout => Float
  | hidden => List Text

/-- What a value comes to that is given for a setting: the two speeds that have a range are put into
it. -/
def check : (f : Field) → Value → Checked f.Content
  | textSpeed => fun v => (asInteger v).map fun n => max 10 (min 200 n)
  | autoSpeed => fun v => (asInteger v).map fun n => max 500 (min 5000 n)
  | autoMode => asTruth
  | streamingAdvance | locationAdvance => asInteger
  | streamTimeout => asNumber
  | hidden => asTexts

/-- What the settings hold for one of them. -/
def of : (f : Field) → Settings → f.Content
  | textSpeed => Settings.textSpeed
  | autoSpeed => Settings.autoSpeed
  | autoMode => Settings.autoMode
  | streamingAdvance => Settings.streamingAdvance
  | locationAdvance => Settings.locationAdvance
  | streamTimeout => Settings.streamTimeout
  | hidden => Settings.hidden

theorem mem_all (f : Field) : f ∈ all := by
  cases f <;> decide

theorem isField_name (f : Field) : isField f.name.toList = true := by
  cases f <;> decide

/-- What a record says of a setting, its default if it says nothing. -/
def read (f : Field) (v : Value) : Checked f.Content :=
  fieldOr f.name (f.of .default) f.check v

theorem read_object (f : Field) (fs : List (Text × Value)) :
    f.read (.object fs) =
      (lookup f.name.toList fs).elim (.ok (f.of .default)) fun v =>
        (f.check v).under f.name.toList := by
  have hfield : (Value.object fs).field? f.name.toList = lookup f.name.toList fs := rfl
  rw [read, fieldOr, hfield]
  cases lookup f.name.toList fs <;> rfl

theorem read_textSpeed (v : Value) :
    textSpeed.read v =
      (fieldOr "text_speed" Settings.default.textSpeed asInteger v).map clampTextSpeed :=
  (fieldOr_map "text_speed" Settings.default.textSpeed asInteger clampTextSpeed v).symm

theorem read_autoSpeed (v : Value) :
    autoSpeed.read v =
      (fieldOr "auto_speed" Settings.default.autoSpeed asInteger v).map clampAutoSpeed :=
  (fieldOr_map "auto_speed" Settings.default.autoSpeed asInteger clampAutoSpeed v).symm

end Field

/-- Settings are described by a record that describes each of them. -/
theorem ofValue_eq_ok_iff {v : Value} {s : Settings} :
    ofValue v = .ok s ↔ ∀ f : Field, f.read v = .ok (f.of s) := by
  have htext := Field.read_textSpeed v
  have hauto := Field.read_autoSpeed v
  constructor
  · intro h
    obtain ⟨f₆, hidden, h₆, hhidden, rfl⟩ := Checked.apply_eq_ok_iff.mp h
    obtain ⟨f₅, timeout, h₅, htimeout, rfl⟩ := Checked.apply_eq_ok_iff.mp h₆
    obtain ⟨f₄, location, h₄, hlocation, rfl⟩ := Checked.apply_eq_ok_iff.mp h₅
    obtain ⟨f₃, streaming, h₃, hstreaming, rfl⟩ := Checked.apply_eq_ok_iff.mp h₄
    obtain ⟨f₂, mode, h₂, hmode, rfl⟩ := Checked.apply_eq_ok_iff.mp h₃
    obtain ⟨text, auto, htext', hauto', rfl⟩ := Checked.both_eq_ok_iff.mp h₂
    intro f
    cases f with
    | textSpeed => exact htext.trans htext'
    | autoSpeed => exact hauto.trans hauto'
    | autoMode => exact hmode
    | streamingAdvance => exact hstreaming
    | locationAdvance => exact hlocation
    | streamTimeout => exact htimeout
    | hidden => exact hhidden
  · intro h
    have hmode : fieldOr "auto_mode" default.autoMode asTruth v = .ok s.autoMode := h .autoMode
    have hstreaming : fieldOr "streaming_advance_ms" default.streamingAdvance asInteger v =
        .ok s.streamingAdvance := h .streamingAdvance
    have hlocation : fieldOr "location_advance_ms" default.locationAdvance asInteger v =
        .ok s.locationAdvance := h .locationAdvance
    have htimeout : fieldOr "stream_timeout" default.streamTimeout asNumber v =
        .ok s.streamTimeout := h .streamTimeout
    have hhidden : fieldOr "hidden_characters" default.hidden asTexts v = .ok s.hidden := h .hidden
    rw [ofValue, ← htext, ← hauto, h .textSpeed, h .autoSpeed, hmode, hstreaming, hlocation,
      htimeout, hhidden]
    rfl

/-! ## Ranges -/

/-- The speeds that have a range are in it. -/
structure InRange (s : Settings) : Prop where
  text : clampTextSpeed s.textSpeed = s.textSpeed
  auto : clampAutoSpeed s.autoSpeed = s.autoSpeed

theorem clampTextSpeed_clampTextSpeed (n : ℤ) :
    clampTextSpeed (clampTextSpeed n) = clampTextSpeed n := by
  unfold clampTextSpeed clamp
  omega

theorem clampAutoSpeed_clampAutoSpeed (n : ℤ) :
    clampAutoSpeed (clampAutoSpeed n) = clampAutoSpeed n := by
  unfold clampAutoSpeed clamp
  omega

section

variable {s : Settings}

theorem InRange.textSpeed_bounds (h : s.InRange) : 10 ≤ s.textSpeed ∧ s.textSpeed ≤ 200 := by
  have htext := h.text
  unfold clampTextSpeed clamp at htext
  omega

theorem InRange.autoSpeed_bounds (h : s.InRange) : 500 ≤ s.autoSpeed ∧ s.autoSpeed ≤ 5000 := by
  have hauto := h.auto
  unfold clampAutoSpeed clamp at hauto
  omega

theorem InRange.textSpeed_le (h : s.InRange) : s.textSpeed.natAbs ≤ 5000 := by
  have hbounds := h.textSpeed_bounds
  omega

theorem InRange.autoSpeed_le (h : s.InRange) : s.autoSpeed.natAbs ≤ 5000 := by
  have hbounds := h.autoSpeed_bounds
  omega

theorem inRange_of_ofValue {v : Value} (h : ofValue v = .ok s) : s.InRange := by
  have htext := ofValue_eq_ok_iff.mp h .textSpeed
  have hauto := ofValue_eq_ok_iff.mp h .autoSpeed
  rw [Field.read_textSpeed] at htext
  rw [Field.read_autoSpeed] at hauto
  obtain ⟨n, -, hn⟩ := Checked.map_eq_ok_iff.mp htext
  obtain ⟨m, -, hm⟩ := Checked.map_eq_ok_iff.mp hauto
  refine ⟨?_, ?_⟩
  · rw [show s.textSpeed = clampTextSpeed n from hn, clampTextSpeed_clampTextSpeed]
  · rw [show s.autoSpeed = clampAutoSpeed m from hm, clampAutoSpeed_clampAutoSpeed]

end

end Settings

end StoryPlayer
