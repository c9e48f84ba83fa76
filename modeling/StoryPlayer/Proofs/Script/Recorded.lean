import StoryPlayer.Proofs.Schema.Passed
import StoryPlayer.Script.Record

/-!
# Commands that leave and enter

A record is read by its fields, wherever they stand and whatever else it holds, and a field that is
left out is read as if its default stood there. `DescribedBy` says which records describe a command,
and these are those that are read as the command. The record that is written for a command is one of
them, so commands that leave as records enter as what they were.
-/

namespace StoryPlayer

open Json Schema

/-! ## Records of members and scenes -/

/-- A record with the name of the member and the mood, which may be left out where it is neutral. -/
def CastMember.DescribedBy (m : CastMember) (v : Value) : Prop :=
  ∃ fields, v = .object fields ∧ lookup "name".toList fields = some (.text m.name) ∧
    (lookup "mood".toList fields).getD (.text neutral) = .text m.mood

/-- A list with a record for every member, in order. -/
def CastDescribedBy (ms : List CastMember) (v : Value) : Prop :=
  ∃ vs, v = .list vs ∧ List.Forall₂ (fun v m => m.DescribedBy v) vs ms

/-- Fields with the location, which may be left out where there is none, and the cast, which may be
left out where nobody is in it. -/
structure Scene.DescribedBy (s : Scene) (fields : List (Text × Value)) : Prop where
  location : (lookup "location".toList fields).getD .null = optionValue s.location
  cast : CastDescribedBy s.cast ((lookup "characters".toList fields).getD (.list []))

theorem asOptionalText_eq_ok_iff {v : Value} {t : Option Text} :
    asOptionalText v = .ok t ↔ v = optionValue t := by
  cases v <;> cases t <;> simp [asOptionalText, optionValue, Checked.fail]

theorem asTuple_asText_eq_ok_iff {v : Value} {ts : List Text} :
    asTuple asText v = .ok ts ↔ v = textsValue ts := by
  have htexts (vs : List Value) :
      List.Forall₂ (fun v t => v = Value.text t) vs ts ↔ vs = ts.map .text := by
    rw [← List.forall₂_eq_eq_eq, List.forall₂_map_right_iff]
  simp only [asTuple_eq_ok_iff, asText_eq_ok_iff, htexts, exists_eq_right, textsValue]

theorem CastMember.ofValue_eq_ok_iff {v : Value} {m : CastMember} :
    ofValue v = .ok m ↔ m.DescribedBy v := by
  have hneutral : asText (.text neutral) = .ok neutral := rfl
  cases v with
  | object fields =>
    rw [ofValue, Checked.both_eq_ok_iff]
    simp only [field_eq_ok_iff, fieldOr_eq_ok_iff hneutral, asText_eq_ok_iff, exists_eq_right]
    constructor
    · rintro ⟨name, mood, hname, hmood, rfl⟩
      exact ⟨fields, rfl, hname, hmood⟩
    · rintro ⟨_, ⟨⟩, hname, hmood⟩
      exact ⟨m.name, m.mood, hname, hmood, rfl⟩
  | _ => exact iff_of_false nofun nofun

theorem asTuple_ofValue_eq_ok_iff {v : Value} {ms : List CastMember} :
    asTuple CastMember.ofValue v = .ok ms ↔ CastDescribedBy ms v := by
  simp only [asTuple_eq_ok_iff, CastMember.ofValue_eq_ok_iff, CastDescribedBy]

theorem castOr_eq_ok_iff {fields : List (Text × Value)} {ms : List CastMember} :
    fieldOr "characters" [] (asTuple CastMember.ofValue) (.object fields) = .ok ms ↔
      CastDescribedBy ms ((lookup "characters".toList fields).getD (.list [])) := by
  have hnobody : asTuple CastMember.ofValue (.list []) = .ok [] := rfl
  rw [fieldOr_eq_ok_iff hnobody, asTuple_ofValue_eq_ok_iff]

theorem Scene.ofFields_eq_ok_iff {fields : List (Text × Value)} {s : Scene} :
    ofFields (.object fields) = .ok s ↔ s.DescribedBy fields := by
  have hnowhere : asOptionalText .null = .ok none := rfl
  rw [ofFields, Checked.both_eq_ok_iff]
  simp only [fieldOr_eq_ok_iff hnowhere, asOptionalText_eq_ok_iff, castOr_eq_ok_iff]
  constructor
  · rintro ⟨location, cast, hlocation, hcast, rfl⟩
    exact ⟨hlocation, hcast⟩
  · intro h
    exact ⟨s.location, s.cast, h.location, h.cast, rfl⟩

/-! ## Records of commands -/

namespace Command

/-- A record that names the kind of the command and holds its fields, of which all but the place, the
speaker and the text may be left out where they are the default. -/
inductive DescribedBy : Command → Value → Prop
  | location {fields : List (Text × Value)} {place : Text} {colours : List Text}
      (hkind : lookup "type".toList fields = some (.text "location".toList))
      (hplace : lookup "location".toList fields = some (.text place))
      (hcolours : (lookup "backgrounds".toList fields).getD (.list []) = textsValue colours) :
      DescribedBy (.location place colours) (.object fields)
  | cast {fields : List (Text × Value)} {members : List CastMember}
      (hkind : lookup "type".toList fields = some (.text "characters".toList))
      (hmembers : CastDescribedBy members
        ((lookup "characters".toList fields).getD (.list []))) :
      DescribedBy (.cast members) (.object fields)
  | dialogue {fields : List (Text × Value)} {speaker text mood : Text} {scene : Scene}
      (hkind : lookup "type".toList fields = some (.text "dialogue".toList))
      (hspeaker : lookup "speaker".toList fields = some (.text speaker))
      (htext : lookup "text".toList fields = some (.text text))
      (hmood : (lookup "mood".toList fields).getD (.text neutral) = .text mood)
      (hscene : scene.DescribedBy fields) :
      DescribedBy (.dialogue speaker text mood scene) (.object fields)
  | action {fields : List (Text × Value)} {text : Text} {scene : Scene}
      (hkind : lookup "type".toList fields = some (.text "action".toList))
      (htext : lookup "text".toList fields = some (.text text))
      (hscene : scene.DescribedBy fields) :
      DescribedBy (.action text scene) (.object fields)

theorem Kind.ofName?_eq_some_iff {t : Text} {k : Kind} :
    ofName? t = some k ↔ t = k.name.toList := by
  constructor
  · intro h
    have hname := List.find?_some h
    exact (of_decide_eq_true hname).symm
  · rintro rfl
    cases k <;> rfl

theorem ofValue_object_eq_ok_iff {fields : List (Text × Value)} {c : Command} :
    ofValue (.object fields) = .ok c ↔ ∃ k : Kind,
      lookup "type".toList fields = some (.text k.name.toList) ∧
        ofFields k (.object fields) = .ok c := by
  have hfield : (Value.object fields).field? "type".toList = lookup "type".toList fields := rfl
  rw [ofValue, hfield]
  constructor
  · intro h
    split at h
    · cases h
    · next t htag =>
      split at h
      · cases h
      · next k hk =>
        rw [Kind.ofName?_eq_some_iff.mp hk] at htag
        exact ⟨k, htag, Checked.under_eq_ok_iff.mp h⟩
    · cases h
  · rintro ⟨k, htag, hk⟩
    simp only [htag, Kind.ofName?_eq_some_iff.mpr rfl]
    exact Checked.under_eq_ok_iff.mpr hk

theorem ofFields_location_eq_ok_iff {fields : List (Text × Value)} {c : Command} :
    ofFields .location (.object fields) = .ok c ↔ ∃ place colours,
      lookup "location".toList fields = some (.text place) ∧
        (lookup "backgrounds".toList fields).getD (.list []) = textsValue colours ∧
        c = .location place colours := by
  have hplain : asTuple asText (.list []) = .ok [] := rfl
  rw [ofFields, Checked.both_eq_ok_iff]
  simp only [field_eq_ok_iff, fieldOr_eq_ok_iff hplain, asText_eq_ok_iff,
    asTuple_asText_eq_ok_iff, exists_eq_right]

theorem ofFields_dialogue_eq_ok_iff {fields : List (Text × Value)} {c : Command} :
    ofFields .dialogue (.object fields) = .ok c ↔ ∃ speaker text mood scene,
      lookup "speaker".toList fields = some (.text speaker) ∧
        lookup "text".toList fields = some (.text text) ∧
        (lookup "mood".toList fields).getD (.text neutral) = .text mood ∧
        scene.DescribedBy fields ∧ c = .dialogue speaker text mood scene := by
  have hneutral : asText (.text neutral) = .ok neutral := rfl
  rw [ofFields]
  simp only [Checked.apply_eq_ok_iff, Checked.both_eq_ok_iff, field_eq_ok_iff,
    fieldOr_eq_ok_iff hneutral, asText_eq_ok_iff, exists_eq_right, Scene.ofFields_eq_ok_iff]
  constructor
  · rintro ⟨_, scene, ⟨_, mood, ⟨speaker, text, hspeaker, htext, rfl⟩, hmood, rfl⟩, hscene, rfl⟩
    exact ⟨speaker, text, mood, scene, hspeaker, htext, hmood, hscene, rfl⟩
  · rintro ⟨speaker, text, mood, scene, hspeaker, htext, hmood, hscene, rfl⟩
    exact ⟨_, scene, ⟨_, mood, ⟨speaker, text, hspeaker, htext, rfl⟩, hmood, rfl⟩, hscene, rfl⟩

theorem ofFields_action_eq_ok_iff {fields : List (Text × Value)} {c : Command} :
    ofFields .action (.object fields) = .ok c ↔ ∃ text scene,
      lookup "text".toList fields = some (.text text) ∧ scene.DescribedBy fields ∧
        c = .action text scene := by
  rw [ofFields, Checked.both_eq_ok_iff]
  simp only [field_eq_ok_iff, asText_eq_ok_iff, exists_eq_right, Scene.ofFields_eq_ok_iff]

theorem ofFields_cast_eq_ok_iff {fields : List (Text × Value)} {c : Command} :
    ofFields .cast (.object fields) = .ok c ↔ ∃ members,
      CastDescribedBy members ((lookup "characters".toList fields).getD (.list [])) ∧
        c = .cast members := by
  rw [ofFields, Checked.map_eq_ok_iff]
  simp only [castOr_eq_ok_iff]

/-- The records that are read as a command are those that describe it. -/
theorem ofValue_eq_ok_iff {v : Value} {c : Command} : ofValue v = .ok c ↔ c.DescribedBy v := by
  cases v with
  | object fields =>
    rw [ofValue_object_eq_ok_iff]
    constructor
    · rintro ⟨k, hkind, hfields⟩
      cases k with
      | location =>
        obtain ⟨place, colours, hplace, hcolours, rfl⟩ := ofFields_location_eq_ok_iff.mp hfields
        exact .location hkind hplace hcolours
      | cast =>
        obtain ⟨members, hmembers, rfl⟩ := ofFields_cast_eq_ok_iff.mp hfields
        exact .cast hkind hmembers
      | dialogue =>
        obtain ⟨speaker, text, mood, scene, hspeaker, htext, hmood, hscene, rfl⟩ :=
          ofFields_dialogue_eq_ok_iff.mp hfields
        exact .dialogue hkind hspeaker htext hmood hscene
      | action =>
        obtain ⟨text, scene, htext, hscene, rfl⟩ := ofFields_action_eq_ok_iff.mp hfields
        exact .action hkind htext hscene
    · intro h
      cases h with
      | location hkind hplace hcolours =>
        exact ⟨.location, hkind,
          ofFields_location_eq_ok_iff.mpr ⟨_, _, hplace, hcolours, rfl⟩⟩
      | cast hkind hmembers =>
        exact ⟨.cast, hkind, ofFields_cast_eq_ok_iff.mpr ⟨_, hmembers, rfl⟩⟩
      | dialogue hkind hspeaker htext hmood hscene =>
        exact ⟨.dialogue, hkind,
          ofFields_dialogue_eq_ok_iff.mpr ⟨_, _, _, _, hspeaker, htext, hmood, hscene, rfl⟩⟩
      | action hkind htext hscene =>
        exact ⟨.action, hkind, ofFields_action_eq_ok_iff.mpr ⟨_, _, htext, hscene, rfl⟩⟩
  | _ => exact iff_of_false nofun nofun

end Command

/-! ## Records that are written -/

theorem CastMember.describedBy_toValue (m : CastMember) : m.DescribedBy m.toValue :=
  ⟨_, rfl, rfl, rfl⟩

theorem castDescribedBy_toValue (ms : List CastMember) :
    CastDescribedBy ms (.list (ms.map CastMember.toValue)) :=
  ⟨_, rfl, List.forall₂_map_left_iff.mpr
    (List.forall₂_same.mpr fun m _ => m.describedBy_toValue)⟩

namespace Command

/-- The record that is written for a command describes it. -/
theorem describedBy_toValue (c : Command) : c.DescribedBy c.toValue := by
  cases c with
  | location place colours => exact .location rfl rfl rfl
  | cast members => exact .cast rfl (castDescribedBy_toValue members)
  | dialogue speaker text mood scene =>
    exact .dialogue rfl rfl rfl rfl ⟨rfl, castDescribedBy_toValue scene.cast⟩
  | action text scene => exact .action rfl rfl ⟨rfl, castDescribedBy_toValue scene.cast⟩

theorem listOfValue_eq_ok_iff {v : Value} {cs : List Command} :
    listOfValue v = .ok cs ↔
      ∃ vs, v = .list vs ∧ List.Forall₂ (fun v c => c.DescribedBy v) vs cs := by
  cases v <;> simp [listOfValue, Checked.fail, items_eq_ok_iff, ofValue_eq_ok_iff]

/-- Commands that leave as records enter as what they were. The values that are read as commands are
those with a record for each command that describes it, with fields left out, fields nobody knows
and fields in any order, and what one is read as leaves and enters unchanged. -/
theorem listOfValue_listToValue :
    (∀ cs, listOfValue (listToValue cs) = .ok cs) ∧
      (∀ v cs, listOfValue v = .ok cs ↔
        ∃ vs, v = .list vs ∧ List.Forall₂ (fun v c => c.DescribedBy v) vs cs) ∧
      ∀ v cs, listOfValue v = .ok cs → listOfValue (listToValue cs) = listOfValue v := by
  have hwritten (cs : List Command) : listOfValue (listToValue cs) = .ok cs := by
    refine listOfValue_eq_ok_iff.mpr ⟨_, rfl, ?_⟩
    rw [List.forall₂_map_left_iff, List.forall₂_same]
    exact fun c _ => c.describedBy_toValue
  refine ⟨hwritten, fun v cs => listOfValue_eq_ok_iff, fun v cs hread => ?_⟩
  rw [hread, hwritten]

/-- A line whose mood and place are left out, with a field nobody knows and the kind at the end. -/
theorem listOfValue_listToValue_line :
    let member := objectOf [("name", .text ['a'])]
    let record := objectOf [("characters", .list [member]), ("track", .int 1),
      ("text", .text ['b']), ("speaker", .text ['A']), ("type", .text "dialogue".toList)]
    let line := dialogue ['A'] ['b'] neutral ⟨none, [⟨['a'], neutral⟩]⟩
    listOfValue (.list [record]) = .ok [line] ∧
      listOfValue (listToValue [line]) = listOfValue (.list [record]) := by
  intro member record line
  have hread : listOfValue (.list [record]) = .ok [line] := rfl
  obtain ⟨-, -, hagain⟩ := listOfValue_listToValue
  exact ⟨hread, hagain _ _ hread⟩

end Command

end StoryPlayer
