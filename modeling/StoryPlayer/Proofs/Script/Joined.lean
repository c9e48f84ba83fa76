import StoryPlayer.Proofs.Script.RoundTrip

/-!
# Scripts one behind the other

A script is read line by line, and all that a line leaves to the ones behind it is the scene. So
reading a script and then another from the scene at its end gives what reading the two as one text
gives. Lines that list choices leave not even that: without them a script gives the same commands
and the same scene.
-/

namespace StoryPlayer

namespace Line

/-- Whether a line lists choices, whatever blanks surround it. -/
def listsChoices (l : Text) : Bool :=
  choicesMark.isPrefixOf (Text.trim l)

theorem listsChoices_iff {l : Text} :
    listsChoices l = true ↔ ∃ payload, Text.trim l = choicesMark ++ payload := by
  rw [listsChoices, List.isPrefixOf_iff_prefix]
  exact ⟨fun ⟨payload, h⟩ => ⟨payload, h.symm⟩, fun ⟨payload, h⟩ => ⟨payload, h.symm⟩⟩

/-- How a line starts says whether it lists choices. -/
theorem ofText_eq_choices_iff {l payload : Text} :
    ofText l = .choices payload ↔ Text.trim l = choicesMark ++ payload :=
  @ofText_eq_line_iff .choices l payload

theorem choices?_isSome (l : Text) : (ofText l).choices?.isSome = listsChoices l := by
  cases hlists : listsChoices l with
  | true =>
    obtain ⟨payload, hl⟩ := listsChoices_iff.mp hlists
    rw [ofText_eq_choices_iff.mpr hl]
    rfl
  | false =>
    cases hline : ofText l with
    | choices payload =>
      have hsome := listsChoices_iff.mpr ⟨payload, ofText_eq_choices_iff.mp hline⟩
      cases hlists.symm.trans hsome
    | _ => rfl

/-- A line that lists choices gives nothing else. -/
theorem of_listsChoices {l : Text} (h : listsChoices l = true) (s : Scene) :
    (ofText l).command? s = none ∧ (ofText l).scene s = s := by
  obtain ⟨payload, hl⟩ := listsChoices_iff.mp h
  rw [ofText_eq_choices_iff.mpr hl]
  exact ⟨rfl, rfl⟩

end Line

/-- A text without its lines that list choices. -/
def withoutChoices (t : Text) : Text :=
  Text.join ['\n'] ((Text.lines t).filter fun l => !Line.listsChoices l)

/-- Without the lines that list choices, lines give the same but for the choices. -/
theorem Reading.ofTexts_filter (s : Scene) (ls : List Text) :
    ofTexts s (ls.filter fun l => !Line.listsChoices l) = { ofTexts s ls with choices := none } := by
  induction ls generalizing s with
  | nil => rfl
  | cons l ls ih =>
    have hsome := Line.choices?_isSome l
    cases hlists : Line.listsChoices l with
    | true =>
      obtain ⟨hcommand, hscene⟩ := Line.of_listsChoices hlists s
      rw [List.filter_cons_of_neg (by simp [hlists]), ih, ofTexts_cons, hcommand, hscene]
      rfl
    | false =>
      have hnone : (Line.ofText l).choices? = none := by
        rwa [hlists, Option.isSome_eq_false_iff, Option.isNone_iff_eq_none] at hsome
      rw [List.filter_cons_of_pos (by simp [hlists]), ofTexts_cons, ofTexts_cons, ih, hnone]
      rfl

theorem readScript_withoutChoices (t : Text) (s : Scene) :
    readScript (withoutChoices t) s = { readScript t s with choices := none } := by
  rw [readScript_eq t, ← Reading.ofTexts_filter, withoutChoices]
  by_cases hnone : ((Text.lines t).filter fun l => !Line.listsChoices l) = []
  · -- Where no line is left, the text is empty and still has one line, a blank one.
    rw [hnone]
    rfl
  · refine readScript_join hnone (fun l hl => ?_) s
    exact Text.not_mem_of_mem_pieces (List.mem_of_mem_filter hl)

/-- Reading goes on where it stopped. A script that stands behind another gives its commands behind
those of the other, read from the scene at its end, and leaves its own scene; the choices are its
own if a line of it lists any, even none at all, and those of the other if not. So lines that list
choices change neither commands nor scene, wherever they stand. -/
theorem readScript_append (a b : Text) (s : Scene) :
    let ra := readScript a s
    let rb := readScript b ra.scene
    readScript (a ++ '\n' :: b) s =
        ⟨ra.commands ++ rb.commands, rb.scene, rb.choices <|> ra.choices⟩ ∧
      ∀ t, readScript (withoutChoices t) s = { readScript t s with choices := none } := by
  intro ra rb
  refine ⟨?_, fun t => readScript_withoutChoices t s⟩
  rw [readScript_eq, Text.lines_append_newline, Reading.ofTexts_append]
  rfl

/-- Choices that are none at all take the place of those that were listed before. -/
example :
    (readScript ['S', 'T', 'P', ':', 'a', '\n', 'S', 'T', 'P', ':'] .empty).choices = some [] :=
  rfl

end StoryPlayer
