import StoryPlayer.Proofs.Script.Joined

/-!
# What every line of a script gives

Every line that is not blank and lists no choices gives one command, and no other line gives any. A
directive says what its line says. A dialogue or action says besides where the story is and who is on
stage, however far back that was set: it carries the place of the nearest location before it and the
members of the nearest cast before it, and a speaker has the mood in which these members show them.
-/

namespace StoryPlayer

namespace Line

/-- Whether a line gives a command: it is not blank and lists no choices. -/
def isTold (l : Text) : Bool :=
  !(Text.trim l).isEmpty && !listsChoices l

/-- What a trimmed line says of its command. The scene and the mood are not said by the line. -/
inductive Says : Text → Command → Prop
  | location {payload : Text} :
      Says (locationMark ++ payload)
        (.location (Text.trim payload) (coloursOf (Text.trim payload)))
  | cast {payload : Text} : Says (castMark ++ payload) (.cast (castOf payload))
  | dialogue {label payload mood : Text} {scene : Scene} (hcolon : ':' ∉ label)
      (hname : label ∉ directiveNames) :
      Says (label ++ ':' :: payload)
        (.dialogue (Text.trim label) (Text.trim payload) mood scene)
  | action {t : Text} {scene : Scene} (hcolon : ':' ∉ t) : Says t (.action t scene)

theorem command?_of_not_isTold {l : Text} (h : isTold l = false) (s : Scene) :
    (ofText l).command? s = none := by
  rcases Bool.and_eq_false_iff.mp h with hblank | hlists
  · have hl : Text.trim l = [] := by simpa using hblank
    rw [ofText, hl]
    rfl
  · exact (of_listsChoices (by simpa using hlists) s).1

/-- A line that gives a command says which. -/
theorem exists_says {l : Text} (h : isTold l = true) (s : Scene) :
    ∃ c, (ofText l).command? s = some c ∧ Says (Text.trim l) c := by
  obtain ⟨hne, hlists⟩ : Text.trim l ≠ [] ∧ listsChoices l = false := by
    simpa [isTold] using h
  have hchoices : ∀ payload, ofText l ≠ .choices payload := fun payload hline => by
    have hyes := listsChoices_iff.mpr ⟨payload, ofText_eq_choices_iff.mp hline⟩
    cases hlists.symm.trans hyes
  unfold ofText at hchoices ⊢
  generalize Text.trim l = t at hne hchoices ⊢
  rcases ofTrimmed_cases t with
    ⟨hempty, -⟩ | ⟨-, hcolon, hline⟩ | ⟨label, payload, hcolon, rfl, hline⟩
  · exact absurd hempty hne
  · rw [hline]
    exact ⟨_, rfl, .action hcolon⟩
  · rw [hline] at hchoices ⊢
    unfold ofLabel at hchoices ⊢
    split_ifs at hchoices ⊢ with hlocation hcast hchoice
    · subst hlocation
      exact ⟨_, rfl, .location⟩
    · subst hcast
      exact ⟨_, rfl, .cast⟩
    · exact absurd rfl (hchoices payload)
    · refine ⟨_, rfl, .dialogue hcolon ?_⟩
      rw [mem_directiveNames_iff]
      simp [hlocation, hcast, hchoice]

end Line

namespace Reading

/-- The commands are those of the lines that give one, in their order. -/
theorem ofTexts_says (s : Scene) (ls : List Text) :
    List.Forall₂ (fun l c => Line.Says (Text.trim l) c) (ls.filter Line.isTold)
      (ofTexts s ls).commands := by
  induction ls generalizing s with
  | nil => exact .nil
  | cons l ls ih =>
    have hrest := ih ((Line.ofText l).scene s)
    rw [ofTexts_cons]
    cases htold : Line.isTold l with
    | false =>
      rw [List.filter_cons_of_neg (by simp [htold]), Line.command?_of_not_isTold htold s]
      exact hrest
    | true =>
      obtain ⟨c, hc, hsays⟩ := Line.exists_says htold s
      rw [List.filter_cons_of_pos htold, hc]
      exact .cons hsays hrest

/-- The scene at the end is the one behind the commands. -/
theorem ofTexts_scene (s : Scene) (ls : List Text) :
    (ofTexts s ls).scene = sceneBehind s (ofTexts s ls).commands := by
  induction ls generalizing s with
  | nil => rfl
  | cons l ls ih =>
    rw [ofTexts_cons]
    dsimp only
    rw [ih, Line.scene_eq, sceneBehind_append]

end Reading

/-- The commands of a script are those of its lines that are not blank and list no choices, one for
each and in their order. Every dialogue and action carries the place of the last location before it
and the members of the last cast before it, those of the scene in which reading began where there is
none, and every speaker is in the mood of the last of these members who bears the speaker's name up
to case, or else neutral. The scene at the end is that of the last such commands of all. -/
theorem readScript_snapshots (t : Text) (s : Scene) :
    let r := readScript t s
    List.Forall₂ (fun l c => Line.Says (Text.trim l) c) ((Text.lines t).filter Line.isTold)
        r.commands ∧
      (∀ front c back, r.commands = front ++ c :: back →
        ∀ scene, c.snapshot? = some scene → scene = sceneBehind s front) ∧
      (∀ speaker text mood scene, .dialogue speaker text mood scene ∈ r.commands →
        ShowsIn scene.cast speaker mood) ∧
      r.scene = sceneBehind s r.commands := by
  intro r
  have hproper : ProperFrom s r.commands := (readScript_readable t s).commands
  refine ⟨Reading.ofTexts_says s (Text.lines t), ?_, ?_, Reading.ofTexts_scene s (Text.lines t)⟩
  · intro front c back hsplit scene hscene
    exact (hproper front c back hsplit).snapshot hscene
  · intro speaker text mood scene hmem
    obtain ⟨front, back, hsplit⟩ := List.append_of_mem hmem
    cases hproper front _ back hsplit with
    | dialogue hspeaker hcolon htext hmood => exact hmood

end StoryPlayer
