import Mathlib.Data.Option.Basic
import StoryPlayer.Proofs.Script.Growing
import StoryPlayer.Proofs.Script.Proper

/-!
# Reading a written script

Reading gives `Readable` commands and choices: every command is proper in the scene that the
commands before it leave behind. What is readable can be written and read again, and the same
commands and choices come back, if no speaker bears the name of a directive. So reading takes back
exactly what is `WellFormed`. A speaker with such a name can be read, since blanks may stand before
the colon, but it cannot be written.
-/

namespace StoryPlayer

/-! ## The scene behind commands -/

/-- The place to which a command moves the story. -/
def Command.place? : Command → Option Text
  | location place _ => some place
  | _ => none

/-- The members whom a command puts on stage. -/
def Command.members? : Command → Option (List CastMember)
  | cast members => some members
  | _ => none

/-- The scene that a dialogue or action carries. -/
def Command.snapshot? : Command → Option Scene
  | dialogue _ _ _ scene | action _ scene => some scene
  | _ => none

/-- The scene behind commands: the place and the members of the last commands that set them, and
those of the scene `s` where no command does. -/
def sceneBehind (s : Scene) (cs : List Command) : Scene :=
  ⟨(cs.filterMap Command.place?).getLast?.or s.location,
    (cs.filterMap Command.members?).getLast?.getD s.cast⟩

theorem sceneBehind_append (s : Scene) (cs ds : List Command) :
    sceneBehind s (cs ++ ds) = sceneBehind (sceneBehind s cs) ds := by
  unfold sceneBehind
  rw [List.filterMap_append, List.filterMap_append, List.getLast?_append, List.getLast?_append,
    Option.or_assoc, Option.getD_or]

/-- A line changes the scene only through its command. -/
theorem Line.scene_eq (l : Line) (s : Scene) : l.scene s = sceneBehind s (l.command? s).toList := by
  cases l <;> rfl

theorem Line.choices?_eq_none {l : Line} {s : Scene} {c : Command} (h : l.command? s = some c) :
    l.choices? = none := by
  cases l with
  | choices payload => cases h
  | _ => rfl

/-! ## Commands that a script can give -/

/-- Every command is proper in the scene that is set where it stands. -/
def ProperFrom (s : Scene) (cs : List Command) : Prop :=
  ∀ front c back, cs = front ++ c :: back → c.IsProper (sceneBehind s front)

/-- Commands and choices that reading a script from the scene `s` can give. -/
structure Readable (s : Scene) (cs : List Command) (choices : Option (List Text)) : Prop where
  commands : ProperFrom s cs
  choices : ∀ ts ∈ choices, ProperChoices ts

/-- Commands and choices that can be written and read again: no speaker bears the name of a
directive. -/
structure WellFormed (s : Scene) (cs : List Command) (choices : Option (List Text)) : Prop
    extends Readable s cs choices where
  speakers : ∀ c ∈ cs, ¬c.IsMistakable

theorem Command.IsProper.snapshot {s scene : Scene} {c : Command} (h : c.IsProper s)
    (hscene : c.snapshot? = some scene) : scene = s := by
  cases h with
  | location | cast => cases hscene
  | dialogue | action =>
    cases hscene
    rfl

theorem properFrom_nil (s : Scene) : ProperFrom s [] := by
  intro front c back h
  simp at h

theorem properFrom_cons {s : Scene} {c : Command} {cs : List Command} :
    ProperFrom s (c :: cs) ↔ c.IsProper s ∧ ProperFrom (sceneBehind s [c]) cs := by
  constructor
  · intro h
    refine ⟨h [] c cs rfl, fun front d back hcs => ?_⟩
    rw [← sceneBehind_append]
    exact h ([c] ++ front) d back (congrArg (c :: ·) hcs)
  · rintro ⟨hc, hcs⟩ front d back hsplit
    cases front with
    | nil =>
      obtain ⟨rfl, rfl⟩ := List.cons.inj hsplit
      exact hc
    | cons e front =>
      obtain ⟨rfl, hrest⟩ := List.cons.inj hsplit
      rw [← List.singleton_append, sceneBehind_append]
      exact hcs front d back hrest

theorem Reading.ofTexts_cons (s : Scene) (l : Text) (ls : List Text) :
    ofTexts s (l :: ls) =
      ⟨((Line.ofText l).command? s).toList ++ (ofTexts ((Line.ofText l).scene s) ls).commands,
        (ofTexts ((Line.ofText l).scene s) ls).scene,
        (ofTexts ((Line.ofText l).scene s) ls).choices <|> (Line.ofText l).choices?⟩ :=
  rfl

/-- Lines give commands that are proper one after another. -/
theorem Reading.ofTexts_readable {ls : List Text} (h : ∀ l ∈ ls, '\n' ∉ l) (s : Scene) :
    Readable s (ofTexts s ls).commands (ofTexts s ls).choices := by
  induction ls generalizing s with
  | nil => exact ⟨properFrom_nil s, nofun⟩
  | cons l ls ih =>
    obtain ⟨hcommand, hchoices⟩ := Line.ofText_proper (h l List.mem_cons_self) s
    have hrest := ih (fun m hm => h m (List.mem_cons_of_mem l hm)) ((Line.ofText l).scene s)
    rw [ofTexts_cons]
    constructor
    · have hproper := hrest.commands
      rw [Line.scene_eq] at hproper ⊢
      cases hc : (Line.ofText l).command? s with
      | none =>
        rw [hc] at hproper
        exact hproper
      | some c =>
        rw [hc] at hproper
        exact properFrom_cons.mpr ⟨hcommand c hc, hproper⟩
    · intro ts hts
      rcases (Option.orElse_eq_some _ _ ts).mp hts with hts | ⟨-, hts⟩
      · exact hrest.choices ts hts
      · exact hchoices ts hts

theorem readScript_readable (t : Text) (s : Scene) :
    Readable s (readScript t s).commands (readScript t s).choices :=
  Reading.ofTexts_readable (fun _ hl => Text.not_mem_of_mem_pieces hl) s

/-- A script has speakers who bear the name of a directive just if its lines hide directives. -/
theorem Reading.ofTexts_plain_iff (s : Scene) (ls : List Text) :
    (∀ c ∈ (ofTexts s ls).commands, ¬c.IsMistakable) ↔ ∀ l ∈ ls, ¬Line.HidesDirective l := by
  induction ls generalizing s with
  | nil => simp [ofTexts, ofLines]
  | cons l ls ih =>
    have hline := not_congr (Line.command?_isMistakable_iff l s)
    have hrest := ih ((Line.ofText l).scene s)
    rw [ofTexts_cons, List.forall_mem_append, List.forall_mem_cons, hrest, ← hline]
    simp

/-! ## Reading what is written -/

theorem Reading.length_commands_le (s : Scene) (ls : List Text) :
    (ofTexts s ls).commands.length ≤ ls.length := by
  induction ls generalizing s with
  | nil => exact Nat.le_refl 0
  | cons l ls ih =>
    have hrest := ih ((Line.ofText l).scene s)
    have hone : ((Line.ofText l).command? s).toList.length ≤ 1 := by
      cases (Line.ofText l).command? s <;> simp
    rw [ofTexts_cons, List.length_append, List.length_cons]
    omega

theorem Reading.ofTexts_lines {s : Scene} {cs : List Command} (h : ProperFrom s cs)
    (hplain : ∀ c ∈ cs, ¬c.IsMistakable) :
    ofTexts s (cs.map Command.line) = ⟨cs, sceneBehind s cs, none⟩ := by
  induction cs generalizing s with
  | nil => rfl
  | cons c cs ih =>
    obtain ⟨hc, hcs⟩ := properFrom_cons.mp h
    have hread := hc.reads (hplain c List.mem_cons_self)
    have hscene : (Line.ofText c.line).scene s = sceneBehind s [c] := by
      rw [Line.scene_eq, hread, Option.toList_some]
    have hrest := ih hcs fun d hd => hplain d (List.mem_cons_of_mem c hd)
    rw [List.map_cons, ofTexts_cons, hscene, hrest, hread, Line.choices?_eq_none hread,
      ← sceneBehind_append]
    rfl

/-- Written lines that give their commands back are not mistaken for directives. -/
theorem Reading.not_isMistakable_of_ofTexts_lines {s : Scene} {cs : List Command}
    (h : ProperFrom s cs) (hread : (ofTexts s (cs.map Command.line)).commands = cs) :
    ∀ c ∈ cs, ¬c.IsMistakable := by
  induction cs generalizing s with
  | nil => exact nofun
  | cons c cs ih =>
    obtain ⟨hc, hcs⟩ := properFrom_cons.mp h
    rw [List.map_cons, ofTexts_cons, Line.scene_eq] at hread
    cases hd : (Line.ofText c.line).command? s with
    | none =>
      -- A line that is lost cannot be made up for by the other lines.
      have hlength := length_commands_le (sceneBehind s []) (cs.map Command.line)
      rw [hd, Option.toList_none, List.nil_append] at hread
      rw [hread, List.length_cons, List.length_map] at hlength
      omega
    | some d =>
      rw [hd] at hread
      obtain ⟨rfl, hrest⟩ := List.cons.inj hread
      exact List.forall_mem_cons.mpr ⟨hc.not_isMistakable hd, ih hcs hrest⟩

namespace Readable

variable {s : Scene} {cs : List Command} {choices : Option (List Text)}

theorem readScript_writeScript (h : Readable s cs choices) :
    readScript (writeScript cs choices) s =
      (Reading.ofTexts s (cs.map Command.line)).append
        ⟨[], (Reading.ofTexts s (cs.map Command.line)).scene, choices⟩ := by
  have hlines : ∀ l ∈ cs.map Command.line, '\n' ∉ l := by
    intro l hl
    obtain ⟨c, hc, rfl⟩ := List.mem_map.mp hl
    obtain ⟨front, back, hsplit⟩ := List.append_of_mem hc
    exact (h.commands front c back hsplit).newline_not_mem
  unfold writeScript
  cases choices with
  | none =>
    rw [Option.map_none, Option.toList_none, List.append_nil, Reading.append_blank]
    by_cases hnone : cs = []
    · subst hnone
      rfl
    · exact readScript_join (by simpa using hnone) hlines s
  | some ts =>
    have hts := h.choices ts rfl
    have hall : ∀ l ∈ cs.map Command.line ++ [choicesLine ts], '\n' ∉ l :=
      List.forall_mem_append.mpr ⟨hlines, List.forall_mem_singleton.mpr hts.newline_not_mem⟩
    have hlast : ∀ s, Reading.ofTexts s [choicesLine ts] = ⟨[], s, some ts⟩ := by
      intro s
      rw [Reading.ofTexts_cons, hts.reads, Line.ofText_choicesLine]
      rfl
    rw [Option.map_some, Option.toList_some, readScript_join (by simp) hall,
      Reading.ofTexts_append, hlast]

/-- What can be read is written and read again without loss just if no speaker bears the name of a
directive. -/
theorem rereads_iff (h : Readable s cs choices) :
    ((readScript (writeScript cs choices) s).commands = cs ∧
      (readScript (writeScript cs choices) s).choices = choices) ↔ ∀ c ∈ cs, ¬c.IsMistakable := by
  rw [h.readScript_writeScript]
  constructor
  · rintro ⟨hread, -⟩
    rw [Reading.append, List.append_nil] at hread
    exact Reading.not_isMistakable_of_ofTexts_lines h.commands hread
  · intro hplain
    rw [Reading.ofTexts_lines h.commands hplain]
    exact ⟨List.append_nil cs, by cases choices <;> rfl⟩

end Readable

/-- Reading takes back exactly what is well-formed. All that is read is well-formed but for speakers
who bear the name of a directive, and with each of these names there are some. -/
theorem readScript_writeScript_iff (s : Scene) :
    (∀ cs choices,
      (readScript (writeScript cs choices) s).commands = cs ∧
          (readScript (writeScript cs choices) s).choices = choices ↔
        WellFormed s cs choices) ∧
      (∀ t, Readable s (readScript t s).commands (readScript t s).choices) ∧
      ∀ name ∈ Line.directiveNames, ∃ t text mood,
        (readScript t s).commands = [.dialogue name text mood s] := by
  refine ⟨fun cs choices => ⟨?_, ?_⟩, fun t => readScript_readable t s, ?_⟩
  · rintro ⟨hcommands, hchoices⟩
    have hreadable := readScript_readable (writeScript cs choices) s
    rw [hcommands, hchoices] at hreadable
    exact ⟨hreadable, hreadable.rereads_iff.mp ⟨hcommands, hchoices⟩⟩
  · intro h
    exact h.toReadable.rereads_iff.mpr h.speakers
  · intro name hname
    -- A blank before the colon hides the directive from the first reading.
    refine ⟨name ++ [' ', ':'], [], moodOf name s.cast, ?_⟩
    simp only [Line.directiveNames, List.mem_cons, List.not_mem_nil, or_false] at hname
    rcases hname with rfl | rfl | rfl <;> rfl

/-- What a script gives comes back when it is written and read again, unless one of its lines hides
a directive: then the line is written as the directive. -/
theorem readScript_again_iff (t : Text) (s : Scene) :
    (readScript (writeScript (readScript t s).commands (readScript t s).choices) s).commands =
          (readScript t s).commands ∧
        (readScript (writeScript (readScript t s).commands (readScript t s).choices) s).choices =
          (readScript t s).choices ↔
      ∀ l ∈ Text.lines t, ¬Line.HidesDirective l := by
  rw [(readScript_readable t s).rereads_iff, readScript_eq]
  exact Reading.ofTexts_plain_iff s (Text.lines t)

/-- A line of a speaker that is written and read again sets the location of the lines behind it. -/
theorem readScript_again_location :
    let script :=
      ['L', 'O', 'C', ' ', ':', ' ', 'b', 'a', 'y', '\n', 'A', 'n', 'n', ':', ' ', 'H', 'i']
    let read := readScript script Scene.empty
    read.commands =
        [.dialogue ['L', 'O', 'C'] ['b', 'a', 'y'] neutral Scene.empty,
          .dialogue ['A', 'n', 'n'] ['H', 'i'] neutral Scene.empty] ∧
      (readScript (writeScript read.commands read.choices) Scene.empty).commands =
        [.location ['b', 'a', 'y'] (coloursOf ['b', 'a', 'y']),
          .dialogue ['A', 'n', 'n'] ['H', 'i'] neutral ⟨some ['b', 'a', 'y'], []⟩] :=
  ⟨rfl, rfl⟩

end StoryPlayer
