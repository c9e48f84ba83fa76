import StoryPlayer.Proofs.Script.Snapshots
import StoryPlayer.Script.Check

/-!
# What a check finds

A check goes through the lines of a script without reading any commands. What it finds is told by
the reading all the same. Reading the lines one by one, each from the scene that the one before it
left, gives the commands of the script and tells the line of each of them. A mistake is a command
without its subject, and a doubt a dialogue without words or a line of choices that lists none.
-/

namespace StoryPlayer

/-- What is wrong with a command that lacks its subject. -/
def Command.fault? : Command → Option String
  | location [] _ => some "Empty location"
  | cast [] => some "Empty characters list"
  | dialogue [] _ _ _ => some "Missing speaker name"
  | _ => none

/-- What is remarked about a command that may be as meant. -/
def Command.remark? : Command → Option String
  | dialogue _ [] _ _ => some "Empty dialogue"
  | _ => none

/-- What is remarked about the reading of a line. -/
def Reading.remarks (r : Reading) : List String :=
  r.commands.filterMap Command.remark? ++
    if r.choices = some [] then ["Empty story transition points"] else []

/-- The readings of lines, each from the scene that the one before it leaves, with the numbers of
the lines from `n`. -/
def lineReadings (n : Nat) (s : Scene) : List Text → List (Nat × Reading)
  | [] => []
  | l :: ls => (n, readScript l s) :: lineReadings (n + 1) (readScript l s).scene ls

/-- The commands that readings give, each with the number of its line. -/
def numberedCommands (rs : List (Nat × Reading)) : List (Nat × Command) :=
  rs.flatMap fun r => r.2.commands.map fun c => (r.1, c)

/-! ## One line -/

/-- What is said about a line bears its number in decimal digits. -/
theorem atLine_eq (n : Nat) (remark : String) :
    atLine n remark = ("Line " ++ toString n ++ ": " ++ remark).toList := by
  simp [atLine, Text.ofNat, Nat.repr]

theorem readScript_line {l : Text} (h : '\n' ∉ l) (s : Scene) :
    readScript l s =
      ⟨((Line.ofText l).command? s).toList, (Line.ofText l).scene s, (Line.ofText l).choices?⟩ := by
  rw [readScript_eq, Text.lines, Text.pieces_eq_singleton h, Reading.ofTexts_cons]
  simp [Reading.ofTexts, Reading.ofLines]

/-- A line says the command that it gives. -/
theorem says_of_mem_line {l : Text} (h : '\n' ∉ l) {s : Scene} {c : Command}
    (hc : c ∈ (readScript l s).commands) : Line.Says (Text.trim l) c := by
  rw [readScript_line h, Option.mem_toList] at hc
  cases htold : Line.isTold l with
  | false =>
    rw [Line.command?_of_not_isTold htold s] at hc
    cases hc
  | true =>
    obtain ⟨d, hd, hsays⟩ := Line.exists_says htold s
    cases hd.symm.trans hc
    exact hsays

/-- A line lists no choices although it is there for them. -/
theorem choices_line_iff {l : Text} (h : '\n' ∉ l) (s : Scene) :
    (readScript l s).choices = some [] ↔
      ∃ payload, Text.trim l = Line.choicesMark ++ payload ∧ choicesOf payload = [] := by
  rw [readScript_line h]
  constructor
  · intro hnone
    cases hline : Line.ofText l with
    | choices payload =>
      rw [hline] at hnone
      exact ⟨payload, Line.ofText_eq_choices_iff.mp hline, Option.some.inj hnone⟩
    | _ =>
      rw [hline] at hnone
      cases hnone
  · rintro ⟨payload, hl, hnone⟩
    rw [Line.ofText_eq_choices_iff.mpr hl]
    exact congrArg some hnone

namespace Line

/-- The mistake in a line is the fault of its command. -/
theorem mistake?_message (l : Line) (s : Scene) :
    l.mistake?.map Mistake.message = (l.command? s).bind Command.fault? := by
  cases l with
  | location payload =>
    cases hplace : Text.trim payload <;> simp [mistake?, command?, hplace, Command.fault?,
      Mistake.message]
  | cast payload =>
    cases hcast : castOf payload <;> simp [mistake?, command?, hcast, Command.fault?,
      Mistake.message]
  | dialogue speaker text =>
    cases speaker <;> simp [mistake?, command?, Command.fault?, Mistake.message]
  | _ => rfl

/-- The doubt about a line is what is remarked about its reading. -/
theorem doubt?_message (n : Nat) (l : Line) (s : Scene) :
    (l.doubt? n).toList.map Doubt.message =
      (Reading.remarks ⟨(l.command? s).toList, l.scene s, l.choices?⟩).map (atLine n) := by
  cases l with
  | dialogue speaker text => cases text <;> rfl
  | choices payload =>
    cases hlisted : choicesOf payload with
    | nil =>
      have hdoubt : (choices payload).doubt? n = some (.emptyChoices n) := if_pos hlisted
      have hremarks : Reading.remarks ⟨[], s, some (choicesOf payload)⟩ =
          ["Empty story transition points"] := if_pos (congrArg some hlisted)
      rw [hdoubt]
      exact (congrArg (List.map (atLine n)) hremarks).symm
    | cons choice more =>
      have hdoubt : (choices payload).doubt? n = none := if_neg (by simp [hlisted])
      have hremarks : Reading.remarks ⟨[], s, some (choicesOf payload)⟩ = [] :=
        if_neg (by simp [hlisted])
      rw [hdoubt]
      exact (congrArg (List.map (atLine n)) hremarks).symm
  | _ => rfl

end Line

/-! ## All lines -/

theorem numberedCommands_cons (n : Nat) (r : Reading) (rs : List (Nat × Reading)) :
    numberedCommands ((n, r) :: rs) = r.commands.map (fun c => (n, c)) ++ numberedCommands rs :=
  List.flatMap_cons

theorem lineReadings_numbers (n : Nat) (s : Scene) (ls : List Text) :
    (lineReadings n s ls).map Prod.fst = List.range' n ls.length := by
  induction ls generalizing n s with
  | nil => rfl
  | cons l ls ih =>
    rw [lineReadings, List.map_cons, ih, List.length_cons, List.range'_succ]

/-- Behind every reading is the line that bears its number. -/
theorem exists_line_of_mem {n : Nat} {s : Scene} {ls : List Text} {r : Nat × Reading}
    (h : r ∈ lineReadings n s ls) :
    ∃ i l s', r.1 = i + n ∧ ls[i]? = some l ∧ r.2 = readScript l s' := by
  induction ls generalizing n s with
  | nil => cases h
  | cons l ls ih =>
    rcases List.mem_cons.mp h with rfl | h
    · exact ⟨0, l, s, (Nat.zero_add n).symm, rfl, rfl⟩
    · obtain ⟨i, m, s', hnumber, hm, hr⟩ := ih h
      exact ⟨i + 1, m, s', by omega, hm, hr⟩

theorem lineReadings_cons {l : Text} (h : '\n' ∉ l) (n : Nat) (s : Scene) (ls : List Text) :
    lineReadings n s (l :: ls) =
      (n, ⟨((Line.ofText l).command? s).toList, (Line.ofText l).scene s,
          (Line.ofText l).choices?⟩) ::
        lineReadings (n + 1) ((Line.ofText l).scene s) ls := by
  rw [lineReadings, readScript_line h]

/-- The commands that the lines give are those of the script. -/
theorem commands_lineReadings {ls : List Text} (h : ∀ l ∈ ls, '\n' ∉ l) (n : Nat) (s : Scene) :
    (numberedCommands (lineReadings n s ls)).map Prod.snd = (Reading.ofTexts s ls).commands := by
  induction ls generalizing n s with
  | nil => rfl
  | cons l ls ih =>
    obtain ⟨hl, hls⟩ := List.forall_mem_cons.mp h
    rw [lineReadings_cons hl, numberedCommands_cons, List.map_append, ih hls,
      Reading.ofTexts_cons, List.map_map]
    exact congrArg (· ++ _) (List.map_id _)

theorem errors_lineReadings {ls : List Text} (h : ∀ l ∈ ls, '\n' ∉ l) (n : Nat) (s : Scene) :
    (mistakesFrom n (ls.map Line.ofText)).map (fun m => atLine m.1 m.2.message) =
      (numberedCommands (lineReadings n s ls)).filterMap fun c => c.2.fault?.map (atLine c.1) := by
  induction ls generalizing n s with
  | nil => rfl
  | cons l ls ih =>
    obtain ⟨hl, hls⟩ := List.forall_mem_cons.mp h
    have hline := (Line.ofText l).mistake?_message s
    rw [lineReadings_cons hl, numberedCommands_cons, List.filterMap_append, ← ih hls,
      List.map_cons, mistakesFrom, List.map_append]
    refine congrArg (· ++ _) ?_
    cases hcommand : (Line.ofText l).command? s with
    | none =>
      rw [hcommand, Option.bind_none, Option.map_eq_none_iff] at hline
      rw [hline]
      rfl
    | some c =>
      rw [hcommand, Option.bind_some] at hline
      cases hmistake : (Line.ofText l).mistake? <;>
        simp [← hline, hmistake]

theorem warnings_lineReadings {ls : List Text} (h : ∀ l ∈ ls, '\n' ∉ l) (n : Nat) (s : Scene) :
    (doubtsFrom n (ls.map Line.ofText)).map Doubt.message =
      (lineReadings n s ls).flatMap fun r => r.2.remarks.map (atLine r.1) := by
  induction ls generalizing n s with
  | nil => rfl
  | cons l ls ih =>
    obtain ⟨hl, hls⟩ := List.forall_mem_cons.mp h
    rw [lineReadings_cons hl, List.flatMap_cons, ← ih hls, List.map_cons, doubtsFrom,
      List.map_append, (Line.ofText l).doubt?_message n s]

/-- A line is of a kind when the command is that it gives. -/
theorem any_ofTexts {kind : Line → Bool} {isOfKind : Command → Bool}
    (h : ∀ l s, kind l = (Line.command? s l).any isOfKind) (s : Scene) (ls : List Text) :
    (ls.map Line.ofText).any kind = (Reading.ofTexts s ls).commands.any isOfKind := by
  induction ls generalizing s with
  | nil => rfl
  | cons l ls ih =>
    rw [Reading.ofTexts_cons, List.map_cons, List.any_cons, List.any_append,
      ih ((Line.ofText l).scene s), h (Line.ofText l) s]
    cases (Line.ofText l).command? s <;> simp

/-- A check finds what reading the script line by line shows. Every line, numbered from one, gives
what it says, and all of them give the commands of the script. The errors are those commands that
lack their subject, in their order and each with the number of its line in words, and without any of
them the script is valid. The warnings are the dialogues without words and the lines of choices that
list none, in the order of the lines, and behind those what the script has no command of. -/
theorem checkScript_reads (t : Text) (s : Scene) :
    let message (n : Nat) (remark : String) := ("Line " ++ toString n ++ ": " ++ remark).toList
    let read := lineReadings 1 s (Text.lines t)
    let told := numberedCommands read
    let cs := (readScript t s).commands
    read.map Prod.fst = List.range' 1 (Text.lines t).length ∧
      (∀ r ∈ read, ∃ i l, r.1 = i + 1 ∧ (Text.lines t)[i]? = some l ∧
        (∀ c ∈ r.2.commands, Line.Says (Text.trim l) c) ∧
        (r.2.choices = some [] ↔
          ∃ payload, Text.trim l = Line.choicesMark ++ payload ∧ choicesOf payload = [])) ∧
      told.map Prod.snd = cs ∧
      (checkScript t).errors = told.filterMap (fun c => c.2.fault?.map (message c.1)) ∧
      ((checkScript t).valid = true ↔ ∀ c ∈ cs, c.fault? = none) ∧
      (checkScript t).warnings =
        read.flatMap (fun r => r.2.remarks.map (message r.1)) ++
          (if cs.any fun c => c.place?.isSome then []
            else ["No locations defined in script".toList]) ++
          (if cs.any Command.isCast then [] else ["No characters defined in script".toList]) := by
  intro message read told cs
  have hmessage : atLine = message := funext fun n => funext fun remark => atLine_eq n remark
  rw [← hmessage]
  have hlines : ∀ l ∈ Text.lines t, '\n' ∉ l := fun l hl => Text.not_mem_of_mem_pieces hl
  have hcommands : told.map Prod.snd = cs := commands_lineReadings hlines 1 s
  have herrors : (checkScript t).errors = told.filterMap (fun c => c.2.fault?.map (atLine c.1)) :=
    errors_lineReadings hlines 1 s
  refine ⟨lineReadings_numbers 1 s _, fun r hr => ?_, hcommands, herrors, ?_, ?_⟩
  · obtain ⟨i, l, s', hnumber, hl, hreading⟩ := exists_line_of_mem hr
    have hline := hlines l (List.mem_of_getElem? hl)
    rw [hreading]
    exact ⟨i, l, hnumber, hl, fun c hc => says_of_mem_line hline hc, choices_line_iff hline s'⟩
  · have hvalid : (checkScript t).valid = true ↔ (checkScript t).errors = [] := by
      rw [Report.valid, List.isEmpty_iff, Report.errors, List.map_eq_nil_iff]
    rw [hvalid, herrors, List.filterMap_eq_nil_iff, ← hcommands, List.forall_mem_map]
    simp only [Option.map_eq_none_iff]
  · have hplace : (Line.all t).any Line.isLocation = cs.any fun c => c.place?.isSome :=
      any_ofTexts (by rintro (_ | _ | _ | _ | _ | _) _ <;> rfl) s _
    have hcast : (Line.all t).any Line.isCast = cs.any Command.isCast :=
      any_ofTexts (by rintro (_ | _ | _ | _ | _ | _) _ <;> rfl) s _
    have hdoubts : (doubtsFrom 1 (Line.all t)).map Doubt.message =
        read.flatMap (fun r => r.2.remarks.map (atLine r.1)) := warnings_lineReadings hlines 1 s
    rw [Report.warnings, checkScript, List.map_append, List.map_append, hdoubts, hplace, hcast]
    cases cs.any fun c => c.place?.isSome <;> cases cs.any Command.isCast <;> rfl

end StoryPlayer
