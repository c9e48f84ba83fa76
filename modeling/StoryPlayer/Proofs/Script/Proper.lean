import StoryPlayer.Proofs.Text.Trimmed
import StoryPlayer.Script.Header
import StoryPlayer.Script.Reading
import StoryPlayer.Script.Writing

/-!
# Commands and their lines

A command that a line gives is `IsProper`: its texts stand on one line and are trimmed, they hold
none of the characters that would cut them, and it carries the scene in which the line was read.
Conversely, the line that a proper command is written on gives that command again. There is one
exception. A line is decided by what stands before its first colon, so a speaker who bears the name
of a directive is taken for the directive.
-/

namespace StoryPlayer

/-- The text stands on one line and is trimmed. -/
structure Text.IsClean (t : Text) : Prop extends t.IsTrimmed where
  oneLine : '\n' ∉ t

theorem Text.isClean_trim {t : Text} (h : '\n' ∉ t) : (Text.trim t).IsClean :=
  ⟨Text.isTrimmed_trim t, fun hmem => h (Text.trim_subset t hmem)⟩

/-- A member that an entry of a cast list can give. -/
structure CastMember.IsProper (m : CastMember) : Prop where
  name : m.name.IsClean
  name_comma : ',' ∉ m.name
  name_slash : '/' ∉ m.name
  mood : m.mood.IsClean
  mood_ne_nil : m.mood ≠ []
  mood_comma : ',' ∉ m.mood

/-- The mood in which a speaker is shown by a cast: that of the last member who bears the speaker's
name up to case, and the neutral one when nobody does. -/
inductive ShowsIn (cast : List CastMember) (speaker : Text) : Text → Prop
  | member {m : CastMember} {front back : List CastMember} (hcast : cast = front ++ m :: back)
      (hname : Text.lower m.name = Text.lower speaker)
      (hback : ∀ n ∈ back, Text.lower n.name ≠ Text.lower speaker) : ShowsIn cast speaker m.mood
  | nobody (h : ∀ m ∈ cast, Text.lower m.name ≠ Text.lower speaker) : ShowsIn cast speaker neutral

theorem showsIn_iff {cast : List CastMember} {speaker mood : Text} :
    ShowsIn cast speaker mood ↔ mood = moodOf speaker cast := by
  unfold moodOf
  constructor
  · intro h
    cases h with
    | @member m front back hcast hname hback =>
      have hlast : back.reverse.find? (fun m => Text.lower m.name = Text.lower speaker) = none := by
        simpa [List.find?_eq_none] using hback
      rw [hcast, List.reverse_append, List.reverse_cons, List.append_assoc, List.singleton_append,
        List.find?_append, hlast, List.find?_cons_of_pos (by simpa using hname)]
      rfl
    | nobody h =>
      have hnone : cast.reverse.find? (fun m => Text.lower m.name = Text.lower speaker) = none := by
        simpa [List.find?_eq_none] using h
      rw [hnone]
  · rintro rfl
    split
    next m hm =>
      obtain ⟨hname, back, front, hcast, hback⟩ := List.find?_eq_some_iff_append.mp hm
      refine @ShowsIn.member _ _ m front.reverse back.reverse ?_ (by simpa using hname) ?_
      · simpa using congrArg List.reverse hcast
      · simpa using hback
    next hnone => exact .nobody (by simpa [List.find?_eq_none] using hnone)

/-- A command that a line can give while `s` is the scene. -/
inductive Command.IsProper (s : Scene) : Command → Prop
  | location {place : Text} (h : place.IsClean) : IsProper s (.location place (coloursOf place))
  | cast {members : List CastMember} (h : ∀ m ∈ members, m.IsProper) : IsProper s (.cast members)
  | dialogue {speaker text mood : Text} (hspeaker : speaker.IsClean) (hcolon : ':' ∉ speaker)
      (htext : text.IsClean) (hmood : ShowsIn s.cast speaker mood) :
      IsProper s (.dialogue speaker text mood s)
  | action {text : Text} (h : text.IsClean) (hne : text ≠ []) (hcolon : ':' ∉ text) :
      IsProper s (.action text s)

/-- Choices that a line of choices can give. -/
def ProperChoices (choices : List Text) : Prop :=
  ∀ t ∈ choices, t.IsClean ∧ t ≠ [] ∧ '/' ∉ t

namespace Line

/-- The names of the three directives, which stand before the colon. -/
def directiveNames : List Text :=
  [['L', 'O', 'C'], ['C', 'H', 'A'], ['S', 'T', 'P']]

/-- What a line is by what stands before its first colon and behind it. -/
def ofLabel (label payload : Text) : Line :=
  if label = ['L', 'O', 'C'] then .location payload
  else if label = ['C', 'H', 'A'] then .cast payload
  else if label = ['S', 'T', 'P'] then .choices payload
  else .dialogue (Text.trim label) (Text.trim payload)

end Line

namespace Directive

/-- The start of a line with a directive. -/
def mark : Directive → Text
  | location => Line.locationMark
  | cast => Line.castMark
  | choices => Line.choicesMark

/-- The line of a directive with a payload. -/
def line : Directive → Text → Line
  | location => Line.location
  | cast => Line.cast
  | choices => Line.choices

end Directive

/-- A dialogue line whose speaker bears the name of a directive. -/
def Command.IsMistakable : Command → Prop
  | .dialogue speaker _ _ _ => speaker ∈ Line.directiveNames
  | _ => False

/-! ## What a line gives -/

theorem neutral_isMood : neutral.IsClean ∧ neutral ≠ [] ∧ ',' ∉ neutral :=
  ⟨⟨Text.isTrimmed_of_any (by decide), by decide⟩, by decide, by decide⟩

theorem castMember?_isProper {entry : Text} (hcomma : ',' ∉ entry) (hline : '\n' ∉ entry)
    {m : CastMember} (h : castMember? entry = some m) : m.IsProper := by
  have hsubset := Text.trim_subset entry
  unfold castMember? at h
  dsimp only at h
  generalize htrim : Text.trim entry = e at h hsubset
  split at h
  · cases h
  next hne =>
    split at h
    next hslash =>
      cases h
      obtain ⟨hclean, hsome, hno⟩ := neutral_isMood
      have hname : e.IsClean := htrim ▸ Text.isClean_trim hline
      exact ⟨hname, fun hmem => hcomma (hsubset hmem), Text.behind?_eq_none_iff.mp hslash, hclean,
        hsome, hno⟩
    next mood hslash =>
      cases h
      -- Name and mood are what stands on both sides of the first slash.
      have hname := List.Subset.trans (Text.before_subset '/' e) hsubset
      have hmood := List.Subset.trans (Text.behind?_subset hslash) hsubset
      obtain ⟨hclean, hsome, hno⟩ :
          let shown := if Text.trim mood = [] then neutral else Text.trim mood
          shown.IsClean ∧ shown ≠ [] ∧ ',' ∉ shown := by
        dsimp only
        split
        · exact neutral_isMood
        next hsome =>
          exact ⟨Text.isClean_trim fun hmem => hline (hmood hmem), hsome,
            fun hmem => hcomma (hmood (Text.trim_subset mood hmem))⟩
      exact ⟨Text.isClean_trim fun hmem => hline (hname hmem),
        fun hmem => hcomma (hname (Text.trim_subset _ hmem)),
        fun hmem => Text.not_mem_before '/' e (Text.trim_subset _ hmem), hclean, hsome, hno⟩

theorem castOf_isProper {payload : Text} (h : '\n' ∉ payload) :
    ∀ m ∈ castOf payload, m.IsProper := by
  intro m hm
  obtain ⟨entry, hentry, hsome⟩ := List.mem_filterMap.mp hm
  exact castMember?_isProper (Text.not_mem_of_mem_pieces hentry)
    (fun hmem => h (Text.subset_of_mem_pieces hentry hmem)) hsome

theorem choicesOf_proper {payload : Text} (h : '\n' ∉ payload) :
    ProperChoices (choicesOf payload) := by
  intro t ht
  obtain ⟨hmem, hne⟩ := List.mem_filter.mp ht
  obtain ⟨piece, hpiece, rfl⟩ := List.mem_map.mp hmem
  refine ⟨Text.isClean_trim fun hline => h (Text.subset_of_mem_pieces hpiece hline), ?_, ?_⟩
  · simpa using hne
  · exact fun hslash => Text.not_mem_of_mem_pieces hpiece (Text.trim_subset piece hslash)

/-! ## What a line is -/

namespace Line

theorem ofTrimmed_label {label : Text} (h : ':' ∉ label) (payload : Text) :
    ofTrimmed (label ++ ':' :: payload) = ofLabel label payload := by
  have hmark : ∀ name : Text, ':' ∉ name →
      Text.after? (name ++ [':']) (label ++ ':' :: payload) =
        if label = name then some payload else none :=
    fun name hname => Text.after?_append_sep hname h payload
  have hlocation : Text.after? locationMark _ = _ := hmark ['L', 'O', 'C'] (by decide)
  have hcast : Text.after? castMark _ = _ := hmark ['C', 'H', 'A'] (by decide)
  have hchoices : Text.after? choicesMark _ = _ := hmark ['S', 'T', 'P'] (by decide)
  rw [ofTrimmed, if_neg (by simp), hlocation, hcast, hchoices, Text.behind?_append h,
    Text.before_append h, ofLabel]
  split_ifs <;> rfl

theorem ofTrimmed_action {t : Text} (hne : t ≠ []) (hcolon : ':' ∉ t) :
    ofTrimmed t = .action t := by
  have hmark : ∀ mark : Text, ':' ∈ mark → Text.after? mark t = none := by
    intro mark hmem
    refine Option.eq_none_iff_forall_ne_some.mpr fun rest hrest => hcolon ?_
    rw [Text.after?_eq_some hrest]
    exact List.mem_append_left rest hmem
  rw [ofTrimmed, if_neg hne, hmark locationMark (by decide), hmark castMark (by decide),
    hmark choicesMark (by decide), Text.behind?_eq_none_iff.mpr hcolon]

/-- A trimmed line is blank, an action, or what its label makes of it. -/
theorem ofTrimmed_cases (t : Text) :
    t = [] ∧ ofTrimmed t = .blank ∨ t ≠ [] ∧ ':' ∉ t ∧ ofTrimmed t = .action t ∨
      ∃ label payload, ':' ∉ label ∧ t = label ++ ':' :: payload ∧
        ofTrimmed t = ofLabel label payload := by
  cases hbehind : Text.behind? ':' t with
  | none =>
    have hcolon := Text.behind?_eq_none_iff.mp hbehind
    by_cases hempty : t = []
    · exact .inl ⟨hempty, if_pos hempty⟩
    · exact .inr (.inl ⟨hempty, hcolon, ofTrimmed_action hempty hcolon⟩)
  | some payload =>
    have ht := Text.behind?_eq_some hbehind
    have hcolon := Text.not_mem_before ':' t
    refine .inr (.inr ⟨Text.before ':' t, payload, hcolon, ht, ?_⟩)
    rw [← ofTrimmed_label hcolon, ← ht]

/-- How a line starts says which directive stands on it. -/
theorem ofText_eq_line_iff {d : Directive} {l payload : Text} :
    ofText l = d.line payload ↔ Text.trim l = d.mark ++ payload := by
  unfold ofText
  constructor
  · intro h
    rcases ofTrimmed_cases (Text.trim l) with
      ⟨-, hline⟩ | ⟨-, -, hline⟩ | ⟨label, rest, -, ht, hline⟩
    · cases d <;> cases hline.symm.trans h
    · cases d <;> cases hline.symm.trans h
    · have hlabel := hline.symm.trans h
      unfold ofLabel at hlabel
      cases d <;> split_ifs at hlabel with hlocation hcast hchoices <;> cases hlabel
      · rw [ht, hlocation]
        rfl
      · rw [ht, hcast]
        rfl
      · rw [ht, hchoices]
        rfl
  · intro h
    rw [h]
    cases d <;> rfl

/-- What a line without line feeds gives is proper. -/
theorem ofText_proper {t : Text} (h : '\n' ∉ t) (s : Scene) :
    (∀ c, (ofText t).command? s = some c → c.IsProper s) ∧
      ∀ choices, (ofText t).choices? = some choices → ProperChoices choices := by
  have hclean := Text.isClean_trim h
  unfold ofText
  generalize Text.trim t = u at hclean ⊢
  rcases ofTrimmed_cases u with
    ⟨-, hline⟩ | ⟨hne, hcolon, hline⟩ | ⟨label, payload, hcolon, rfl, hline⟩
  · rw [hline]
    exact ⟨nofun, nofun⟩
  · rw [hline]
    refine ⟨fun c hc => ?_, nofun⟩
    cases hc
    exact .action hclean hne hcolon
  · have hlabel : '\n' ∉ label := fun hmem => hclean.oneLine (List.mem_append_left _ hmem)
    have hpayload : '\n' ∉ payload := fun hmem =>
      hclean.oneLine (List.mem_append_right _ (List.mem_cons_of_mem ':' hmem))
    rw [hline, ofLabel]
    split_ifs
    · refine ⟨fun c hc => ?_, nofun⟩
      cases hc
      exact .location (Text.isClean_trim hpayload)
    · refine ⟨fun c hc => ?_, nofun⟩
      cases hc
      exact .cast (castOf_isProper hpayload)
    · refine ⟨nofun, fun choices hc => ?_⟩
      cases hc
      exact choicesOf_proper hpayload
    · refine ⟨fun c hc => ?_, nofun⟩
      cases hc
      have hspeaker : ':' ∉ Text.trim label := fun hmem => hcolon (Text.trim_subset label hmem)
      exact .dialogue (Text.isClean_trim hlabel) hspeaker (Text.isClean_trim hpayload)
        (showsIn_iff.mpr rfl)

/-! ## What a written line is -/

theorem ofText_label {label : Text} (h : label.IsTrimmed) (hcolon : ':' ∉ label) (payload : Text) :
    ofText (label ++ ':' :: payload) = ofLabel label (Text.trimRight payload) := by
  rw [ofText, h.trim_append_cons (by decide), ofTrimmed_label hcolon]

theorem ofText_action {t : Text} (h : t.IsTrimmed) (hne : t ≠ []) (hcolon : ':' ∉ t) :
    ofText t = .action t := by
  rw [ofText, h.trim_eq, ofTrimmed_action hne hcolon]

theorem mem_directiveNames_iff {name : Text} :
    name ∈ directiveNames ↔
      name = ['L', 'O', 'C'] ∨ name = ['C', 'H', 'A'] ∨ name = ['S', 'T', 'P'] := by
  simp [directiveNames]

theorem directiveName_isTrimmed {name : Text} (h : name ∈ directiveNames) :
    name.IsTrimmed ∧ ':' ∉ name ∧ name.length = 3 := by
  rcases mem_directiveNames_iff.mp h with rfl | rfl | rfl <;>
    exact ⟨Text.isTrimmed_of_any (by decide), by decide, rfl⟩

theorem ofText_directive {name : Text} (h : name ∈ directiveNames) (payload : Text) :
    ofText (name ++ ':' :: payload) = ofLabel name (Text.trimRight payload) := by
  obtain ⟨htrimmed, hcolon, -⟩ := directiveName_isTrimmed h
  exact ofText_label htrimmed hcolon payload

/-- A line is a dialogue just if what stands before its first colon is no directive's name. -/
theorem ofLabel_eq_dialogue_iff {label payload speaker text : Text} :
    ofLabel label payload = .dialogue speaker text ↔
      label ∉ directiveNames ∧ Text.trim label = speaker ∧ Text.trim payload = text := by
  rw [mem_directiveNames_iff]
  unfold ofLabel
  split_ifs <;> simp_all

end Line

/-! ## Directives that are hidden -/

namespace Line

/-- Blanks stand between the name of a directive and the colon, so that the line is no directive. -/
def HidesDirective (l : Text) : Prop :=
  ∃ name ∈ directiveNames, ∃ w payload, Text.Blank w ∧ w ≠ [] ∧
    Text.trim l = (name ++ w) ++ ':' :: payload

theorem HidesDirective.ofText {l : Text} (h : HidesDirective l) :
    ∃ name ∈ directiveNames, ∃ text, ofText l = .dialogue name text := by
  obtain ⟨name, hname, w, payload, hw, hne, hl⟩ := h
  obtain ⟨htrimmed, hcolon, hlength⟩ := directiveName_isTrimmed hname
  refine ⟨name, hname, Text.trim payload, ?_⟩
  rw [Line.ofText, hl, ofTrimmed_label (List.not_mem_append hcolon (hw.not_mem (by decide))),
    ofLabel_eq_dialogue_iff, Text.trim_append_blank hw]
  refine ⟨fun hother => ?_, htrimmed.trim_eq, rfl⟩
  -- All directives have names of one length.
  have hsum := (directiveName_isTrimmed hother).2.2
  rw [List.length_append, hlength] at hsum
  exact hne (List.length_eq_zero_iff.mp (by omega))

theorem hidesDirective_of_ofText {l name text : Text} (hname : name ∈ directiveNames)
    (h : Line.ofText l = .dialogue name text) : HidesDirective l := by
  have htrimmed := Text.isTrimmed_trim l
  unfold HidesDirective
  unfold Line.ofText at h
  generalize Text.trim l = u at h htrimmed ⊢
  rcases ofTrimmed_cases u with ⟨-, hline⟩ | ⟨-, -, hline⟩ | ⟨label, payload, -, rfl, hline⟩
  · cases hline.symm.trans h
  · cases hline.symm.trans h
  · obtain ⟨hdirective, rfl, -⟩ := ofLabel_eq_dialogue_iff.mp (hline.symm.trans h)
    obtain ⟨w, hw, hlabel⟩ := Text.exists_trimRight_append label
    rw [← htrimmed.trim_left] at hlabel
    refine ⟨Text.trim label, hname, w, payload, hw, ?_, congrArg (· ++ ':' :: payload) hlabel⟩
    -- Without a blank the line would be the directive.
    rintro rfl
    rw [hlabel, List.append_nil] at hdirective
    exact hdirective hname

/-- A line gives a command that is mistaken for a directive just if it hides a directive. -/
theorem command?_isMistakable_iff (l : Text) (s : Scene) :
    (∃ c ∈ (ofText l).command? s, c.IsMistakable) ↔ HidesDirective l := by
  constructor
  · rintro ⟨c, hc, hmistakable⟩
    cases hl : ofText l with
    | dialogue speaker text =>
      rw [hl] at hc
      cases hc
      exact hidesDirective_of_ofText hmistakable hl
    | location | cast | action =>
      rw [hl] at hc
      cases hc
      cases hmistakable
    | blank | choices =>
      rw [hl] at hc
      cases hc
  · intro h
    obtain ⟨name, hname, text, hl⟩ := h.ofText
    rw [hl]
    exact ⟨_, rfl, hname⟩

end Line

/-! ## Lists on a line -/

theorem castOf_eq (payload : Text) :
    castOf payload = ((Text.pieces ',' payload).map Text.trim).filterMap castMember? := by
  have htrim : castMember? ∘ Text.trim = castMember? := by
    funext entry
    simp only [Function.comp_apply, castMember?, Text.trim_trim]
  rw [List.filterMap_map, htrim, castOf]

theorem castOf_trimRight (payload : Text) : castOf (Text.trimRight payload) = castOf payload := by
  rw [castOf_eq, castOf_eq, Text.map_trim_pieces_trimRight (by decide)]

theorem choicesOf_trimRight (payload : Text) :
    choicesOf (Text.trimRight payload) = choicesOf payload := by
  unfold choicesOf
  rw [Text.map_trim_pieces_trimRight (by decide)]

theorem CastMember.IsProper.trim_entry {m : CastMember} (h : m.IsProper) :
    Text.trim m.entry = m.entry := by
  unfold CastMember.entry
  rw [h.name.trim_append_cons (by decide), h.mood.trimRight_eq]

theorem CastMember.IsProper.castMember?_entry {m : CastMember} (h : m.IsProper) :
    castMember? m.entry = some m := by
  unfold castMember?
  rw [h.trim_entry]
  simp only [CastMember.entry, Text.behind?_append h.name_slash, Text.before_append h.name_slash,
    h.name.trim_eq, h.mood.trim_eq, if_neg h.mood_ne_nil]
  exact if_neg (by simp)

theorem blank_space : Text.Blank [' '] :=
  Text.blank_singleton (by decide)

/-- The members of a written cast list are found again. -/
theorem castOf_entries {members : List CastMember} (h : ∀ m ∈ members, m.IsProper) :
    castOf (' ' :: Text.join [',', ' '] (members.map CastMember.entry)) = members := by
  by_cases hnone : members = []
  · subst hnone
    rfl
  have hentries : members.map CastMember.entry ≠ [] := by simpa using hnone
  have hcomma : ∀ e ∈ members.map CastMember.entry, ',' ∉ e := by
    intro e he
    obtain ⟨n, hn, rfl⟩ := List.mem_map.mp he
    simp [CastMember.entry, (h n hn).name_comma, (h n hn).mood_comma]
  have hpieces : (Text.pieces ',' (' ' :: Text.join [',', ' '] (members.map CastMember.entry))).map
      Text.trim = (members.map CastMember.entry).map Text.trim :=
    Text.map_trim_pieces_join ',' (by decide) blank_space Text.blank_nil blank_space hentries hcomma
  have hread : ∀ m ∈ members, (castMember? ∘ Text.trim ∘ CastMember.entry) m = some m := by
    intro m hm
    rw [Function.comp_apply, Function.comp_apply, (h m hm).trim_entry, (h m hm).castMember?_entry]
  rw [castOf_eq, hpieces, List.map_map, List.filterMap_map, List.filterMap_congr hread,
    List.filterMap_some]

/-- Written choices are found again. -/
theorem choicesOf_join {choices : List Text} (h : ProperChoices choices) :
    choicesOf (' ' :: Text.join [' ', '/', ' '] choices) = choices := by
  by_cases hnone : choices = []
  · subst hnone
    rfl
  have hpieces : (Text.pieces '/' (' ' :: Text.join [' ', '/', ' '] choices)).map Text.trim =
      choices.map Text.trim :=
    Text.map_trim_pieces_join '/' (by decide) blank_space blank_space blank_space hnone
      fun t ht => (h t ht).2.2
  have htrim : ∀ t ∈ choices, Text.trim t = id t := fun t ht => (h t ht).1.trim_eq
  rw [choicesOf, hpieces, List.map_congr_left htrim, List.map_id]
  refine List.filter_eq_self.mpr fun t ht => ?_
  simpa using (h t ht).2.1

/-! ## Lines of commands -/

theorem Text.IsClean.trim_behind_space {t : Text} (h : t.IsClean) :
    Text.trim (Text.trimRight (' ' :: t)) = t := by
  rw [Text.trim_trimRight, ← List.singleton_append, Text.trim_blank_append blank_space, h.trim_eq]

namespace Command

variable {s : Scene} {c : Command}

/-- A proper command is read from its line again, unless the line is mistaken for a directive. -/
theorem IsProper.reads (h : c.IsProper s) (hplain : ¬c.IsMistakable) :
    (Line.ofText c.line).command? s = some c := by
  cases h with
  | @location place h =>
    have hname : ['L', 'O', 'C'] ∈ Line.directiveNames := by decide
    have hline : Line.ofText (Command.location place (coloursOf place)).line =
        .location (Text.trimRight (' ' :: place)) :=
      Line.ofText_directive hname (' ' :: place)
    rw [hline, Line.command?, h.trim_behind_space]
  | @cast members h =>
    have hname : ['C', 'H', 'A'] ∈ Line.directiveNames := by decide
    have hline : Line.ofText (Command.cast members).line = .cast (Text.trimRight
        (' ' :: Text.join [',', ' '] (members.map CastMember.entry))) :=
      Line.ofText_directive hname _
    rw [hline, Line.command?, castOf_trimRight, castOf_entries h]
  | @dialogue speaker text mood hspeaker hcolon htext hmood =>
    have hlabel : speaker ∉ Line.directiveNames := hplain
    have hline : Line.ofText (Command.dialogue speaker text mood s).line =
        .dialogue speaker text := by
      rw [line, Line.ofText_label hspeaker.toIsTrimmed hcolon, Line.ofLabel_eq_dialogue_iff]
      exact ⟨hlabel, hspeaker.trim_eq, htext.trim_behind_space⟩
    rw [hline, Line.command?, ← showsIn_iff.mp hmood]
  | @action text h hne hcolon =>
    rw [line, Line.ofText_action h.toIsTrimmed hne hcolon, Line.command?]

/-- A line that gives its command back is not mistaken for a directive. -/
theorem IsProper.not_isMistakable (h : c.IsProper s)
    (hread : (Line.ofText c.line).command? s = some c) : ¬c.IsMistakable := by
  intro hmistaken
  cases h with
  | location | cast | action => exact hmistaken
  | @dialogue speaker text mood hspeaker hcolon htext hmood =>
    have hlabel : speaker ∈ Line.directiveNames := hmistaken
    rw [line, Line.ofText_directive hlabel] at hread
    rcases Line.mem_directiveNames_iff.mp hlabel with rfl | rfl | rfl
    all_goals cases hread

theorem IsProper.newline_not_mem (h : c.IsProper s) : '\n' ∉ c.line := by
  cases h with
  | location h => simp [line, Line.locationMark, h.oneLine]
  | @cast members h =>
    have hentry : ∀ e ∈ members.map CastMember.entry, '\n' ∉ e := by
      intro e he
      obtain ⟨m, hm, rfl⟩ := List.mem_map.mp he
      simp [CastMember.entry, (h m hm).name.oneLine, (h m hm).mood.oneLine]
    have hjoin : '\n' ∉ Text.join [',', ' '] (members.map CastMember.entry) :=
      Text.not_mem_join (by decide) hentry
    simp [line, Line.castMark, hjoin]
  | dialogue hspeaker _ htext _ => simp [line, hspeaker.oneLine, htext.oneLine]
  | action h => exact h.oneLine

end Command

/-! ## Lines of choices -/

theorem Line.ofText_choicesLine (choices : List Text) :
    Line.ofText (choicesLine choices) =
      .choices (Text.trimRight (' ' :: Text.join [' ', '/', ' '] choices)) := by
  have hname : ['S', 'T', 'P'] ∈ Line.directiveNames := by decide
  exact Line.ofText_directive hname _

theorem ProperChoices.reads {choices : List Text} (h : ProperChoices choices) :
    (Line.ofText (choicesLine choices)).choices? = some choices := by
  rw [Line.ofText_choicesLine, Line.choices?, choicesOf_trimRight, choicesOf_join h]

theorem ProperChoices.newline_not_mem {choices : List Text} (h : ProperChoices choices) :
    '\n' ∉ choicesLine choices := by
  have hjoin : '\n' ∉ Text.join [' ', '/', ' '] choices :=
    Text.not_mem_join (by decide) fun t ht => (h t ht).1.oneLine
  simp [choicesLine, Line.choicesMark, hjoin]

end StoryPlayer
