import StoryPlayer.Proofs.Script.RoundTrip
import StoryPlayer.Proofs.Stream.Opening

/-!
# Headers that stay

A text has a header when each of the three directives stands with a payload on one of its complete
lines. Only which lines are complete matters for that, not where they stand or how often, and they
stay complete when the text goes on. Reading takes the same lines for directives, so what is read of
a text with a header has a place, a cast and choices, whatever the payloads hold, and playback that
is started because of a header does start.
-/

namespace StoryPlayer

/-- A text up to its last line feed, none of it where there is no line feed. -/
def Text.upToLineFeed (t : Text) : Text :=
  Text.dropEndWhile (· != '\n') t

/-! ## Lines with directives -/

namespace Line

theorem directive?_eq_some_iff {d : Directive} {l : Line} :
    l.directive? = some d ↔ ∃ payload, l = d.line payload ∧ Text.trim payload ≠ [] := by
  cases l <;> cases d <;> simp [directive?, Directive.line]

end Line

variable {t u : Text}

theorem mem_headerDirectives_iff {d : Directive} :
    d ∈ headerDirectives t ↔ ∃ l ∈ Text.fullLines t, ∃ payload,
      Text.trim l = d.mark ++ payload ∧ Text.trim payload ≠ [] := by
  simp only [headerDirectives, List.mem_filterMap, Line.directive?_eq_some_iff,
    Line.ofText_eq_line_iff]
  rfl

theorem hasHeader_of_subset (hlines : Text.fullLines t ⊆ Text.fullLines u)
    (h : hasHeader t = true) : hasHeader u = true := by
  rw [hasHeader_eq_true_iff] at h ⊢
  intro d
  obtain ⟨l, hl, hpayload⟩ := mem_headerDirectives_iff.mp (h d)
  exact mem_headerDirectives_iff.mpr ⟨l, hlines hl, hpayload⟩

/-! ## The complete lines -/

/-- The complete lines, each with its line feed, and the last line are all of a text. -/
theorem upToLineFeed_append_lastLine (t : Text) :
    t.upToLineFeed ++ Text.lastLine t = t ∧
      Text.lines t.upToLineFeed = Text.fullLines t ++ [[]] := by
  obtain ⟨u, ht, hlines⟩ := Text.exists_append_lastLine t
  have hcut : t.upToLineFeed = Text.dropEndWhile (· != '\n') u := by
    unfold Text.upToLineFeed Text.dropEndWhile
    rw [ht, List.reverse_append, List.dropWhile_append_of_pos]
    intro c hc
    have hne := ne_of_mem_of_not_mem (List.mem_reverse.mp hc) (Text.not_mem_lastLine t)
    simpa using hne
  have hlast : Text.lastLine u = [] := by
    rw [Text.lastLine, hlines, List.getLastD_concat]
  have hself : Text.dropEndWhile (· != '\n') u = u := by
    rcases Text.getLast?_of_lastLine_eq_nil hlast with rfl | hfeed
    · rfl
    · refine List.rdropWhile_eq_self_iff.mpr fun hne => ?_
      rw [List.getLast?_eq_some_getLast hne] at hfeed
      simp [Option.some.inj hfeed]
  rw [hcut, hself]
  exact ⟨ht.symm, hlines⟩

theorem fullLines_upToLineFeed (t : Text) : Text.fullLines t.upToLineFeed = Text.fullLines t := by
  rw [Text.fullLines, (upToLineFeed_append_lastLine t).2, List.dropLast_concat]

theorem readScript_upToLineFeed (t : Text) :
    readScript t.upToLineFeed Scene.empty = readFull t :=
  readScript_eq_readFull (upToLineFeed_append_lastLine t).2

theorem Ingestor.Received.completeText_eq {g : Ingestor} (h : g.Received t) :
    g.completeText = t.upToLineFeed := by
  have htext := h.completeText.1
  rw [h.lineBuffer] at htext
  exact List.append_cancel_right (htext.symm.trans (upToLineFeed_append_lastLine t).1.symm)

/-! ## What is read of a header -/

/-- What a line gives stands in what all lines give. -/
theorem Reading.ofTexts_of_mem {l : Text} {ls : List Text} (h : l ∈ ls) (s : Scene) :
    ∃ s', (∀ c, (Line.ofText l).command? s' = some c → c ∈ (ofTexts s ls).commands) ∧
      ((Line.ofText l).choices? ≠ none → (ofTexts s ls).choices ≠ none) := by
  obtain ⟨front, back, rfl⟩ := List.append_of_mem h
  refine ⟨(ofTexts s front).scene, fun c hc => ?_, fun hchoices => ?_⟩
  · rw [ofTexts_append, ofTexts_cons, hc]
    simp [append]
  · rw [ofTexts_append, ofTexts_cons]
    simp [append, hchoices]

theorem readFull_of_hasHeader (h : hasHeader t = true) :
    (∃ place colours, .location place colours ∈ (readFull t).commands ∧ place ≠ []) ∧
      (∃ members, .cast members ∈ (readFull t).commands) ∧ (readFull t).choices ≠ none := by
  have hline (d : Directive) : ∃ payload, Text.trim payload ≠ [] ∧ ∃ s,
      (∀ c, (d.line payload).command? s = some c → c ∈ (readFull t).commands) ∧
        ((d.line payload).choices? ≠ none → (readFull t).choices ≠ none) := by
    obtain ⟨l, hl, payload, hmark, hpayload⟩ :=
      mem_headerDirectives_iff.mp (hasHeader_eq_true_iff.mp h d)
    have hreads := Reading.ofTexts_of_mem hl Scene.empty
    rw [Line.ofText_eq_line_iff.mpr hmark] at hreads
    exact ⟨payload, hpayload, hreads⟩
  obtain ⟨place, hplace, s, hlocation, -⟩ := hline .location
  obtain ⟨entries, -, s', hcast, -⟩ := hline .cast
  obtain ⟨listed, -, s'', -, hchoices⟩ := hline .choices
  refine ⟨⟨Text.trim place, _, hlocation _ rfl, hplace⟩, ⟨_, hcast _ rfl⟩, hchoices ?_⟩
  exact Option.some_ne_none _

/-- A header is a line for each of the three directives, complete and with a payload that is not
blank, and no text that is added takes it away. It does not hang on what follows the last line feed,
nor on the order of the complete lines or how often they come. What is read of the complete lines of
a text with a header moves to a place that is named, puts a cast on stage and lists choices, even if
none, so that an ingestor that has received the text and tries to start playback does start it. -/
theorem hasHeader_stable (t : Text) :
    (hasHeader t = true ↔ ∀ d : Directive, ∃ l ∈ Text.fullLines t, ∃ payload,
        Text.trim l = d.mark ++ payload ∧ Text.trim payload ≠ []) ∧
      (∀ u, hasHeader t = true → hasHeader (t ++ u) = true) ∧
      hasHeader t.upToLineFeed = hasHeader t ∧
      (∀ u, (∀ l, l ∈ Text.fullLines u ↔ l ∈ Text.fullLines t) → hasHeader u = hasHeader t) ∧
      (hasHeader t = true →
        let r := readScript t.upToLineFeed Scene.empty
        (∃ place colours, .location place colours ∈ r.commands ∧ place ≠ []) ∧
          (∃ members, .cast members ∈ r.commands) ∧ r.choices ≠ none ∧
          ∀ (g : Ingestor) (p : Player), g.Received t → g.start p =
            { g with setupReady := true }.leave
              ((p.setStreaming true).load t.upToLineFeed).start) := by
  refine ⟨?_, fun u h => hasHeader_append h u, ?_, fun u hlines => ?_, fun h => ?_⟩
  · simp only [hasHeader_eq_true_iff, mem_headerDirectives_iff]
  · unfold hasHeader
    rw [headerDirectives_congr (fullLines_upToLineFeed t)]
  · exact Bool.eq_iff_iff.mpr ⟨hasHeader_of_subset fun l => (hlines l).mp,
      hasHeader_of_subset fun l => (hlines l).mpr⟩
  · intro r
    have hread : r = readFull t := readScript_upToLineFeed t
    obtain ⟨⟨place, colours, hlocation, hplace⟩, hcast, hchoices⟩ := readFull_of_hasHeader h
    rw [hread]
    refine ⟨⟨place, colours, hlocation, hplace⟩, hcast, hchoices, fun g p hreceived => ?_⟩
    have hsome : (readScript g.completeText Scene.empty).commands ≠ [] := by
      rw [hreceived.readScript_completeText]
      exact List.ne_nil_of_mem hlocation
    rw [Ingestor.start_eq, if_neg hsome, hreceived.completeText_eq]

/-- A cast and choices that hold separators only are a header all the same, in any order. -/
theorem hasHeader_stable_separators :
    let place : Text := ['L', 'O', 'C', ':', 'a']
    let cast : Text := ['C', 'H', 'A', ':', ',']
    let choices : Text := ['S', 'T', 'P', ':', '/']
    let t := Text.join ['\n'] [choices, cast, place, ['x']]
    let u := Text.join ['\n'] [place, cast, place, choices, []]
    let g := (Ingestor.new.buffer t).1
    hasHeader t = true ∧ hasHeader (t ++ ['y']) = true ∧
      (∀ l, l ∈ Text.fullLines u ↔ l ∈ Text.fullLines t) ∧ hasHeader u = hasHeader t ∧
      g.Received t ∧ (g.start (Player.new .default)).ingestor.setupReady = true := by
  intro place cast choices t u g
  have hheader : hasHeader t = true := by decide
  have hlines : ∀ l, l ∈ Text.fullLines u ↔ l ∈ Text.fullLines t := by
    have ht : Text.fullLines t = [choices, cast, place] := by decide
    have hu : Text.fullLines u = [place, cast, place, choices] := by decide
    intro l
    rw [ht, hu]
    simp only [List.mem_cons, List.not_mem_nil, or_false]
    tauto
  have hreceived : g.Received t := ⟨rfl, rfl⟩
  obtain ⟨-, hadded, -, hother, hread⟩ := hasHeader_stable t
  obtain ⟨-, -, -, hstart⟩ := hread hheader
  refine ⟨hheader, hadded ['y'] hheader, hlines, hother u hlines, hreceived, ?_⟩
  rw [hstart g (Player.new .default) hreceived]
  rfl

end StoryPlayer
