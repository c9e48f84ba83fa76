import StoryPlayer.Proofs.Stream.Whole

/-!
# When a stream starts playback

As long as only chunks and setup records come, all that an ingestor knows can be told from the
records. Its text is theirs, and playback has been started just if the records suffice for it: among
the complete lines there is a command, and a setup record has come or the complete lines hold a
header. Both stay true once they are, so playback starts with the first record that makes them so.
-/

namespace StoryPlayer

/-- The text received when one more record has come. That of a setup record counts only when no
other came before it. -/
def grown (sent : Text) (r : StreamRecord) : Text :=
  match r.kind with
  | .chunk => sent ++ r.text
  | .setupReady => if sent = [] then r.text else sent
  | _ => sent

/-- The text that was received in records. -/
def receivedText (rs : List StreamRecord) : Text :=
  rs.foldl grown []

/-- A setup record has come. -/
def SetupCame (rs : List StreamRecord) : Prop :=
  ∃ r ∈ rs, r.kind = .setupReady

/-- The records suffice to start playback. -/
structure Opens (rs : List StreamRecord) : Prop where
  command : (readFull (receivedText rs)).commands ≠ []
  setup : SetupCame rs ∨ hasHeader (receivedText rs) = true

/-! ## Records that add up -/

section

variable {rs : List StreamRecord} {r : StreamRecord}

theorem receivedText_concat (rs : List StreamRecord) (r : StreamRecord) :
    receivedText (rs ++ [r]) = grown (receivedText rs) r :=
  List.foldl_concat grown [] r rs

theorem exists_grown_eq_append (sent : Text) (r : StreamRecord) :
    ∃ t, grown sent r = sent ++ t := by
  unfold grown
  split
  · exact ⟨r.text, rfl⟩
  · split
    next hempty => exact ⟨r.text, by rw [hempty, List.nil_append]⟩
    next => exact ⟨[], (List.append_nil sent).symm⟩
  · exact ⟨[], (List.append_nil sent).symm⟩

theorem setupCame_concat : SetupCame (rs ++ [r]) ↔ SetupCame rs ∨ r.kind = .setupReady := by
  simp [SetupCame, or_and_right, exists_or]

theorem hasHeader_eq_true_iff {t : Text} : hasHeader t = true ↔ ∀ d, d ∈ headerDirectives t := by
  unfold hasHeader
  simp only [Bool.and_eq_true, decide_eq_true_eq]
  constructor
  · rintro ⟨⟨hlocation, hcast⟩, hchoices⟩ d
    cases d
    · exact hlocation
    · exact hcast
    · exact hchoices
  · exact fun h => ⟨⟨h .location, h .cast⟩, h .choices⟩

theorem headerDirectives_congr {t u : Text} (h : Text.fullLines t = Text.fullLines u) :
    headerDirectives t = headerDirectives u :=
  congrArg (List.filterMap fun l => (Line.ofText l).directive?) h

theorem hasHeader_append {t : Text} (h : hasHeader t = true) (u : Text) :
    hasHeader (t ++ u) = true := by
  rw [hasHeader_eq_true_iff] at h ⊢
  intro d
  obtain ⟨l, hl, hd⟩ := List.mem_filterMap.mp (h d)
  refine List.mem_filterMap.mpr ⟨l, ?_, hd⟩
  have hmem : l ∈ Text.fullLines t ++ Text.fullLines (Text.lastLine t ++ u) :=
    List.mem_append_left _ hl
  rwa [← Text.fullLines_append] at hmem

theorem readFull_append_commands (t u : Text) :
    (readFull t).commands <+: (readFull (t ++ u)).commands := by
  rw [readFull_eq_append (Text.fullLines_append t u)]
  exact List.prefix_append _ _

/-- What suffices to start playback still does when more has come. -/
theorem Opens.concat (h : Opens rs) (r : StreamRecord) : Opens (rs ++ [r]) := by
  obtain ⟨t, ht⟩ := exists_grown_eq_append (receivedText rs) r
  have htext := (receivedText_concat rs r).trans ht
  constructor
  · rw [htext]
    intro hnil
    have hprefix := readFull_append_commands (receivedText rs) t
    rw [hnil, List.prefix_nil] at hprefix
    exact h.command hprefix
  · rw [htext]
    exact h.setup.imp (fun hsetup => setupCame_concat.mpr (.inl hsetup))
      (fun hheader => hasHeader_append hheader t)

end

namespace Ingestor

/-- What an ingestor and a player know when these records have come is what they tell. -/
structure Opening (g : Ingestor) (p : Player) (rs : List StreamRecord) : Prop where
  receiving : g.Receiving p (receivedText rs)
  requested : g.setupReady = false → (g.setupRequested = true ↔ SetupCame rs)
  opens : g.setupReady = true ↔ Opens rs

variable {g : Ingestor} {p : Player} {rs : List StreamRecord}

theorem new_opening (p : Player) : new.Opening p [] where
  receiving := new_receiving p
  requested _ := by simp [SetupCame, new]
  opens := ⟨nofun, fun h => absurd rfl h.command⟩

theorem Opening.sameStory {q : Player} (h : g.Opening p rs) (hsame : p.SameStory q) :
    g.Opening q rs :=
  ⟨h.receiving.sameStory hsame, h.requested, h.opens⟩

theorem Received.hasHeader_completeText {sent : Text} (h : g.Received sent) :
    hasHeader g.completeText = hasHeader sent := by
  have hlines : Text.fullLines g.completeText = Text.fullLines sent := by
    rw [Text.fullLines, h.completeText.2, List.dropLast_concat]
  unfold hasHeader
  rw [headerDirectives_congr hlines]

theorem start_setupReady (g : Ingestor) (p : Player) (h : g.setupReady = false) :
    (g.start p).ingestor.setupReady = true ↔
      (readScript g.completeText Scene.empty).commands ≠ [] := by
  rw [start_eq]
  split
  next hnone => simp [hnone, leave, h]
  next hsome => simp [hsome, leave]

theorem start_setupRequested (g : Ingestor) (p : Player) :
    (g.start p).ingestor.setupRequested = g.setupRequested := by
  rw [start_eq]
  split <;> rfl

theorem Receiving.opening (h : g.Receiving p (receivedText rs)) (hready : g.setupReady = true)
    (hopens : Opens rs) : g.Opening p rs where
  receiving := h
  requested hnot := by cases hready.symm.trans hnot
  opens := iff_of_true hready hopens

/-- An ingestor that tries to start playback starts it just if there is a command. -/
theorem Received.start_opening {g' : Ingestor} (h : g'.Received (receivedText rs))
    (hopen : g'.finished = false) (hready : g'.setupReady = false)
    (hrequested : g'.setupRequested = true ↔ SetupCame rs)
    (hsetup : SetupCame rs ∨ hasHeader (receivedText rs) = true) (p : Player) :
    (g'.start p).ingestor.Opening (g'.start p).player rs where
  receiving := (h.start hopen hready p).1
  requested _ := by rwa [start_setupRequested]
  opens := by
    rw [start_setupReady g' p hready, h.readScript_completeText]
    exact ⟨fun hcommand => ⟨hcommand, hsetup⟩, fun hopens => hopens.command⟩

theorem onChunk_setupReady (h : g.setupReady = true) (t : Text) :
    (g.onChunk p t).ingestor.setupReady = true := by
  have hready : ¬g.setupReady = false := by simp [h]
  rw [onChunk_eq, if_neg hready]
  split <;> exact h

theorem Opening.chunk (h : g.Opening p rs) {r : StreamRecord} (hr : r.kind = .chunk) :
    (g.onChunk p r.text).ingestor.Opening (g.onChunk p r.text).player (rs ++ [r]) := by
  have htext : receivedText (rs ++ [r]) = receivedText rs ++ r.text := by
    rw [receivedText_concat, grown, hr]
  have hcame : SetupCame (rs ++ [r]) ↔ SetupCame rs := by simp [setupCame_concat, hr]
  have hreceiving := (h.receiving.chunk r.text).1
  rw [← htext] at hreceiving
  cases hready : g.setupReady with
  | true =>
    exact hreceiving.opening (onChunk_setupReady hready r.text) ((h.opens.mp hready).concat r)
  | false =>
    obtain ⟨hreceived, -⟩ := h.receiving.received.buffer r.text
    rw [← htext] at hreceived
    have hrequested : g.setupRequested = true ↔ SetupCame (rs ++ [r]) :=
      (h.requested hready).trans hcame.symm
    have hheader := hreceived.hasHeader_completeText
    rw [onChunk_eq, if_pos hready] at hreceiving ⊢
    split
    next hstart =>
      rw [hheader, Bool.or_eq_true] at hstart
      exact hreceived.start_opening h.receiving.unfinished hready hrequested
        (hstart.imp_left hrequested.mp) p
    next hwait =>
      rw [if_neg hwait] at hreceiving
      rw [hheader, Bool.or_eq_true] at hwait
      refine ⟨hreceiving, fun _ => hrequested, fun hready' => ?_, fun hopens => ?_⟩
      · cases hready.symm.trans hready'
      · exact absurd (hopens.setup.imp_left hrequested.mpr) hwait

theorem Opening.setup (h : g.Opening p rs) {r : StreamRecord} (hr : r.kind = .setupReady) :
    (g.onSetup p r.text).ingestor.Opening (g.onSetup p r.text).player (rs ++ [r]) := by
  have htext : receivedText (rs ++ [r]) =
      if receivedText rs = [] then r.text else receivedText rs := by
    rw [receivedText_concat, grown, hr]
  have hcame : SetupCame (rs ++ [r]) := setupCame_concat.mpr (.inr hr)
  cases hready : g.setupReady with
  | true =>
    have hreceiving := (h.receiving.setup r.text).1
    rw [← htext] at hreceiving
    rw [onSetup_eq, if_pos hready] at hreceiving ⊢
    exact hreceiving.opening hready ((h.opens.mp hready).concat r)
  | false =>
    have hreceived := h.receiving.received.takeSetup r.text
    rw [← htext] at hreceived
    rw [onSetup_eq, if_neg (by simp [hready])]
    exact hreceived.start_opening ((takeSetup_finished g r.text).trans h.receiving.unfinished)
      ((takeSetup_setupReady g r.text).trans hready) (iff_of_true rfl hcame) (.inl hcame) p

theorem Opening.handle (h : g.Opening p rs) {r : StreamRecord}
    (hr : r.kind = .chunk ∨ r.kind = .setupReady) :
    (g.handle p r).ingestor.Opening (g.handle p r).player (rs ++ [r]) := by
  have hopen : ¬g.finished = true := by simp [h.receiving.unfinished]
  unfold Ingestor.handle
  rw [if_neg hopen]
  rcases hr with hr | hr
  · rw [hr]
    exact h.chunk hr
  · rw [hr]
    exact h.setup hr

end Ingestor

end StoryPlayer
