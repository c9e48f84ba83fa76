import StoryPlayer.Proofs.Stage.Shows
import StoryPlayer.Proofs.Stage.Slots

/-!
# The canvas shows the stage

The stage draws only where a command changes it, and a picture that the canvas does not know breaks
drawing off at the place where it is asked for. Neither can be seen afterwards: what stands on the
canvas since it was last cleared is the scene on stage, drawn from scratch.

Drawing from scratch is told twice. `Depicts` says what stands on a canvas that shows a scene, and
`paint` draws it call by call, where a missing picture is an error until something else is drawn
instead. That `paint` never fails is that no call of the stage does.
-/

namespace StoryPlayer

/-! ## Scenes on a canvas -/

namespace Canvas

/-- What is drawn of a place: its picture or else its gradient, and nothing where there is none. -/
inductive ShowsPlace (c : Canvas) : Option Text → List Drawing → Prop
  | absent : c.ShowsPlace none []
  | empty : c.ShowsPlace (some []) []
  | background {place : Text} (hne : place ≠ []) (h : c.hasBackground place = true) :
      c.ShowsPlace (some place) [.background place]
  | gradient {place : Text} (hne : place ≠ []) (h : c.hasBackground place = false) :
      c.ShowsPlace (some place) [.gradient (coloursOf place)]

/-- What is drawn of a member: a picture or else a placeholder. -/
inductive ShowsMember (c : Canvas) (m : CastMember) (slot : Slot) : Drawing → Prop
  | character (h : c.hasSprite m.name = true) : c.ShowsMember m slot (.character m slot)
  | placeholder (h : c.hasSprite m.name = false) : c.ShowsMember m slot (.placeholder m.name slot)

/-- Every member is drawn, in order and at a slot of its own. -/
inductive ShowsCast (c : Canvas) : List CastMember → List Slot → List Drawing → Prop
  | nil : c.ShowsCast [] [] []
  | cons {m : CastMember} {slot : Slot} {d : Drawing} {ms : List CastMember} {slots : List Slot}
      {ds : List Drawing} (h : c.ShowsMember m slot d) (hrest : c.ShowsCast ms slots ds) :
      c.ShowsCast (m :: ms) (slot :: slots) (d :: ds)

/-- The drawings show a scene: its place, and in front of it the cast. -/
inductive Depicts (c : Canvas) (scene : Scene) : List Drawing → Prop
  | intro {place cast : List Drawing} (hplace : c.ShowsPlace scene.location place)
      (hcast : c.ShowsCast scene.cast (slots scene.cast.length) cast) :
      c.Depicts scene (place ++ cast)

theorem ShowsPlace.clear_notMem {c : Canvas} {place : Option Text} {ds : List Drawing}
    (h : c.ShowsPlace place ds) : .clear ∉ ds := by
  cases h <;> simp

theorem ShowsCast.clear_notMem {c : Canvas} {ms : List CastMember} {slots : List Slot}
    {ds : List Drawing} (h : c.ShowsCast ms slots ds) : .clear ∉ ds := by
  induction h with
  | nil => exact List.not_mem_nil
  | cons hmember hrest ih =>
    cases hmember <;> simp [ih]

/-- Nothing that shows a scene clears the canvas. -/
theorem Depicts.clear_notMem {c : Canvas} {scene : Scene} {ds : List Drawing}
    (h : c.Depicts scene ds) : .clear ∉ ds := by
  obtain ⟨hplace, hcast⟩ := h
  exact List.not_mem_append hplace.clear_notMem hcast.clear_notMem

end Canvas

namespace Stage

variable {c : Canvas}

theorem drawPlace_shows {place : Text} (hne : place ≠ []) :
    c.ShowsPlace (some place) [drawPlace c place] := by
  unfold drawPlace Canvas.background
  cases h : c.hasBackground place with
  | true => exact .background hne h
  | false => exact .gradient hne h

theorem drawMember_shows (m : CastMember) (slot : Slot) :
    c.ShowsMember m slot (drawMember c m slot) := by
  unfold drawMember Canvas.character
  cases h : c.hasSprite m.name with
  | true => exact .character h
  | false => exact .placeholder h

theorem zipWith_drawMember_shows {ms : List CastMember} {slots : List Slot}
    (h : slots.length = ms.length) :
    c.ShowsCast ms slots (List.zipWith (drawMember c) ms slots) := by
  induction ms generalizing slots with
  | nil =>
    obtain rfl := List.length_eq_zero_iff.mp h
    exact .nil
  | cons m ms ih =>
    cases slots with
    | nil => cases h
    | cons slot slots => exact .cons (drawMember_shows m slot) (ih (Nat.succ.inj h))

/-- The drawings of a place that may be absent or empty. -/
def placePicture (c : Canvas) : Option Text → List Drawing
  | none | some [] => []
  | some place => [drawPlace c place]

theorem picture_eq (c : Canvas) (scene : Scene) :
    picture c scene =
      placePicture c scene.location ++
        List.zipWith (drawMember c) scene.cast (slots scene.cast.length) := rfl

theorem placePicture_shows (place : Option Text) : c.ShowsPlace place (placePicture c place) := by
  match place with
  | none => exact .absent
  | some [] => exact .empty
  | some (a :: place) => exact drawPlace_shows (List.cons_ne_nil a place)

theorem picture_depicts (c : Canvas) (scene : Scene) : c.Depicts scene (picture c scene) := by
  rw [picture_eq]
  exact .intro (placePicture_shows scene.location) (zipWith_drawMember_shows (length_slots _))

/-! ## Drawing call by call -/

/-- Drawing on a canvas. A picture that is missing breaks it off, and what was drawn before that
stays drawn. -/
abbrev Brush := ExceptT Missing (StateM (List Drawing))

/-- Draws one thing. -/
def draw (d : Drawing) : Brush Unit :=
  modify (· ++ [d])

/-- Draws the picture that a canvas gives, and something else if it gives none. -/
def drawOr (r : Except Missing Drawing) (other : Drawing) : Brush Unit :=
  tryCatch (MonadExcept.ofExcept r >>= draw) fun _ => draw other

/-- Draws members at their slots. -/
def paintCast (c : Canvas) : List (CastMember × Slot) → Brush Unit
  | [] => pure ()
  | (m, slot) :: rest => do
    drawOr (c.character m slot) (.placeholder m.name slot)
    paintCast c rest

/-- Draws a place, unless it is absent or empty. -/
def paintPlace (c : Canvas) : Option Text → Brush Unit
  | none | some [] => pure ()
  | some place => drawOr (c.background place) (.gradient (coloursOf place))

/-- Clears the canvas and draws a scene from scratch. -/
def paint (c : Canvas) (scene : Scene) : Brush Unit := do
  draw .clear
  paintPlace c scene.location
  paintCast c (scene.cast.zip (slots scene.cast.length))

theorem bind_run {x : Brush Unit} {f : Unit → Brush Unit} {drawn drawn' : List Drawing}
    (h : x.run drawn = (.ok (), drawn')) : (x >>= f).run drawn = (f ()).run drawn' := by
  change (match x.run drawn with
    | (r, ds) => ExceptT.bindCont f r ds) = _
  rw [h]
  rfl

theorem drawOr_background (c : Canvas) (place : Text) (drawn : List Drawing) :
    (drawOr (c.background place) (.gradient (coloursOf place))).run drawn =
      (.ok (), drawn ++ [drawPlace c place]) := by
  unfold drawPlace
  cases c.background place <;> rfl

theorem drawOr_character (c : Canvas) (m : CastMember) (slot : Slot) (drawn : List Drawing) :
    (drawOr (c.character m slot) (.placeholder m.name slot)).run drawn =
      (.ok (), drawn ++ [drawMember c m slot]) := by
  unfold drawMember
  cases c.character m slot <;> rfl

theorem paintPlace_run (c : Canvas) (place : Option Text) (drawn : List Drawing) :
    (paintPlace c place).run drawn = (.ok (), drawn ++ placePicture c place) := by
  match place with
  | none | some [] => exact congrArg (Prod.mk _) (List.append_nil drawn).symm
  | some (a :: place) => exact drawOr_background c (a :: place) drawn

theorem paintCast_run (c : Canvas) (ms : List CastMember) (slots : List Slot)
    (drawn : List Drawing) :
    (paintCast c (ms.zip slots)).run drawn =
      (.ok (), drawn ++ List.zipWith (drawMember c) ms slots) := by
  induction ms generalizing slots drawn with
  | nil => exact congrArg (Prod.mk _) (List.append_nil drawn).symm
  | cons m ms ih =>
    cases slots with
    | nil => exact congrArg (Prod.mk _) (List.append_nil drawn).symm
    | cons slot slots =>
      rw [List.zip_cons_cons, paintCast, bind_run (drawOr_character c m slot drawn), ih,
        List.append_assoc]
      rfl

/-- A missing picture never breaks drawing off for good, and what is drawn is the picture of the
scene. -/
theorem paint_run (c : Canvas) (scene : Scene) (drawn : List Drawing) :
    (paint c scene).run drawn = (.ok (), drawn ++ .clear :: picture c scene) := by
  have hclear : (draw .clear).run drawn = (.ok (), drawn ++ [.clear]) := rfl
  rw [paint, bind_run hclear, bind_run (paintPlace_run c scene.location _), paintCast_run,
    picture_eq]
  simp only [List.append_assoc, List.cons_append, List.nil_append]

/-! ## What stands on the canvas -/

@[simp]
theorem act_canvas (s : Stage) (cue : Cue) : (s.act cue).1.canvas = s.canvas := by
  cases cue with
  | display d => rfl
  | reset => rfl
  | render c =>
    cases c with
    | location place colours =>
      unfold act render
      dsimp only
      split <;> rfl
    | cast | dialogue | action => rfl

/-- A call leaves stage and canvas as they are, or it clears the canvas and draws the scene. -/
theorem act_cases (s : Stage) (cue : Cue) :
    s.act cue = (s, []) ∨
      (s.act cue).2 = .clear :: picture s.canvas (s.act cue).1.scene := by
  cases cue with
  | display d => exact .inl rfl
  | reset => exact .inr rfl
  | render c =>
    cases c with
    | location place colours =>
      unfold act render
      dsimp only
      split
      · exact .inl rfl
      · exact .inr rfl
    | cast | dialogue | action => exact .inr rfl

theorem follow_concat (s : Stage) (cues : List Cue) (cue : Cue) :
    s.follow (cues ++ [cue]) =
      (((s.follow cues).1.act cue).1, (s.follow cues).2 ++ ((s.follow cues).1.act cue).2) := by
  induction cues generalizing s with
  | nil => simp [follow]
  | cons d cues ih => simp [follow, ih]

theorem follow_canvas (s : Stage) (cues : List Cue) : (s.follow cues).1.canvas = s.canvas := by
  induction cues generalizing s with
  | nil => rfl
  | cons cue cues ih => exact (ih (s.act cue).1).trans (s.act_canvas cue)

end Stage

/-- The drawings behind the last time that the canvas was cleared. -/
def sinceClear (ds : List Drawing) : List Drawing :=
  ds.rtakeWhile (· ≠ .clear)

theorem sinceClear_append_cons (ds : List Drawing) {more : List Drawing} (h : .clear ∉ more) :
    sinceClear (ds ++ .clear :: more) = more := by
  have hall : ∀ d ∈ more.reverse, decide (d ≠ Drawing.clear) = true := by
    intro d hd
    refine decide_eq_true fun heq => h ?_
    rwa [← heq, ← List.mem_reverse]
  unfold sinceClear List.rtakeWhile
  rw [List.reverse_append, List.reverse_cons, List.append_assoc, List.takeWhile_append_of_pos hall]
  simp

namespace Stage

/-- Whatever it follows, the canvas shows the scene on stage. -/
theorem sinceClear_follow (canvas : Canvas) (hidden : List Text) (cues : List Cue) :
    sinceClear ((new canvas hidden).follow cues).2 =
      picture canvas ((new canvas hidden).follow cues).1.scene := by
  induction cues using List.reverseRecOn with
  | nil => rfl
  | append_singleton cues cue ih =>
    have hcanvas := follow_canvas (new canvas hidden) cues
    rw [follow_concat]
    generalize (new canvas hidden).follow cues = r at ih hcanvas ⊢
    rcases r.1.act_cases cue with hsame | hdrawn
    · rw [hsame, List.append_nil]
      exact ih
    · rw [hdrawn, sinceClear_append_cons _ ((picture_depicts _ _).clear_notMem), hcanvas]
      rfl

end Stage

/-! ## The scene on stage -/

namespace Command

/-- The place that a command puts on stage, if it does. A dialogue or action puts none there when
it has none or an empty one. -/
def stagePlace? : Command → Option Text
  | location place _ => some place
  | cast _ => none
  | dialogue _ _ _ scene | action _ scene => scene.location.filter (· ≠ [])

/-- The members whom a command puts on stage, if it does. -/
def stageCast? : Command → Option (List CastMember)
  | location _ _ => none
  | cast members => some members
  | dialogue _ _ _ scene | action _ scene => some scene.cast

end Command

/-- The commands that were rendered since the stage was last emptied. -/
def sinceReset (cues : List Cue) : List Command :=
  renders (cues.rtakeWhile (· ≠ .reset))

/-- The scene that commands leave on an empty stage: the place and the members of the last ones that
put some there, without the members who are hidden. -/
def sceneOnStage (hidden : List Text) (cs : List Command) : Scene :=
  ⟨(cs.filterMap Command.stagePlace?).getLast?,
    ((cs.filterMap Command.stageCast?).getLast?.getD []).filter fun m =>
      Text.lower m.name ∉ hidden.map Text.lower⟩

namespace Stage

theorem moved_eq (old place : Option Text) :
    moved old place = (place.filter (· ≠ [])).or old := by
  match place with
  | none | some [] => rfl
  | some (a :: place) => rfl

theorem render_scene (s : Stage) (c : Command) :
    (s.render c).1.scene =
      ⟨c.stagePlace?.or s.scene.location, (c.stageCast?.map s.visible).getD s.scene.cast⟩ := by
  cases c with
  | location place colours =>
    unfold render
    dsimp only
    split
    next h =>
      change s.scene = ⟨some place, s.scene.cast⟩
      rw [← h]
    · rfl
  | cast members => rfl
  | dialogue speaker text mood scene =>
    rw [render_snapshot s rfl, moved_eq]
    rfl
  | action text scene =>
    rw [render_snapshot s rfl, moved_eq]
    rfl

theorem sceneOnStage_concat (hidden : List Text) (cs : List Command) (c : Command) :
    sceneOnStage hidden (cs ++ [c]) =
      ⟨c.stagePlace?.or (sceneOnStage hidden cs).location,
        (c.stageCast?.map fun ms => ms.filter fun m =>
          Text.lower m.name ∉ hidden.map Text.lower).getD (sceneOnStage hidden cs).cast⟩ := by
  unfold sceneOnStage
  rw [List.filterMap_append, List.filterMap_append, List.getLast?_append, List.getLast?_append]
  cases hplace : c.stagePlace? <;> cases hcast : c.stageCast? <;> simp [hplace, hcast]

/-- The scene on stage is that of the commands since it was emptied. -/
theorem follow_scene (canvas : Canvas) (hidden : List Text) (cues : List Cue) :
    ((new canvas hidden).follow cues).1.scene = sceneOnStage hidden (sinceReset cues) := by
  induction cues using List.reverseRecOn with
  | nil => rfl
  | append_singleton cues cue ih =>
    have hhidden := follow_hidden (new canvas hidden) cues
    rw [follow_concat]
    generalize ((new canvas hidden).follow cues).1 = s at ih hhidden ⊢
    unfold sinceReset at ih ⊢
    cases cue with
    | reset =>
      rw [List.rtakeWhile_concat_neg _ _ _ (by simp)]
      rfl
    | display d =>
      change s.scene = _
      rw [List.rtakeWhile_concat_pos _ _ _ (by simp), renders, List.filterMap_append]
      simpa [renders] using ih
    | render c =>
      rw [List.rtakeWhile_concat_pos _ _ _ (by simp), renders, List.filterMap_append]
      change (s.render c).1.scene = sceneOnStage hidden (renders _ ++ [c])
      have hvisible : s.visible = fun ms => ms.filter fun m =>
          Text.lower m.name ∉ hidden.map Text.lower := by
        funext ms
        rw [visible, hhidden]
        rfl
      rw [sceneOnStage_concat, render_scene, ih, hvisible]

/-- Whatever commands are rendered and however often the stage is emptied, the canvas shows the
scene on stage: its drawings since it was last cleared are those of the place, or of the gradient
of a place that the canvas does not know, and of every member in order at a slot, or of a
placeholder for one whom it does not know. The scene is that of the commands since the stage was
emptied, without the hidden members. And no call fails: the next one does nothing at all, or it
draws its scene from scratch, and whatever pictures are missing, that comes to its end. -/
theorem follow_depicts (canvas : Canvas) (hidden : List Text) (cues : List Cue) :
    let r := (new canvas hidden).follow cues
    r.1.scene = sceneOnStage hidden (sinceReset cues) ∧
      canvas.Depicts r.1.scene (sinceClear r.2) ∧
      ∀ cue, r.1.act cue = (r.1, []) ∨
        ∀ drawn, (paint canvas (r.1.act cue).1.scene).run drawn =
          (.ok (), drawn ++ (r.1.act cue).2) := by
  intro r
  refine ⟨follow_scene canvas hidden cues, ?_, fun cue => ?_⟩
  · rw [sinceClear_follow]
    exact picture_depicts canvas r.1.scene
  · refine (r.1.act_cases cue).imp_right fun hdrawn drawn => ?_
    rw [hdrawn, follow_canvas (new canvas hidden) cues]
    exact paint_run canvas _ drawn

end Stage

end StoryPlayer
