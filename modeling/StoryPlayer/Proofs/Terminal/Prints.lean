import StoryPlayer.Proofs.Playback.Finishing
import StoryPlayer.Proofs.Session.Started
import StoryPlayer.Proofs.Stream.Replay
import StoryPlayer.Terminal.Play

/-!
# What is printed is the story

Whether a script is there from the first or is replayed as if it were streaming in, the same is
printed: a line for each of its texts, in their order, and the choices at its end.
-/

namespace StoryPlayer

/-- The line that is printed for a command. -/
def Command.line? : Command → Option Text
  | dialogue speaker text _ _ =>
    some ((if speaker = [] then [] else speaker ++ [':', ' ']) ++ text ++ ['\n'])
  | action text _ => some ("Narration: ".toList ++ text ++ ['\n'])
  | _ => none

namespace Terminal

open Player Session

/-- The line that is printed for a choice behind its number, counting from one. -/
def choiceLine (choice : Text × Nat) : Text :=
  ("  " ++ toString choice.2 ++ ". ").toList ++ choice.1 ++ ['\n']

/-- A story as it is printed: its lines, and its choices under a heading if it has any. -/
def tale (r : Reading) : Text :=
  (r.commands.filterMap Command.line?).flatten ++
    if r.offered = [] then [] else
      "\nWhat next?\n".toList ++ ((r.offered.zipIdx 1).map choiceLine).flatten

theorem numbered_eq (n : Nat) (cs : List Text) :
    numbered n cs = ((cs.zipIdx n).map choiceLine).flatten := by
  induction cs generalizing n with
  | nil => rfl
  | cons c cs ih =>
    rw [numbered, ih, List.zipIdx_cons, List.map_cons, List.flatten_cons]
    simp [choiceLine, Text.ofNat, Nat.repr]

theorem tale_eq (r : Reading) :
    tale r = (r.commands.filterMap Command.line?).flatten ++ choiceList r.offered := by
  rw [tale, choiceList, numbered_eq]

theorem line?_eq (c : Command) : c.line? = c.full?.map lineOf := by
  cases c <;> rfl

theorem flatMap_lineOf (cs : List Command) :
    (cs.filterMap Command.full?).flatMap lineOf = (cs.filterMap Command.line?).flatten := by
  have hline : Command.line? = fun c => c.full?.map lineOf := funext line?_eq
  rw [hline, List.flatMap_def, List.map_filterMap]

/-- What a play printed is a story as far as it was told, and all of it if the play came to an
end. -/
structure Performance.Prints (p : Performance) (story : Text) : Prop where
  silent : p.errors = []
  unbroken : p.broken = none
  inOrder : p.output <+: story
  whole : p.ends = true → p.output = story

/-- A call that has not failed, whether it gives choices or the results of a batch. -/
def IsAnswer (r : Reading) (answers : Array (Nat × Result)) : Prop :=
  answers = #[(0, .choices r.offered)] ∨ ∃ rs, answers = #[(0, .all rs)]

variable {settings : Settings} {r : Reading} {answers : Array (Nat × Result)} {limit rank : Nat}
  {s : Session}

theorem failure?_eq_none (hr : IsAnswer r answers) (h : s.finished = #[] ∨ s.finished = answers) :
    failure? s = none := by
  unfold failure?
  rcases h with h | h
  · simp [h]
  · rcases hr with rfl | ⟨rs, rfl⟩ <;> simp [h]

theorem choices_eq (hr : IsAnswer r answers) (h : s.finished = answers)
    (hstory : s.player.Holds r) : choices s = r.offered := by
  unfold choices
  rcases hr with rfl | ⟨rs, rfl⟩
  · simp [h]
  · simp [h, hstory.choices]

theorem isOver_eq (hr : IsAnswer r answers) (h : s.finished = answers) :
    isOver s = decide (s.player.phase = .ended ∨ s.player.phase = .idle) := by
  have hfailure := failure?_eq_none hr (.inr h)
  unfold isOver isBroken
  rcases hr with rfl | ⟨rs, rfl⟩ <;> simp [hfailure, h]

theorem printed_eq (s : Session) : printed s = (fullDisplays s.player.cues.toList).flatMap lineOf :=
  rfl

theorem finished_of_plays {p₀ : Player} {l : List (Int × Task)}
    (h : Plays p₀ r answers limit l s rank) : s.finished = #[] ∨ s.finished = answers := by
  cases h.fed.supply with
  | all _ _ hfinished => exact .inr hfinished
  | comes _ _ _ _ _ hfinished => exact .inl hfinished

/-- What a player has told so far is the beginning of the story. -/
theorem printed_of_performs (h : (Player.new settings).Performs (s.player, none))
    (hstory : s.player.Holds r) : printed s <+: (r.commands.filterMap Command.line?).flatten := by
  have hdisplays : fullDisplays s.player.cues.toList =
      (r.commands.take s.player.told).filterMap Command.full? := by
    rw [h.recites.completes.of_new, shown, hstory.commands]
  rw [printed_eq, hdisplays, flatMap_lineOf]
  exact ((List.take_prefix _ _).filterMap _).flatten

theorem printed_of_hasTold (h : s.player.HasTold r) :
    printed s = (r.commands.filterMap Command.line?).flatten := by
  rw [printed_eq, h.displays, flatMap_lineOf]

/-- Once the player is neither telling anything nor waiting, it has told all there is. -/
theorem hasTold_of_over (hauto : settings.autoMode = true) (hstream : s.player.streaming = false)
    (hstory : s.player.Holds r)
    (htells : (Player.new settings).Performs (s.player, none) ∨
      r.commands = [] ∧ (Player.new settings).Waits s.player)
    (hphase : s.player.phase = .ended ∨ s.player.phase = .idle) : s.player.HasTold r := by
  rcases htells with hperforms | ⟨hcommands, hwaits⟩
  · have hsettled : s.player.Settled [] := hperforms.settled
    have htimer := hsettled.fits.timer_eq_none (by rcases hphase with h | h <;> simp [h])
      (by rcases hphase with h | h <;> simp [h])
    exact hperforms.hasTold htimer hauto hstream hstory
  · exact hwaits.hasTold hstory hcommands

/-- A session that plays prints its story. -/
theorem perform_of_plays (story : Story) (hquiet : (start settings story).Quiet)
    (hplays : Plays (.new { settings with autoMode := true }) r answers limit
      (start settings story).pending (start settings story) rank) (hr : IsAnswer r answers) :
    (perform settings story).Prints (tale r) ∧
      (settings.IsPaced → (perform settings story).ends = true) := by
  obtain ⟨m, rank', hm, hquiet', hplays', -⟩ :=
    hplays.ringWhile (fun s _ => s.finished.isEmpty) hquiet
  have hnone := failure?_eq_none hr (finished_of_plays hplays')
  obtain ⟨hfinished, hstream, hstory, htells, htimer⟩ := hplays'.run hquiet'
  have hover := isOver_eq hr hfinished
  have hperform : perform settings story =
      ⟨printed m.run ++ if isOver m.run then choiceList (choices m.run) else [], [],
        hasAsked m.run, none, isOver m.run⟩ := by
    have hanswer : (start settings story).runToAnswer = m := hm
    unfold perform
    rw [hanswer]
    simp only [hnone]
  have htold (hphase : m.run.player.phase = .ended ∨ m.run.player.phase = .idle) :=
    hasTold_of_over rfl hstream hstory htells hphase
  rw [hperform]
  refine ⟨⟨rfl, rfl, ?_, ?_⟩, ?_⟩
  · dsimp only
    by_cases hphase : m.run.player.phase = .ended ∨ m.run.player.phase = .idle
    · rw [hover, if_pos (decide_eq_true hphase), choices_eq hr hfinished hstory,
        printed_of_hasTold (htold hphase), tale_eq]
    · have hperforms := htells.resolve_right fun ⟨_, hwaits⟩ => hphase (.inr hwaits.idle)
      rw [hover, if_neg (by simp [hphase]), List.append_nil, tale_eq]
      exact (printed_of_performs hperforms hstory).trans (List.prefix_append _ _)
  · intro hends
    dsimp only at hends ⊢
    have hphase := of_decide_eq_true (hover ▸ hends)
    rw [hends, if_pos rfl, choices_eq hr hfinished hstory, printed_of_hasTold (htold hphase),
      tale_eq]
  · intro hpaced
    dsimp only
    obtain ⟨-, hends⟩ := hplays'.run_hasTold hquiet' rfl
    obtain ⟨-, hall⟩ := hends
      ⟨hpaced.textSpeed, hpaced.autoSpeed, hpaced.streamingAdvance, hpaced.locationAdvance⟩
    have hphase : m.run.player.phase = if r.commands = [] then .idle else .ended := hall.phase
    rw [hover, decide_eq_true_iff, hphase]
    split
    · exact .inr rfl
    · exact .inl rfl

/-- Whatever the settings, a script is printed as far as it is told: each line once and in its order,
and when the play has come to an end all of it, with the choices. A replay prints the same if it is
over before the deadline. Both come to an end when the delays of the settings can be waited for. -/
theorem perform_prints (settings : Settings) (t : Text) :
    let story := tale (readScript t Scene.empty)
    let lasts := (t.length + (chunkSize - 1)) / chunkSize * chunkWait.toNat
    (perform settings (.script t)).Prints story ∧
      (settings.IsPaced → (perform settings (.script t)).ends = true) ∧
      ((Seconds.float settings.streamTimeout).Allows lasts →
        (perform settings (.replay t)).Prints story ∧
          (settings.IsPaced → (perform settings (.replay t)).ends = true)) := by
  intro story lasts
  obtain ⟨hquiet, rank, hplays⟩ := plays_load_start { settings with autoMode := true }
    (.float settings.streamTimeout) false t
  obtain ⟨hprints, hends⟩ := perform_of_plays (.script t) hquiet hplays (.inr ⟨_, rfl⟩)
  refine ⟨hprints, hends, fun hallows => ?_⟩
  have hdelivers := Source.replay_delivers t (show 0 < chunkSize by decide) chunkWait
  have hlasts : (Source.replay t chunkSize chunkWait).duration = lasts :=
    Source.replay_duration t (by decide) chunkWait
  obtain ⟨hquiet, rank, hplays⟩ := plays_consume { settings with autoMode := true } hdelivers
    (hlasts ▸ hallows) false
  exact perform_of_plays (.replay t) hquiet hplays (.inl rfl)

/-- A place, a line and a choice, played at the default settings. -/
theorem perform_prints_default :
    let t := ['L', 'O', 'C', ':', 'a', '\n', 'B', ':', 'c', '\n', 'S', 'T', 'P', ':', 'd']
    let p := perform .default (.script t)
    Settings.default.IsPaced ∧ p.ends = true ∧
      p.output = ['B', ':', ' ', 'c', '\n'] ++ "\nWhat next?\n  1. d\n".toList := by
  have hpaced : Settings.default.IsPaced := by
    constructor <;> decide +kernel
  have hprints := perform_prints .default
    ['L', 'O', 'C', ':', 'a', '\n', 'B', ':', 'c', '\n', 'S', 'T', 'P', ':', 'd']
  dsimp only at hprints ⊢
  obtain ⟨hscript, hends, -⟩ := hprints
  refine ⟨hpaced, hends hpaced, (hscript.whole (hends hpaced)).trans ?_⟩
  decide +kernel

/-- The session in which a script has begun, with its player and what the call gave. -/
def begun (settings : Settings) (t : Text) : Session :=
  let p := (Player.new { settings with autoMode := true }).load t
  { (Session.new (.new { settings with autoMode := true }) false).addIntake
      (.float settings.streamTimeout) false with
    player := Player.settle p.start
    paced := 1
    finished := #[(0, .all [.commands p.store.commands, .nothing])] }

/-- When the first delay of a script cannot be waited for nothing more happens. -/
theorem start_of_uncountable {t : Text} {timer : Timer} {delay : Int}
    (htimer : (begun settings t).player.timer = some timer) (hserial : timer.serial = 0)
    (hjob : timer.job = .goOn delay) (hcount : millisCountable delay = false) :
    start settings (.script t) = begun settings t := by
  let s := (Session.new (.new { settings with autoMode := true }) false).addIntake
    (.float settings.streamTimeout) false
  let p := (Player.new { settings with autoMode := true }).load t
  let q := Player.settle p.start
  have hload : s.withPlayer p = { s with player := p } := notice_of_lt nofun
  have hnotice : { s with player := p }.withPlayer q =
      { { s with player := q } with paced := 1 }.enqueue (.pace 0) := by
    have hq : q.timer = some timer := htimer
    unfold withPlayer notice
    simp only [hq, hserial]
    rfl
  -- The timer is noticed and does not begin to wait.
  have hpace : (begun settings t).begin (.pace 0) = begun settings t := by
    have hfires : (begun settings t).player.canFire = false := by
      simp [canFire, delay?, htimer, hjob, hcount]
    exact pace_of_not_canFire hfires 0
  change s.call 0 (.batch [.load t false, .start]) = begun settings t
  rw [call_load_start rfl]
  change { (s.withPlayer p).withPlayer q with finished := _ }.resting.settle = _
  rw [hload, hnotice]
  calc
    _ = ((begun settings t).begin (.pace 0)).settle := settle_resting_cons rfl
    _ = begun settings t := by rw [hpace, settle_of_quiet rfl]

/-- A delay that is no binary64 number of seconds stops the play for ever at the first location,
before anything is printed. -/
theorem perform_stalls :
    let settings := { Settings.default with locationAdvance := Int.ofNat (Nat.pow 10 400) }
    let t := ['L', 'O', 'C', ':', ' ', 'a', '\n', 'B', ':', ' ', 'c']
    let p := perform settings (.script t)
    tale (readScript t Scene.empty) = ['B', ':', ' ', 'c', '\n'] ∧ p.output = [] ∧
      p.ends = false := by
  intro settings t p
  have htimer : (begun settings t).player.timer =
      some ⟨0, 2, .goOn (Int.ofNat (Nat.pow 10 400))⟩ := by decide +kernel
  have hphase : (begun settings t).player.phase = .awaitingInput := by decide +kernel
  have hsilent : printed (begun settings t) = [] := by decide +kernel
  have hstart : start settings (.script t) = begun settings t :=
    start_of_uncountable htimer rfl rfl (by decide +kernel)
  have hrings (goesOn : Session → Alarm → Bool) :
      (begun settings t).ringWhile goesOn = begun settings t := ringWhile_of_none goesOn rfl
  have hover : isOver (begun settings t) = false := by
    have hdecide := isOver_eq (r := readScript t Scene.empty) (s := begun settings t)
      (.inr ⟨_, rfl⟩) rfl
    simpa [hphase] using hdecide
  have hnone : failure? (begun settings t) = none := rfl
  have hperform : p = ⟨[], [], hasAsked (begun settings t), none, false⟩ := by
    have hanswer : (start settings (.script t)).runToAnswer = begun settings t := by
      rw [hstart]
      exact hrings _
    have hrun : (begun settings t).run = begun settings t := hrings _
    change perform settings (.script t) = _
    unfold perform
    rw [hanswer]
    simp only [hnone, hrun, hover, hsilent]
    rfl
  rw [hperform]
  exact ⟨by decide +kernel, rfl, rfl⟩

end Terminal

end StoryPlayer
