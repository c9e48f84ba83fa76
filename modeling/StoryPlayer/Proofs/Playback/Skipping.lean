import Mathlib.Data.List.Infix
import StoryPlayer.Proofs.Playback.Timer

/-!
# A reveal that is cut short

While a text is revealed the dialogue box shows longer and longer beginnings of it, each once. A
reader who does not wait for the end is shown the whole text at once. Either way the player is in
the same state afterwards, with the same timer armed. Only the beginnings in between differ, which
were never shown to the reader who did not wait.
-/

namespace StoryPlayer

/-- What the dialogue box shows under a label while a text is revealed, from nothing to all of it.
-/
def beginnings (label text : Text) : List Cue :=
  text.inits.map fun shown => .display ⟨label, shown, false⟩

theorem beginnings_concat (label text : Text) (c : Char) :
    beginnings label (text ++ [c]) =
      beginnings label text ++ [.display ⟨label, text ++ [c], false⟩] := by
  unfold beginnings
  rw [List.inits_append, List.map_append]
  rfl

namespace Player

/-- Since `p₀` the text of a command has begun to be revealed, and nothing was told but that. -/
structure Spells (p₀ p : Player) (c : Command) : Prop where
  current : p.current = some c
  display : p.display = ⟨c.label, p.display.text, false⟩
  cues : p.cues.toList = p₀.cues.toList ++ beginnings c.label p.display.text

/-- The reveal that runs in `q` has begun since `p`. -/
def Begins (p q : Player) : Prop :=
  p.phase ≠ .typing ∧ ∃ d, p.Spells q d

/-- The reveal that runs in `q` is that of `p`, which has gone on. -/
def GoesOn (p q : Player) : Prop :=
  p.phase = .typing ∧ ∀ p₀ d, Spells p₀ p d → Spells p₀ q d

/-- Shows all these characters one after another. -/
def showAll (p : Player) (text : Text) : Player :=
  text.foldl showNext p

/-- The player when a reveal has come to its end: all that was hidden is shown. -/
def revealAll (p : Player) (session : Nat) (hidden : Text) : Player :=
  (p.showAll hidden).disarm.finishReveal session

section

variable {p₀ p q : Player} {d : Command} {ts : List Ticket}

/-! ## While a text is revealed -/

theorem exhaust_phase_ne_typing (p : Player) : p.exhaust.phase ≠ .typing := by
  cases hstream : p.streaming with
  | true => simp [exhaust_of_streaming hstream]
  | false => simp [exhaust_of_not_streaming hstream]

theorem process_phase_ne_typing (p : Player) : (process p).1.phase ≠ .typing := by
  cases hc : p.store.current? with
  | none =>
    rw [process_of_none hc]
    exact exhaust_phase_ne_typing _
  | some c =>
    rw [process_of_some hc]
    simp [cue]

theorem Spells.showNext (h : p₀.Spells p d) (c : Char) : p₀.Spells (p.showNext c) d where
  current := h.current
  display := by
    change (⟨p.display.speaker, p.display.text ++ [c], p.display.showContinue⟩ : Display) = _
    rw [h.display]
    rfl
  cues := by
    change (p.cues.push (.display
      ⟨p.display.speaker, p.display.text ++ [c], p.display.showContinue⟩)).toList = _
    rw [Array.toList_push, h.cues, List.append_assoc]
    change _ = _ ++ beginnings d.label (p.display.text ++ [c])
    rw [beginnings_concat, h.display]

theorem Spells.congr (h : p₀.Spells p d) (hcurrent : q.current = p.current)
    (hdisplay : q.display = p.display) (hcues : q.cues = p.cues) : p₀.Spells q d := by
  constructor
  · rw [hcurrent, h.current]
  · rw [hdisplay, ← h.display]
  · rw [hdisplay, hcues, h.cues]

/-- Whatever comes of a turn, a reveal that runs then has begun in it or gone on. It begins when a
render is done, and as long as it goes on nothing is told but longer beginnings of the text. -/
theorem Turn.reveals {c : Trigger} {w : Waiting} (h : p.Turn c w)
    (hsteady : p.Steady (c.ticket?.toList ++ ts)) (htyping : w.1.phase = .typing) :
    c.ticket? ≠ none ∧ p.Begins w.1 ∨ p.GoesOn w.1 := by
  cases h with
  | stay | append | stream | seek | textSpeed | autoSpeed | late | disarmed | lapse
  | fail =>
    exact .inr ⟨htyping, fun _ _ hp => hp.congr rfl rfl rfl⟩
  | load | finish | runOut => cases htyping
  | toggle r =>
    obtain ⟨t, ts, n, heq⟩ := p.exists_toggleAuto
    rw [heq] at htyping ⊢
    exact .inr ⟨htyping, fun _ _ hp => hp.congr rfl rfl rfl⟩
  | skip r hskip => cases htyping.symm.trans (skip_phase hskip)
  | restart | back | onward => exact absurd htyping (process_phase_ne_typing _)
  | exhaust | spent => exact absurd htyping (exhaust_phase_ne_typing _)
  | @reveal t text hsession htext =>
    obtain ⟨hcurrent, hphase, -⟩ := hsteady.awaited t List.mem_cons_self hsession
    exact .inl ⟨Option.some_ne_none t, hphase, t.command, hcurrent, rfl, Array.toList_push⟩
  | stayOn => cases htyping.symm.trans p.stayOn_phase
  | @showNext t char rest ht hjob hrest =>
    exact .inr ⟨htyping, fun _ _ hp => (hp.showNext char).congr rfl rfl rfl⟩
  | showLast | showNone => cases htyping.symm.trans (finishReveal_phase _ _)

/-- Requests neither start a reveal nor tell anything while one runs. -/
theorem askAll_goesOn (hsteady : p.Steady ts) {rs : List Request}
    (htyping : (p.askAll rs).1.phase = .typing) : p.GoesOn (p.askAll rs).1 := by
  induction rs generalizing p ts with
  | nil => exact ⟨htyping, fun _ _ hp => hp⟩
  | cons r rs ih =>
    have hturn := p.ask_turn r
    obtain ⟨hnext, hrest⟩ := ih (hturn.steady hsteady) htyping
    rcases hturn.reveals hsteady hnext with ⟨hrender, -⟩ | ⟨hphase, hspells⟩
    · exact absurd rfl hrender
    · exact ⟨hphase, fun p₀ d hp => hrest p₀ d (hspells p₀ d hp)⟩

/-! ## To the end of the text -/

theorem showAll_eq (p : Player) (text : Text) :
    p.showAll text =
      { p with
        display := { p.display with text := p.display.text ++ text }
        cues := (p.showAll text).cues } := by
  induction text generalizing p with
  | nil =>
    rw [List.append_nil]
    rfl
  | cons c text ih =>
    have hrest := ih (p.showNext c)
    rw [List.append_cons]
    exact hrest

theorem showAll_timer (p : Player) (text : Text) (t : Option Timer) (us : List Timer) :
    showAll { p with timer := t, tasks := us } text =
      { p.showAll text with timer := t, tasks := us } := by
  induction text generalizing p with
  | nil => rfl
  | cons c text ih => exact ih (p.showNext c)

theorem Spells.showAll (h : p₀.Spells p d) (text : Text) : p₀.Spells (p.showAll text) d := by
  induction text generalizing p with
  | nil => exact h
  | cons c text ih => exact ih (h.showNext c)

theorem finishReveal_with_cues (p : Player) (cues : Array Cue) (session : Nat) :
    finishReveal { p with cues := cues } session =
      { p.finishReveal session with
        cues := cues.push (.display { p.display with showContinue := true }) } := by
  rw [finishReveal_eq, finishReveal_eq]
  dsimp only
  split
  · rfl
  split <;> rfl

theorem finishReveal_cues (p : Player) (session : Nat) :
    (p.finishReveal session).cues =
      p.cues.push (.display { p.display with showContinue := true }) :=
  congrArg cues (p.finishReveal_with_cues p.cues session)

/-- A reveal that is skipped leaves the player as one that has come to its end, but for the cues. -/
theorem skip_eq {hidden : Text} (hphase : p.phase = .typing) (hcurrent : p.current = some d)
    (htext : d.spoken? = some (p.display.text ++ hidden)) :
    p.skip = { p.revealAll p.session hidden with cues := p.skip.cues } := by
  let q : Player :=
    { p.disarm with display := { p.display with text := p.display.text ++ hidden } }
  have hskip : p.skip = q.finishReveal p.session := by
    rw [skip_of_typing hphase, hcurrent, Option.bind_some, htext, Option.getD_some]
  have hshown : (p.showAll hidden).disarm = { q with cues := (p.showAll hidden).cues } := by
    rw [showAll_eq]
    rfl
  rw [hskip, revealAll, hshown, finishReveal_with_cues]

/-- When a reveal has come to its end, all beginnings of the text were told, and then all of it. -/
theorem Spells.revealAll (h : p₀.Spells p d) (session : Nat) (hidden : Text) :
    (p.revealAll session hidden).cues.toList =
        p₀.cues.toList ++ beginnings d.label (p.display.text ++ hidden) ++
          [.display ⟨d.label, p.display.text ++ hidden, true⟩] ∧
      (p.revealAll session hidden).display = ⟨d.label, p.display.text ++ hidden, true⟩ := by
  have hall := h.showAll hidden
  have htext : (p.showAll hidden).display.text = p.display.text ++ hidden := by rw [showAll_eq]
  have hwhole : { (p.showAll hidden).display with showContinue := true } =
      (⟨d.label, p.display.text ++ hidden, true⟩ : Display) := by
    rw [hall.display, htext]
  have hcues : (p.revealAll session hidden).cues =
      (p.showAll hidden).cues.push
        (.display { (p.showAll hidden).display with showContinue := true }) :=
    finishReveal_cues _ _
  obtain ⟨t, ts, n, heq⟩ := (p.showAll hidden).disarm.exists_finishReveal session
  refine ⟨?_, ?_⟩
  · rw [hcues, hwhole, Array.toList_push, hall.cues, htext]
  · rw [Player.revealAll, heq]
    exact hwhole

/-- When a reveal was skipped, no more was told of the text but all of it. -/
theorem Spells.skip {text : Text} (h : p₀.Spells p d) (hphase : p.phase = .typing)
    (htext : d.spoken? = some text) :
    p.skip.cues.toList =
      p₀.cues.toList ++ beginnings d.label p.display.text ++
        [.display ⟨d.label, text, true⟩] := by
  have hlabel : p.display.speaker = d.label := congrArg Display.speaker h.display
  rw [skip_of_typing hphase, h.current, Option.bind_some, htext, Option.getD_some,
    finishReveal_cues, Array.toList_push]
  change p.cues.toList ++ [.display ⟨p.display.speaker, text, true⟩] = _
  rw [h.cues, hlabel]

/-- The timer that is still armed during a reveal is given up at the end. -/
theorem revealAll_of_tasksFit (hp : p.TasksFit) {t : Timer} (session : Nat) (hidden : Text) :
    revealAll { p with timer := some t, tasks := [t] } session hidden =
      p.revealAll session hidden := by
  have hshown : (p.showAll hidden).TasksFit := by
    rw [showAll_eq]
    exact hp.congr rfl rfl
  have hdisarmed : (p.showAll hidden).disarm =
      { p.showAll hidden with timer := none, tasks := [] } := by
    rw [← hshown.disarm_tasks]
    rfl
  rw [revealAll, revealAll, hdisarmed, showAll_timer]
  simp [disarm, holds]

end

end Player

open Player

namespace Playback

/-- A move that leads to a running reveal begins it or goes on with it. -/
theorem step_reveals {s : Playback} (hsteady : s.Steady) {m : Move}
    (htyping : (s.step m).player.phase = .typing) :
    s.player.Begins (s.step m).player ∨ s.player.GoesOn (s.step m).player := by
  have hruns := hsteady.runs m
  generalize (s.step m).player = q at hruns htyping ⊢
  cases hruns with
  | stay => exact .inr ⟨htyping, fun _ _ hp => hp⟩
  | turn hturn hplayer hask => exact (hturn.reveals hplayer htyping).imp_left And.right
  | intake hintake hm => exact .inr (askAll_goesOn hsteady.player htyping)

/-- Where a text is revealed, there was a moment at which that began, and it has gone on since. -/
theorem exists_beginning {s₀ : Playback} (hsteady : s₀.Steady)
    (hbefore : s₀.player.phase ≠ .typing) (ms : List Move)
    (htyping : (s₀.run ms).player.phase = .typing) :
    ∃ front back d, ms = front ++ back ∧ (s₀.run front).player.phase ≠ .typing ∧
      (∀ mid, mid <+: back → mid ≠ [] → (s₀.run (front ++ mid)).player.phase = .typing) ∧
      (s₀.run front).player.Spells (s₀.run ms).player d := by
  -- The induction is on what has happened last.
  induction ms using List.reverseRecOn with
  | nil => exact absurd htyping hbefore
  | append_singleton ms m ih =>
    have hlast := htyping
    rw [run_concat] at hlast
    rcases step_reveals (hsteady.run ms) hlast with ⟨hphase, d, hspells⟩ | ⟨hphase, hgoes⟩
    · refine ⟨ms, [m], d, rfl, hphase, fun mid hmid hne => ?_, ?_⟩
      · rcases List.prefix_concat_iff.mp (show mid <+: [] ++ [m] from hmid) with rfl | hmid
        · exact htyping
        · exact absurd (List.prefix_nil.mp hmid) hne
      · rw [run_concat]
        exact hspells
    · obtain ⟨front, back, d, rfl, hfront, hback, hspells⟩ := ih hphase
      refine ⟨front, back ++ [m], d, List.append_assoc .., hfront, fun mid hmid hne => ?_, ?_⟩
      · rcases List.prefix_concat_iff.mp hmid with rfl | hmid
        · rwa [← List.append_assoc]
        · exact hback mid hmid hne
      · rw [run_concat]
        exact hgoes _ _ hspells

/-- The task of a timer that can wait runs. -/
theorem step_fire_timer {s : Playback} (h : s.Steady) {t : Timer} {q : Player}
    (ht : s.player.timer = some t) (hwait : t.canWait = true)
    (hrun : s.player.runTask t = (q, none)) : s.step (.fire 0) = { s with player := q } := by
  have htasks : s.tasks = [t] := h.player.tasks.alive t ht hwait
  rw [step_fire (by rw [htasks]; rfl), Player.wake, if_pos hwait, hrun]
  rfl

/-- A reveal that is left alone runs to its end: its timer fires once for each character that is
hidden, and once also if there is none. -/
theorem run_reveals {s : Playback} (h : s.Steady) {t : Timer} {hidden : Text}
    (ht : s.player.timer = some t) (hjob : t.job = .reveal hidden) :
    s.run (List.replicate (max 1 hidden.length) (.fire 0)) =
      { s with player := s.player.revealAll t.session hidden } := by
  induction hidden generalizing s t with
  | nil => exact step_fire_timer h ht (canWait_of_reveal hjob) (runTask_of_reveal_nil ht hjob)
  | cons c rest ih =>
    have hwait := canWait_of_reveal hjob
    cases rest with
    | nil => exact step_fire_timer h ht hwait (runTask_of_reveal_last ht hjob)
    | cons c' rest =>
      let u : Timer := { t with job := .reveal (c' :: rest) }
      have hrun : s.player.runTask t =
          ({ s.player.showNext c with timer := some u, tasks := [u] }, none) := by
        have htasks := h.player.tasks.drop_tasks ht
        rw [runTask_of_reveal ht hjob (List.cons_ne_nil c' rest), htasks]
        rfl
      have hstep := step_fire_timer h ht hwait hrun
      have hnext := step_steady h (.fire 0)
      rw [hstep] at hnext
      have hrest := ih (t := u) hnext rfl rfl
      have hfit : (s.player.showNext c).TasksFit := h.player.tasks.congr rfl rfl
      have hcount : max 1 (c :: c' :: rest).length = max 1 (c' :: rest).length + 1 := by simp
      rw [hcount, List.replicate_succ, run, hstep, hrest, revealAll_of_tasksFit hfit]
      rfl

/-- A request that skips a reveal. -/
theorem step_skips {s : Playback} (hphase : s.player.phase = .typing) {r : Request}
    (hr : r = .skip ∨ r = .advance ∨ r = .retreat) :
    s.step (.ask r) = { s with player := s.player.skip } := by
  have hask : s.player.ask r = (s.player.skip, none) := by
    rcases hr with rfl | rfl | rfl
    · rfl
    · simp only [ask, advance, hphase]
    · exact if_pos hphase
  rw [step, hask]
  rfl

/-- Skipping a reveal is the same as waiting for its end. Wherever a text is revealed, a beginning
of it is shown, and since the reveal began that and the shorter ones were told, from the empty one
on and each once. If the player is asked to skip it, to advance or to go back, it shows the whole
text and waits for input where it is; and if the reveal is left alone, everything is the same when
it has come to its end, the timer that is armed included, but for what was told. That is the whole
text as well, behind all of its beginnings. -/
theorem run_skips_reveal (settings : Settings) (cs : List Command) (ms : List Move)
    (htyping : ((ofCommands settings cs).run ms).player.phase = .typing) :
    let s := (ofCommands settings cs).run ms
    ∃ front back d shown hidden,
      (ms = front ++ back ∧ ((ofCommands settings cs).run front).player.phase ≠ .typing ∧
        ∀ mid, mid <+: back → mid ≠ [] →
          ((ofCommands settings cs).run (front ++ mid)).player.phase = .typing) ∧
      (s.player.current = some d ∧ d.spoken? = some (shown ++ hidden) ∧
        s.player.display = ⟨d.label, shown, false⟩) ∧
      let before := ((ofCommands settings cs).run front).player.cues.toList
      let whole : Display := ⟨d.label, shown ++ hidden, true⟩
      let waited := s.run (List.replicate (max 1 hidden.length) (.fire 0))
      s.player.cues.toList = before ++ beginnings d.label shown ∧
        waited.player.cues.toList =
          before ++ beginnings d.label (shown ++ hidden) ++ [.display whole] ∧
        ∀ r, r = .skip ∨ r = .advance ∨ r = .retreat →
          let skipped := s.step (.ask r)
          skipped = { waited with player := { waited.player with cues := skipped.player.cues } } ∧
            skipped.player.cues.toList =
              before ++ beginnings d.label shown ++ [.display whole] ∧
            skipped.player.store = s.player.store ∧ skipped.player.phase = .awaitingInput ∧
            skipped.player.display = whole := by
  intro s
  have hsteady : s.Steady := (ofCommands_steady settings cs).run ms
  obtain ⟨front, back, d, hms, hfront, hback, hspells⟩ :=
    exists_beginning (ofCommands_steady settings cs) nofun ms htyping
  obtain ⟨t, ht, hsession, c, hidden, hcurrent, hjob, htext⟩ := hsteady.player.fits.reveals htyping
  obtain rfl : d = c := Option.some.inj (hspells.current.symm.trans hcurrent)
  refine ⟨front, back, d, s.player.display.text, hidden, ⟨hms, hfront, hback⟩,
    ⟨hcurrent, htext, hspells.display⟩, ?_⟩
  intro before whole waited
  have hwaited : waited = { s with
      player := s.player.revealAll s.player.session hidden } := by
    rw [← hsession]
    exact run_reveals hsteady ht hjob
  have hskip := skip_eq htyping hcurrent htext
  obtain ⟨hcues, hdisplay⟩ := hspells.revealAll s.player.session hidden
  refine ⟨hspells.cues, ?_, fun r hr => ?_⟩
  · rw [hwaited]
    exact hcues
  · intro skipped
    have hskipped : skipped = { s with player := s.player.skip } := step_skips htyping hr
    rw [hskipped, hwaited]
    refine ⟨?_, hspells.skip htyping htext, ?_, ?_, ?_⟩
    · dsimp only
      rw [hskip]
    · exact s.player.skip_store
    · exact skip_phase htyping
    · dsimp only
      rw [hskip]
      exact hdisplay

/-- In auto mode a reader goes on while half of a line is shown, and the timer is armed at once that
is armed behind the other half. -/
theorem run_skips_reveal_half :
    let c : Command := .dialogue ['A'] ['o', 'h'] neutral .empty
    let ms : List Move := [.ask .toggleAuto, .ask .start, .complete 0, .fire 0]
    let s := (ofCommands .default [c]).run ms
    let skipped := s.step (.ask .advance)
    let waited := s.run [.fire 0]
    s.player.phase = .typing ∧
      skipped.player.cues.toList =
        [.render c] ++ beginnings ['A'] ['o'] ++ [.display ⟨['A'], ['o', 'h'], true⟩] ∧
      waited.player.cues.toList =
        [.render c] ++ beginnings ['A'] ['o', 'h'] ++ [.display ⟨['A'], ['o', 'h'], true⟩] ∧
      skipped.player.timer = waited.player.timer ∧
      skipped.player.delay? = some Settings.default.autoSpeed := by
  intro c ms
  dsimp only
  have hphase : ((ofCommands .default [c]).run ms).player.phase = .typing := rfl
  obtain ⟨front, -, d, shown, hidden, -, ⟨hcurrent, htext, hdisplay⟩, hcues, hwaited, hskipped⟩ :=
    run_skips_reveal .default [c] ms hphase
  obtain ⟨hsame, hcut, -⟩ := hskipped .advance (.inr (.inl rfl))
  obtain rfl : c = d := Option.some.inj hcurrent
  obtain rfl : ['o'] = shown := congrArg Display.text hdisplay
  have hrest : ['o'] ++ ['h'] = ['o'] ++ hidden := Option.some.inj htext
  obtain rfl : ['h'] = hidden := List.append_cancel_left hrest
  have hlabel : c.label = ['A'] := rfl
  have hwhole : ['o'] ++ ['h'] = ['o', 'h'] := rfl
  have hwait : List.replicate (max 1 ['h'].length) (Move.fire 0) = [.fire 0] := rfl
  have htold : ((ofCommands .default [c]).run ms).player.cues.toList =
      [.render c] ++ beginnings ['A'] ['o'] := by decide +kernel
  have hbefore : ((ofCommands .default [c]).run front).player.cues.toList = [.render c] :=
    List.append_cancel_right (hcues.symm.trans htold)
  rw [hbefore, hlabel, hwhole] at hwaited hcut
  rw [hwait] at hwaited hsame
  refine ⟨hphase, hcut, hwaited, ?_, by decide +kernel⟩
  rw [hsame]

end Playback

end StoryPlayer
