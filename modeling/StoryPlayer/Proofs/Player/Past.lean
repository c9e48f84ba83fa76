import StoryPlayer.Proofs.Stream.Intake

/-!
# Players that differ in their past

Sessions and timers are counted from the first one on, and cues are only ever added. The player
compares the numbers for equality alone and never reads the cues back, so that it does the same
whatever is counted or listed before.
-/

namespace StoryPlayer

/-- What a player has behind it, as far as it still shows in names and in what was said: how many
sessions and timers there were, and the cues. -/
structure Past where
  sessions : Nat
  timers : Nat
  cues : Array Cue

namespace Past

/-- The timer under the name that it has with a past. -/
def timer (h : Past) (t : Timer) : Timer :=
  { t with serial := h.timers + t.serial, session := h.sessions + t.session }

/-- The render under the name that it has with a past. -/
def ticket (h : Past) (t : Ticket) : Ticket :=
  { t with session := h.sessions + t.session }

/-- The player that has a past but is otherwise the same. -/
def player (h : Past) (p : Player) : Player :=
  { p with
    session := h.sessions + p.session, serial := h.timers + p.serial,
    timer := p.timer.map h.timer, tasks := p.tasks.map h.timer, cues := h.cues ++ p.cues }

def waiting (h : Past) (w : Waiting) : Waiting :=
  (h.player w.1, w.2.map h.ticket)

section

variable (h : Past) (p : Player)

theorem player_cue (c : Cue) : (h.player p).cue c = h.player (p.cue c) := by
  simp [player, Player.cue]

theorem player_notify : (h.player p).notify = h.player p.notify :=
  h.player_cue p _

/-! Tasks are told apart by their serial numbers, which a past shifts alike. -/

theorem serial_beq (t u : Timer) :
    ((h.timer u).serial == (h.timer t).serial) = (u.serial == t.serial) := by
  rw [Bool.eq_iff_iff]
  simp [timer]

theorem player_holds (t : Timer) : (h.player p).holds (h.timer t) = p.holds t := by
  unfold Player.holds player
  cases p.timer with
  | none => rfl
  | some u => exact h.serial_beq t u

theorem player_disarm : (h.player p).disarm = h.player p.disarm := by
  have htasks : (h.player p).tasks.filter (fun t => !(h.player p).holds t) =
      (p.tasks.filter fun t => !p.holds t).map h.timer := by
    change (p.tasks.map h.timer).filter _ = _
    rw [List.filter_map]
    simp only [Function.comp_def, player_holds]
  unfold Player.disarm
  rw [htasks]
  rfl

theorem player_arm (session : Nat) (job : Job) :
    (h.player p).arm (h.sessions + session) job = h.player (p.arm session job) := by
  unfold Player.arm
  rw [player_disarm]
  simp [player, timer, Nat.add_assoc]

theorem player_drop (t : Timer) : (h.player p).drop (h.timer t) = h.player (p.drop t) := by
  have htasks : (h.player p).tasks.filter (fun u => u.serial != (h.timer t).serial) =
      (p.tasks.filter fun u => u.serial != t.serial).map h.timer := by
    change (p.tasks.map h.timer).filter _ = _
    rw [List.filter_map]
    simp only [Function.comp_def, bne, serial_beq]
  unfold Player.drop
  rw [htasks]
  rfl

theorem player_forget (t : Timer) : (h.player p).forget (h.timer t) = h.player (p.forget t) := by
  have htimer : (h.player p).timer.filter (fun u => u.serial != (h.timer t).serial) =
      (p.timer.filter fun u => u.serial != t.serial).map h.timer := by
    change (p.timer.map h.timer).filter _ = _
    cases p.timer with
    | none => rfl
    | some u =>
      simp only [Option.map_some, Option.filter_some, bne, serial_beq]
      split <;> rfl
  unfold Player.forget
  rw [htimer]
  rfl

theorem player_keep (t : Timer) : (h.player p).keep (h.timer t) = h.player (p.keep t) := by
  unfold Player.keep player
  cases p.timer with
  | none => simp
  | some u => by_cases hserial : u.serial = t.serial <;> simp [timer, hserial]

theorem player_process : Player.process (h.player p) = h.waiting (Player.process p) := by
  have hcurrent : (h.player p).store.current? = p.store.current? := rfl
  cases hc : p.store.current? with
  | none =>
    rw [Player.process_of_none hc, Player.process_of_none (hcurrent.trans hc), h.player_disarm p]
    rfl
  | some c =>
    rw [Player.process_of_some hc, Player.process_of_some (hcurrent.trans hc), h.player_disarm p]
    exact Prod.ext (h.player_cue { p.disarm with
      session := p.session + 1, current := some c, phase := .playing } _) rfl

theorem player_stepForward : (h.player p).stepForward = h.waiting p.stepForward := by
  have hstore : (h.player p).store.advance? = p.store.advance? := rfl
  cases hs : p.store.advance? with
  | none =>
    simp only [Player.stepForward, hstore, hs]
    rfl
  | some s =>
    simp only [Player.stepForward, hstore, hs]
    exact h.player_process { p with store := s }

theorem player_startReveal (speaker text : Text) :
    (h.player p).startReveal speaker text = h.player (p.startReveal speaker text) := by
  let q : Player := { p with phase := .typing, display := ⟨speaker, [], false⟩ }
  have hsaid : (h.player q).notify = h.player q.notify := h.player_notify q
  have harmed := h.player_arm q.notify p.session (.reveal text)
  rw [← hsaid] at harmed
  exact harmed

theorem player_finishReveal (session : Nat) :
    (h.player p).finishReveal (h.sessions + session) = h.player (p.finishReveal session) := by
  have hrevealed : (h.player p).revealed = h.player p.revealed :=
    h.player_notify { p with
      phase := .awaitingInput, display := { p.display with showContinue := true } }
  rw [Player.finishReveal_eq, Player.finishReveal_eq, hrevealed]
  change (if p.streaming then _ else if p.autoMode then _ else _) = _
  split
  · exact h.player_arm p.revealed session _
  split
  · exact h.player_arm p.revealed session _
  · rfl

theorem player_stayOn : (h.player p).stayOn = h.player p.stayOn := by
  rw [Player.stayOn_eq, Player.stayOn_eq]
  change (if p.streaming || p.autoMode then _ else _) = _
  split
  · exact h.player_arm { p with phase := .awaitingInput } p.session _
  · rfl

theorem player_rendered (t : Ticket) :
    (h.player p).rendered (h.ticket t) = h.waiting (p.rendered t) := by
  unfold Player.rendered
  by_cases hsession : t.session = p.session
  · have hsame : (h.ticket t).session = (h.player p).session := congrArg (h.sessions + ·) hsession
    have hcommand : (h.ticket t).command = t.command := rfl
    rw [if_neg (not_not_intro hsession), if_neg (not_not_intro hsame), hcommand]
    cases t.command with
    | dialogue speaker text mood scene =>
      exact Prod.ext (h.player_startReveal p speaker text) rfl
    | action text scene => exact Prod.ext (h.player_startReveal p narration text) rfl
    | cast members => exact h.player_stepForward p
    | location place colours =>
      rw [hsame, hsession]
      exact Prod.ext (h.player_stayOn p) rfl
  · have hother : (h.ticket t).session ≠ (h.player p).session :=
      fun heq => hsession (Nat.add_left_cancel heq)
    rw [if_pos hsession, if_pos hother]
    rfl

theorem player_skip : (h.player p).skip = h.player p.skip := by
  have hsame : (h.player p).phase = p.phase := rfl
  by_cases hphase : p.phase = .typing
  · rw [Player.skip_of_typing hphase, Player.skip_of_typing (hsame.trans hphase),
      h.player_disarm p]
    exact h.player_finishReveal { p.disarm with
      display := { p.display with
        text := (p.current.bind Command.spoken?).getD p.display.text } } p.session
  · rw [Player.skip_of_ne hphase, Player.skip_of_ne (hsame ▸ hphase)]

theorem player_start : (h.player p).start = h.waiting p.start := by
  unfold Player.start
  change (if p.store.size = 0 then _ else _) = _
  split
  · rfl
  · exact h.player_process { p with store := p.store.rewind }

theorem player_advance : (h.player p).advance = h.waiting p.advance := by
  unfold Player.advance
  have hsame : (h.player p).phase = p.phase := rfl
  rw [hsame]
  cases p.phase with
  | idle => exact h.player_start p
  | typing => exact Prod.ext (h.player_skip p) rfl
  | waitingForMore => rfl
  | playing | awaitingInput | ended =>
    dsimp only
    rw [h.player_disarm p]
    exact h.player_stepForward p.disarm

theorem player_retreat : (h.player p).retreat = h.waiting p.retreat := by
  unfold Player.retreat
  have hsame : (h.player p).phase = p.phase := rfl
  have hstore : (h.player p).store.back? = p.store.back? := rfl
  rw [hsame, hstore]
  split
  · exact Prod.ext (h.player_skip p) rfl
  cases hs : p.store.back? with
  | none => rfl
  | some s => exact h.player_process { p with store := s }

theorem player_resume : (h.player p).resume = h.waiting p.resume := by
  unfold Player.resume
  have hsame : (h.player p).phase = p.phase := rfl
  have hstore : (h.player p).store.advance? = p.store.advance? := rfl
  rw [hsame, hstore]
  split
  · rfl
  cases p.store.advance? with
  | none =>
    change ((if p.streaming then _ else _), none) = _
    dsimp only
    split <;> rfl
  | some s => exact h.player_process { p with store := s }

theorem player_toggleAuto : (h.player p).toggleAuto = h.player p.toggleAuto := by
  have hsame : (h.player p).phase = p.phase := rfl
  by_cases hphase : p.phase = .awaitingInput
  · rw [Player.toggleAuto_of_eq hphase, Player.toggleAuto_of_eq (hsame.trans hphase)]
    change (if p.autoMode = false then _ else if p.streaming then _ else _) = _
    split
    · exact h.player_arm { p with autoMode := true } p.session _
    split
    · rfl
    · exact h.player_disarm { p with autoMode := false }
  · rw [Player.toggleAuto_of_ne hphase, Player.toggleAuto_of_ne (hsame ▸ hphase)]
    rfl

theorem player_load (t : Text) : (h.player p).load t = h.player (p.load t) := by
  let r := readScript t Scene.empty
  let q : Player := { p.disarm with
    session := p.session + 1, store := .ofList r.commands, choices := [], current := none,
    phase := .idle }
  have hsay : ((h.player q).cue .reset).say [] readyText =
      h.player ((q.cue .reset).say [] readyText) := by
    rw [h.player_cue q]
    exact h.player_notify { q.cue .reset with display := ⟨[], readyText, false⟩ }
  unfold Player.load
  rw [h.player_disarm p]
  exact congrArg (fun u => { u with scene := r.scene, choices := r.offered }) hsay

theorem player_input (i : Player.Input) : (h.player p).input i = h.waiting (p.input i) := by
  cases i with
  | toggleAuto => exact Prod.ext (h.player_toggleAuto p) rfl
  | advance =>
    change (if p.streaming then _ else _) = h.waiting (if p.streaming then _ else _)
    split
    · rfl
    · exact h.player_advance p
  | back =>
    change (if p.streaming then _ else _) = h.waiting (if p.streaming then _ else _)
    split
    · rfl
    · exact h.player_retreat p
  | skip =>
    change (if p.streaming then _ else _) = h.waiting (if p.streaming then _ else _)
    split
    · rfl
    · exact Prod.ext (h.player_skip p) rfl

theorem player_ask (r : Request) : (h.player p).ask r = h.waiting (p.ask r) := by
  cases r with
  | load t => exact Prod.ext (h.player_load p t) rfl
  | start => exact h.player_start p
  | advance => exact h.player_advance p
  | retreat => exact h.player_retreat p
  | skip => exact Prod.ext (h.player_skip p) rfl
  | resume => exact h.player_resume p
  | input i => exact h.player_input p i
  | toggleAuto => exact Prod.ext (h.player_toggleAuto p) rfl
  | finish =>
    change ((h.player p).finish, none) = _
    rw [Player.finish, h.player_disarm p]
    exact Prod.ext (h.player_notify { p.disarm with
      phase := .ended, display := ⟨[], completedText, false⟩ }) rfl
  | append | streaming | textSpeed | autoSpeed | moveTo => rfl

theorem player_revealNext (t : Timer) (rest : Text) :
    (h.player p).revealNext (h.timer t) rest = h.player (p.revealNext t rest) := by
  cases rest with
  | nil => exact h.player_finishReveal p.letGo t.session
  | cons c rest =>
    have hnext : (h.player p).showNext c = h.player (p.showNext c) :=
      h.player_notify { p with display := { p.display with text := p.display.text ++ [c] } }
    change (if rest = [] then ((h.player p).showNext c).letGo.finishReveal _ else
      ((h.player p).showNext c).keep _) = h.player (if rest = [] then _ else _)
    rw [hnext]
    split
    · exact h.player_finishReveal (p.showNext c).letGo t.session
    · exact h.player_keep (p.showNext c) { t with job := .reveal rest }

theorem player_runTask (t : Timer) :
    (h.player p).runTask (h.timer t) = h.waiting (p.runTask t) := by
  unfold Player.runTask
  rw [h.player_drop p]
  rcases t with ⟨serial, session, job⟩
  cases job with
  | reveal rest =>
    let t : Timer := ⟨serial, session, .reveal rest⟩
    exact Prod.ext (h.player_revealNext (p.drop t) t rest) rfl
  | goOn delay =>
    have hguard : h.sessions + session = h.sessions + p.session ∧ p.phase = .awaitingInput ↔
        session = p.session ∧ p.phase = .awaitingInput :=
      and_congr_left' Nat.add_left_cancel_iff
    let t : Timer := ⟨serial, session, .goOn delay⟩
    let q := p.drop t
    change (if h.sessions + session = h.sessions + p.session ∧ p.phase = .awaitingInput then
        (h.player q).letGo.stepForward else ((h.player q).forget (h.timer t), none)) =
      h.waiting (if session = p.session ∧ p.phase = .awaitingInput then q.letGo.stepForward
        else (q.forget t, none))
    by_cases hgoes : session = p.session ∧ p.phase = .awaitingInput
    · rw [if_pos hgoes, if_pos (hguard.mpr hgoes)]
      exact h.player_stepForward q.letGo
    · rw [if_neg hgoes, if_neg (mt hguard.mp hgoes)]
      exact Prod.ext (h.player_forget q t) rfl

theorem player_wake (t : Timer) : (h.player p).wake (h.timer t) = h.waiting (p.wake t) := by
  unfold Player.wake
  have hwait : (h.timer t).canWait = t.canWait := rfl
  rw [hwait]
  split
  · exact h.player_runTask p t
  · rw [h.player_drop p t]
    rfl

end

end Past

/-- What no turn takes back or changes: sessions are only opened, and the delays stay. -/
structure Player.Keeps (p q : Player) : Prop where
  session_le : p.session ≤ q.session
  streamingAdvance : q.streamingAdvance = p.streamingAdvance
  locationAdvance : q.locationAdvance = p.locationAdvance

namespace Player

variable {p q r : Player}

theorem Keeps.refl (p : Player) : p.Keeps p :=
  ⟨Nat.le_refl _, rfl, rfl⟩

theorem Keeps.trans (h : p.Keeps q) (h' : q.Keeps r) : p.Keeps r where
  session_le := Nat.le_trans h.session_le h'.session_le
  streamingAdvance := h'.streamingAdvance.trans h.streamingAdvance
  locationAdvance := h'.locationAdvance.trans h.locationAdvance

theorem process_keeps (h : p.Keeps q) : p.Keeps (process q).1 := by
  have hle := Nat.le_succ_of_le h.session_le
  cases hc : q.store.current? with
  | none =>
    rw [process_of_none hc]
    exact ⟨hle, h.streamingAdvance, h.locationAdvance⟩
  | some c =>
    rw [process_of_some hc]
    exact ⟨hle, h.streamingAdvance, h.locationAdvance⟩

theorem finishReveal_keeps (h : p.Keeps q) (session : Nat) : p.Keeps (q.finishReveal session) := by
  obtain ⟨t, ts, n, heq⟩ := q.exists_finishReveal session
  rw [heq]
  exact ⟨h.session_le, h.streamingAdvance, h.locationAdvance⟩

theorem Turn.keeps {c : Trigger} {w : Waiting} (h : p.Turn c w) : p.Keeps w.1 := by
  cases h with
  | load t => exact ⟨Nat.le_succ _, rfl, rfl⟩
  | toggle r =>
    obtain ⟨t, ts, n, heq⟩ := p.exists_toggleAuto
    rw [heq]
    exact ⟨Nat.le_refl _, rfl, rfl⟩
  | skip r hphase =>
    rw [skip_of_typing hphase]
    apply finishReveal_keeps
    exact ⟨Nat.le_refl _, rfl, rfl⟩
  | restart | back | onward =>
    apply process_keeps
    exact ⟨Nat.le_refl _, rfl, rfl⟩
  | stayOn =>
    obtain ⟨t, ts, n, heq⟩ := p.exists_stayOn
    rw [heq]
    exact ⟨Nat.le_refl _, rfl, rfl⟩
  | showLast | showNone =>
    apply finishReveal_keeps
    exact ⟨Nat.le_refl _, rfl, rfl⟩
  | _ => exact ⟨Nat.le_refl _, rfl, rfl⟩

theorem wake_keeps (p : Player) (t : Timer) : p.Keeps (p.wake t).1 := by
  have hkeeps := (wake_turn (p := { p with timer := some t }) rfl).keeps
  obtain ⟨u, heq⟩ := p.wake_eq t
  rw [heq]
  exact ⟨hkeeps.session_le, hkeeps.streamingAdvance, hkeeps.locationAdvance⟩

theorem askAll_keeps (p : Player) (rs : List Request) : p.Keeps (p.askAll rs).1 := by
  induction rs generalizing p with
  | nil => exact .refl p
  | cons r rs ih => exact (p.ask_turn r).keeps.trans (ih (p.ask r).1)

/-- A player as new as can be that has the modes and speeds of another one. -/
def freshAs (s : Settings) (p : Player) : Player :=
  { Player.new s with
    streaming := p.streaming, autoMode := p.autoMode, textSpeed := p.textSpeed,
    autoSpeed := p.autoSpeed }

/-- What a player has behind it. -/
def past (p : Player) : Past :=
  ⟨p.session, p.serial, p.cues⟩

/-- All that a load leaves of a player is its past, its modes, its speeds and its delays. -/
theorem load_freshAs {s : Settings} (h : (Player.new s).Keeps p) (htasks : p.disarm.tasks = [])
    (t : Text) : p.load t = p.past.player ((freshAs s p).load t) := by
  have hcues : p.past.player (freshAs s p) =
      { freshAs s p with session := p.session, serial := p.serial, cues := p.cues } := by
    simp [Past.player, past, freshAs, Player.new]
  have hdisarmed : p.disarm = { p with timer := none, tasks := [] } := by
    rw [← htasks]
    rfl
  have hstreaming : s.streamingAdvance = p.streamingAdvance := h.streamingAdvance.symm
  have hlocation : s.locationAdvance = p.locationAdvance := h.locationAdvance.symm
  rw [← p.past.player_load (freshAs s p) t, hcues]
  simp only [freshAs, Player.new, hstreaming, hlocation]
  unfold load
  rw [hdisarmed]
  rfl

end Player

end StoryPlayer
