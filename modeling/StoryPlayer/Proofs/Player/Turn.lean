import StoryPlayer.Player.Step
import StoryPlayer.Stream.Seconds

/-!
# What a player can do

One of four things makes a player run: it is asked for something, a render is done, its timer fires,
or its timer fails since it cannot wait. `Turn` lists everything that can come of it, with the state
in which it can. The laws of playback are read off `Turn` and never off the functions behind it, so
a change to one of those ends here.
-/

namespace StoryPlayer

/-- What can be asked of a player. -/
inductive Request
  | load (t : Text)
  | append (t : Text)
  | start
  | advance
  | retreat
  | skip
  | resume
  | input (i : Player.Input)
  | finish
  | streaming (on : Bool)
  | toggleAuto
  | textSpeed (n : Int)
  | autoSpeed (n : Int)
  | moveTo (i : Int)
deriving Repr, DecidableEq

namespace Request

/-- A request that only plays: it loads nothing and sets neither the cursor nor whether the story is
streaming in. -/
def isPlayback : Request → Bool
  | load _ | append _ | streaming _ | moveTo _ => false
  | _ => true

/-- A request that never takes the cursor back. -/
def isForward : Request → Bool
  | load _ | start | retreat | input .back | moveTo _ => false
  | _ => true

end Request

/-- Whether a task can wait for as long as it should. One that goes on after a delay that is no number
of seconds cannot, and fails as soon as it tries. The speed of a text is in its range, so a reveal
can. -/
def Timer.canWait (t : Timer) : Bool :=
  match t.job with
  | .reveal _ => true
  | .goOn delay => millisCountable delay

theorem canWait_of_reveal {t : Timer} {hidden : Text} (h : t.job = .reveal hidden) :
    t.canWait = true := by
  rw [Timer.canWait, h]

/-- Why a player runs. -/
inductive Trigger
  | request (r : Request)
  | render (t : Ticket)
  | timer
  /-- The timer could not wait. -/
  | failure

/-- The render that a player runs for. -/
def Trigger.ticket? : Trigger → Option Ticket
  | render t => some t
  | _ => none

/-- Whether the timer makes the player run. -/
def Trigger.isTimer : Trigger → Bool
  | timer => true
  | _ => false

/-- A trigger that only plays. -/
def Trigger.isPlayback : Trigger → Bool
  | request r => r.isPlayback
  | _ => true

/-- A trigger that never takes the cursor back. -/
def Trigger.isForward : Trigger → Bool
  | request r => r.isForward
  | _ => true

/-- Why a player runs when a task is woken. -/
def Timer.trigger (t : Timer) : Trigger :=
  if t.canWait then .timer else .failure

theorem Timer.trigger_cases (t : Timer) : t.trigger = .timer ∨ t.trigger = .failure := by
  unfold Timer.trigger
  split
  · exact .inl rfl
  · exact .inr rfl

@[simp]
theorem Timer.trigger_ticket? (t : Timer) : t.trigger.ticket? = none := by
  rcases t.trigger_cases with h | h <;> rw [h] <;> rfl

@[simp]
theorem Timer.trigger_isPlayback (t : Timer) : t.trigger.isPlayback = true := by
  rcases t.trigger_cases with h | h <;> rw [h] <;> rfl

@[simp]
theorem Timer.trigger_isForward (t : Timer) : t.trigger.isForward = true := by
  rcases t.trigger_cases with h | h <;> rw [h] <;> rfl

/-- The label under which the text of a command is shown. -/
def Command.label : Command → Text
  | dialogue speaker _ _ _ => speaker
  | _ => narration

namespace Player

/-- Wakes a task: it runs if it could wait, and otherwise it is over without having run. -/
def wake (p : Player) (t : Timer) : Waiting :=
  if t.canWait then p.runTask t else (p.drop t, none)

/-- Answers a request. -/
def ask (p : Player) : Request → Waiting
  | .load t => (p.load t, none)
  | .append t => (p.append t, none)
  | .start => p.start
  | .advance => p.advance
  | .retreat => p.retreat
  | .skip => (p.skip, none)
  | .resume => p.resume
  | .input i => p.input i
  | .finish => (p.finish, none)
  | .streaming on => (p.setStreaming on, none)
  | .toggleAuto => (p.toggleAuto, none)
  | .textSpeed n => (p.setTextSpeed n, none)
  | .autoSpeed n => (p.setAutoSpeed n, none)
  | .moveTo i => ({ p with store := (p.store.moveTo? i).getD p.store }, none)

/-- Shows one more character. -/
def showNext (p : Player) (c : Char) : Player :=
  { p with display := { p.display with text := p.display.text ++ [c] } }.notify

/-- Waits for input on a location, or for the timer that leaves it. -/
def stayOn (p : Player) : Player :=
  let p := { p with phase := .awaitingInput }
  if p.streaming || p.autoMode then p.arm p.session (.goOn p.locationAdvance) else p

/-- Shows that a text is there in full and waits for input. -/
def revealed (p : Player) : Player :=
  { p with phase := .awaitingInput, display := { p.display with showContinue := true } }.notify

theorem finishReveal_eq (p : Player) (session : Nat) :
    p.finishReveal session =
      if p.streaming then p.revealed.arm session (.goOn p.streamingAdvance)
      else if p.autoMode then p.revealed.arm session (.goOn p.autoSpeed)
      else p.revealed := rfl

theorem stayOn_eq (p : Player) :
    p.stayOn =
      if p.streaming || p.autoMode then
        { p with phase := .awaitingInput }.arm p.session (.goOn p.locationAdvance)
      else { p with phase := .awaitingInput } := rfl

theorem skip_of_ne {p : Player} (h : p.phase ≠ .typing) : p.skip = p := if_pos h

theorem skip_of_typing {p : Player} (h : p.phase = .typing) :
    p.skip =
      finishReveal { p.disarm with
        display := { p.display with
          text := (p.current.bind Command.spoken?).getD p.display.text } } p.session :=
  if_neg (not_not_intro h)

theorem advance_of_idle {p : Player} (h : p.phase = .idle) : p.advance = p.start := by
  simp [advance, h]

theorem toggleAuto_of_ne {p : Player} (h : p.phase ≠ .awaitingInput) :
    p.toggleAuto = { p with autoMode := !p.autoMode } := if_pos h

theorem toggleAuto_of_eq {p : Player} (h : p.phase = .awaitingInput) :
    p.toggleAuto =
      if p.autoMode = false then
        { p with autoMode := true }.arm p.session (.goOn p.autoSpeed)
      else if p.streaming then { p with autoMode := false }
      else { p with autoMode := false }.disarm := by
  unfold toggleAuto
  cases hauto : p.autoMode <;> simp [h]

/-! What is done about the timer depends on the modes, and nothing else does. -/

theorem exists_finishReveal (p : Player) (session : Nat) :
    ∃ t ts n, p.finishReveal session =
      { p.revealed with timer := t, tasks := ts, serial := n } := by
  rw [finishReveal_eq]
  split
  · exact ⟨_, _, _, rfl⟩
  split <;> exact ⟨_, _, _, rfl⟩

theorem exists_stayOn (p : Player) :
    ∃ t ts n, p.stayOn =
      { p with phase := .awaitingInput, timer := t, tasks := ts, serial := n } := by
  rw [stayOn_eq]
  split <;> exact ⟨_, _, _, rfl⟩

theorem exists_toggleAuto (p : Player) :
    ∃ t ts n, p.toggleAuto =
      { p with autoMode := !p.autoMode, timer := t, tasks := ts, serial := n } := by
  by_cases hphase : p.phase = .awaitingInput
  · rw [toggleAuto_of_eq hphase]
    cases p.autoMode with
    | false => exact ⟨_, _, _, rfl⟩
    | true =>
      rw [if_neg nofun]
      split <;> exact ⟨_, _, _, rfl⟩
  · rw [toggleAuto_of_ne hphase]
    exact ⟨_, _, _, rfl⟩

theorem finishReveal_phase (p : Player) (session : Nat) :
    (p.finishReveal session).phase = .awaitingInput := by
  obtain ⟨t, ts, n, heq⟩ := p.exists_finishReveal session
  rw [heq]
  rfl

theorem finishReveal_store (p : Player) (session : Nat) :
    (p.finishReveal session).store = p.store := by
  obtain ⟨t, ts, n, heq⟩ := p.exists_finishReveal session
  rw [heq]
  rfl

theorem stayOn_phase (p : Player) : p.stayOn.phase = .awaitingInput := by
  obtain ⟨t, ts, n, heq⟩ := p.exists_stayOn
  rw [heq]

theorem skip_phase {p : Player} (h : p.phase = .typing) : p.skip.phase = .awaitingInput := by
  rw [skip_of_typing h]
  exact finishReveal_phase _ _

theorem skip_phase_ne_typing (p : Player) : p.skip.phase ≠ .typing := by
  by_cases h : p.phase = .typing
  · rw [skip_phase h]
    nofun
  · rwa [skip_of_ne h]

/-- Skipping never moves the cursor. -/
theorem skip_store (p : Player) : p.skip.store = p.store := by
  by_cases h : p.phase = .typing
  · rw [skip_of_typing h]
    exact finishReveal_store _ _
  · rw [skip_of_ne h]

theorem disarm_eq_self {p : Player} (h : p.timer = none) : p.disarm = p := by
  have htasks : p.tasks.filter (fun t => !p.holds t) = p.tasks := by
    simp [holds, h]
  rw [disarm, htasks, ← h]

theorem disarm_disarm (p : Player) : p.disarm.disarm = p.disarm :=
  disarm_eq_self rfl

/-- For the player it comes to the same whether its task is over and let go or cancelled. -/
theorem drop_letGo {p : Player} {t : Timer} (h : p.timer = some t) : (p.drop t).letGo = p.disarm := by
  have hnames : p.tasks.filter (fun u => u.serial != t.serial) =
      p.tasks.filter fun u => !p.holds u := by
    refine List.filter_congr fun u _ => ?_
    rw [holds, h, Option.any_some, BEq.comm]
    rfl
  rw [drop, hnames]
  rfl

theorem drop_forget {p : Player} {t : Timer} (h : p.timer = some t) :
    (p.drop t).forget t = p.disarm := by
  have hforgets : (p.drop t).forget t = (p.drop t).letGo := by
    have htimer : (p.drop t).timer = some t := h
    simp [forget, letGo, htimer]
  rw [hforgets, drop_letGo h]

theorem exhaust_of_streaming {p : Player} (h : p.streaming = true) :
    p.exhaust = { p with phase := .waitingForMore } := by
  simp [exhaust, h]

theorem exhaust_of_not_streaming {p : Player} (h : p.streaming = false) :
    p.exhaust = { p with phase := .ended } := by
  simp [exhaust, h]

theorem process_of_none {p : Player} (h : p.store.current? = none) :
    process p = ({ p.disarm with session := p.session + 1 }.exhaust, none) := by
  unfold process disarm
  simp only [h]

theorem process_of_some {p : Player} {c : Command} (h : p.store.current? = some c) :
    process p =
      ({ p.disarm with
          session := p.session + 1, current := some c, phase := .playing }.cue (.render c),
        some ⟨p.session + 1, c⟩) := by
  unfold process disarm
  simp only [h]

/-- A command is processed with no timer armed, so it makes no difference to disarm it before. -/
theorem process_disarm (p : Player) : process p.disarm = process p := by
  unfold process
  rw [disarm_disarm]
  rfl

/-- When a trigger takes the player on from where it is. A request does so in most phases, a render
when it is that of a cast command and not too late, and a timer in its session while the player
waits for input. -/
def MovesOn (p : Player) : Trigger → Prop
  | .request _ => p.phase ≠ .typing ∧ p.phase ≠ .idle
  | .render t => t.session = p.session ∧ t.command.isCast = true
  | .timer => p.phase = .awaitingInput ∧
      ∃ t delay, p.timer = some t ∧ t.job = .goOn delay ∧ t.session = p.session
  | .failure => False

/-- Everything that can come of running a player for a trigger. -/
inductive Turn (p : Player) : Trigger → Waiting → Prop
  | stay (r : Request) : Turn p (.request r) (p, none)
  | load (t : Text) : Turn p (.request (.load t)) (p.load t, none)
  | append (t : Text) : Turn p (.request (.append t)) (p.append t, none)
  | stream (on : Bool) : Turn p (.request (.streaming on)) (p.setStreaming on, none)
  | seek {i : Int} {s : Store} (h : p.store.moveTo? i = some s) :
      Turn p (.request (.moveTo i)) ({ p with store := s }, none)
  | textSpeed (n : Int) : Turn p (.request (.textSpeed n)) (p.setTextSpeed n, none)
  | autoSpeed (n : Int) : Turn p (.request (.autoSpeed n)) (p.setAutoSpeed n, none)
  | toggle (r : Request) : Turn p (.request r) (p.toggleAuto, none)
  | finish : Turn p (.request .finish) (p.finish, none)
  /-- A running reveal is cut short. -/
  | skip (r : Request) (h : p.phase = .typing) : Turn p (.request r) (p.skip, none)
  /-- The stream has ended and left nothing behind. -/
  | runOut (h : p.phase = .waitingForMore) (hstream : p.streaming = false)
      (hlast : p.store.advance? = none) :
      Turn p (.request .resume) ({ p with phase := .ended }, none)
  | restart (r : Request) (h : r = .start ∨ p.phase = .idle) (hsize : p.store.size ≠ 0) :
      Turn p (.request r) (process { p with store := p.store.rewind })
  | back {r : Request} {s : Store} (hr : r = .retreat ∨ r = .input .back)
      (h : p.phase ≠ .typing) (hback : p.store.back? = some s) :
      Turn p (.request r) (process { p with store := s })
  | onward {c : Trigger} {s : Store} (h : p.MovesOn c) (hnext : p.store.advance? = some s) :
      Turn p c (process { p with store := s })
  | exhaust {c : Trigger} (h : p.MovesOn c) (hlast : p.store.advance? = none) :
      Turn p c (p.disarm.exhaust, none)
  /-- The cast command that was rendered was the last. -/
  | spent {t : Ticket} (h : p.MovesOn (.render t)) (hlast : p.store.advance? = none) :
      Turn p (.render t) (p.exhaust, none)
  /-- The player has moved on since the render was asked for. -/
  | late {t : Ticket} (h : t.session ≠ p.session) : Turn p (.render t) (p, none)
  | reveal {t : Ticket} {text : Text} (h : t.session = p.session)
      (htext : t.command.spoken? = some text) :
      Turn p (.render t) (p.startReveal t.command.label text, none)
  | stayOn {t : Ticket} (h : t.session = p.session) (htext : t.command.spoken? = none)
      (hcast : t.command.isCast = false) : Turn p (.render t) (p.stayOn, none)
  | disarmed (h : p.timer = none) : Turn p .timer (p, none)
  | showNext {t : Timer} {c : Char} {rest : Text} (h : p.timer = some t)
      (hjob : t.job = .reveal (c :: rest)) (hrest : rest ≠ []) :
      Turn p .timer
        ({ p.showNext c with
            timer := some { t with job := .reveal rest }
            tasks := (p.drop t).tasks ++ [{ t with job := .reveal rest }] }, none)
  | showLast {t : Timer} {c : Char} (h : p.timer = some t) (hjob : t.job = .reveal [c]) :
      Turn p .timer ((p.showNext c).disarm.finishReveal t.session, none)
  /-- There was nothing to reveal. -/
  | showNone {t : Timer} (h : p.timer = some t) (hjob : t.job = .reveal []) :
      Turn p .timer (p.disarm.finishReveal t.session, none)
  /-- A timer that goes on comes too late. -/
  | lapse {t : Timer} {delay : Int} (h : p.timer = some t) (hjob : t.job = .goOn delay)
      (hlate : ¬(t.session = p.session ∧ p.phase = .awaitingInput)) :
      Turn p .timer (p.disarm, none)
  | fail {t : Timer} (h : p.timer = some t) (hwait : t.canWait = false) :
      Turn p .failure (p.drop t, none)

theorem disarm_stepForward_turn {p : Player} {c : Trigger} (h : p.MovesOn c) :
    p.Turn c p.disarm.stepForward := by
  unfold stepForward
  split
  next s hnext =>
    have hprocess : process { p.disarm with store := s } = process { p with store := s } :=
      process_disarm { p with store := s }
    rw [hprocess]
    exact .onward h hnext
  next hlast => exact .exhaust h hlast

theorem start_turn (p : Player) (r : Request) (h : r = .start ∨ p.phase = .idle) :
    p.Turn (.request r) p.start := by
  unfold start
  split
  · exact .stay _
  next hsize => exact .restart r h hsize

theorem skip_turn (p : Player) (r : Request) : p.Turn (.request r) (p.skip, none) := by
  by_cases h : p.phase = .typing
  · exact .skip r h
  · rw [skip_of_ne h]
    exact .stay _

theorem advance_turn (p : Player) (r : Request) : p.Turn (.request r) p.advance := by
  unfold advance
  split
  next h => exact .skip r h
  next h => exact p.start_turn r (.inr h)
  · exact .stay _
  next htyping hidle _ => exact disarm_stepForward_turn ⟨htyping, hidle⟩

theorem retreat_turn (p : Player) {r : Request} (hr : r = .retreat ∨ r = .input .back) :
    p.Turn (.request r) p.retreat := by
  unfold retreat
  split
  next h => exact .skip r h
  next h =>
    split
    · exact .stay _
    next s hback => exact .back hr h hback

theorem resume_turn (p : Player) : p.Turn (.request .resume) p.resume := by
  unfold resume
  split
  · exact .stay _
  next h =>
    replace h := Decidable.not_not.mp h
    split
    next s hnext => exact .onward (by simp [MovesOn, h]) hnext
    next hlast =>
      split
      · exact .stay _
      next hstream => exact .runOut h (Bool.eq_false_iff.mpr hstream) hlast

/-- Whatever is asked of a player comes to one of the turns. -/
theorem ask_turn (p : Player) (r : Request) : p.Turn (.request r) (p.ask r) := by
  cases r with
  | load t => exact .load t
  | append t => exact .append t
  | start => exact p.start_turn _ (.inl rfl)
  | advance => exact p.advance_turn _
  | retreat => exact p.retreat_turn (.inl rfl)
  | skip => exact p.skip_turn _
  | resume => exact p.resume_turn
  | finish => exact .finish
  | streaming on => exact .stream on
  | toggleAuto => exact .toggle _
  | textSpeed n => exact .textSpeed n
  | autoSpeed n => exact .autoSpeed n
  | moveTo i =>
    change p.Turn _ ({ p with store := (p.store.moveTo? i).getD p.store }, none)
    cases h : p.store.moveTo? i with
    | none => exact .stay _
    | some s => exact .seek h
  | input i =>
    cases i with
    | toggleAuto => exact .toggle _
    | advance =>
      change p.Turn _ (if p.streaming then (p, none) else p.advance)
      split
      · exact .stay _
      · exact p.advance_turn _
    | back =>
      change p.Turn _ (if p.streaming then (p, none) else p.retreat)
      split
      · exact .stay _
      · exact p.retreat_turn (.inr rfl)
    | skip =>
      change p.Turn _ (if p.streaming then (p, none) else (p.skip, none))
      split
      · exact .stay _
      · exact p.skip_turn _

/-- A render that is done comes to one of the turns. -/
theorem rendered_turn (p : Player) (t : Ticket) : p.Turn (.render t) (p.rendered t) := by
  unfold rendered
  split
  next h => exact .late h
  next h =>
    replace h := Decidable.not_not.mp h
    split
    next speaker text mood scene hcommand =>
      have hturn : p.Turn (.render t) (p.startReveal t.command.label text, none) :=
        .reveal h (by rw [hcommand]; rfl)
      rwa [hcommand] at hturn
    next text scene hcommand =>
      have hturn : p.Turn (.render t) (p.startReveal t.command.label text, none) :=
        .reveal h (by rw [hcommand]; rfl)
      rwa [hcommand] at hturn
    next members hcommand =>
      have hmoves : p.MovesOn (.render t) := ⟨h, by rw [hcommand]; rfl⟩
      unfold stepForward
      split
      next s hnext => exact .onward hmoves hnext
      next hlast => exact .spent hmoves hlast
    next place colours hcommand =>
      rw [h]
      exact .stayOn h (by rw [hcommand]; rfl) (by rw [hcommand]; rfl)

theorem runTask_of_reveal_nil {p : Player} {t : Timer} (h : p.timer = some t)
    (hjob : t.job = .reveal []) : p.runTask t = (p.disarm.finishReveal t.session, none) := by
  unfold runTask
  rw [hjob, ← drop_letGo h]
  rfl

theorem runTask_of_reveal_last {p : Player} {t : Timer} {c : Char} (h : p.timer = some t)
    (hjob : t.job = .reveal [c]) :
    p.runTask t = ((p.showNext c).disarm.finishReveal t.session, none) := by
  have hdisarm : (p.showNext c).disarm = ((p.drop t).letGo.showNext c) := by
    rw [drop_letGo h]
    rfl
  unfold runTask
  rw [hjob, hdisarm]
  rfl

theorem runTask_of_reveal {p : Player} {t : Timer} {c : Char} {rest : Text}
    (h : p.timer = some t) (hjob : t.job = .reveal (c :: rest)) (hrest : rest ≠ []) :
    p.runTask t =
      ({ p.showNext c with
          timer := some { t with job := .reveal rest }
          tasks := (p.drop t).tasks ++ [{ t with job := .reveal rest }] }, none) := by
  unfold runTask
  rw [hjob]
  dsimp only [revealNext]
  rw [if_neg hrest]
  simp [keep, showNext, notify, cue, drop, h]

/-- The task that the player holds comes to one of the turns when it runs. -/
theorem runTask_turn {p : Player} {t : Timer} (h : p.timer = some t) :
    p.Turn .timer (p.runTask t) := by
  cases hjob : t.job with
  | reveal hidden =>
    match hidden with
    | [] =>
      rw [runTask_of_reveal_nil h hjob]
      exact .showNone h hjob
    | [c] =>
      rw [runTask_of_reveal_last h hjob]
      exact .showLast h hjob
    | c :: c' :: rest =>
      rw [runTask_of_reveal h hjob (List.cons_ne_nil c' rest)]
      exact .showNext h hjob (List.cons_ne_nil c' rest)
  | goOn delay =>
    unfold runTask
    rw [hjob]
    dsimp only
    split
    next hguard =>
      rw [drop_letGo h]
      exact disarm_stepForward_turn ⟨hguard.2, t, delay, h, hjob, hguard.1⟩
    next hlate =>
      rw [drop_forget h]
      exact .lapse h hjob hlate

/-- A timer that fires comes to one of the turns. -/
theorem fire_turn (p : Player) : p.Turn .timer p.fire := by
  unfold fire
  split
  next h => exact .disarmed h
  next t h => exact runTask_turn h

/-- The task that the player holds runs or fails when it is woken. -/
theorem wake_turn {p : Player} {t : Timer} (h : p.timer = some t) :
    p.Turn t.trigger (p.wake t) := by
  unfold wake Timer.trigger
  split
  · exact runTask_turn h
  next hwait => exact .fail h (Bool.eq_false_iff.mpr hwait)

/-- A task that the player does not hold does as if it were held, except for the handle. -/
theorem wake_eq (p : Player) (t : Timer) :
    ∃ u, p.wake t =
      ({ ({ p with timer := some t }.wake t).1 with timer := u },
        ({ p with timer := some t }.wake t).2) := by
  unfold wake runTask
  split
  · split
    next rest hjob =>
      cases rest with
      | nil => exact ⟨_, rfl⟩
      | cons c rest =>
        unfold revealNext
        dsimp only
        split <;> exact ⟨_, rfl⟩
    · by_cases hguard : t.session = p.session ∧ p.phase = .awaitingInput
      · have hdrop : (p.drop t).letGo = ({ p with timer := some t }.drop t).letGo := rfl
        simp only [drop, hguard, and_self, if_true] at hdrop ⊢
        rw [hdrop]
        exact ⟨_, rfl⟩
      · simp only [drop, hguard, if_false]
        exact ⟨_, rfl⟩
  · exact ⟨_, rfl⟩

end Player

end StoryPlayer
