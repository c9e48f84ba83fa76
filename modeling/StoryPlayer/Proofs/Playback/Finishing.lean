import StoryPlayer.Proofs.Player.Pace
import StoryPlayer.Session.Turn

/-!
# Auto mode plays to the end

In auto mode, with the stream over, a player that is left alone never waits for anything but its
timer, and every time that fires there is less to do. So it stops: at the end of its story, or in
front of a delay that is no number of seconds for the clock, behind which the timer never fires.

Whoever sets a speed has it brought into its range, so such a delay can only come from the settings.
-/

namespace StoryPlayer

namespace Player

/-- Whether a timer is armed and will fire. One whose delay cannot be waited for does not. -/
def canFire (p : Player) : Bool :=
  p.timer.isSome && p.delay?.all millisCountable

/-- The player when its timer has fired so many times, or as often as it can if that is less. Every
render is done at once. -/
def playOn : Nat → Player → Player
  | 0, p => p
  | n + 1, p => if p.canFire then playOn n (Player.settle p.fire) else p

/-- The phase in which a player stops that is left alone: the end, unless it has not begun. -/
def lastPhase (p : Player) : Phase :=
  if p.phase = .idle then .idle else .ended

/-- A player in auto mode that has begun and that no stream feeds any more. -/
structure Alone (p : Player) (ts : List Ticket) : Prop extends p.Awake ts where
  auto : p.autoMode = true
  streamed : p.streaming = false
  begun : p.phase ≠ .idle

section

variable {p q : Player} {ts : List Ticket} {n : Nat}

/-! ## Left alone -/

theorem exhaust_phase_ne_idle (p : Player) : p.exhaust.phase ≠ .idle := by
  unfold exhaust
  dsimp only
  split <;> exact nofun

theorem process_begun (p : Player) :
    (process p).1.autoMode = p.autoMode ∧ (process p).1.phase ≠ .idle := by
  cases hc : p.store.current? with
  | none =>
    rw [process_of_none hc]
    exact ⟨rfl, exhaust_phase_ne_idle _⟩
  | some c =>
    rw [process_of_some hc]
    exact ⟨rfl, nofun⟩

theorem finishReveal_begun (p : Player) (session : Nat) :
    (p.finishReveal session).autoMode = p.autoMode ∧
      (p.finishReveal session).phase ≠ .idle := by
  obtain ⟨t, ts, n, heq⟩ := p.exists_finishReveal session
  rw [heq]
  exact ⟨rfl, nofun⟩

/-- A player that has begun and that nobody asks for anything stays in its mode and has begun. -/
theorem Turn.begun {c : Trigger} {w : Waiting} (h : p.Turn c w) (hc : c.isOwn = true)
    (hbegun : p.phase ≠ .idle) : w.1.autoMode = p.autoMode ∧ w.1.phase ≠ .idle := by
  cases h with
  | stay | load | append | stream | seek | textSpeed | autoSpeed | toggle | finish | skip | runOut
  | restart | back | fail => cases hc
  | onward => exact process_begun _
  | exhaust | spent => exact ⟨rfl, exhaust_phase_ne_idle _⟩
  | late | disarmed | showNext | lapse => exact ⟨rfl, hbegun⟩
  | reveal => exact ⟨rfl, nofun⟩
  | stayOn =>
    obtain ⟨t, ts, n, heq⟩ := p.exists_stayOn
    rw [heq]
    exact ⟨rfl, nofun⟩
  | showLast | showNone => exact finishReveal_begun _ _

theorem Turn.alone {c : Trigger} {w : Waiting} (h : p.Turn c w) (hc : c.isOwn = true)
    (hp : p.Alone c.ticket?.toList) : w.1.Alone w.2.toList := by
  have hplayback := Trigger.isPlayback_of_isOwn hc
  have hawake : p.Awake (c.ticket?.toList ++ []) := by
    rw [List.append_nil]
    exact hp.toAwake
  obtain ⟨hauto, hbegun⟩ := h.begun hc hp.begun
  exact ⟨h.awake (Trigger.isCall_of_isPlayback hplayback) hawake, hauto.trans hp.auto,
    (h.sameStory hplayback).streaming.trans hp.streamed, hbegun⟩

/-- A timer that fires leaves the player alone with less to do. -/
theorem Alone.fire (h : p.Alone []) (htimer : p.timer ≠ none) :
    (settle p.fire).Alone [] ∧ work (settle p.fire, none) < work (p, none) := by
  have hturn := p.fire_turn
  have hfired : p.fire.1.Alone p.fire.2.toList := hturn.alone rfl h
  have hlt := hturn.work_lt rfl fun _ => htimer
  let P : Waiting → Prop := fun w => w.1.Alone w.2.toList ∧ work w ≤ work p.fire
  have hsettled : P (settle p.fire, none) := by
    refine settle_keeps (P := P) ?_ ⟨hfired, Nat.le_refl _⟩
    rintro q t ⟨halone, hwork⟩
    have hdone := q.rendered_turn t
    have hless := hdone.work_lt rfl nofun
    exact ⟨hdone.alone rfl halone, Nat.le_trans (Nat.le_of_lt hless) hwork⟩
  exact ⟨hsettled.1, Nat.lt_of_le_of_lt hsettled.2 hlt⟩

theorem KeepsTime.fire (h : p.KeepsTime) : (settle p.fire).KeepsTime :=
  settle_keeps (P := fun w => w.1.KeepsTime) (fun q t hq => (q.rendered_turn t).keepsTime hq)
    (p.fire_turn.keepsTime h)

/-- A player that is left alone without a timer has played to the end. -/
theorem Alone.ended (h : p.Alone []) (htimer : p.timer = none) : p.phase = .ended := by
  cases hphase : p.phase with
  | idle => exact absurd hphase h.begun
  | playing =>
    obtain ⟨t, ht, -⟩ := h.playing hphase
    cases ht
  | typing =>
    obtain ⟨t, ht, -⟩ := h.fits.reveals hphase
    cases htimer.symm.trans ht
  | awaitingInput => exact absurd htimer (h.awaiting hphase (.inr h.auto))
  | waitingForMore => cases h.streamed.symm.trans (h.waiting hphase)
  | ended => rfl

theorem timer_ne_none_of_canFire (h : p.canFire = true) : p.timer ≠ none := by
  intro hnone
  simp [canFire, hnone] at h

/-- A timer that does not fire has a delay that cannot be waited for. -/
theorem isStuck_of_not_canFire (h : p.canFire = false) (htimer : p.timer ≠ none) : p.IsStuck := by
  obtain ⟨t, ht⟩ := Option.ne_none_iff_exists'.mp htimer
  cases hdelay : p.delay? with
  | none => simp [canFire, ht, hdelay] at h
  | some delay =>
    refine ⟨delay, hdelay, ?_⟩
    simpa [canFire, ht, hdelay] using h

/-! ## Playing on -/

theorem playOn_of_not_canFire (h : p.canFire = false) (n : Nat) : playOn n p = p := by
  cases n with
  | zero => rfl
  | succ n => simp [playOn, h]

theorem playOn_succ (h : p.canFire = true) (n : Nat) :
    playOn (n + 1) p = playOn n (settle p.fire) :=
  if_pos h

theorem playOn_add (m n : Nat) (p : Player) : playOn (m + n) p = playOn n (playOn m p) := by
  induction m generalizing p with
  | zero => rw [Nat.zero_add, playOn]
  | succ m ih =>
    cases h : p.canFire with
    | false => simp only [playOn_of_not_canFire h]
    | true => rw [Nat.succ_add, playOn_succ h, playOn_succ h, ih]

theorem KeepsTime.playOn (h : p.KeepsTime) (n : Nat) : (playOn n p).KeepsTime := by
  induction n generalizing p with
  | zero => exact h
  | succ n ih =>
    cases hfires : p.canFire with
    | false => rwa [playOn_of_not_canFire hfires]
    | true =>
      rw [playOn_succ hfires]
      exact ih h.fire

/-- A player that is left alone cannot fire more often than there is work for it. -/
theorem Alone.playOn (h : p.Alone []) (hn : work (p, none) ≤ n) :
    (playOn n p).Alone [] ∧ (playOn n p).canFire = false := by
  -- Every firing leaves less to do, so the induction is on how often the timer may fire.
  induction n generalizing p with
  | zero =>
    refine ⟨h, eq_false_of_ne_true fun hfires => ?_⟩
    obtain ⟨-, hlt⟩ := h.fire (timer_ne_none_of_canFire hfires)
    exact absurd (Nat.lt_of_lt_of_le hlt hn) (Nat.not_lt_zero _)
  | succ n ih =>
    cases hfires : p.canFire with
    | false =>
      rw [playOn_of_not_canFire hfires]
      exact ⟨h, hfires⟩
    | true =>
      obtain ⟨halone, hlt⟩ := h.fire (timer_ne_none_of_canFire hfires)
      rw [playOn_succ hfires]
      exact ih halone (Nat.le_of_lt_succ (Nat.lt_of_lt_of_le hlt hn))

/-- An awake player in auto mode that no stream feeds comes to a stop. -/
theorem Awake.playOn (h : p.Awake []) (hauto : p.autoMode = true) (hstream : p.streaming = false)
    (hn : work (p, none) ≤ n) :
    (playOn n p).canFire = false ∧
      ((playOn n p).timer = none → (playOn n p).phase = p.lastPhase) := by
  unfold lastPhase
  by_cases hidle : p.phase = .idle
  · have htimer : p.timer = none :=
      h.fits.timer_eq_none (by simp [hidle]) (by simp [hidle])
    have hfires : p.canFire = false := by simp [canFire, htimer]
    rw [playOn_of_not_canFire hfires, if_pos hidle]
    exact ⟨hfires, fun _ => hidle⟩
  · have halone : p.Alone [] := ⟨h, hauto, hstream, hidle⟩
    obtain ⟨hplayed, hfires⟩ := halone.playOn hn
    rw [if_neg hidle]
    exact ⟨hfires, hplayed.ended⟩

end

end Player

open Player

/-- In a session a timer that cannot fire never does. -/
theorem Session.pace_of_not_canFire {s : Session} (h : s.player.canFire = false) (n : Nat) :
    s.pace n = s := by
  unfold Session.pace
  split
  · rfl
  next t ht =>
    obtain ⟨delay, hdelay, hcount⟩ := isStuck_of_not_canFire h (by simp [ht])
    split
    · rfl
    · simp [hdelay, hcount]

namespace Playback

/-- In auto mode, with the stream over, a playback that is left alone comes to a stop: however it
got there and whatever the texts, its timer fires no more often than there is work for it. It stops
at the end, unless it had not begun, or else in front of a delay that cannot be waited for. Under
settings whose delays can be waited for, it stops at the end. -/
theorem run_plays_out (settings : Settings) (ms : List Move) (hms : ∀ m ∈ ms, m.isCall = true) :
    let s := (new settings).run ms
    let p := s.player
    s.suspended = [] → p.autoMode = true → p.streaming = false →
      ∃ q, (∀ n, work (p, none) ≤ n → playOn n p = q) ∧
        (q.timer = none ∧ q.phase = p.lastPhase ∨
          ∃ delay, q.delay? = some delay ∧ millisCountable delay = false) ∧
        (settings.IsPaced → q.timer = none ∧ q.phase = p.lastPhase) := by
  intro s p hdone hauto hstream
  have hawake : s.Awake :=
    run_keeps Awake (fun m => m.isCall = true) (fun _ _ hm hs => step_awake hs hm) _
      (new_awake settings) ms hms
  have hplayer : p.Awake [] := by
    have htickets : s.tickets = [] := by rw [tickets, hdone, List.map_nil]
    exact htickets ▸ hawake.player
  obtain ⟨hfires, hphase⟩ := hplayer.playOn hauto hstream (Nat.le_refl _)
  refine ⟨playOn (work (p, none)) p, fun n hn => ?_, ?_, fun hpaced => ?_⟩
  · obtain ⟨more, rfl⟩ := Nat.exists_eq_add_of_le hn
    rw [playOn_add, playOn_of_not_canFire hfires]
  · by_cases htimer : (playOn (work (p, none)) p).timer = none
    · exact .inl ⟨htimer, hphase htimer⟩
    · exact .inr (isStuck_of_not_canFire hfires htimer)
  · have hkeeps : p.KeepsTime := (new_steady settings).run_keepsTime hpaced.keepsTime ms
    have htimer : (playOn (work (p, none)) p).timer = none := by
      by_contra hsome
      exact (hkeeps.playOn _).not_isStuck (isStuck_of_not_canFire hfires hsome)
    exact ⟨htimer, hphase htimer⟩

/-- A story is left alone at its first place, with a delay of less than nothing there and of nothing
behind lines that stream in. -/
theorem run_plays_out_from_place :
    let settings : Settings :=
      { Settings.default with autoMode := true, streamingAdvance := 0, locationAdvance := -5 }
    let ms : List Move :=
      [.ask (.load ['L', 'O', 'C', ':', 'a', '\n', 'C', 'H', 'A', ':', 'b', '\n', 'B', ':', 'c']),
        .ask .start, .complete 0]
    let s := (new settings).run ms
    (∀ m ∈ ms, m.isCall = true) ∧ s.suspended = [] ∧ s.player.autoMode = true ∧
      s.player.streaming = false ∧ settings.IsPaced ∧ s.player.phase = .awaitingInput ∧
      ∃ n, (playOn n s.player).phase = .ended := by
  intro settings ms s
  have hms : ∀ m ∈ ms, m.isCall = true := by decide
  have hphase : s.player.phase = .awaitingInput := by decide +kernel
  have hpaced : settings.IsPaced := by constructor <;> decide +kernel
  have hdone : s.suspended = [] := rfl
  have hauto : s.player.autoMode = true := rfl
  have hstream : s.player.streaming = false := rfl
  obtain ⟨q, hstops, -, hends⟩ := run_plays_out settings ms hms hdone hauto hstream
  refine ⟨hms, hdone, hauto, hstream, hpaced, hphase, work (s.player, none), ?_⟩
  rw [hstops _ (Nat.le_refl _), (hends hpaced).2]
  exact if_neg (by rw [hphase]; decide)

/-- A delay that cannot be waited for keeps a player waiting for ever, also one of less than
nothing. -/
theorem run_plays_out_never :
    let settings : Settings :=
      { Settings.default with
        autoMode := true, locationAdvance := -Int.ofNat (Nat.pow 10 400) }
    let ms : List Move :=
      [.ask (.load ['L', 'O', 'C', ':', ' ', 'a', '\n', 'B', ':', ' ', 'c']), .ask .start,
        .complete 0]
    let s := (new settings).run ms
    (∀ m ∈ ms, m.isCall = true) ∧ s.suspended = [] ∧ s.player.autoMode = true ∧
      s.player.streaming = false ∧ ∀ n, (playOn n s.player).phase = .awaitingInput := by
  intro settings ms s
  have hfires : s.player.canFire = false := by decide +kernel
  have hphase : s.player.phase = .awaitingInput := by decide +kernel
  refine ⟨by decide, rfl, rfl, rfl, fun n => ?_⟩
  rw [playOn_of_not_canFire hfires, hphase]

end Playback

end StoryPlayer
