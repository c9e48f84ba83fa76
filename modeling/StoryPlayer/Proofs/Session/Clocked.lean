import StoryPlayer.Proofs.Session.Awaiting

/-!
# A clock that does not go back

The clock of a session moves to the alarms in their order, so it goes back only if an alarm that
means something is overdue. One that means nothing may well be, and it must not get its meaning
back. It does not, because timers and readers are numbered: every one that comes has a number that
none had before it. This holds whether renders are done at once or held.
-/

namespace StoryPlayer

namespace Player

variable {p q r : Player}

/-- The timer that is armed has a number below those to come. -/
def Numbered (p : Player) : Prop :=
  ∀ t, p.timer = some t → t.serial < p.serial

/-- The timer of `q` has the number of that of `p`, or it was armed since. -/
structure Arms (p q : Player) : Prop where
  serial_le : p.serial ≤ q.serial
  timer : ∀ t, q.timer = some t →
    (∃ u, p.timer = some u ∧ t.serial = u.serial) ∨ p.serial ≤ t.serial
  numbered : p.Numbered → q.Numbered

theorem Arms.refl (p : Player) : p.Arms p :=
  ⟨Nat.le_refl _, fun t ht => .inl ⟨t, ht, rfl⟩, id⟩

theorem Arms.trans (h : p.Arms q) (h' : q.Arms r) : p.Arms r where
  serial_le := Nat.le_trans h.serial_le h'.serial_le
  timer t ht := by
    rcases h'.timer t ht with ⟨u, hu, heq⟩ | hle
    · rw [heq]
      exact h.timer u hu
    · exact .inr (Nat.le_trans h.serial_le hle)
  numbered hp := h'.numbered (h.numbered hp)

theorem Numbered.of_none (h : p.timer = none) : p.Numbered := by
  intro t ht
  cases h.symm.trans ht

theorem arm_numbered (p : Player) (session : Nat) (job : Job) : (p.arm session job).Numbered := by
  rintro t ⟨⟩
  exact Nat.lt_succ_self p.serial

theorem process_numbered (p : Player) : (process p).1.Numbered := by
  cases hc : p.store.current? with
  | none =>
    rw [process_of_none hc]
    exact .of_none rfl
  | some c =>
    rw [process_of_some hc]
    exact .of_none rfl

theorem finishReveal_numbered (h : p.timer = none) (session : Nat) :
    (p.finishReveal session).Numbered := by
  rw [finishReveal_eq]
  split
  · exact arm_numbered _ _ _
  split
  · exact arm_numbered _ _ _
  · exact .of_none h

theorem Numbered.toggleAuto (h : p.Numbered) : p.toggleAuto.Numbered := by
  by_cases hphase : p.phase = .awaitingInput
  · rw [toggleAuto_of_eq hphase]
    split
    · exact arm_numbered _ _ _
    split
    · exact h
    · exact .of_none rfl
  · rw [toggleAuto_of_ne hphase]
    exact h

theorem Turn.numbered {c : Trigger} {w : Waiting} (h : p.Turn c w) (hp : p.Numbered) :
    w.1.Numbered := by
  cases h with
  | stay | append | stream | seek | textSpeed | autoSpeed => exact hp
  | load | finish | exhaust | lapse => exact .of_none rfl
  | runOut | spent | late | disarmed | fail => exact hp
  | restart | back | onward => exact process_numbered _
  | toggle => exact hp.toggleAuto
  | skip r hphase =>
    rw [skip_of_typing hphase]
    exact finishReveal_numbered rfl _
  | reveal => exact arm_numbered _ _ _
  | stayOn =>
    rw [stayOn_eq]
    split
    · exact arm_numbered _ _ _
    · exact hp
  | @showNext t char rest ht hjob hrest =>
    rintro u ⟨⟩
    exact hp t ht
  | showLast => exact finishReveal_numbered rfl _
  | showNone => exact finishReveal_numbered rfl _

/-- Whatever makes a player run, a timer that is armed gets a number of its own. -/
theorem Turn.arms {c : Trigger} {w : Waiting} (h : p.Turn c w) (hc : c.isTimer = false) :
    p.Arms w.1 where
  serial_le := (h.rearms hc).serial_le
  timer t ht := ((h.rearms hc).timer t ht).imp_left fun hp => ⟨t, hp, rfl⟩
  numbered := h.numbered

theorem fire_arms (p : Player) : p.Arms p.fire.1 :=
  ⟨p.fire_serial.1, p.fire_serial.2, p.fire_turn.numbered⟩

theorem settle_arms (w : Waiting) : w.1.Arms (settle w) := by
  refine settle_keeps (P := fun v => w.1.Arms v.1) ?_ (.refl _)
  exact fun q t h => h.trans ((q.rendered_turn t).arms rfl)

theorem askAll_arms (p : Player) (rs : List Request) : p.Arms (p.askAll rs).1 := by
  induction rs generalizing p with
  | nil => exact .refl p
  | cons r rs ih => exact ((p.ask_turn r).arms rfl).trans (ih _)

theorem handle_arms (g : Ingestor) (p : Player) (r : StreamRecord) :
    p.Arms (g.handle p r).player := by
  obtain ⟨rs, -, hasked⟩ := g.handle_takes p r
  have harms := p.askAll_arms rs
  rwa [hasked] at harms

theorem abort_arms (g : Ingestor) (p : Player) : p.Arms (g.abort p).2.1 :=
  ((p.ask_turn (.streaming false)).arms rfl).trans
    ((p.setStreaming false).resume_turn.arms rfl)

end Player

open Player

/-- The call that a task lets go on. -/
def Task.call? : Task → Option Call
  | .resume h => some h.call
  | _ => none

theorem Task.call?_of_reader? {t : Task} {id : Nat} (h : t.reader? = some id) :
    t.call? = none := by
  cases t with
  | resume => cases h
  | pace | fetch | deliver | happen => rfl

theorem Task.call?_of_timer? {t : Task} (h : t.timer? ≠ none) : t.call? = none := by
  cases t with
  | resume => exact absurd rfl h
  | pace | fetch | deliver | happen => rfl

/-- The call that runs now, with what is answered to it. A call that reads is one that is to. -/
def Control.ask? : Control → Option (Result × Call)
  | .idle => none
  | .perform _ c => some (.nothing, c)
  | .answer r c => some (r, c)
  | .read r c => some (.nothing, ⟨c.step, .consume r :: c.remainder⟩)

namespace Session

variable {s u v : Session} {a : Alarm} {w : Waiting} {c : Call} {p : Player}

/-! ## The calls under way -/

/-- The calls whose renders are held, or were released. -/
def suspended (s : Session) : List Call :=
  s.held.map Held.call ++ s.queue.filterMap Task.call?

/-- All calls under way but those of the readers, each with what is answered to it. -/
def asks (s : Session) : List (Result × Call) :=
  s.control.ask?.toList ++ s.suspended.map (Prod.mk .nothing)

theorem asks_of_idle (h : s.control = .idle) : s.asks = s.suspended.map (Prod.mk .nothing) := by
  rw [asks, h]
  rfl

theorem suspended_of_queue {t : Task} {rest : List Task} (hqueue : s.queue = t :: rest) :
    s.suspended.Perm (t.call?.toList ++ { s with queue := rest }.suspended) := by
  unfold suspended
  rw [hqueue, List.filterMap_cons]
  cases t.call? with
  | none => exact .refl _
  | some b => exact List.perm_middle

/-- A session hands over to a call: it has a new player, and of a timer that was armed it takes
note, but nothing else is done. -/
structure Hands (s : Session) (p : Player) (x : Result × Call) (u : Session) : Prop where
  clock : u.clock = s.clock
  intakes : u.intakes = s.intakes
  waiters : u.waiters = s.waiters
  alarms : u.alarms = s.alarms
  nextId : u.nextId = s.nextId
  finished : u.finished = s.finished
  queue : u.queue = s.queue ∨ ∃ n, u.queue = s.queue ++ [.pace n]
  control : ∀ a c, u.control ≠ .perform a c
  asks : u.asks.Perm (x :: s.suspended.map (Prod.mk .nothing))
  arms : p.Arms u.player

theorem Hands.notice {x : Result × Call} (h : s.Hands p x u) (hqueue : u.queue = s.queue) :
    s.Hands p x u.notice := by
  rcases u.notice_eq with heq | ⟨n, heq⟩
  · rwa [heq]
  · rw [heq]
    refine ⟨h.clock, h.intakes, h.waiters, h.alarms, h.nextId, h.finished, .inr ⟨n, ?_⟩, h.control,
      ?_, h.arms⟩
    · exact congrArg (· ++ [Task.pace n]) hqueue
    · have hasks : ({ u with paced := n + 1 }.enqueue (.pace n)).asks = u.asks := by
        simp [Session.asks, suspended, enqueue, Task.call?]
      rw [hasks]
      exact h.asks

theorem answer_hands (s : Session) (r : Result) (c : Call) :
    s.Hands s.player (r, c) { s with control := .answer r c } :=
  ⟨rfl, rfl, rfl, rfl, rfl, rfl, .inl rfl, nofun, .refl _, .refl _⟩

theorem read_hands (s : Session) (r : Reader) (c : Call) :
    s.Hands s.player (.nothing, ⟨c.step, .consume r :: c.remainder⟩)
      { s with control := .read r c } :=
  ⟨rfl, rfl, rfl, rfl, rfl, rfl, .inl rfl, nofun, .refl _, .refl _⟩

theorem give_hands (s : Session) (p : Player) (r : Result) (c : Call) :
    s.Hands p (r, c) (s.give p r c) := by
  let u : Session := { s with player := p, control := .answer r c }
  have hu : s.Hands p (r, c) u :=
    ⟨rfl, rfl, rfl, rfl, rfl, rfl, .inl rfl, nofun, .refl _, .refl p⟩
  exact hu.notice rfl

/-- A call that has to wait is answered at once or held. -/
theorem await_hands (s : Session) (w : Waiting) (c : Call) :
    s.Hands w.1 (.nothing, c) (s.await w c) := by
  unfold Session.await
  split
  next t _ ht =>
    let u : Session :=
      { s with player := w.1, held := s.held ++ [⟨t, c⟩], control := .idle }
    have hasks : u.asks.Perm ((.nothing, c) :: s.suspended.map (Prod.mk .nothing)) := by
      simp only [asks, suspended, u, Control.ask?, Option.toList_none, List.nil_append,
        List.map_append, List.map_cons, List.map_nil, List.append_assoc, List.singleton_append]
      exact List.perm_middle
    have hu : s.Hands w.1 (.nothing, c) u :=
      ⟨rfl, rfl, rfl, rfl, rfl, rfl, .inl rfl, nofun, hasks, .refl _⟩
    exact hu.notice rfl
  · let u : Session := { s with player := Player.settle w, control := .answer .nothing c }
    have hu : s.Hands w.1 (.nothing, c) u :=
      ⟨rfl, rfl, rfl, rfl, rfl, rfl, .inl rfl, nofun, .refl _, settle_arms w⟩
    exact hu.notice rfl

/-- Renders that are held or done at once leave no more to do than there was. -/
theorem await_work (s : Session) (w : Waiting) (c : Call) :
    Player.work ((s.await w c).player, none) ≤ Player.work w := by
  unfold Session.await
  split
  · rw [notice_player]
    exact Nat.le_add_right _ _
  · rw [notice_player]
    exact Player.settle_work_le w

/-! ## The clock -/

/-- No alarm that means something is overdue, and the numbers of timers and readers to come are new
to all alarms. -/
structure Clocked (s : Session) : Prop where
  alarms : ∀ a ∈ s.alarms, s.isLive a = true → s.clock ≤ a.due
  timers : ∀ a ∈ s.alarms, ∀ n, a.event = .timer n → n < s.player.serial
  names : ∀ a ∈ s.alarms, ∀ id, a.event.waiter? = some id → id < s.nextId
  numbered : s.player.Numbered

theorem isLive_timer {n : Nat} (h : a.event = .timer n) :
    s.isLive a = true ↔ ∃ t, s.player.timer = some t ∧ t.serial = n := by
  unfold isLive
  rw [h]
  cases s.player.timer <;> simp

theorem isLive_reader {id : Nat} (h : a.event.waiter? = some id) :
    s.isLive a = true ↔ ∃ w ∈ s.waiters, w.id = id := by
  unfold isLive
  cases hevent : a.event with
  | timer n => simp [hevent, Event.waiter?] at h
  | arrival | deadline =>
    obtain rfl := Option.some.inj (by simpa [hevent, Event.waiter?] using h)
    simp

/-- An alarm that means nothing gets no meaning when the player runs on and readers leave. -/
theorem isLive_of_arms (h : s.Clocked) (hplayer : s.player.Arms u.player)
    (hwaiters : u.waiters ⊆ s.waiters) (ha : a ∈ s.alarms) (hlive : u.isLive a = true) :
    s.isLive a = true := by
  cases hevent : a.event with
  | timer n =>
    obtain ⟨t, ht, rfl⟩ := (isLive_timer hevent).mp hlive
    refine (isLive_timer hevent).mpr ?_
    rcases hplayer.timer t ht with ⟨v, hv, heq⟩ | hle
    · exact ⟨v, hv, heq.symm⟩
    · exact absurd (h.timers a ha _ hevent) (Nat.not_lt.mpr hle)
  | arrival id | deadline id =>
    have hwaiter : a.event.waiter? = some id := by simp [hevent, Event.waiter?]
    obtain ⟨w, hw, hid⟩ := (isLive_reader hwaiter).mp hlive
    exact (isLive_reader hwaiter).mpr ⟨w, hwaiters hw, hid⟩

theorem Clocked.mono (h : s.Clocked) (hclock : u.clock = s.clock) (halarms : u.alarms ⊆ s.alarms)
    (hname : u.nextId = s.nextId) (hplayer : s.player.Arms u.player)
    (hwaiters : u.waiters ⊆ s.waiters) : u.Clocked where
  alarms a ha hlive :=
    hclock ▸ h.alarms a (halarms ha) (isLive_of_arms h hplayer hwaiters (halarms ha) hlive)
  timers a ha n hn := Nat.lt_of_lt_of_le (h.timers a (halarms ha) n hn) hplayer.serial_le
  names a ha id hid := hname ▸ h.names a (halarms ha) id hid
  numbered := hplayer.numbered h.numbered

theorem Clocked.congr (h : s.Clocked) (hclock : u.clock = s.clock) (halarms : u.alarms = s.alarms)
    (hname : u.nextId = s.nextId) (hplayer : u.player = s.player)
    (hwaiters : u.waiters = s.waiters) : u.Clocked :=
  h.mono hclock (List.Perm.of_eq halarms).subset hname (hplayer ▸ .refl _)
    (List.Perm.of_eq hwaiters).subset

theorem Clocked.hands {x : Result × Call} (h : s.Clocked) (hp : s.player.Arms p)
    (hu : s.Hands p x u) : u.Clocked :=
  h.mono hu.clock (List.Perm.of_eq hu.alarms).subset hu.nextId (hp.trans hu.arms)
    (List.Perm.of_eq hu.waiters).subset

theorem Clocked.setAlarm (h : s.Clocked) {e : Event} (hn : ∀ n, e = .timer n → n < s.player.serial)
    (hid : ∀ id, e.waiter? = some id → id < s.nextId) (due : Int) : (s.setAlarm due e).Clocked where
  alarms := List.forall_mem_append.mpr
    ⟨h.alarms, List.forall_mem_singleton.mpr fun _ => Int.le_max_left _ _⟩
  timers := List.forall_mem_append.mpr ⟨h.timers, List.forall_mem_singleton.mpr hn⟩
  names := List.forall_mem_append.mpr ⟨h.names, List.forall_mem_singleton.mpr hid⟩
  numbered := h.numbered

theorem Clocked.pause (h : s.Clocked) {e : Event} (hn : ∀ n, e = .timer n → n < s.player.serial)
    (hid : ∀ id, e.waiter? = some id → id < s.nextId) (micros : Int) :
    (s.pause micros e).Clocked := by
  unfold Session.pause
  split
  · exact h.congr rfl rfl rfl rfl rfl
  · exact h.setAlarm hn hid _

/-- A reader that comes has a name that no alarm knows. -/
theorem Clocked.named (h : s.Clocked) {w : Waiter} (hw : w.id = s.nextId)
    (hwaiters : u.waiters = s.waiters ++ [w]) (hclock : u.clock = s.clock)
    (halarms : u.alarms = s.alarms) (hplayer : u.player = s.player)
    (hname : u.nextId = s.nextId + 1) : u.Clocked where
  alarms a ha hlive := by
    rw [halarms] at ha
    rw [hclock]
    refine h.alarms a ha ?_
    cases hevent : a.event with
    | timer n =>
      have hlive' := (isLive_timer hevent).mp hlive
      exact (isLive_timer hevent).mpr (hplayer ▸ hlive')
    | arrival id | deadline id =>
      have hwaiter : a.event.waiter? = some id := by simp [hevent, Event.waiter?]
      obtain ⟨v, hv, rfl⟩ := (isLive_reader hwaiter).mp hlive
      rw [hwaiters, List.mem_append, List.mem_singleton] at hv
      refine (isLive_reader hwaiter).mpr ?_
      rcases hv with hv | rfl
      · exact ⟨v, hv, rfl⟩
      · exact absurd (h.names a ha _ hwaiter) (by omega)
  timers := halarms ▸ hplayer ▸ h.timers
  names a ha id hid := by
    have hlt := h.names a (halarms ▸ ha) id hid
    omega
  numbered := hplayer ▸ h.numbered

theorem Clocked.ringing (h : s.Clocked) (ha : earliest (s.alarms.filter s.isLive) = some a) :
    (s.ringing a).Clocked where
  alarms b hb _ := (earliest_eq_some ha).2 b (mem_of_ringing hb)
  timers b hb := h.timers b (List.filter_sublist.subset (mem_of_ringing hb))
  names b hb := h.names b (List.filter_sublist.subset (mem_of_ringing hb))
  numbered := h.numbered

/-- The clock goes forward to the next alarm. -/
theorem Clocked.le_of_earliest (h : s.Clocked)
    (ha : earliest (s.alarms.filter s.isLive) = some a) : s.clock ≤ a.due := by
  obtain ⟨hmem, hlive⟩ := List.mem_filter.mp (earliest_eq_some ha).1
  exact h.alarms a hmem hlive

end Session

end StoryPlayer
