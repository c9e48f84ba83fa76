import StoryPlayer.Proofs.Session.Awaiting

/-!
# What comes of the next outcome

A reader that waits gets what its source has next, if that comes before the deadline. A record that
does not end the stream is handled, and the reader waits again; everything else is the exit, and the
call gets its answer at that time.
-/

namespace StoryPlayer

/-- The task is to bring what a source has next at a time, which takes so many turns at most. -/
inductive Brings (id : Nat) (source : Source) (due : Int) : Int × Task → Nat → Prop
  | fetch {now : Int} (h : now + durationOf source.nextPauses = due) :
      Brings id source due (now, .fetch id) (source.nextPauses.length + 3)
  | arrive {now : Int} {ps : List Int} (hnext : ¬source.Hangs) (h : now + durationOf ps = due) :
      Brings id source due (now, .happen (.arrival id ps)) (ps.length + 3)
  | deliver {n : Nat} (hnext : ¬source.Hangs) (hn : n ≤ 1) :
      Brings id source due (due, .deliver id n) (n + 1)

/-- What is to come does not come before its errand is due. -/
theorem Brings.le {id n : Nat} {source : Source} {due : Int} {x : Int × Task}
    (h : Brings id source due x n) : x.1 ≤ due := by
  cases h with
  | fetch h | arrive _ h => dsimp only; omega
  | deliver => exact Int.le_refl _

/-- An errand that is not ready has an alarm of its own. -/
theorem Brings.alarm {id n : Nat} {source : Source} {due : Int} {x : Int × Task} {s : Session}
    (h : Brings id source due x n) (hqueue : s.queue = [])
    (hx : s.errands id = [x]) :
    ∃ b ∈ s.alarms, ∃ ps, b.event = .arrival id ps ∧ b.due = x.1 := by
  have hmem : x ∈ s.pending := by
    have hx' : x ∈ s.errands id := hx ▸ List.mem_singleton_self x
    exact (List.mem_filter.mp hx').1
  unfold Session.pending at hmem
  rw [hqueue, List.map_nil, List.nil_append] at hmem
  obtain ⟨⟨t, e⟩, hb, rfl⟩ := List.mem_map.mp hmem
  cases h with
  | arrive => exact ⟨_, hb, _, rfl, rfl⟩

namespace Consuming

def reader (c : Consuming) (source : Source) : Reader :=
  ⟨c.intake, c.start, c.timeout, source⟩

def call (c : Consuming) : Call :=
  ⟨some c.step, []⟩

def answer (c : Consuming) : Result :=
  c.exit.result c.timeout c.leaves.1.choices

/-- What comes of the source from a time on leads an open stream, with its player, to the exit. -/
structure Leads (c : Consuming) (passed : Nat) (source : Source) (w : Ingestor × Player) :
    Prop where
  unfinished : w.1.finished = false
  time : (Exit.of c.deadline (source.outcomesFrom passed)).time = c.exit.time
  cause : (Exit.of c.deadline (source.outcomesFrom passed)).cause = c.exit.cause
  leaves : (Exit.of c.deadline (source.outcomesFrom passed)).leaves w = c.leaves
  untied : ∀ o ∈ source.outcomesFrom passed, 0 < o.1 → o.1 ≠ c.deadline

/-- The call's ingestor is this one, and the player has the story of that one. -/
structure Keeps (c : Consuming) (w : Ingestor × Player) (s : Session) : Prop where
  size : s.intakes.size = c.intake + 1
  intake : s.intakes[c.intake]? = some ⟨w.1, c.timeout, c.offers⟩
  story : w.2.SameStory s.player

/-- A reader waits for what a source has next, until the deadline at most. -/
structure Awaits (c : Consuming) (id passed : Nat) (source : Source) (w : Ingestor × Player)
    (s : Session) : Prop where
  leads : c.Leads passed source w
  keeps : c.Keeps w s
  waiters : s.waiters = [⟨id, c.reader source, c.call⟩]
  finished : s.finished = c.answers
  clock : c.start ≤ s.clock
  deadline : ⟨c.start + c.deadline, .deadline id⟩ ∈ s.alarms
  deadlines : ∀ a ∈ s.alarms, a.event = .deadline id → a.due = c.start + c.deadline
  arrivals : ∀ a ∈ s.alarms, ∀ ps, a.event = .arrival id ps → c.start < a.due

/-- No reader waits, and the call has no answer yet. -/
structure Between (c : Consuming) (w : Ingestor × Player) (s : Session) : Prop where
  sound : s.Sound
  noticed : s.Noticed
  waiters : s.waiters = []
  finished : s.finished = c.answers
  keeps : c.Keeps w s

/-- How far the reading has come, and the turns that are left of it at most. -/
inductive Stage (c : Consuming) (s : Session) : Nat → Prop
  | waits {id passed n : Nat} {source : Source} {w : Ingestor × Player} {x : Int × Task}
      (hawaits : c.Awaits id passed source w s) (herrands : s.errands id = [x])
      (hbrings : Brings id source (c.start + passed + durationOf source.nextPauses) x n) :
      Stage c s (n + source.stepsBehind)
  | hangs {id passed : Nat} {source : Source} {w : Ingestor × Player}
      (hawaits : c.Awaits id passed source w s) (herrands : s.errands id = [])
      (hhangs : source.Hangs) : Stage c s 1
  /-- The call has its answer, and nothing is left of the reading. -/
  | left (hwaiters : s.waiters = []) (hfinished : s.finished = c.answers.push (c.step, c.answer))
      (hkeeps : c.Keeps c.leaves s) (hclock : c.start + c.exit.time ≤ s.clock) : Stage c s 0

/-- The session reads a source, or has read it. -/
structure Consumes (c : Consuming) (s : Session) (rank : Nat) : Prop where
  sound : s.Sound
  noticed : s.Noticed
  stage : c.Stage s rank

/-- The session settles to one of this rank at this time. -/
def SettlesTo (c : Consuming) (s : Session) (clock : Int) (rank : Nat) : Prop :=
  ∃ v, s.settle = v.resting.settle ∧ v.clock = clock ∧ c.Consumes v rank

variable {c : Consuming} {s s' : Session} {id passed rank : Nat} {source : Source}
  {w : Ingestor × Player}

theorem SettlesTo.of_settle {clock clock' : Int} (h : c.SettlesTo s' clock' rank)
    (hsettle : s.settle = s'.settle) (hclock : clock' = clock) : c.SettlesTo s clock rank := by
  obtain ⟨v, hv, hvclock, hconsumes⟩ := h
  exact ⟨v, hsettle.trans hv, hvclock.trans hclock, hconsumes⟩

theorem Keeps.ticks (h : c.Keeps w s) (ht : s.Ticks s') : c.Keeps w s' where
  size := ht.intakes ▸ h.size
  intake := ht.intakes ▸ h.intake
  story := h.story.trans ht.story

theorem Awaits.ticks (h : c.Awaits id passed source w s) (ht : s.Ticks s') :
    c.Awaits id passed source w s' where
  leads := h.leads
  keeps := h.keeps.ticks ht
  waiters := ht.waiters.trans h.waiters
  finished := ht.finished.trans h.finished
  clock := ht.clock ▸ h.clock
  deadline := (ht.alarms _ (by simp [Event.waiter?])).mpr h.deadline
  deadlines a ha heq := h.deadlines a ((ht.alarms a (by simp [heq, Event.waiter?])).mp ha) heq
  arrivals a ha ps heq :=
    h.arrivals a ((ht.alarms a (by simp [heq, Event.waiter?])).mp ha) ps heq

theorem Keeps.congr (h : c.Keeps w s) (hintakes : s'.intakes = s.intakes)
    (hplayer : s'.player = s.player) : c.Keeps w s' :=
  ⟨hintakes ▸ h.size, hintakes ▸ h.intake, hplayer ▸ h.story⟩

theorem Awaits.congr (h : c.Awaits id passed source w s) (hintakes : s'.intakes = s.intakes)
    (hplayer : s'.player = s.player) (hwaiters : s'.waiters = s.waiters)
    (hfinished : s'.finished = s.finished) (hclock : s'.clock = s.clock)
    (halarms : s'.alarms = s.alarms) : c.Awaits id passed source w s' where
  leads := h.leads
  keeps := h.keeps.congr hintakes hplayer
  waiters := hwaiters.trans h.waiters
  finished := hfinished.trans h.finished
  clock := hclock ▸ h.clock
  deadline := halarms ▸ h.deadline
  deadlines := halarms ▸ h.deadlines
  arrivals := halarms ▸ h.arrivals

theorem Awaits.mem_waiters (h : c.Awaits id passed source w s) :
    ⟨id, c.reader source, c.call⟩ ∈ s.waiters := by
  rw [h.waiters]
  exact List.mem_singleton_self _

/-- Timers make no difference to the reading. -/
theorem Stage.ticks (h : c.Stage s rank) (ht : s.Ticks s') : c.Stage s' rank := by
  cases h with
  | waits hawaits herrands hbrings =>
    exact .waits (hawaits.ticks ht) ((ht.errands _).trans herrands) hbrings
  | hangs hawaits herrands hhangs =>
    exact .hangs (hawaits.ticks ht) ((ht.errands _).trans herrands) hhangs
  | left hwaiters hfinished hkeeps hclock =>
    exact .left (ht.waiters.trans hwaiters) (ht.finished.trans hfinished) (hkeeps.ticks ht)
      (ht.clock ▸ hclock)

end Consuming

namespace Session

section

variable {s : Session} {i : Nat} {k : Intake} {g : Ingestor} {v : Waiting}

theorem setIngestor_size (s : Session) (i : Nat) (g : Ingestor) :
    (s.setIngestor i g).intakes.size = s.intakes.size :=
  Array.size_modify

theorem setIngestor_intake (h : s.intakes[i]? = some k) (g : Ingestor) :
    (s.setIngestor i g).intakes[i]? = some { k with ingestor := g } := by
  simp [setIngestor, Array.getElem?_modify, h]

theorem took_clock (s : Session) (i : Nat) (g : Ingestor) (v : Waiting) :
    (s.took i g v).clock = s.clock :=
  notice_clock _

theorem abandon_of_some (hgated : s.gated = false) {r : Reader}
    (hk : s.intakes[r.intake]? = some k) (f : Failure) (c : Call) :
    let h := k.ingestor.abort s.player
    s.abandon r f c =
      { s.took r.intake h.1 h.2 with
        control := .answer .nothing { c with remainder := .fail f :: c.remainder } } := by
  intro h
  unfold abandon
  simp only [hk]
  exact await_eq (s := s.setIngestor r.intake _) hgated _ _

theorem settle_answer_fail (s : Session) (f : Failure) (step : Option Nat) (rest : List Remainder) :
    { s with control := .answer .nothing ⟨step, .fail f :: rest⟩ }.settle =
      { s with control := .answer (.failed f) ⟨step, rest⟩ }.settle :=
  settle_of_turn rfl

/-- A failure passes by whatever remains of a call. -/
theorem settle_answer_failed (s : Session) (f : Failure) (step : Option Nat) (x : Remainder)
    (rest : List Remainder) :
    { s with control := .answer (.failed f) ⟨step, x :: rest⟩ }.settle =
      { s with control := .answer (.failed f) ⟨step, rest⟩ }.settle :=
  settle_of_turn rfl

theorem Sound.took (h : s.Sound) : (s.took i g v).Sound := by
  have hbase : { s.setIngestor i g with player := Player.settle v }.Sound :=
    ⟨h.gated, h.alarms, h.ready, h.waiters, h.named⟩
  exact hbase.notice

theorem Sound.ready_timer (h : s.Sound) (hnone : s.waiters = []) {t : Task} (ht : t ∈ s.queue) :
    t.timer? ≠ none := by
  rcases h.ready t ht with htimer | ⟨w, hw, -⟩
  · exact htimer
  · rw [hnone] at hw
    cases hw

/-- No task is there for a reader that is yet to come. -/
theorem Sound.errands_nextId (h : s.Sound) (hnone : s.waiters = []) : s.errands s.nextId = [] := by
  apply List.filter_eq_nil_iff.mpr
  intro x hx hreader
  replace hreader : x.2.reader? = some s.nextId := by simpa using hreader
  rcases List.mem_append.mp hx with hx | hx
  · obtain ⟨t, ht, rfl⟩ := List.mem_map.mp hx
    exact h.ready_timer hnone ht (Task.timer?_of_reader? hreader)
  · obtain ⟨a, ha, rfl⟩ := List.mem_map.mp hx
    exact Nat.lt_irrefl _ (h.named a ha _ (Event.waiter?_of_reader? hreader))

/-- When no task is there for the reader that waits, only timers are ready. -/
theorem Sound.ready_timer_of_errands {w : Waiter} (h : s.Sound) (hw : s.waiters = [w])
    (hnone : s.errands w.id = []) {t : Task} (ht : t ∈ s.queue) : t.timer? ≠ none := by
  rcases h.ready t ht with htimer | ⟨w', hw', hreader⟩
  · exact htimer
  · rw [hw, List.mem_singleton] at hw'
    subst hw'
    have hmem : (s.clock, t) ∈ s.errands w'.id :=
      List.mem_filter.mpr ⟨List.mem_append_left _ (List.mem_map_of_mem ht), by simp [hreader]⟩
    rw [hnone] at hmem
    cases hmem

theorem begin_fetch {v : Waiter} (hv : s.waiters = [v]) :
    s.begin (.fetch v.id) = s ∧ v.reader.source.Hangs ∨
      s.begin (.fetch v.id) = s.expect v.id v.reader.source.nextPauses ∧
        ¬v.reader.source.Hangs := by
  obtain ⟨id, ⟨intake, start, timeout, arrivals, lastPauses, ending⟩, call⟩ := v
  cases arrivals with
  | cons a rest =>
    right
    simp [Session.begin, hv, Source.nextPauses, Source.Hangs]
  | nil =>
    cases ending with
    | hang =>
      left
      simp [Session.begin, hv, Source.Hangs, Ending.failure?]
    | stop | fail =>
      right
      simp [Session.begin, hv, Source.nextPauses, Source.Hangs, Ending.failure?]

end

end Session

namespace Consuming

open Session

variable {c : Consuming} {s : Session} {passed : Nat} {source : Source} {w x : Ingestor × Player}

/-! ## Between two readings -/

theorem Between.took (h : c.Between w s) {v : Waiting} (hstory : x.2.SameStory (Player.settle v)) :
    c.Between x (s.took c.intake x.1 v) := by
  let b : Session := { s.setIngestor c.intake x.1 with player := Player.settle v }
  have hticks : b.Ticks (s.took c.intake x.1 v) := b.notice_ticks
  have hkeeps : c.Keeps x b :=
    ⟨(setIngestor_size s _ _).trans h.keeps.size, setIngestor_intake h.keeps.intake _, hstory⟩
  exact ⟨h.sound.took, notice_noticed b, hticks.waiters.trans h.waiters,
    hticks.finished.trans h.finished, hkeeps.ticks hticks⟩

theorem Between.offering (h : c.Between w s) (final : Text) :
    c.Between (w.1.offer final, w.2) (s.offering c.intake ⟨w.1, c.timeout, c.offers⟩ final) where
  sound := ⟨h.sound.gated, h.sound.alarms, h.sound.ready, h.sound.waiters, h.sound.named⟩
  noticed := h.noticed
  waiters := h.waiters
  finished := h.finished
  keeps := ⟨(setIngestor_size s _ _).trans h.keeps.size, setIngestor_intake h.keeps.intake _,
    h.keeps.story⟩

/-- A reader that goes on in time waits for what comes next. -/
theorem Between.read (h : c.Between w s) (hleads : c.Leads passed source w)
    (hends : c.timeout.EndsAfter c.deadline) (hclock : s.clock = c.start + passed)
    (hbefore : isBefore c.deadline passed = true) :
    c.SettlesTo { s with control := .read (c.reader source) c.call } s.clock
      (source.nextPauses.length + 3 + source.stepsBehind) := by
  obtain ⟨m, hm, hdeadline⟩ := Option.map_eq_some_iff.mp hends.finite
  let waiter : Waiter := ⟨s.nextId, c.reader source, c.call⟩
  let u : Session := { s with
    control := .idle
    waiters := s.waiters ++ [waiter]
    nextId := s.nextId + 1 }
  let v := (u.enqueue (.fetch s.nextId)).setAlarm (c.start + m) (.deadline s.nextId)
  have hwaiters : u.waiters = [waiter] := by
    change s.waiters ++ _ = _
    rw [h.waiters, List.nil_append]
  have hpassed : (s.clock - c.start).toNat = passed := by omega
  have hread : { s with control := .read (c.reader source) c.call }.settle = v.settle := by
    apply settle_of_turn
    simp only [turn?, Session.read, reader, h.keeps.intake, hleads.unfinished, hpassed,
      hends.isOver hbefore, Bool.false_eq_true, if_false, hm]
    rfl
  have hu : u.Sound := by
    refine ⟨h.sound.gated, h.sound.alarms, fun t ht => .inl (h.sound.ready_timer h.waiters ht), ?_,
      fun a ha id hid => Nat.lt_succ_of_lt (h.sound.named a ha id hid)⟩
    rw [hwaiters]
    exact List.forall_mem_singleton.mpr (Nat.lt_succ_self _)
  have hv : v.Sound := by
    refine Sound.setAlarm (hu.enqueue (.inr ⟨waiter, ?_, rfl⟩)) ?_ _
    · rw [hwaiters]
      exact List.mem_singleton_self _
    · rintro id ⟨⟩
      exact Nat.lt_succ_self _
  -- The alarm for the deadline is the only one of this reader.
  have hold (a : Alarm) (ha : a ∈ s.alarms) : a.event.waiter? ≠ some s.nextId :=
    fun heq => Nat.lt_irrefl _ (h.sound.named a ha _ heq)
  have hdue : max s.clock (c.start + m) = c.start + c.deadline := by
    simp only [isBefore, Bool.or_eq_true, decide_eq_true_eq] at hbefore
    omega
  have hkeeps : c.Keeps w v := h.keeps.congr rfl rfl
  have hawaits : c.Awaits s.nextId passed source w v := by
    refine ⟨hleads, hkeeps, hwaiters, h.finished, by change c.start ≤ s.clock; omega, ?_, ?_, ?_⟩
    · refine List.mem_append_right _ (List.mem_singleton.mpr ?_)
      rw [← hdue]
      rfl
    · intro a ha heq
      rcases List.mem_append.mp ha with ha | ha
      · exact absurd (by simp [heq, Event.waiter?]) (hold a ha)
      · rw [List.mem_singleton.mp ha]
        exact hdue
    · intro a ha ps heq
      rcases List.mem_append.mp ha with ha | ha
      · exact absurd (by simp [heq, Event.waiter?]) (hold a ha)
      · rw [List.mem_singleton.mp ha] at heq
        cases heq
  have hnothing : u.errands s.nextId = [] := h.sound.errands_nextId h.waiters
  have herrands : v.errands s.nextId = [(s.clock, .fetch s.nextId)] :=
    (errands_setAlarm_of_ne (by rintro ⟨⟩) _).trans (errands_enqueue rfl hnothing)
  exact ⟨v, hread.trans (congrArg settle (resting_eq rfl).symm), rfl, hv, h.noticed,
    .waits hawaits herrands (.fetch (by rw [hclock]))⟩

/-- At the exit the call gets its answer. -/
theorem Between.leave (h : c.Between w s) (hleaves : c.leaves = w)
    (hclock : c.start + c.exit.time ≤ s.clock) :
    c.SettlesTo { s with control := .answer c.answer c.call } s.clock 0 := by
  subst hleaves
  refine ⟨_, settle_answer_some s c.answer c.step, rfl, ?_, h.noticed, .left h.waiters ?_ ?_ hclock⟩
  · exact ⟨h.sound.gated, h.sound.alarms, h.sound.ready, h.sound.waiters, h.sound.named⟩
  · rw [h.finished]
  · exact h.keeps.congr rfl rfl

/-- A reader that gives up aborts the stream and fails. -/
theorem Between.abandon (h : c.Between w s) {r : Reader} (hr : r.intake = c.intake) {f : Failure}
    (hanswer : c.answer = .failed f) (hleaves : c.leaves = Ingestor.close w)
    (hclock : c.start + c.exit.time ≤ s.clock) : c.SettlesTo (s.abandon r f c.call) s.clock 0 := by
  let v := (s.player.setStreaming false).resume
  have hstory : c.leaves.2.SameStory (Player.settle v) := by
    have hresumed := (s.player.setStreaming false).resume_sameStory
    rw [hleaves]
    exact ((h.keeps.story.setStreaming false).trans hresumed).trans (Player.settle_sameStory v)
  have hingestor : c.leaves.1 = { w.1 with finished := true } := congrArg Prod.fst hleaves
  have hleave := (h.took hstory).leave rfl ((took_clock s _ _ _).symm ▸ hclock)
  rw [hingestor] at hleave
  rw [abandon_of_some h.sound.gated (hr ▸ h.keeps.intake), call, hr]
  refine hleave.of_settle ?_ (took_clock s _ _ _)
  rw [hanswer]
  exact settle_answer_fail _ f _ _

/-! ## Outcomes -/

/-- A record that does not end the stream is handled, and the rest of the source is to come. -/
theorem Leads.takeIn (h : c.Leads passed source w) {a : Arrival} {rest : List Arrival}
    (harrivals : source.arrivals = a :: rest) (hr : a.record.isLast = false)
    (hbefore : isBefore c.deadline (passed + durationOf source.nextPauses) = true) :
    c.Leads (passed + durationOf source.nextPauses) { source with arrivals := rest }
      (Ingestor.takeIn w a.record) := by
  have hexit : Exit.of c.deadline (source.outcomesFrom passed) = _ :=
    (congrArg (Exit.of c.deadline) (Source.outcomesFrom_cons harrivals passed)).trans
      (Exit.of_cons_record hbefore hr)
  refine ⟨?_, ?_, ?_, ?_, fun o ho => h.untied o ?_⟩
  · rw [Ingestor.takeIn_open h.unfinished hr]
    exact (Ingestor.handle_open w.2 h.unfinished hr).1
  · rw [← h.time, hexit]
  · rw [← h.cause, hexit]
  · rw [← h.leaves, hexit]
    rfl
  · rw [Source.outcomesFrom_cons harrivals]
    exact List.mem_cons_of_mem _ ho

/-- What ends the stream before the deadline is the exit. -/
theorem Leads.last (h : c.Leads passed source w) {o : Except Failure StreamRecord}
    {rest : List (Nat × Except Failure StreamRecord)}
    (houtcomes : source.outcomesFrom passed = (passed + durationOf source.nextPauses, o) :: rest)
    (ho : isLastOutcome o = true)
    (hbefore : isBefore c.deadline (passed + durationOf source.nextPauses) = true) :
    c.exit.time = passed + durationOf source.nextPauses ∧ c.exit.cause = some o ∧
      c.leaves = Ingestor.close (o.toOption.toList.foldl Ingestor.takeIn w) := by
  have hexit : Exit.of c.deadline (source.outcomesFrom passed) = _ :=
    (congrArg (Exit.of c.deadline) houtcomes).trans (Exit.of_cons_last hbefore ho)
  rw [← h.time, ← h.cause, ← h.leaves, hexit]
  exact ⟨rfl, rfl, rfl⟩

/-- A record that does not end the stream is handled, and the reader waits for what comes next. -/
theorem Between.handle_open (h : c.Between w s) (hleads : c.Leads passed source w)
    (hends : c.timeout.EndsAfter c.deadline) {a : Arrival} {rest : List Arrival}
    (harrivals : source.arrivals = a :: rest) (hr : a.record.isLast = false)
    (hbefore : isBefore c.deadline (passed + durationOf source.nextPauses) = true)
    (hclock : s.clock = c.start + passed + durationOf source.nextPauses) :
    let source' : Source := { source with arrivals := rest }
    c.SettlesTo (s.handle c.intake a.record ⟨some c.step, [.consume (c.reader source')]⟩) s.clock
      (source'.nextPauses.length + 3 + source'.stepsBehind) := by
  intro source'
  have hopen := Ingestor.takeIn_open hleads.unfinished hr
  obtain ⟨-, hnothing⟩ := Ingestor.handle_open s.player hleads.unfinished hr
  have hingestor := (w.1.handle_same h.keeps.story a.record).ingestor
  have htook := h.took (x := Ingestor.takeIn w a.record)
    (v := ((w.1.handle s.player a.record).player, (w.1.handle s.player a.record).ticket))
    (w.1.takeIn_same h.keeps.story a.record).2
  have hread := htook.read (hleads.takeIn harrivals hr hbefore) hends
    (by rw [took_clock, hclock]; push_cast; ring) hbefore
  rw [handle_of_some h.sound.gated h.keeps.intake]
  refine hread.of_settle ?_ (took_clock s _ _ _)
  dsimp only
  rw [hnothing, settle_answer_consume, hopen, ← hingestor]
  rfl

/-- The record that ends the stream is handled, and the call gets its answer. -/
theorem Between.handle_last (h : c.Between w s) (hunfinished : w.1.finished = false)
    {r : StreamRecord} (hr : r.isLast = true) {reader : Reader} (hreader : reader.intake = c.intake)
    (hcause : c.exit.cause = some (.ok r))
    (hleaves : c.leaves = Ingestor.close (Ingestor.takeIn w r))
    (hclock : c.start + c.exit.time ≤ s.clock) :
    c.SettlesTo (s.handle c.intake r ⟨some c.step, [.consume reader]⟩) s.clock 0 := by
  obtain ⟨hfinished, hstream, hafterwards⟩ := Ingestor.handle_last s.player hunfinished hr
  obtain ⟨hingestor, hsame, -⟩ := w.1.handle_same h.keeps.story r
  obtain ⟨-, hstory⟩ := w.1.takeIn_same h.keeps.story r
  let t := w.1.handle s.player r
  let v : Waiting := (t.player, t.ticket)
  let w' : Ingestor × Player := (t.ingestor, (Ingestor.takeIn w r).2.setStreaming false)
  have hoff : (Player.settle v).streaming = false :=
    (Player.settle_sameStory v).streaming.trans hstream
  have htook : c.Between w' (s.took c.intake t.ingestor v) :=
    h.took (x := w') ⟨hstory.commands, hstory.scene, hstory.choices, hoff⟩
  have hclock' : (s.took c.intake t.ingestor v).clock = s.clock := took_clock s _ _ _
  have hlate : c.start + c.exit.time ≤ (s.took c.intake t.ingestor v).clock := hclock' ▸ hclock
  -- What the record leaves is closed already.
  have hleft {g : Ingestor} (htaken : (Ingestor.takeIn w r).1 = g) (hdone : g.finished = true) :
      c.leaves = (g, w'.2) := by
    rw [hleaves]
    exact Prod.ext ((Ingestor.close_of_finished (htaken ▸ hdone)).trans htaken) rfl
  rw [handle_of_some h.sound.gated h.keeps.intake]
  by_cases hdone : r.kind = .done
  · rw [if_pos hdone] at hafterwards
    obtain ⟨final, hafterwards⟩ := hafterwards
    have htaken : (Ingestor.takeIn w r).1 = t.ingestor.offer final := by
      unfold Ingestor.takeIn
      dsimp only
      rw [← hsame, hafterwards, ← hingestor]
    have hleaves' := hleft htaken hfinished
    have hoffered := htook.offering final
    have hanswer : c.answer = .choices (t.ingestor.offer final).choices := by
      simp [answer, Exit.result, hcause, hdone, hleaves']
    refine (hoffered.leave hleaves' hlate).of_settle ?_ hclock'
    dsimp only
    rw [hafterwards, hanswer]
    dsimp only
    rw [settle_answer_offer htook.keeps.intake, settle_answer_consume]
    obtain ⟨i, start, timeout, source⟩ := reader
    obtain rfl : i = c.intake := hreader
    refine settle_read_over (k := ⟨t.ingestor.offer final, c.timeout, c.offers⟩) ?_ hfinished
      hoffered.noticed
    exact hoffered.keeps.intake
  · rw [if_neg hdone] at hafterwards
    have htaken : (Ingestor.takeIn w r).1 = t.ingestor := by
      unfold Ingestor.takeIn
      dsimp only
      rw [← hsame, hafterwards, ← hingestor]
    have hleaves' := hleft htaken hfinished
    have hanswer : c.answer = .failed (.reported r.text) := by
      simp [answer, Exit.result, hcause, hdone]
    refine (htook.leave hleaves' hlate).of_settle ?_ hclock'
    dsimp only
    rw [hafterwards, hanswer]
    dsimp only
    rw [settle_answer_fail, settle_answer_failed]
    rfl

/-- Whatever a source has next, it is handled in time or it is the exit. -/
theorem Between.deliver (h : c.Between w s) (hleads : c.Leads passed source w)
    (hends : c.timeout.EndsAfter c.deadline) (hnext : ¬source.Hangs)
    (hclock : s.clock = c.start + passed + durationOf source.nextPauses)
    (hdeadline : s.clock ≤ c.start + c.deadline) (id : Nat) :
    ∃ rank, c.SettlesTo (s.deliver ⟨id, c.reader source, c.call⟩) s.clock rank ∧
      rank < 1 + source.stepsBehind := by
  -- It does not come at the very time of the deadline, so it comes before that.
  have hbefore {o : Except Failure StreamRecord} {rest : List (Nat × Except Failure StreamRecord)}
      (houtcomes : source.outcomesFrom passed =
        (passed + durationOf source.nextPauses, o) :: rest) :
      isBefore c.deadline (passed + durationOf source.nextPauses) = true := by
    have huntied := hleads.untied _ (houtcomes ▸ List.mem_cons_self)
    simp only [isBefore, Bool.or_eq_true, decide_eq_true_eq]
    dsimp only at huntied
    omega
  have hlate (htime : c.exit.time = passed + durationOf source.nextPauses) :
      c.start + c.exit.time ≤ s.clock := by
    rw [htime, hclock]
    push_cast
    omega
  cases harrivals : source.arrivals with
  | nil =>
    cases hfailure : source.ending.failure? with
    | none => exact absurd ⟨harrivals, hfailure⟩ hnext
    | some f =>
      have houtcomes := Source.outcomesFrom_nil harrivals hfailure passed
      obtain ⟨htime, hcause, hleaves⟩ := hleads.last houtcomes rfl (hbefore houtcomes)
      have hanswer : c.answer = .failed f := by simp [answer, Exit.result, hcause]
      refine ⟨0, ?_, by omega⟩
      have habandon := h.abandon (r := c.reader source) rfl hanswer hleaves (hlate htime)
      have hdeliver : s.deliver ⟨id, c.reader source, c.call⟩ =
          s.abandon (c.reader source) f c.call := by
        unfold Session.deliver
        simp only [reader, harrivals]
        cases hending : source.ending <;> simp only [hending, Ending.failure?] at hfailure <;>
          cases hfailure <;> rfl
      rwa [hdeliver]
  | cons a rest =>
    have houtcomes := Source.outcomesFrom_cons harrivals passed
    have hdeliver : s.deliver ⟨id, c.reader source, c.call⟩ =
        s.handle c.intake a.record
          ⟨some c.step, [.consume (c.reader { source with arrivals := rest })]⟩ := by
      unfold Session.deliver
      simp only [reader, harrivals]
      rfl
    have hsteps : source.stepsBehind =
        (rest.map Arrival.steps).sum + source.lastPauses.length + 4 := by
      simp [Source.stepsBehind, harrivals]
    rw [hdeliver]
    cases hr : a.record.isLast with
    | true =>
      obtain ⟨htime, hcause, hleaves⟩ := hleads.last houtcomes hr (hbefore houtcomes)
      exact ⟨0, h.handle_last hleads.unfinished hr rfl hcause hleaves (hlate htime), by omega⟩
    | false =>
      refine ⟨_, h.handle_open hleads hends harrivals hr (hbefore houtcomes) hclock, ?_⟩
      rw [hsteps]
      cases rest with
      | nil =>
        simp only [Source.nextPauses, Source.stepsBehind]
        omega
      | cons b rest =>
        simp only [Source.nextPauses, Source.stepsBehind, List.map_cons, List.sum_cons,
          Arrival.steps]
        omega

end Consuming

end StoryPlayer
