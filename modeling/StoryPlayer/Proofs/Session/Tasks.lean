import StoryPlayer.Proofs.Session.Listening

/-!
# The tasks of a session in which a call reads

A session with nothing at hand starts the next of the tasks that are ready. It is for a timer, lets
a call go on whose render is done, or takes what the source has next nearer to the call. Each of
them leaves less to do than there was, so the session settles.
-/

namespace StoryPlayer.Audience

open Session

section

variable {c : Audience} {s u : Session} {id passed rank : Nat} {left : List Arrival}
  {rest : List Task} {t : Task}

/-! ## Timers -/

/-- The session has come nearer to its rest by what its timers had to do. -/
structure Works (c : Audience) (s : Session) (rank toil : Nat) (u : Session) : Prop where
  clock : u.clock = s.clock
  released : u.released = s.released
  toil : u.toil < toil
  listens : c.Listens u rank

/-- Timers that only begin to wait make no difference to a call. -/
theorem Listens.ticks (h : c.Listens s rank) (hu : u.Clocked) (hticks : s.Ticks u)
    (hready : ∀ t ∈ u.queue, t ∈ s.queue ∨ t.timer? ≠ none) (hasks : u.asks = s.asks)
    (hcontrol : u.control = s.control) : c.Listens u rank := by
  refine ⟨hu, fun t ht => ?_, hasks ▸ h.others, hcontrol ▸ h.control, h.stage.aside ?_⟩
  · rw [hticks.waiters]
    exact (hready t ht).elim (h.ready t) .inl
  · refine ⟨Int.le_of_eq hticks.clock.symm, hticks.waiters, ?_,
      answersTo_of_finished hticks.finished _, ?_, ?_, fun w _ => .of_eq (hticks.errands w.id)⟩
    · rw [finished?, hticks.intakes, finished?]
    · rw [own, hasks, own]
    · exact fun w _ b heq => hticks.alarms b (by simp [heq, Event.waiter?])

theorem asks_enqueue {t : Task} (ht : t.call? = none) : (s.enqueue t).asks = s.asks := by
  simp [asks, suspended, enqueue, ht]

theorem asks_pause (s : Session) (micros : Int) (e : Event) : (s.pause micros e).asks = s.asks := by
  unfold Session.pause
  split
  · exact asks_enqueue rfl
  · rfl

theorem released_enqueue {t : Task} (ht : t.call? = none) :
    (s.enqueue t).released = s.released := by
  simp [released, enqueue, ht]

theorem released_pause (s : Session) (micros : Int) (e : Event) :
    (s.pause micros e).released = s.released := by
  unfold Session.pause
  split
  · exact released_enqueue rfl
  · rfl

theorem mem_queue_pause {micros : Int} {e : Event} (ht : t ∈ (s.pause micros e).queue) :
    t ∈ s.queue ∨ t = .happen e := by
  unfold Session.pause at ht
  split at ht
  · exact (List.mem_append.mp ht).imp_right List.mem_singleton.mp
  · exact .inl ht

theorem Listens.enqueue_pace (h : c.Listens s rank) (n : Nat) :
    c.Listens (s.enqueue (.pace n)) rank := by
  refine h.ticks (h.clocked.congr rfl rfl rfl rfl rfl) (s.enqueue_ticks rfl) (fun t ht => ?_)
    (asks_enqueue rfl) rfl
  rcases List.mem_append.mp ht with ht | ht
  · exact .inl ht
  · exact .inr (by simp [List.mem_singleton.mp ht, Task.timer?])

theorem Listens.pause_timer (h : c.Listens s rank) {n : Nat} (hn : n < s.player.serial)
    (micros : Int) : c.Listens (s.pause micros (.timer n)) rank := by
  have hclocked : (s.pause micros (.timer n)).Clocked := by
    refine h.clocked.pause (fun m hm => ?_) (fun id hid => ?_) micros
    · cases hm
      exact hn
    · cases hid
  refine h.ticks hclocked (s.pause_timer_ticks micros n) (fun t ht => ?_) (asks_pause s _ _)
    (s.pause_control micros _)
  refine (mem_queue_pause ht).imp_right fun heq => ?_
  rw [heq]
  exact Option.some_ne_none n

theorem fire_eq (s : Session) (n : Nat) :
    let u := s.await s.player.fire ⟨none, []⟩
    s.fire n = u ∨ s.fire n = u.enqueue (.pace n) := by
  unfold Session.fire
  dsimp only
  split
  · split
    · exact .inr rfl
    · exact .inl rfl
  · exact .inl rfl

/-- A timer that fires makes the player run. Its call has nothing else to do, whether it is held or
not. -/
theorem Listens.fire {v : Timer} (h : c.Listens s rank) (hidle : s.control = .idle)
    (hv : s.player.timer = some v) (n : Nat) : c.Works s rank s.toil (s.fire n) := by
  let w := s.player.fire
  let u := s.await w ⟨none, []⟩
  have hands : s.Hands w.1 (.nothing, ⟨none, []⟩) u := s.await_hands w ⟨none, []⟩
  have hu : c.Listens u rank := h.hands hidle s.player.fire_arms hands nofun rfl
  have hwork : Player.work (u.player, none) < Player.work (s.player, none) := by
    refine Nat.lt_of_le_of_lt (s.await_work w ⟨none, []⟩) ?_
    exact s.player.fire_turn.work_lt rfl fun _ => by simp [hv]
  -- The work falls, and with it the toil by more than the tasks that the timer may leave ready.
  have htoil : u.toil + 3 ≤ s.toil := by
    unfold toil
    rcases hands.queue with hqueue | ⟨m, hqueue⟩
    · rw [hqueue]
      omega
    · rw [hqueue, List.map_append, List.sum_append]
      simp only [List.map_cons, List.map_nil, List.sum_cons, List.sum_nil, Task.toil, Task.isPace,
        if_true]
      omega
  rcases fire_eq s n with heq | heq
  · rw [heq]
    exact ⟨hands.clock, released_of_hands hands, by change u.toil < _; omega, hu⟩
  · rw [heq]
    refine ⟨hands.clock, (released_enqueue rfl).trans (released_of_hands hands), ?_,
      hu.enqueue_pace n⟩
    rw [toil_enqueue]
    change u.toil + 2 < s.toil
    omega

/-- A task for a timer leaves less to do. -/
theorem Listens.begin_timer {t : Task} (h : c.Listens s rank) (hidle : s.control = .idle)
    (ht : t.timer? ≠ none) : c.Works s rank (s.toil + t.toil) (s.begin t) := by
  have hrest {n : Nat} (hn : 0 < n) : c.Works s rank (s.toil + n) s :=
    ⟨rfl, rfl, Nat.lt_add_of_pos_right hn, h⟩
  have hfire {v : Timer} (hv : s.player.timer = some v) (n m : Nat) :
      c.Works s rank (s.toil + m) (s.fire n) := by
    obtain ⟨hclock, hreleased, htoil, hu⟩ := h.fire hidle hv n
    exact ⟨hclock, hreleased, Nat.lt_add_right m htoil, hu⟩
  cases t with
  | resume | fetch | deliver => exact absurd rfl ht
  | happen e =>
    cases e with
    | arrival | deadline => exact absurd rfl ht
    | timer n =>
      change c.Works s rank (s.toil + 1) (s.happen (.timer n))
      simp only [happen]
      split
      next v hv =>
        split
        · exact hfire hv _ _
        · exact hrest Nat.one_pos
      · exact hrest Nat.one_pos
  | pace n =>
    change c.Works s rank (s.toil + 2) (s.pace n)
    unfold pace
    split
    · exact hrest Nat.two_pos
    next v hv =>
      split
      · exact hrest Nat.two_pos
      next hserial =>
        replace hserial := Decidable.not_not.mp hserial
        split
        · exact hfire hv _ _
        next delay _ =>
          split
          · have hn : n < s.player.serial := hserial ▸ h.clocked.numbered v hv
            have htoil := s.toil_pause (microsOfMillis delay) (.timer n)
            exact ⟨s.pause_clock _ _, released_pause s _ _, by omega, h.pause_timer hn _⟩
          · exact hrest Nat.two_pos

/-! ## Renders that are done -/

theorem asks_pop (hidle : s.control = .idle) (hqueue : s.queue = t :: rest) :
    s.asks.Perm (t.call?.toList.map (Prod.mk .nothing) ++ { s with queue := rest }.asks) := by
  rw [asks_of_idle hidle, asks_of_idle (s := { s with queue := rest }) hidle, ← List.map_append]
  exact (suspended_of_queue hqueue).map _

theorem toil_of_queue (hqueue : s.queue = t :: rest) :
    { s with queue := rest }.toil + t.toil = s.toil := by
  unfold toil
  rw [hqueue, List.map_cons, List.sum_cons]
  dsimp only
  omega

theorem released_pop (hqueue : s.queue = t :: rest) (ht : t.call? = none) :
    { s with queue := rest }.released = s.released := by
  simp [released, hqueue, ht]

theorem lower_pop (hqueue : s.queue = t :: rest) (ht : t.call? = none) (rank : Nat) :
    Lower { s with queue := rest } rank s rank := by
  have htoil := toil_of_queue hqueue
  have hpos : 0 < t.toil := by
    unfold Task.toil
    split <;> decide
  exact .inr ⟨by rw [released_pop hqueue ht], .inl (by omega)⟩

/-- A task that is for no reader, nor for this call, is taken out of the queue. -/
theorem Listens.pop (h : c.Listens s rank) (hidle : s.control = .idle)
    (hqueue : s.queue = t :: rest) (hreader : t.reader? = none)
    (hcall : ∀ b, t.call? = some b → b.step ≠ some c.step) :
    c.Listens { s with queue := rest } rank := by
  let u : Session := { s with queue := rest }
  have hasks := asks_pop hidle hqueue
  have hown : (c.own u).Perm (c.own s) := by
    have hperm := hasks.filter fun y => y.2.step == some c.step
    have hnone : (t.call?.toList.map (Prod.mk Result.nothing)).filter
        (fun y => y.2.step == some c.step) = [] := by
      refine List.filter_eq_nil_iff.mpr fun y hy => ?_
      obtain ⟨b, hb, rfl⟩ := List.mem_map.mp hy
      simpa using hcall b (Option.mem_toList.mp hb)
    rw [List.filter_append, hnone] at hperm
    exact hperm.symm
  refine ⟨h.clocked.congr rfl rfl rfl rfl rfl,
    fun v hv => h.ready v (hqueue ▸ List.mem_cons_of_mem t hv), fun y hy => ?_, h.control,
    h.stage.aside ?_⟩
  · exact h.others y (hasks.mem_iff.mpr (List.mem_append_right _ hy))
  · refine ⟨Int.le_refl _, rfl, rfl, rfl, hown, fun _ _ _ _ => .rfl, fun w _ => .of_eq ?_⟩
    rw [errands_of_queue hqueue, hreader]
    rfl

/-- A call whose render is done goes on. -/
theorem Listens.begin_resume {h : Held} (hs : c.Listens s rank) (hidle : s.control = .idle)
    (hqueue : s.queue = .resume h :: rest) :
    c.Goes s rank ({ s with queue := rest }.begin (.resume h)) := by
  let v : Session := { s with queue := rest }
  let u := v.await (v.player.rendered h.ticket) h.call
  have hands : v.Hands _ (.nothing, h.call) u := v.await_hands _ h.call
  have harms := (v.player.rendered_turn h.ticket).arms rfl
  have hreleased : u.released < s.released := by
    rw [released_of_hands hands, released, released, hqueue, List.countP_cons_of_pos rfl]
    exact Nat.lt_succ_self _
  have hmem : (.nothing, h.call) ∈ s.asks := by
    rw [asks_of_idle hidle]
    exact List.mem_map_of_mem ((suspended_of_queue hqueue).mem_iff.mpr List.mem_cons_self)
  obtain ⟨ticket, step, more⟩ := h
  -- It is the call that reads, or one that has nothing left to do but to get its answer.
  by_cases hstep : step = some c.step
  · subst hstep
    have hasks := asks_pop hidle hqueue
    rw [asks_of_idle (s := { s with queue := rest }) hidle] at hasks
    have hsub : v.queue ⊆ s.queue := by
      rw [hqueue]
      exact List.subset_cons_self _ _
    obtain ⟨hv, hleads, rfl⟩ :=
      hs.silent_of_asks (u := v) (hs.clocked.congr rfl rfl rfl rfl rfl) hsub rfl rfl hasks
    have hu := hv.runs harms hands
      (hleads.aside (finished?_of_hands (s := v) hands) (Int.le_of_eq hands.clock.symm))
    exact ⟨hands.clock, _, hu, .inl (Nat.add_lt_add_left hreleased _)⟩
  · have hnil := hs.others _ hmem hstep
    have hv := hs.pop hidle hqueue rfl (by rintro b ⟨⟩; exact hstep)
    exact ⟨hands.clock, rank, hv.hands hidle harms hands hstep hnil,
      .inl (Nat.add_lt_add_left hreleased _)⟩

/-! ## What the source has next -/

theorem Awaits.enqueue (h : c.Awaits id passed left s) (ht : t.call? = none) :
    c.Awaits id passed left (s.enqueue t) where
  waiters := h.waiters
  own := (congrArg (List.filter _) (asks_enqueue ht)).trans h.own
  answers := h.answers
  unfinished := h.unfinished
  heard := h.heard
  deadline := h.deadline
  deadlines := h.deadlines

theorem Awaits.pause (h : c.Awaits id passed left s) (micros : Int) {e : Event}
    (he : e ≠ .deadline id) : c.Awaits id passed left (s.pause micros e) := by
  unfold Session.pause
  split
  · exact h.enqueue rfl
  · exact ⟨h.waiters, h.own, h.answers, h.unfinished, h.heard, List.mem_append_left _ h.deadline,
      List.forall_mem_append.mpr
        ⟨h.deadlines, List.forall_mem_singleton.mpr fun heq => absurd heq he⟩⟩

/-- A new task for the reader makes the call wait for it. -/
theorem Listens.waits {x : Int × Task} {m n : Nat} (h : c.Listens s m)
    (hawaits : c.Awaits id passed left u) (hu : u.Clocked)
    (hqueue : ∀ t ∈ u.queue, t ∈ s.queue ∨ t.reader? = some id) (hwaiters : u.waiters = s.waiters)
    (hasks : u.asks = s.asks) (hcontrol : u.control = s.control) (herrands : u.errands id = [x])
    (hbrings : Brings id (c.rest left)
      (c.start + passed + durationOf (c.rest left).nextPauses) x n) :
    c.Listens u (n + (c.rest left).turnsBehind) := by
  refine ⟨hu, fun t ht => ?_, hasks ▸ h.others, hcontrol ▸ h.control,
    .waits hawaits herrands hbrings⟩
  rcases hqueue t ht with hold | hreader
  · exact hwaiters ▸ h.ready t hold
  · exact .inr (.inr ⟨⟨id, c.reader left, c.call⟩, by simp [hawaits.waiters], hreader⟩)

theorem Listens.enqueue_errand {m n : Nat} (h : c.Listens s m)
    (hawaits : c.Awaits id passed left s) (hnone : s.errands id = []) (ht : t.reader? = some id)
    (hbrings : Brings id (c.rest left)
      (c.start + passed + durationOf (c.rest left).nextPauses) (s.clock, t) n) :
    c.Listens (s.enqueue t) (n + (c.rest left).turnsBehind) := by
  have hcall := Task.call?_of_reader? ht
  refine h.waits (hawaits.enqueue hcall) (h.clocked.congr rfl rfl rfl rfl rfl) (fun v hv => ?_) rfl
    (asks_enqueue hcall) rfl (errands_enqueue ht hnone) hbrings
  refine (List.mem_append.mp hv).imp_right fun hv => ?_
  rwa [List.mem_singleton.mp hv]

theorem Awaits.name_lt (h : c.Awaits id passed left s) (hs : s.Clocked) : id < s.nextId :=
  hs.names _ h.deadline id rfl

theorem Listens.pause_errand {micros : Int} {ps : List Int} {m n : Nat} (h : c.Listens s m)
    (hawaits : c.Awaits id passed left s) (hnone : s.errands id = [])
    (hbrings : Brings id (c.rest left)
      (c.start + passed + durationOf (c.rest left).nextPauses)
      (s.clock + micros.toNat, .happen (.arrival id ps)) n) :
    c.Listens (s.pause micros (.arrival id ps)) (n + (c.rest left).turnsBehind) := by
  have hclocked : (s.pause micros (.arrival id ps)).Clocked := by
    refine h.clocked.pause (fun n hn => by cases hn) (fun id' hid => ?_) micros
    cases hid
    exact hawaits.name_lt h.clocked
  have hawaits' : c.Awaits id passed left (s.pause micros (.arrival id ps)) :=
    hawaits.pause micros (by rintro ⟨⟩)
  refine h.waits hawaits' hclocked (fun v hv => ?_) ?_ (asks_pause s _ _)
    (s.pause_control _ _) (errands_pause rfl hnone) hbrings
  · refine (mem_queue_pause hv).imp_right fun heq => ?_
    rw [heq]
    rfl
  · rw [hawaits'.waiters, hawaits.waiters]

/-- While pauses are left the next one begins, and behind the last one the outcome is delivered. -/
theorem Listens.expect {ps : List Int} {m n : Nat} (h : c.Listens s m)
    (hawaits : c.Awaits id passed left s) (hnone : s.errands id = [])
    (hnext : ¬(c.rest left).Hangs)
    (hdue : s.clock + durationOf ps = c.start + passed + durationOf (c.rest left).nextPauses)
    (hn : ps.length + 2 < n) : c.Goes s (n + (c.rest left).turnsBehind) (s.expect id ps) := by
  cases ps with
  | nil =>
    have hdue' : s.clock = c.start + passed + durationOf (c.rest left).nextPauses := by
      simpa [durationOf] using hdue
    have hu : c.Listens (s.enqueue (.deliver id 1)) (1 + 1 + (c.rest left).turnsBehind) :=
      h.enqueue_errand hawaits hnone rfl (hdue' ▸ .deliver hnext (Nat.le_refl 1))
    have hreleased : (s.expect id []).released = s.released := released_enqueue rfl
    exact ⟨rfl, _, hu, .inl (by omega)⟩
  | cons micros ps =>
    have hdue' : s.clock + micros.toNat + durationOf ps =
        c.start + passed + durationOf (c.rest left).nextPauses := by
      simp only [durationOf, List.map_cons, List.sum_cons] at hdue ⊢
      omega
    have hu : c.Listens (s.pause micros (.arrival id ps))
        (ps.length + 3 + (c.rest left).turnsBehind) :=
      h.pause_errand hawaits hnone (.arrive hnext hdue')
    have hreleased : (s.expect id (micros :: ps)).released = s.released := released_pause s _ _
    rw [List.length_cons] at hn
    exact ⟨s.pause_clock _ _, _, hu, .inl (by omega)⟩

/-- When no task is there for the reader, what is ready is for someone else. -/
theorem Listens.ready_of_errands {m : Nat} (h : c.Listens s m)
    (hawaits : c.Awaits id passed left s) (hnone : s.errands id = []) :
    ∀ t ∈ s.queue, t.timer? ≠ none ∨ t.call? ≠ none := by
  intro t ht
  rcases h.ready t ht with htimer | hcall | ⟨w, hw, hreader⟩
  · exact .inl htimer
  · exact .inr hcall
  · rw [hawaits.waiters, List.mem_singleton] at hw
    subst hw
    have hmem : (s.clock, t) ∈ s.errands id :=
      List.mem_filter.mpr ⟨List.mem_append_left _ (List.mem_map_of_mem ht), by simp [hreader]⟩
    rw [hnone] at hmem
    cases hmem

/-- The reader is taken out. -/
theorem Listens.heard {m : Nat} (h : c.Listens s m) (hawaits : c.Awaits id passed left s)
    (hready : ∀ t ∈ s.queue, t.timer? ≠ none ∨ t.call? ≠ none) :
    c.Silent { s with waiters := [] } := by
  refine ⟨h.clocked.mono rfl (List.Subset.refl _) rfl (.refl _) (List.nil_subset _), hready,
    fun b hb => ?_, rfl, hawaits.answers⟩
  have hmem : (Result.nothing, b) ∈ s.asks := List.mem_append_right _ (List.mem_map_of_mem hb)
  have hstep : b.step ≠ some c.step := by
    simpa using List.filter_eq_nil_iff.mp hawaits.own _ hmem
  exact ⟨hstep, h.others _ hmem hstep⟩

/-- What a call has to do behind a record: it reads on, unless the record brings something else
before that. -/
def behind (c : Audience) (more : List Arrival) : Afterwards → List Remainder
  | .nothing => [.consume (c.reader more)]
  | .offer final => [.offer c.intake final, .consume (c.reader more)]
  | .fail f => [.fail f, .consume (c.reader more)]

theorem turns_behind (c : Audience) (more : List Arrival) (f : Afterwards) :
    ((c.behind more f).map Remainder.turns).sum ≤ 1 + (c.rest more).turns := by
  cases f <;> simp [behind, Remainder.turns, Audience.reader]

/-- A record that was handled by the deadline takes the call back to reading, or it ends the
stream. -/
theorem Heard.behind {a : Arrival} {more : List Arrival} {g : Ingestor} {p : Player} {now : Int}
    (h : c.Heard (a :: more) now) (hopen : g.finished = false)
    (hfinished : c.finished? s = some (g.handle p a.record).ingestor.finished)
    (hclock : s.clock = now + durationOf a.pauses) (hdeadline : s.clock ≤ c.start + c.deadline) :
    c.Leads s .nothing (c.behind more (g.handle p a.record).afterwards) := by
  cases hr : a.record.isLast with
  | false =>
    obtain ⟨hopen', hnothing⟩ := Ingestor.handle_open p hopen hr
    rw [hnothing]
    exact .reads (hfinished.trans (congrArg some hopen')) (h.tail (Int.le_of_eq hclock.symm))
  | true =>
    obtain ⟨hdone, -, hafterwards⟩ := Ingestor.handle_last p hopen hr
    have hgives (choices : List Text) :
        c.Gives s.clock (Exit.result ⟨0, some (.ok a.record), []⟩ c.timeout choices) := by
      refine h.gives (o := .ok a.record) (fun d => ?_) hr hclock hdeadline choices
      rw [Source.outcomesFrom_cons (s := c.rest (a :: more)) rfl]
      exact List.mem_cons_self
    by_cases hkind : a.record.kind = .done
    · rw [if_pos hkind] at hafterwards
      obtain ⟨final, hoffer⟩ := hafterwards
      rw [hoffer]
      refine .offers (hfinished.trans (congrArg some hdone)) fun choices => ?_
      simpa [Exit.result, hkind] using hgives choices
    · rw [if_neg hkind] at hafterwards
      rw [hafterwards]
      refine .fails ?_
      simpa [Exit.result, hkind] using hgives []

/-- The call waits for the renders of a record, and has then to do what is behind it. -/
theorem Silent.handle {a : Arrival} {more : List Arrival} {now : Int} (h : c.Silent s)
    (hopen : c.finished? s = some false) (hheard : c.Heard (a :: more) now)
    (hclock : s.clock = now + durationOf a.pauses) (hdeadline : s.clock ≤ c.start + c.deadline) :
    let u := s.handle c.intake a.record ⟨some c.step, [.consume (c.reader more)]⟩
    u.clock = s.clock ∧ u.released = s.released ∧
      ∃ rank, c.Listens u rank ∧ rank ≤ 1 + (c.rest more).turns := by
  intro u
  obtain ⟨k, hk, hunfinished⟩ := exists_intake hopen
  let t := k.ingestor.handle s.player a.record
  let v := s.setIngestor c.intake t.ingestor
  have hu : u = v.await (t.player, t.ticket) ⟨some c.step, c.behind more t.afterwards⟩ := by
    simp only [u, Session.handle, hk]
    cases t.afterwards <;> rfl
  have hv : c.Silent v := h.withIntakes _ _
  have hleads : c.Leads v .nothing (c.behind more t.afterwards) :=
    hheard.behind hunfinished (finished?_setIngestor hk _) hclock hdeadline
  have hands := v.await_hands (t.player, t.ticket) ⟨some c.step, c.behind more t.afterwards⟩
  have hreleased : u.released = v.released := hu ▸ released_of_hands hands
  rw [hu] at hreleased ⊢
  refine ⟨hands.clock, hreleased, _, hv.runs (Player.handle_arms _ _ _) hands ?_,
    turns_behind c more _⟩
  exact hleads.aside (finished?_of_hands hands) (Int.le_of_eq hands.clock.symm)

/-- Whatever the source has next, it comes by the deadline and takes the call on. -/
theorem Silent.deliver {now : Int} (h : c.Silent s) (hopen : c.finished? s = some false)
    (hheard : c.Heard left now) (hnext : ¬(c.rest left).Hangs)
    (hclock : s.clock = now + durationOf (c.rest left).nextPauses)
    (hdeadline : s.clock ≤ c.start + c.deadline) (id : Nat) :
    c.Goes s (1 + (c.rest left).turnsBehind) (s.deliver ⟨id, c.reader left, c.call⟩) := by
  cases left with
  | nil =>
    cases hfailure : (c.rest []).ending.failure? with
    | none => exact absurd ⟨rfl, hfailure⟩ hnext
    | some f =>
      have hgives : c.Gives s.clock (.failed f) := by
        refine hheard.gives (o := .error f) (fun d => ?_) rfl hclock hdeadline []
        rw [Source.outcomesFrom_nil rfl hfailure]
        exact List.mem_singleton_self _
      have hdeliver : s.deliver ⟨id, c.reader [], c.call⟩ = s.abandon (c.reader []) f c.call := by
        unfold Session.deliver
        change c.source.ending.failure? = some f at hfailure
        simp only [Audience.reader, Audience.rest]
        cases hending : c.source.ending <;> simp only [hending, Ending.failure?] at hfailure <;>
          cases hfailure <;> rfl
      obtain ⟨hclock', hreleased, hu⟩ := h.abandon hopen hgives []
      rw [hdeliver]
      refine ⟨hclock', 1, hu, .inl ?_⟩
      change _ < 1 + 2 + _
      omega
  | cons a more =>
    obtain ⟨hclock', hreleased, rank, hu, hrank⟩ := h.handle hopen hheard hclock hdeadline
    refine ⟨hclock', rank, hu, .inl ?_⟩
    change rank + (s.deliver ⟨id, c.reader (a :: more), c.call⟩).released <
      1 + ((c.rest more).turns + 2) + s.released
    change (s.deliver ⟨id, c.reader (a :: more), c.call⟩).released = s.released at hreleased
    omega

/-- The task that brings what comes next does so, or takes it nearer. -/
theorem Listens.begin_errand {m n : Nat} (h : c.Listens s m) (hawaits : c.Awaits id passed left s)
    (hnone : s.errands id = [])
    (hbrings : Brings id (c.rest left)
      (c.start + passed + durationOf (c.rest left).nextPauses) (s.clock, t) n) :
    c.Goes s (n + (c.rest left).turnsBehind) (s.begin t) := by
  generalize hdue : c.start + passed + durationOf (c.rest left).nextPauses = due at hbrings
  cases hbrings with
  | fetch hfetch =>
    rcases begin_fetch hawaits.waiters with ⟨hbegin, -⟩ | ⟨hbegin, hnext⟩
    · dsimp only at hbegin
      rw [hbegin]
      have hhangs : c.Listens s 2 := ⟨h.clocked, h.ready, h.others, h.control, .hangs hawaits hnone⟩
      exact ⟨rfl, 2, hhangs, .inl (by omega)⟩
    · dsimp only at hbegin
      rw [hbegin]
      exact h.expect hawaits hnone hnext (hfetch.trans hdue.symm) (Nat.lt_succ_self _)
  | arrive hnext harrive =>
    exact h.expect hawaits hnone hnext (harrive.trans hdue.symm) (Nat.lt_succ_self _)
  | @deliver m hnext hm =>
    cases m with
    | zero =>
      have hbegin : s.begin (.deliver id 0) =
          { s with waiters := [] }.deliver ⟨id, c.reader left, c.call⟩ := by
        simp [Session.begin, takeWaiter?, hawaits.waiters]
      rw [hbegin]
      exact (h.heard hawaits (h.ready_of_errands hawaits hnone)).deliver hawaits.unfinished
        hawaits.heard hnext hdue.symm (h.clocked.alarms _ hawaits.deadline hawaits.isLive) id
    | succ m =>
      have hu : c.Listens (s.enqueue (.deliver id m)) (m + 1 + (c.rest left).turnsBehind) :=
        h.enqueue_errand hawaits hnone rfl (hdue ▸ .deliver hnext (by omega))
      have hreleased : (s.enqueue (.deliver id m)).released = s.released := released_enqueue rfl
      exact ⟨rfl, _, hu, .inl (by change _ + (s.enqueue _).released < _; omega)⟩

/-- A task for the reader is the one that brings what comes next. -/
theorem Listens.begin_reader {w : Waiter} (h : c.Listens s rank) (hidle : s.control = .idle)
    (hqueue : s.queue = t :: rest) (hw : w ∈ s.waiters) (hreader : t.reader? = some w.id) :
    c.Goes s rank ({ s with queue := rest }.begin t) := by
  let u : Session := { s with queue := rest }
  have hasks : s.asks.Perm u.asks := by
    have hperm := asks_pop hidle hqueue
    rwa [Task.call?_of_reader? hreader] at hperm
  obtain ⟨passed, left, hawaits, hstage⟩ := h.stage.awaits hw
  rcases hstage with ⟨herrands, -⟩ | ⟨x, n, herrands, hbrings, rfl⟩
  · simp [errands_of_queue hqueue, hreader] at herrands
  · rw [errands_of_queue hqueue, if_pos (by simp [hreader])] at herrands
    obtain ⟨rfl, hnone⟩ := List.cons.inj herrands
    have hawaits' : c.Awaits w.id passed left u := by
      refine ⟨hawaits.waiters, ?_, hawaits.answers, hawaits.unfinished, hawaits.heard,
        hawaits.deadline, hawaits.deadlines⟩
      have hown : (c.own u).Perm (c.own s) := hasks.symm.filter _
      exact (hawaits.own ▸ hown).eq_nil
    have hu : c.Listens u 2 := by
      refine ⟨h.clocked.congr rfl rfl rfl rfl rfl,
        fun v hv => h.ready v (hqueue ▸ List.mem_cons_of_mem t hv),
        fun y hy => h.others y (hasks.mem_iff.mpr hy), h.control, .hangs hawaits' hnone⟩
    obtain ⟨hclock, rank', hv, hlower⟩ := hu.begin_errand hawaits' hnone hbrings
    exact ⟨hclock, rank', hv, hlower.trans (lower_pop hqueue (Task.call?_of_reader? hreader) _)⟩

/-! ## Settling -/

theorem quiet_of_turn (h : s.turn? = none) : s.Quiet := by
  unfold turn? at h
  split at h
  · cases h
  · cases h
  · cases h
  next hidle =>
    split at h
    next hqueue => exact ⟨hidle, hqueue⟩
    · cases h

/-- Every turn takes the session nearer to its rest. -/
theorem Listens.turn (h : c.Listens s rank) (hends : c.timeout.EndsAfter c.deadline)
    (hturn : s.turn? = some u) : c.Goes s rank u := by
  cases hcontrol : s.control with
  | perform a b => exact absurd hcontrol (h.control a b)
  | answer r b =>
    have heq : s.turn? = some (s.answer r b) := by simp only [turn?, hcontrol]
    obtain rfl := Option.some.inj (hturn.symm.trans heq)
    exact h.answer hcontrol
  | read r b =>
    have heq : s.turn? = some (s.read r b) := by simp only [turn?, hcontrol]
    obtain rfl := Option.some.inj (hturn.symm.trans heq)
    exact h.read hends hcontrol
  | idle =>
    cases hqueue : s.queue with
    | nil => simp [turn?, hcontrol, hqueue] at hturn
    | cons t rest =>
      have heq : s.turn? = some ({ s with queue := rest }.begin t) := by
        simp only [turn?, hcontrol, hqueue]
      obtain rfl := Option.some.inj (hturn.symm.trans heq)
      rcases h.ready t (hqueue ▸ List.mem_cons_self) with htimer | hcall | ⟨w, hw, hreader⟩
      · have hcall := Task.call?_of_timer? htimer
        obtain ⟨n, hn⟩ := Option.ne_none_iff_exists'.mp htimer
        have hu := h.pop hcontrol hqueue (Task.reader?_of_timer? hn) (by simp [hcall])
        obtain ⟨hclock, hreleased, htoil, hv⟩ := hu.begin_timer hcontrol htimer
        refine ⟨hclock, rank, hv, .inr ⟨?_, .inl (toil_of_queue hqueue ▸ htoil)⟩⟩
        rw [hreleased, released_pop hqueue hcall]
      · cases t with
        | resume held => exact h.begin_resume hcontrol hqueue
        | pace | fetch | deliver | happen => exact absurd rfl hcall
      · exact h.begin_reader hcontrol hqueue hw hreader

theorem Listens.settle {s : Session} {rank : Nat} (h : c.Listens s rank)
    (hends : c.timeout.EndsAfter c.deadline) :
    s.settle.Quiet ∧ s.settle.clock = s.clock ∧ ∃ rank', c.Listens s.settle rank' ∧
      (s.settle = s ∧ rank' = rank ∨ Lower s.settle rank' s rank) := by
  cases hturn : s.turn? with
  | none =>
    rw [settle_of_quiet hturn]
    refine ⟨quiet_of_turn hturn, rfl, rank, h, .inl ⟨rfl, rfl⟩⟩
  | some u =>
    obtain ⟨hclock, rank', hu, hlower⟩ := h.turn hends hturn
    -- The descent is lexicographic: a turn of the call may give the timers more to do.
    have hlex := hlower.lex
    obtain ⟨hquiet, hclock', rank'', hsettled, hless⟩ := hu.settle hends
    rw [settle_of_turn hturn]
    refine ⟨hquiet, hclock'.trans hclock, rank'', hsettled, .inr ?_⟩
    rcases hless with ⟨heq, rfl⟩ | hless
    · rwa [heq]
    · exact hless.trans hlower
termination_by (rank + s.released, s.toil, s.control.turns)
decreasing_by exact hlex

end

end StoryPlayer.Audience
