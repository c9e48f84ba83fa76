import StoryPlayer.Proofs.Session.Leaving

/-!
# Every way out of the reading of a source

Whatever is ready runs, and the alarms go off in their order. Each takes the reading further or
leaves it alone, so at any time the call has its answer if the exit has come by then, and otherwise
it has none.
-/

namespace StoryPlayer

namespace Consuming

open Session

/-- The session settles at this time, and the reading is nearer to its end. -/
def Advances (c : Consuming) (s : Session) (clock : Int) (rank toil : Nat) : Prop :=
  ∃ v rank', s.settle = v.resting.settle ∧ v.clock = clock ∧ c.Consumes v rank' ∧
    Nearer rank' v.toil rank toil

section

variable {c : Consuming} {s u : Session} {id passed rank n toil : Nat} {source : Source}
  {w : Ingestor × Player} {t : Task} {x : Int × Task} {a : Alarm}

theorem SettlesTo.advances {clock : Int} {rank' : Nat} (h : c.SettlesTo s clock rank')
    (hlt : rank' < rank) (toil : Nat) : c.Advances s clock rank toil := by
  obtain ⟨v, hv, hclock, hconsumes⟩ := h
  exact ⟨v, rank', hv, hclock, hconsumes, .inl hlt⟩

theorem Consumes.advances (h : c.Consumes s rank) (hidle : s.control = .idle)
    (hlt : s.toil < toil) : c.Advances s s.clock rank toil :=
  ⟨s, rank, congrArg settle (resting_eq hidle).symm, rfl, h, .inr ⟨rfl, hlt⟩⟩

/-! ## Timers -/

theorem Consumes.fire (h : c.Consumes s rank) {v : Timer} (hv : s.player.timer = some v) (n : Nat)
    (htoil : s.toil ≤ toil) : c.Advances (s.fire n) s.clock rank toil := by
  obtain ⟨hticks, hlt⟩ := fired_ticks hv n
  obtain ⟨hsound, hnoticed⟩ := h.sound.fired n
  exact ⟨s.fired n, rank, fire_settle h.sound.gated n, hticks.clock,
    ⟨hsound, hnoticed, h.stage.ticks hticks⟩, .inr ⟨rfl, Nat.lt_of_lt_of_le hlt htoil⟩⟩

/-- A task for a timer leaves less to do. -/
theorem Consumes.begin_timer (h : c.Consumes s rank) (hidle : s.control = .idle)
    (ht : t.timer? ≠ none) : c.Advances (s.begin t) s.clock rank (s.toil + t.toil) := by
  cases t with
  | resume | fetch | deliver => exact absurd rfl ht
  | happen e =>
    cases e with
    | arrival | deadline => exact absurd rfl ht
    | timer n =>
      have hrest : c.Advances s s.clock rank (s.toil + 1) := h.advances hidle (Nat.lt_succ_self _)
      change c.Advances (s.happen (.timer n)) s.clock rank (s.toil + 1)
      simp only [happen]
      split
      next v hv =>
        split
        · exact h.fire hv _ (Nat.le_succ _)
        · exact hrest
      · exact hrest
  | pace n =>
    have hrest : c.Advances s s.clock rank (s.toil + 2) := h.advances hidle (by omega)
    change c.Advances (s.pace n) s.clock rank (s.toil + 2)
    unfold pace
    split
    · exact hrest
    next v hv =>
      split
      · exact hrest
      split
      · exact h.fire hv _ (Nat.le_add_right _ _)
      next delay _ =>
        split
        · have hticks := s.pause_timer_ticks (microsOfMillis delay) n
          have hcontrol := (s.pause_control (microsOfMillis delay) (.timer n)).trans hidle
          have htoil := s.toil_pause (microsOfMillis delay) (.timer n)
          have hpaused : c.Consumes (s.pause (microsOfMillis delay) (.timer n)) rank :=
            ⟨h.sound.pause (.inl (Option.some_ne_none n)), h.noticed.pause _ _,
              h.stage.ticks hticks⟩
          exact hticks.clock ▸ hpaused.advances hcontrol (by omega)
        · exact hrest

/-! ## Outcomes on their way -/

theorem Awaits.pause (h : c.Awaits id passed source w s) {micros : Int} {ps : List Int} :
    c.Awaits id passed source w (s.pause micros (.arrival id ps)) := by
  unfold Session.pause
  split
  · exact h.congr rfl rfl rfl rfl rfl rfl
  next hpos =>
    refine ⟨h.leads, h.keeps.congr rfl rfl, h.waiters, h.finished, h.clock,
      List.mem_append_left _ h.deadline, ?_, ?_⟩
    · refine List.forall_mem_append.mpr ⟨h.deadlines, List.forall_mem_singleton.mpr ?_⟩
      rintro ⟨⟩
    · refine List.forall_mem_append.mpr ⟨h.arrivals, List.forall_mem_singleton.mpr ?_⟩
      intro _ _
      have hclock := h.clock
      change c.start < max s.clock (s.clock + micros)
      omega

/-- While pauses are left the next one begins, and behind the last one the outcome is delivered. -/
theorem Awaits.expect (h : c.Awaits id passed source w s) (hsound : s.Sound)
    (hnoticed : s.Noticed) (hidle : s.control = .idle) (hnone : s.errands id = [])
    (hnext : ¬source.Hangs) {ps : List Int}
    (hdue : s.clock + durationOf ps = c.start + passed + durationOf source.nextPauses)
    (hn : ps.length + 2 < n) (toil : Nat) :
    c.Advances (s.expect id ps) s.clock (n + source.stepsBehind) toil := by
  cases ps with
  | nil =>
    have hdue' : s.clock = c.start + passed + durationOf source.nextPauses := by
      simpa [durationOf] using hdue
    let v := s.enqueue (.deliver id 1)
    have hstage : c.Stage v (2 + source.stepsBehind) :=
      .waits (h.congr rfl rfl rfl rfl rfl rfl) (errands_enqueue rfl hnone)
        (hdue' ▸ .deliver hnext (Nat.le_refl 1))
    exact ⟨v, _, congrArg settle (resting_eq (s := v) hidle).symm, rfl,
      ⟨hsound.enqueue (.inr ⟨_, h.mem_waiters, rfl⟩), hnoticed, hstage⟩, .inl (by omega)⟩
  | cons micros ps =>
    let v := s.pause micros (.arrival id ps)
    have hdue' : s.clock + micros.toNat + durationOf ps =
        c.start + passed + durationOf source.nextPauses := by
      simp only [durationOf, List.map_cons, List.sum_cons] at hdue ⊢
      omega
    have hstage : c.Stage v (ps.length + 3 + source.stepsBehind) :=
      .waits h.pause (errands_pause rfl hnone) (.arrive hnext hdue')
    have hcontrol : v.control = .idle := (s.pause_control micros _).trans hidle
    refine ⟨v, _, congrArg settle (resting_eq hcontrol).symm, s.pause_clock _ _,
      ⟨hsound.pause (.inr ⟨_, h.mem_waiters, rfl⟩), hnoticed.pause _ _, hstage⟩, .inl ?_⟩
    simp only [List.length_cons] at hn
    omega

/-- The task that brings what comes next does so, or takes it nearer. -/
theorem Awaits.begin (h : c.Awaits id passed source w s) (hends : c.timeout.EndsAfter c.deadline)
    (hsound : s.Sound) (hnoticed : s.Noticed) (hidle : s.control = .idle)
    (hnone : s.errands id = [])
    (hbrings : Brings id source (c.start + passed + durationOf source.nextPauses) (s.clock, t) n)
    (toil : Nat) : c.Advances (s.begin t) s.clock (n + source.stepsBehind) toil := by
  generalize hdue : c.start + passed + durationOf source.nextPauses = due at hbrings
  cases hbrings with
  | fetch hfetch =>
    rcases begin_fetch h.waiters with ⟨hbegin, hhangs⟩ | ⟨hbegin, hnext⟩
    · dsimp only at hbegin
      rw [hbegin]
      exact ⟨s, 1, congrArg settle (resting_eq hidle).symm, rfl,
        ⟨hsound, hnoticed, .hangs h hnone hhangs⟩, .inl (by omega)⟩
    · dsimp only at hbegin
      rw [hbegin]
      exact h.expect hsound hnoticed hidle hnone hnext (hfetch.trans hdue.symm)
        (Nat.lt_succ_self _) toil
  | arrive hnext harrive =>
    exact h.expect hsound hnoticed hidle hnone hnext (harrive.trans hdue.symm)
      (Nat.lt_succ_self _) toil
  | @deliver m hnext hm =>
    cases m with
    | zero =>
      let u : Session := { s with waiters := [] }
      have hu : c.Between w u := by
        refine ⟨⟨hsound.gated, hsound.alarms, fun t ht => .inl ?_, nofun, hsound.named⟩, hnoticed,
          rfl, h.finished, h.keeps.congr rfl rfl⟩
        exact hsound.ready_timer_of_errands h.waiters hnone ht
      have hbegin : s.begin (.deliver id 0) = u.deliver ⟨id, c.reader source, c.call⟩ := by
        simp [Session.begin, takeWaiter?, h.waiters, u]
      obtain ⟨rank, hsettles, hlt⟩ := hu.deliver h.leads hends hnext hdue.symm
        (hsound.alarms _ h.deadline) id
      rw [hbegin]
      exact hsettles.advances (by omega) toil
    | succ m =>
      let v := s.enqueue (.deliver id m)
      have hstage : c.Stage v (m + 1 + source.stepsBehind) :=
        .waits (h.congr rfl rfl rfl rfl rfl rfl) (errands_enqueue rfl hnone)
          (hdue ▸ .deliver hnext (by omega))
      exact ⟨v, _, congrArg settle (resting_eq (s := v) hidle).symm, rfl,
        ⟨hsound.enqueue (.inr ⟨_, h.mem_waiters, rfl⟩), hnoticed, hstage⟩, .inl (by omega)⟩

/-! ## Settling -/

/-- The first of the ready tasks runs, and the rest of them is ready still. -/
theorem Consumes.begin {rest : List Task} (h : c.Consumes s rank)
    (hends : c.timeout.EndsAfter c.deadline) (hqueue : s.queue = t :: rest) :
    let u : Session := { s.resting with queue := rest }
    c.Advances (u.begin t) s.clock rank s.toil := by
  intro u
  have hsound : u.Sound :=
    ⟨h.sound.gated, h.sound.alarms,
      fun v hv => h.sound.ready v (hqueue ▸ List.mem_cons_of_mem t hv), h.sound.waiters,
      h.sound.named⟩
  have htoil : u.toil + t.toil = s.toil := by
    unfold toil
    rw [hqueue, List.map_cons, List.sum_cons]
    simp only [u, resting]
    omega
  rcases h.sound.ready t (hqueue ▸ List.mem_cons_self) with htimer | ⟨v, hv, hreader⟩
  · have hticks : s.Ticks u := by
      refine ⟨rfl, rfl, rfl, rfl, .refl _, fun _ _ => .rfl, fun id => ?_⟩
      have hnone : t.reader? = none := by
        obtain ⟨n, hn⟩ := Option.ne_none_iff_exists'.mp htimer
        exact Task.reader?_of_timer? hn
      simp [errands_of_queue hqueue, hnone, u]
    have hu : c.Consumes u rank := ⟨hsound, h.noticed, h.stage.ticks hticks⟩
    exact htoil ▸ hu.begin_timer rfl htimer
  · cases h.stage with
    | left hwaiters =>
      rw [hwaiters] at hv
      cases hv
    | hangs hawaits herrands =>
      rw [hawaits.waiters, List.mem_singleton] at hv
      subst hv
      simp [errands_of_queue hqueue, hreader] at herrands
    | waits hawaits herrands hbrings =>
      rw [hawaits.waiters, List.mem_singleton] at hv
      subst hv
      rw [errands_of_queue hqueue, if_pos (by simp [hreader])] at herrands
      obtain ⟨rfl, hnone⟩ := List.cons.inj herrands
      exact Awaits.begin (s := u) (hawaits.congr rfl rfl rfl rfl rfl rfl) hends hsound h.noticed rfl
        hnone hbrings s.toil

theorem Consumes.settle {s : Session} {rank : Nat} (h : c.Consumes s rank)
    (hends : c.timeout.EndsAfter c.deadline) :
    ∃ v rank', s.resting.settle = v ∧ v.Quiet ∧ v.clock = s.clock ∧ c.Consumes v rank' ∧
      (rank' < rank ∨ rank' = rank ∧ v.toil ≤ s.toil) := by
  cases hqueue : s.queue with
  | nil =>
    have hticks : s.Ticks s.resting := ⟨rfl, rfl, rfl, rfl, .refl _, fun _ _ => .rfl, fun _ => rfl⟩
    refine ⟨s.resting, rank, settle_resting_nil hqueue, ⟨rfl, hqueue⟩, rfl,
      ⟨?_, h.noticed, h.stage.ticks hticks⟩, .inr ⟨rfl, Nat.le_refl _⟩⟩
    exact ⟨h.sound.gated, h.sound.alarms, h.sound.ready, h.sound.waiters, h.sound.named⟩
  | cons t rest =>
    obtain ⟨u, rank', hsettle, hclock, hu, hnearer⟩ := h.begin hends hqueue
    -- An outcome lowers the rank, whatever it gives the player to do; a timer lowers only the toil.
    have hlex : Prod.Lex (· < ·) (· < ·) (rank', u.toil) (rank, s.toil) := by
      rcases hnearer with hlt | ⟨rfl, hlt⟩
      · exact .left _ _ hlt
      · exact .right _ hlt
    obtain ⟨v, rank'', hv, hquiet, hvclock, hconsumes, hless⟩ := hu.settle hends
    refine ⟨v, rank'', ?_, hquiet, hvclock.trans hclock, hconsumes, ?_⟩
    · rw [settle_resting_cons hqueue, hsettle, hv]
    · rcases hnearer with hlt | ⟨rfl, hlt⟩ <;> omega
termination_by (rank, s.toil)
decreasing_by exact hlex

/-! ## Alarms -/

/-- An alarm that a reader waits for is live when this is the reader. -/
theorem Awaits.isLive_iff (h : c.Awaits id passed source w s) {j : Nat}
    (hwaiter : a.event.waiter? = some j) : s.isLive a = true ↔ id = j := by
  unfold isLive
  cases hevent : a.event with
  | timer n => simp [hevent, Event.waiter?] at hwaiter
  | arrival | deadline =>
    obtain rfl := Option.some.inj (by simpa [hevent, Event.waiter?] using hwaiter)
    simp [h.waiters]

/-- The deadline is still to come when another alarm goes off. -/
theorem Awaits.ringing (h : c.Awaits id passed source w s) (hclock : s.clock ≤ a.due)
    (hnot : a.event ≠ .deadline id) : c.Awaits id passed source w (s.ringing a) where
  leads := h.leads
  keeps := h.keeps.congr rfl rfl
  waiters := h.waiters
  finished := h.finished
  clock := Int.le_trans h.clock hclock
  deadline := by
    refine (List.mem_erase_of_ne ?_).mpr
      (List.mem_filter.mpr ⟨h.deadline, (h.isLive_iff rfl).mpr rfl⟩)
    rintro rfl
    exact hnot rfl
  deadlines b hb := h.deadlines b (List.filter_sublist.subset (mem_of_ringing hb))
  arrivals b hb := h.arrivals b (List.filter_sublist.subset (mem_of_ringing hb))

theorem Stage.ringing (h : c.Stage s rank) (hqueue : s.queue = [])
    (ha : a ∈ s.alarms.filter s.isLive) (hclock : s.clock ≤ a.due) (hnot : a.event.waiter? = none) :
    c.Stage (s.ringing a) rank := by
  have hreader (id : Nat) : (Task.happen a.event).reader? ≠ some id := by
    intro heq
    cases hnot.symm.trans (Event.waiter?_of_reader? heq)
  have hdeadline (id : Nat) : a.event ≠ .deadline id := by
    intro heq
    simp [heq, Event.waiter?] at hnot
  cases h with
  | left hwaiters hfinished hkeeps htime =>
    exact .left hwaiters hfinished (hkeeps.congr rfl rfl) (Int.le_trans htime hclock)
  | hangs hawaits herrands hhangs =>
    have hperm := errands_of_alarm hawaits.waiters hqueue ha
    rw [if_neg (by simp [hreader]), List.nil_append, herrands] at hperm
    exact .hangs (hawaits.ringing hclock (hdeadline _)) hperm.eq_nil hhangs
  | waits hawaits herrands hbrings =>
    have hperm := errands_of_alarm hawaits.waiters hqueue ha
    rw [if_neg (by simp [hreader]), List.nil_append, herrands] at hperm
    exact .waits (hawaits.ringing hclock (hdeadline _)) (List.perm_singleton.mp hperm) hbrings

/-- When the deadline comes, nothing that is still to come ends the stream before it. -/
theorem Leads.overdue (h : c.Leads passed source w)
    (hlate : ∀ o ∈ source.outcomesFrom passed, isBefore c.deadline o.1 = false) :
    c.exit.time = c.deadline ∧ c.exit.cause = none ∧ c.leaves = Ingestor.close w := by
  have hexit := Exit.of_late hlate
  rw [← h.time, ← h.cause, ← h.leaves, hexit]
  exact ⟨rfl, rfl, rfl⟩

/-- At its deadline a reader gives up. -/
theorem Awaits.overdue (h : c.Awaits id passed source w s) (hsound : (s.ringing a).Sound)
    (hnoticed : s.Noticed) (hqueue : s.queue = []) (hdue : a.due = c.start + c.deadline)
    (hlate : ∀ o ∈ source.outcomesFrom passed, isBefore c.deadline o.1 = false) :
    c.SettlesTo ((s.ringing a).happen (.deadline id)) a.due 0 := by
  obtain ⟨htime, hcause, hleaves⟩ := h.leads.overdue hlate
  let u : Session := { s.ringing a with waiters := [] }
  have hu : c.Between w u := by
    refine ⟨⟨hsound.gated, hsound.alarms, fun t ht => ?_, nofun, hsound.named⟩, hnoticed, rfl,
      h.finished, h.keeps.congr rfl rfl⟩
    rw [show u.queue = [] from hqueue] at ht
    cases ht
  have hanswer : c.answer = .failed (.overdue c.timeout) := by simp [answer, Exit.result, hcause]
  have hhappen : (s.ringing a).happen (.deadline id) =
      u.abandon (c.reader source) (.overdue c.timeout) c.call := by
    have hwaiters : (s.ringing a).waiters = [⟨id, c.reader source, c.call⟩] := h.waiters
    simp [happen, takeWaiter?, hwaiters, u, reader]
  rw [hhappen]
  exact hu.abandon rfl hanswer hleaves (by change _ ≤ a.due; omega)

/-- When the deadline is the next of the alarms, what is awaited comes too late. -/
theorem Awaits.late (h : c.Awaits id passed source w s) (hqueue : s.queue = [])
    (ha : earliest (s.alarms.filter s.isLive) = some a) (hdue : a.due = c.start + c.deadline)
    (herrands : s.errands id = [x])
    (hbrings : Brings id source (c.start + passed + durationOf source.nextPauses) x n) :
    ∀ o ∈ source.outcomesFrom passed, isBefore c.deadline o.1 = false := by
  intro o ho
  obtain ⟨b, hb, ps, hevent, hbdue⟩ := hbrings.alarm hqueue herrands
  have hlive : s.isLive b = true := (h.isLive_iff (by rw [hevent]; rfl)).mpr rfl
  have hfirst := (earliest_eq_some ha).2 b (List.mem_filter.mpr ⟨hb, hlive⟩)
  have hafter := h.arrivals b hb ps hevent
  have hcomes := hbrings.le
  have hnext := Source.next_le_of_mem ho
  simp only [isBefore, Bool.or_eq_false_iff, decide_eq_false_iff_not]
  omega

/-- The alarm that goes off next takes the reading further. -/
theorem Consumes.ring (h : c.Consumes s rank) (hends : c.timeout.EndsAfter c.deadline)
    (hquiet : s.Quiet) (ha : earliest (s.alarms.filter s.isLive) = some a) :
    c.Advances ({ s with alarms := (s.alarms.filter s.isLive).erase a }.ring a) a.due rank
      s.toil := by
  obtain ⟨hmem, hleast⟩ := earliest_eq_some ha
  obtain ⟨hset, hlive⟩ := List.mem_filter.mp hmem
  have hclock := h.sound.alarms a hset
  have hsound := Sound.ringing h.sound ha hquiet.queue
  change c.Advances ((s.ringing a).happen a.event) (s.ringing a).clock rank (s.ringing a).toil
  cases hevent : a.event with
  | timer n =>
    have hu : c.Stage (s.ringing a) rank :=
      h.stage.ringing hquiet.queue hmem hclock (by simp [hevent, Event.waiter?])
    have hlive' : ∃ v, s.player.timer = some v ∧ v.serial = n := by
      unfold isLive at hlive
      rw [hevent] at hlive
      cases hv : s.player.timer with
      | none => simp [hv] at hlive
      | some v => exact ⟨v, rfl, by simpa [hv] using hlive⟩
    obtain ⟨v, hv, rfl⟩ := hlive'
    have hhappen : (s.ringing a).happen (.timer v.serial) = (s.ringing a).fire v.serial := by
      simp [happen, ringing, hv]
    rw [hhappen]
    exact Consumes.fire ⟨hsound, h.noticed, hu⟩ hv _ (Nat.le_refl _)
  | arrival id ps =>
    have hwaiter : a.event.waiter? = some id := by simp [hevent, Event.waiter?]
    have hreader : (Task.happen a.event).reader? = some id := by simp [hevent, Task.reader?]
    cases h.stage with
    | left hwaiters => simp [isLive, hevent, hwaiters] at hlive
    | @hangs id' _ _ _ hawaits herrands =>
      obtain rfl : id' = id := (hawaits.isLive_iff hwaiter).mp hlive
      have hperm := errands_of_alarm hawaits.waiters hquiet.queue hmem
      simp [hreader, herrands] at hperm
    | @waits id' _ _ _ _ _ hawaits herrands hbrings =>
      obtain rfl : id' = id := (hawaits.isLive_iff hwaiter).mp hlive
      have hperm := errands_of_alarm hawaits.waiters hquiet.queue hmem
      rw [if_pos (by simp [hreader]), herrands] at hperm
      obtain ⟨rfl, hnone⟩ := List.cons.inj (List.perm_singleton.mp hperm)
      have hbrings' := hbrings
      rw [Alarm.entry, hevent] at hbrings'
      exact (hawaits.ringing hclock (by simp [hevent])).begin hends hsound h.noticed hquiet.control
        hnone hbrings' _
  | deadline id =>
    have hwaiter : a.event.waiter? = some id := by simp [hevent, Event.waiter?]
    cases h.stage with
    | left hwaiters => simp [isLive, hevent, hwaiters] at hlive
    | @hangs id' _ _ _ hawaits herrands hhangs =>
      obtain rfl : id' = id := (hawaits.isLive_iff hwaiter).mp hlive
      have hover := hawaits.overdue hsound h.noticed hquiet.queue
        (hawaits.deadlines a hset hevent) (by simp [hhangs.outcomesFrom])
      exact hover.advances (Nat.lt_succ_self 0) _
    | @waits id' _ n _ _ _ hawaits herrands hbrings =>
      obtain rfl : id' = id := (hawaits.isLive_iff hwaiter).mp hlive
      have hdue := hawaits.deadlines a hset hevent
      have hover := hawaits.overdue hsound h.noticed hquiet.queue hdue
        (hawaits.late hquiet.queue ha hdue herrands hbrings)
      have hpos : 0 < n := by cases hbrings <;> omega
      exact hover.advances (by omega) _

/-- While time passes the reading goes on, until nothing more happens in that time. -/
theorem Consumes.ringWhile {s : Session} {rank : Nat} (h : c.Consumes s rank)
    (hends : c.timeout.EndsAfter c.deadline) (hquiet : s.Quiet) {limit : Int}
    (hclock : s.clock ≤ limit) :
    ∃ v rank', s.ringWhile (fun _ a => a.due ≤ limit) = v ∧ v.Quiet ∧ v.clock ≤ limit ∧
      c.Consumes v rank' ∧ ∀ b ∈ v.alarms, v.isLive b = true → limit < b.due := by
  cases ha : earliest (s.alarms.filter s.isLive) with
  | none =>
    refine ⟨s, rank, ringWhile_of_none _ ha, hquiet, hclock, h, fun b hb hlive => ?_⟩
    have hmem : b ∈ s.alarms.filter s.isLive := List.mem_filter.mpr ⟨hb, hlive⟩
    rw [earliest_eq_none ha] at hmem
    cases hmem
  | some a =>
    by_cases hdue : a.due ≤ limit
    · obtain ⟨s', rank', hsettle, hclock', hs', hnearer⟩ := h.ring hends hquiet ha
      obtain ⟨u, rank'', hu, hquiet', huclock, hconsumes, hless⟩ := hs'.settle hends
      have hlex : Prod.Lex (· < ·) (· < ·) (rank'', u.toil) (rank, s.toil) := by
        rcases hnearer with hlt | ⟨rfl, hlt⟩ <;> rcases hless with hlt' | ⟨rfl, hle⟩
        · exact .left _ _ (Nat.lt_trans hlt' hlt)
        · exact .left _ _ hlt
        · exact .left _ _ hlt'
        · exact .right _ (Nat.lt_of_le_of_lt hle hlt)
      have hulimit : u.clock ≤ limit := by rwa [huclock, hclock']
      obtain ⟨v, rest, hv, hend⟩ := hconsumes.ringWhile hends hquiet' hulimit
      refine ⟨v, rest, ?_, hend⟩
      rw [ringWhile_of_some ha (decide_eq_true hdue), hsettle, hu, hv]
    · refine ⟨s, rank, ringWhile_of_stop ha (decide_eq_false hdue), hquiet, hclock, h, ?_⟩
      intro b hb hlive
      have hfirst := (earliest_eq_some ha).2 b (List.mem_filter.mpr ⟨hb, hlive⟩)
      omega
termination_by (rank, s.toil)
decreasing_by exact hlex

/-- When nothing more happens until a time, the exit has been taken if it comes by then, and not
otherwise. -/
theorem Consumes.atTime (h : c.Consumes s rank) (hquiet : s.Quiet) {d : Nat}
    (hclock : s.clock ≤ c.start + d)
    (hlater : ∀ b ∈ s.alarms, s.isLive b = true → c.start + d < b.due) :
    if c.exit.time ≤ d then
      s.finished = c.answers.push (c.step, c.answer) ∧ c.Keeps c.leaves s ∧ s.waiters = []
    else s.finished = c.answers := by
  have hbefore {id passed : Nat} {source : Source} {w : Ingestor × Player}
      (hawaits : c.Awaits id passed source w s)
      (houtcomes : ∀ o ∈ source.outcomesFrom passed, d < o.1) : ¬c.exit.time ≤ d := by
    have hdue := hlater _ hawaits.deadline ((hawaits.isLive_iff rfl).mpr rfl)
    have hlt : d < c.deadline := by
      dsimp only at hdue
      omega
    have htime := Exit.lt_time houtcomes hlt
    rw [hawaits.leads.time] at htime
    omega
  cases h.stage with
  | left hwaiters hfinished hkeeps htime =>
    rw [if_pos (by omega)]
    exact ⟨hfinished, hkeeps, hwaiters⟩
  | hangs hawaits _ hhangs =>
    rw [if_neg (hbefore hawaits (by simp [hhangs.outcomesFrom]))]
    exact hawaits.finished
  | waits hawaits herrands hbrings =>
    have houtcomes := hbefore hawaits fun o ho => by
      obtain ⟨b, hb, ps, hevent, hdue⟩ := hbrings.alarm hquiet.queue herrands
      have hcomes := hlater b hb ((hawaits.isLive_iff (by rw [hevent]; rfl)).mpr rfl)
      have hle := hbrings.le
      have hnext := Source.next_le_of_mem ho
      omega
    rw [if_neg houtcomes]
    exact hawaits.finished

end

end Consuming

namespace Session

variable {s : Session} {source : Source} {timeout : Seconds} {deadline : Nat}

/-- Nothing is under way in the session but the player's timer. -/
structure Rests (s : Session) : Prop extends Quiet s where
  sound : s.Sound
  noticed : s.Noticed
  waiters : s.waiters = []

theorem new_rests {p : Player} (h : p.timer = none) : (Session.new p false).Rests where
  control := rfl
  queue := rfl
  sound := ⟨rfl, nofun, nofun, nofun, nofun⟩
  noticed t ht := by cases h.symm.trans ht
  waiters := rfl

theorem setIngestor_self {i : Nat} {k : Intake} (h : s.intakes[i]? = some k) :
    s.setIngestor i k.ingestor = s := by
  have hintakes :
      (s.intakes.modify i fun k' => { k' with ingestor := k.ingestor }) = s.intakes := by
    apply Array.ext_getElem?
    intro j
    rw [Array.getElem?_modify]
    split
    next heq =>
      subst heq
      simp [h]
    · rfl
  unfold setIngestor
  rw [hintakes]

theorem took_self {i : Nat} {k : Intake} (hk : s.intakes[i]? = some k) (hnoticed : s.Noticed) :
    s.took i k.ingestor (s.player, none) = s := by
  unfold took
  rw [setIngestor_self hk]
  exact notice_of_lt hnoticed

/-- When the stream is over a record changes nothing. -/
theorem call_handle_over (hquiet : s.Quiet) (hgated : s.gated = false) (hnoticed : s.Noticed)
    {k : Intake} (hk : s.intake? = some k) (hdone : k.ingestor.finished = true) (step : Nat)
    (r : StreamRecord) :
    s.call step (.handle r) = { s with finished := s.finished.push (step, .nothing) } := by
  let u : Session := { s with control := .perform (.handle r) ⟨some step, []⟩ }
  have hk' : u.intakes[s.intakes.size - 1]? = some k := Array.back?_eq_getElem?.symm.trans hk
  have hignored : k.ingestor.handle u.player r = k.ingestor.leave (u.player, none) := if_pos hdone
  have hhandle := handle_of_some (s := u) hgated hk' r ⟨some step, []⟩
  rw [hignored] at hhandle
  dsimp only [Ingestor.leave] at hhandle
  rw [took_self hk' hnoticed] at hhandle
  have hturn : u.settle = { s with control := .answer .nothing ⟨some step, []⟩ }.settle :=
    settle_of_turn (congrArg some hhandle)
  have hidle : { s with finished := s.finished.push (step, .nothing) }.control = .idle :=
    hquiet.control
  have hqueue : { s with finished := s.finished.push (step, .nothing) }.queue = [] := hquiet.queue
  change u.settle = _
  rw [hturn, settle_answer_some, settle_resting_nil hqueue, resting_eq hidle]

/-- Every way out of the reading of a source is clean, and the first that comes is taken. At the
time of the exit, and not before, the call has its answer, in which an error record shows its text
if it has one; the ingestor has handled the records until then and is done, the player has their
story and knows that the stream is over, nobody waits, and records that are handled later change
nothing. -/
theorem tick_consume_exit (hs : s.Rests) (htimeout : timeout.EndsAfter deadline)
    (huntied : ∀ o ∈ source.outcomesFrom 0, 0 < o.1 → o.1 ≠ deadline) (offers : Bool)
    (step d : Nat) :
    let e := source.exit deadline
    let w := e.leaves (.new, s.player)
    let u := ((s.addIntake timeout offers).call step (.consume source)).tick d
    if e.time ≤ d then
      u.finished = s.finished.push (step, e.result timeout w.1.choices) ∧
        (∀ r, e.cause = some (.ok r) → r.kind = .error → ∃ f,
          e.result timeout w.1.choices = .failed f ∧ f.isOfStream = true ∧
            f.message = if r.text = [] then "Story stream failed".toList else r.text) ∧
        u.intake? = some ⟨w.1, timeout, offers⟩ ∧ w.1.finished = true ∧
        w.2.SameStory u.player ∧ u.player.streaming = false ∧ u.waiters = [] ∧
        ∀ n r, u.call n (.handle r) = { u with finished := u.finished.push (n, .nothing) }
    else u.finished = s.finished := by
  intro e w u
  let s₀ := s.addIntake timeout offers
  let c : Consuming :=
    ⟨step, s.intakes.size, s.clock, timeout, deadline, offers, s.finished, e, w⟩
  have hbetween : c.Between (.new, s.player) s₀ := by
    refine ⟨⟨hs.sound.gated, hs.sound.alarms, hs.sound.ready, hs.sound.waiters, hs.sound.named⟩,
      hs.noticed, hs.waiters, rfl, ⟨?_, ?_, .refl _⟩⟩
    · simp [s₀, addIntake, c]
    · simp [s₀, addIntake, c]
  have hleads : c.Leads 0 source (.new, s.player) := ⟨rfl, rfl, rfl, rfl, huntied⟩
  have hread := hbetween.read hleads htimeout (by simp [c, s₀, addIntake]) rfl
  have hcall : s₀.call step (.consume source) =
      { s₀ with control := .read (c.reader source) c.call }.settle := by
    apply settle_of_turn
    simp [turn?, perform, intake?, s₀, addIntake, htimeout.countable, c, Consuming.reader,
      Consuming.call]
  obtain ⟨v, hv, hclock, hconsumes⟩ := hread
  obtain ⟨v', rank, hv', hquiet, hclock', hconsumes', -⟩ := hconsumes.settle htimeout
  have hstart : v'.clock = c.start := hclock'.trans hclock
  have hlimit : v'.clock ≤ c.start + d := by omega
  obtain ⟨z, rank', hz, hzquiet, hzclock, hzconsumes, hlater⟩ :=
    hconsumes'.ringWhile htimeout hquiet hlimit
  have hu : u = { z with clock := c.start + d } := by
    change (s₀.call step (.consume source)).tick d = _
    rw [hcall, hv, hv']
    unfold tick
    dsimp only
    rw [hstart, hz, Int.max_eq_right hzclock]
  have hat := hzconsumes.atTime hzquiet hzclock hlater
  rw [hu]
  change if e.time ≤ d then z.finished = _ ∧ c.Keeps w z ∧ z.waiters = [] else z.finished = _ at hat
  split at hat
  next hle =>
    obtain ⟨hfinished, hkeeps, hwaiters⟩ := hat
    have hintake : z.intake? = some ⟨w.1, timeout, offers⟩ := by
      have hget := hkeeps.intake
      rw [← Nat.add_sub_cancel (n := c.intake) (m := 1), ← hkeeps.size] at hget
      exact Array.back?_eq_getElem?.trans hget
    rw [if_pos hle]
    have herror (r : StreamRecord) (hcause : e.cause = some (.ok r)) (hkind : r.kind = .error) :
        e.result timeout w.1.choices = .failed (.reported r.text) := by
      simp [Exit.result, hcause, hkind]
    have hover := call_handle_over (s := { z with clock := c.start + d })
      ⟨hzquiet.control, hzquiet.queue⟩ hzconsumes.sound.gated hzconsumes.noticed hintake rfl
    exact ⟨hfinished, fun r hcause hkind => ⟨_, herror r hcause hkind, rfl, rfl⟩, hintake, rfl,
      hkeeps.story, hkeeps.story.streaming, hwaiters, hover⟩
  next hlt =>
    rw [if_neg hlt]
    exact hat

/-- An error record comes before the end of the source and the deadline. -/
theorem tick_consume_exit_error :
    let s := Session.new (.new .default) false
    let source : Source :=
      ⟨[⟨[1000], ⟨.chunk, ['A', '\n']⟩⟩, ⟨[0, 2000], ⟨.error, []⟩⟩], [5000], .stop⟩
    let u := ((s.addIntake (.whole 30) true).call 7 (.consume source)).tick 3000
    s.Rests ∧ (Seconds.whole 30).EndsAfter 30000000 ∧
      (∀ o ∈ source.outcomesFrom 0, 0 < o.1 → o.1 ≠ 30000000) ∧
      u.finished = #[(7, .failed (.reported []))] ∧ u.player.streaming = false := by
  have hrests : (Session.new (.new .default) false).Rests := new_rests rfl
  have hends : (Seconds.whole 30).EndsAfter 30000000 :=
    Seconds.whole_endsAfter (n := 30) (by decide) (by decide +kernel)
  have huntied : ∀ o ∈ Source.outcomesFrom ⟨[⟨[1000], ⟨.chunk, ['A', '\n']⟩⟩,
      ⟨[0, 2000], ⟨.error, []⟩⟩], [5000], .stop⟩ 0, 0 < o.1 → o.1 ≠ 30000000 := by
    intro o ho
    have htime : o.1 ∈ [1000, 3000, 8000] := List.mem_map_of_mem (f := Prod.fst) ho
    simp only [List.mem_cons, List.not_mem_nil, or_false] at htime
    omega
  have hexit := tick_consume_exit hrests hends huntied true 7 3000
  dsimp only at hexit ⊢
  rw [if_pos (by decide)] at hexit
  obtain ⟨hfinished, -, -, -, -, hstreaming, -⟩ := hexit
  exact ⟨hrests, hends, huntied, hfinished, hstreaming⟩

end Session

end StoryPlayer
