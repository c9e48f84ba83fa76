import StoryPlayer.Proofs.Session.Tasks

/-!
# The deadline of a call that reads

Once the deadline of a call is over, the call has its answer or waits for a render. The deadline
ends the waiting for what the source has next, and nothing else: while a render is held no alarm
is there for the call, and it fails only when the render is done, however much later that is.
-/

namespace StoryPlayer

namespace Session

/-- What happens around a call that reads. -/
inductive Meantime
  | pass (micros : Nat)
  /-- A render is done. -/
  | release (step i : Nat)
  /-- From now on renders are held, or done at once. -/
  | gate (step : Nat) (on : Bool)

/-- The step of a call that is made meanwhile. -/
def Meantime.step? : Meantime → Option Nat
  | pass _ => none
  | release step _ | gate step _ => some step

/-- The microseconds that pass. -/
def Meantime.micros : Meantime → Nat
  | pass micros => micros
  | release .. | gate .. => 0

def meanwhile (s : Session) : Meantime → Session
  | .pass micros => s.tick micros
  | .release step i => s.call step (.release i)
  | .gate step on => s.call step (.gate on)

/-- Nothing is under way in the session but timers and renders, and no render is for this step. -/
structure Spare (s : Session) (step : Nat) : Prop extends Quiet s where
  clocked : s.Clocked
  waiters : s.waiters = []
  held : ∀ h ∈ s.held, h.call.step ≠ some step ∧ h.call.remainder = []

theorem new_spare {p : Player} (h : p.Numbered) (gated : Bool) (step : Nat) :
    (Session.new p gated).Spare step where
  control := rfl
  queue := rfl
  clocked := ⟨nofun, nofun, nofun, h⟩
  waiters := rfl
  held := nofun

end Session

namespace Audience

open Session

section

variable {c : Audience} {s u : Session} {id passed rank : Nat} {left : List Arrival} {a : Alarm}

/-! ## Alarms -/

/-- The deadline is still to come when another alarm goes off. -/
theorem Awaits.ringing (h : c.Awaits id passed left s) (hnot : a.event ≠ .deadline id) :
    c.Awaits id passed left (s.ringing a) where
  waiters := h.waiters
  own := h.own
  answers := h.answers
  unfinished := h.unfinished
  heard := h.heard
  deadline := by
    refine (List.mem_erase_of_ne ?_).mpr (List.mem_filter.mpr ⟨h.deadline, h.isLive⟩)
    rintro rfl
    exact hnot rfl
  deadlines b hb := h.deadlines b (List.mem_filter.mp (mem_of_ringing hb)).1

theorem Listens.ringing (h : c.Listens s rank) (hqueue : s.queue = [])
    (ha : earliest (s.alarms.filter s.isLive) = some a) (hnot : a.event.waiter? = none) :
    c.Listens (s.ringing a) rank := by
  have hmem := (earliest_eq_some ha).1
  refine ⟨h.clocked.ringing ha, h.ready, h.others, h.control, h.stage.aside ?_⟩
  refine ⟨h.clocked.le_of_earliest ha, rfl, rfl, rfl, .refl _, ?_, ?_⟩
  · intro w hw b hevent
    refine ⟨fun hb => (List.mem_filter.mp (mem_of_ringing hb)).1, fun hb => ?_⟩
    have hlive : s.isLive b = true := (isLive_reader (by rw [hevent]; rfl)).mpr ⟨w, hw, rfl⟩
    refine (List.mem_erase_of_ne ?_).mpr (List.mem_filter.mpr ⟨hb, hlive⟩)
    rintro rfl
    simp [hevent, Event.waiter?] at hnot
  · intro w hw
    obtain ⟨_, _, hawaits, -⟩ := h.stage.awaits hw
    have hperm := errands_of_alarm hawaits.waiters hqueue hmem
    rwa [if_neg, List.nil_append] at hperm
    intro hreader
    cases hnot.symm.trans (Event.waiter?_of_reader? (by simpa using hreader))

/-- At the deadline the call gives up waiting. -/
theorem Listens.lapse (h : c.Listens s rank) (hawaits : c.Awaits id passed left s)
    (hqueue : s.queue = []) (ha : earliest (s.alarms.filter s.isLive) = some a)
    (hevent : a.event = .deadline id) (hrank : 1 < rank) :
    c.Goes (s.ringing a) rank ((s.ringing a).happen (.deadline id)) := by
  have hheard := h.heard hawaits (by simp [hqueue])
  let u : Session := { s.ringing a with waiters := [] }
  have hu : c.Silent u := by
    refine ⟨?_, hheard.ready, hheard.others, rfl, hheard.answers⟩
    exact (h.clocked.ringing ha).mono rfl (List.Subset.refl _) rfl (.refl _) (List.nil_subset _)
  have hhappen : (s.ringing a).happen (.deadline id) =
      u.abandon (c.reader left) (.overdue c.timeout) c.call := by
    have hwaiters : (s.ringing a).waiters = [⟨id, c.reader left, c.call⟩] := hawaits.waiters
    simp [happen, takeWaiter?, hwaiters, u, Audience.reader]
  have hopen : c.finished? u = some false := hawaits.unfinished
  have hdue : a.due = c.start + c.deadline :=
    hawaits.deadlines a (List.mem_filter.mp (earliest_eq_some ha).1).1 hevent
  obtain ⟨hclock, hreleased, hlistens⟩ :=
    hu.abandon hopen (gives_overdue (Int.le_of_eq hdue.symm)) left
  rw [hhappen]
  refine ⟨hclock, 1, hlistens, .inl ?_⟩
  rw [hreleased]
  exact Nat.add_lt_add_right hrank _

/-- The alarm that goes off next takes the session nearer to its rest. -/
theorem Listens.ring (h : c.Listens s rank) (hquiet : s.Quiet)
    (ha : earliest (s.alarms.filter s.isLive) = some a) :
    c.Goes (s.ringing a) rank ((s.ringing a).happen a.event) := by
  obtain ⟨hmem, hlive⟩ := List.mem_filter.mp (earliest_eq_some ha).1
  cases hevent : a.event with
  | timer n =>
    have hu := h.ringing hquiet.queue ha (by simp [hevent, Event.waiter?])
    obtain ⟨v, hv, rfl⟩ := (isLive_timer hevent).mp hlive
    have hhappen : (s.ringing a).happen (.timer v.serial) = (s.ringing a).fire v.serial := by
      simp [happen, Session.ringing, hv]
    obtain ⟨hclock, hreleased, htoil, hfired⟩ := hu.fire hquiet.control hv v.serial
    rw [hhappen]
    exact ⟨hclock, rank, hfired, .inr ⟨by rw [hreleased], .inl htoil⟩⟩
  | arrival id ps =>
    obtain ⟨w, hw, rfl⟩ := (isLive_reader (by rw [hevent]; rfl)).mp hlive
    obtain ⟨passed, left, hawaits, hstage⟩ := h.stage.awaits hw
    have hreader : (Task.happen a.event).reader? = some w.id := by rw [hevent]; rfl
    have hperm := errands_of_alarm hawaits.waiters hquiet.queue (List.mem_filter.mpr ⟨hmem, hlive⟩)
    rw [if_pos (by simp [hreader])] at hperm
    -- There is only one task for the reader, and the alarm stands for it.
    rcases hstage with ⟨herrands, -⟩ | ⟨x, n, herrands, hbrings, rfl⟩
    · rw [herrands] at hperm
      cases hperm.eq_nil
    · rw [herrands] at hperm
      obtain ⟨rfl, hnone⟩ := List.cons.inj (List.perm_singleton.mp hperm)
      have hawaits' : c.Awaits w.id passed left (s.ringing a) := hawaits.ringing (by simp [hevent])
      have hu : c.Listens (s.ringing a) 2 :=
        ⟨h.clocked.ringing ha, h.ready, h.others, h.control, .hangs hawaits' hnone⟩
      exact hevent ▸ hu.begin_errand (t := .happen a.event) hawaits' hnone hbrings
  | deadline id =>
    obtain ⟨w, hw, rfl⟩ := (isLive_reader (by rw [hevent]; rfl)).mp hlive
    obtain ⟨passed, left, hawaits, hstage⟩ := h.stage.awaits hw
    refine h.lapse hawaits hquiet.queue ha hevent ?_
    rcases hstage with ⟨-, rfl⟩ | ⟨x, n, -, -, rfl⟩
    · exact Nat.one_lt_two
    · exact Nat.lt_add_left n (Source.one_lt_turnsBehind _)

/-- While time passes the call goes on, until nothing more happens in that time. -/
theorem Listens.ringWhile {s : Session} {rank : Nat} (h : c.Listens s rank)
    (hends : c.timeout.EndsAfter c.deadline) (hquiet : s.Quiet) {limit : Int}
    (hclock : s.clock ≤ limit) :
    ∃ v rank', s.ringWhile (fun _ a => a.due ≤ limit) = v ∧ v.Quiet ∧ v.clock ≤ limit ∧
      c.Listens v rank' ∧ ∀ b ∈ v.alarms, v.isLive b = true → limit < b.due := by
  cases ha : earliest (s.alarms.filter s.isLive) with
  | none =>
    refine ⟨s, rank, ringWhile_of_none _ ha, hquiet, hclock, h, fun b hb hlive => ?_⟩
    have hmem : b ∈ s.alarms.filter s.isLive := List.mem_filter.mpr ⟨hb, hlive⟩
    rw [earliest_eq_none ha] at hmem
    cases hmem
  | some a =>
    by_cases hdue : a.due ≤ limit
    · obtain ⟨hclock', rank', hu, hlower⟩ := h.ring hquiet ha
      obtain ⟨hquiet', hclock'', rank'', hsettled, hless⟩ := hu.settle hends
      have hlower' : Lower ((s.ringing a).happen a.event).settle rank'' s rank := by
        rcases hless with ⟨heq, rfl⟩ | hless
        · rwa [heq]
        · exact hless.trans hlower
      have hlex := hlower'.lex
      have hlimit : ((s.ringing a).happen a.event).settle.clock ≤ limit := by
        rw [hclock'', hclock']
        exact hdue
      obtain ⟨v, rest, hv, hend⟩ := hsettled.ringWhile hends hquiet' hlimit
      refine ⟨v, rest, ?_, hend⟩
      rw [ringWhile_of_some ha (decide_eq_true hdue)]
      exact hv
    · refine ⟨s, rank, ringWhile_of_stop ha (decide_eq_false hdue), hquiet, hclock, h, ?_⟩
      intro b hb hlive
      have hfirst := (earliest_eq_some ha).2 b (List.mem_filter.mpr ⟨hb, hlive⟩)
      omega
termination_by (rank + s.released, s.toil, s.control.turns)
decreasing_by exact hlex

/-- The session has nothing to do at a time, and the call listens or has its answer. -/
structure Settled (c : Audience) (s : Session) (now : Int) : Prop where
  quiet : s.Quiet
  clock : s.clock = now
  listens : ∃ rank, c.Listens s rank

theorem Listens.tick (h : c.Listens s rank) (hends : c.timeout.EndsAfter c.deadline)
    (hquiet : s.Quiet) (d : Nat) :
    c.Settled (s.tick d) (s.clock + d) ∧
      ∀ b ∈ (s.tick d).alarms, (s.tick d).isLive b = true → (s.tick d).clock < b.due := by
  obtain ⟨z, rank', hz, hzquiet, hzclock, hzlistens, hlater⟩ :=
    h.ringWhile hends hquiet (Int.le_add_of_nonneg_right (Int.natCast_nonneg d))
  have htick : s.tick d = { z with clock := s.clock + d } := by
    unfold Session.tick
    dsimp only
    rw [hz, Int.max_eq_right hzclock]
  rw [htick]
  refine ⟨⟨⟨hzquiet.control, hzquiet.queue⟩, rfl, rank',
    ⟨⟨?_, hzlistens.clocked.timers, hzlistens.clocked.names, hzlistens.clocked.numbered⟩,
      hzlistens.ready, hzlistens.others, hzlistens.control, hzlistens.stage.aside ?_⟩⟩, hlater⟩
  · exact fun b hb hlive => Int.le_of_lt (hlater b hb hlive)
  · refine ⟨hzclock, rfl, rfl, rfl, .refl _, fun _ _ _ _ => .rfl, fun w _ => .of_eq ?_⟩
    unfold Session.errands pending
    simp only [hzquiet.queue, List.map_nil]

/-! ## Meanwhile -/

theorem asks_release {i : Nat} {held : Held} (hidle : s.control = .idle)
    (hheld : s.held[i]? = some held) :
    ({ s with held := s.held.eraseIdx i }.enqueue (.resume held)).asks.Perm s.asks := by
  let u := { s with held := s.held.eraseIdx i }.enqueue (.resume held)
  obtain ⟨hi, rfl⟩ := List.getElem?_eq_some_iff.mp hheld
  have hperm := (List.getElem_cons_eraseIdx_perm hi).map Held.call
  rw [asks_of_idle hidle, asks_of_idle (s := u) hidle]
  refine List.Perm.map _ ?_
  have hqueue : u.queue.filterMap Task.call? =
      s.queue.filterMap Task.call? ++ [s.held[i].call] := by
    simp [u, enqueue, Task.call?]
  unfold suspended
  rw [hqueue, ← List.append_assoc]
  exact (List.perm_append_singleton _ _).trans (hperm.append_right _)

/-- A render that is released makes its call ready. -/
theorem Listens.release {i : Nat} {held : Held} (h : c.Listens s rank) (hidle : s.control = .idle)
    (hheld : s.held[i]? = some held) :
    c.Listens ({ s with held := s.held.eraseIdx i }.enqueue (.resume held)) rank := by
  let u := { s with held := s.held.eraseIdx i }.enqueue (.resume held)
  have hasks : u.asks.Perm s.asks := asks_release hidle hheld
  refine ⟨h.clocked.congr rfl rfl rfl rfl rfl, ?_,
    fun y hy => h.others y (hasks.mem_iff.mp hy), h.control, h.stage.aside ?_⟩
  · refine List.forall_mem_append.mpr ⟨h.ready, List.forall_mem_singleton.mpr ?_⟩
    exact .inr (.inl (Option.some_ne_none held.call))
  · exact ⟨Int.le_refl _, rfl, rfl, rfl, hasks.filter _, fun _ _ _ _ => .rfl,
      fun w _ => .of_eq (errands_enqueue_of_ne (by rintro ⟨⟩))⟩

/-- A call that only tells the session something is answered at once. -/
theorem Listens.give {step : Nat} (h : c.Listens s rank) (hends : c.timeout.EndsAfter c.deadline)
    (hidle : s.control = .idle) (hstep : step ≠ c.step) (r : Result) :
    c.Settled (s.give s.player r ⟨some step, []⟩).settle s.clock := by
  have hands := s.give_hands s.player r ⟨some step, []⟩
  have hu := h.hands hidle (.refl _) hands (fun heq => hstep (Option.some.inj heq)) rfl
  obtain ⟨hquiet, hclock, rank', hsettled, -⟩ := hu.settle hends
  exact ⟨hquiet, hclock.trans hands.clock, rank', hsettled⟩

theorem Settled.meanwhile {now : Int} (h : c.Settled s now) (hends : c.timeout.EndsAfter c.deadline)
    (m : Meantime) (hm : m.step? ≠ some c.step) : c.Settled (s.meanwhile m) (now + m.micros) := by
  obtain ⟨hquiet, rfl, rank, hlistens⟩ := h
  have hidle := hquiet.control
  cases m with
  | pass micros => exact (hlistens.tick hends hquiet micros).1
  | gate step on =>
    have hstep : step ≠ c.step := fun heq => hm (congrArg some heq)
    let u : Session := { s with gated := on }
    have hu : c.Listens u rank :=
      ⟨hlistens.clocked.congr rfl rfl rfl rfl rfl, hlistens.ready, hlistens.others,
        hlistens.control, hlistens.stage.aside
          ⟨Int.le_refl _, rfl, rfl, rfl, .refl _, fun _ _ _ _ => .rfl, fun _ _ => .refl _⟩⟩
    have hcall : s.meanwhile (.gate step on) =
        (u.give u.player .nothing ⟨some step, []⟩).settle := settle_of_turn rfl
    rw [hcall]
    exact (Int.add_zero s.clock).symm ▸ hu.give hends hidle hstep .nothing
  | release step i =>
    have hstep : step ≠ c.step := fun heq => hm (congrArg some heq)
    cases hheld : s.held[i]? with
    | none =>
      have hcall : s.meanwhile (.release step i) =
          (s.give s.player (.truth false) ⟨some step, []⟩).settle := by
        apply settle_of_turn
        simp only [turn?, perform, hheld]
        rfl
      rw [hcall]
      exact (Int.add_zero s.clock).symm ▸ hlistens.give hends hidle hstep (.truth false)
    | some held =>
      let u := { s with held := s.held.eraseIdx i }.enqueue (.resume held)
      have hcall : s.meanwhile (.release step i) =
          (u.give u.player (.truth true) ⟨some step, []⟩).settle := by
        apply settle_of_turn
        simp only [turn?, perform, hheld]
        rfl
      have hu : c.Listens u rank := hlistens.release hidle hheld
      rw [hcall]
      exact (Int.add_zero s.clock).symm ▸ hu.give hends hidle hstep (.truth true)

theorem Settled.meantime {now : Int} (h : c.Settled s now) (hends : c.timeout.EndsAfter c.deadline)
    {ms : List Meantime} (hms : ∀ m ∈ ms, m.step? ≠ some c.step) :
    c.Settled (ms.foldl Session.meanwhile s) (now + ((ms.map Meantime.micros).sum : Nat)) := by
  induction ms generalizing s now with
  | nil => simpa using h
  | cons m ms ih =>
    obtain ⟨hm, hms⟩ := List.forall_mem_cons.mp hms
    have hrest := ih (h.meanwhile hends m hm) hms
    rw [Int.add_assoc, ← Int.natCast_add] at hrest
    exact hrest

/-- When no alarm is due, the call has its answer, or its deadline is still to come, or the call is
held. -/
theorem Settled.overdue {now : Int} (h : c.Settled s now)
    (hlater : ∀ b ∈ s.alarms, s.isLive b = true → s.clock < b.due) :
    s.answersTo c.step = c.answers ∧
        (now < c.start + c.deadline ∨ ∃ held ∈ s.held, held.call.step = some c.step) ∨
      ∃ r, s.answersTo c.step = c.answers ++ [r] ∧ c.Gives now r := by
  obtain ⟨hquiet, rfl, rank, hlistens⟩ := h
  -- A reader that still waits has an alarm for its deadline, which is not due.
  have hwaits {id passed : Nat} {left : List Arrival} (hawaits : c.Awaits id passed left s) :
      s.clock < c.start + c.deadline :=
    hlater _ hawaits.deadline hawaits.isLive
  cases hlistens.stage with
  | waits hawaits | hangs hawaits => exact .inl ⟨hawaits.answers, .inl (hwaits hawaits)⟩
  | left _ _ hanswers hgives => exact .inr ⟨_, hanswers, hgives⟩
  | @runs r rest _ hown hanswers =>
    have hmem : (r, ⟨some c.step, rest⟩) ∈ c.own s := hown ▸ List.mem_singleton_self _
    have hasks := (List.mem_filter.mp hmem).1
    rw [asks_of_idle hquiet.control, suspended, hquiet.queue] at hasks
    obtain ⟨b, hb, heq⟩ := List.mem_map.mp hasks
    obtain ⟨held, hheld, rfl⟩ := List.mem_map.mp (by simpa using hb)
    exact .inl ⟨hanswers, .inr ⟨held, hheld, congrArg (·.2.step) heq⟩⟩

end

end Audience

namespace Session

variable {s : Session} {timeout : Seconds} {deadline step : Nat}

/-- The call that is about to read a source here. -/
def audience (s : Session) (step : Nat) (timeout : Seconds) (deadline : Nat) (source : Source) :
    Audience :=
  ⟨step, s.intakes.size, s.clock, timeout, deadline, source, s.answersTo step⟩

theorem Spare.silent (hs : s.Spare step) (offers : Bool) (source : Source) :
    (s.audience step timeout deadline source).Silent (s.addIntake timeout offers) := by
  have hqueue : (s.addIntake timeout offers).queue = [] := hs.queue
  refine ⟨hs.clocked.congr rfl rfl rfl rfl rfl, fun t ht => ?_, fun b hb => ?_, hs.waiters, rfl⟩
  · rw [hqueue] at ht
    cases ht
  · rw [suspended, hqueue] at hb
    obtain ⟨held, hheld, rfl⟩ := List.mem_map.mp (by simpa using hb)
    exact hs.held held hheld

/-- When the call has been made the session settles. -/
theorem Spare.settled (hs : s.Spare step) (htimeout : timeout.EndsAfter deadline) (offers : Bool)
    (source : Source) :
    (s.audience step timeout deadline source).Settled
      ((s.addIntake timeout offers).call step (.consume source)) s.clock := by
  let c := s.audience step timeout deadline source
  let u := s.addIntake timeout offers
  have hopen : c.finished? u = some false := by
    simp [Audience.finished?, c, u, audience, addIntake, Ingestor.new]
  have hheard : c.Heard source.arrivals u.clock :=
    ⟨0, by simp [c, u, audience, addIntake], List.Subset.refl _⟩
  have hread := (hs.silent offers source).runs (.refl _)
    (u.read_hands (c.reader source.arrivals) c.call) (.reads hopen hheard)
  have hcall : u.call step (.consume source) =
      { u with control := .read (c.reader source.arrivals) c.call }.settle := by
    apply settle_of_turn
    simp [turn?, perform, intake?, c, u, audience, addIntake, htimeout.countable, Audience.reader,
      Audience.call, Audience.rest]
  obtain ⟨hquiet, hclock, rank, hlistens, -⟩ := hread.settle htimeout
  exact hcall ▸ ⟨hquiet, hclock, rank, hlistens⟩

/-- A call that reads a source under a deadline, whatever time renders take. At any time it has its
answer, that the deadline is over, once it is, or what came by the deadline and ended the stream; or
it has none yet, and then the deadline is still to come or a render is under way for the call. -/
theorem tick_consume_overdue (hs : s.Spare step) (htimeout : timeout.EndsAfter deadline)
    (offers : Bool) (source : Source) (ms : List Meantime) (hms : ∀ m ∈ ms, m.step? ≠ some step)
    (d : Nat) :
    let v := (s.addIntake timeout offers).call step (.consume source)
    let u := (ms.foldl meanwhile v).tick d
    let elapsed := (ms.map Meantime.micros).sum + d
    u.clock = s.clock + elapsed ∧
      (u.answersTo step = s.answersTo step ∧
          (elapsed < deadline ∨ ∃ held ∈ u.held, held.call.step = some step) ∨
        ∃ r, u.answersTo step = s.answersTo step ++ [r] ∧
          source.Gives timeout deadline elapsed r) := by
  intro v u elapsed
  obtain ⟨hquiet, hclock, rank, hlistens⟩ :=
    (hs.settled htimeout offers source).meantime htimeout hms
  obtain ⟨hu, hlater⟩ := hlistens.tick htimeout hquiet d
  have helapsed : s.clock + ((ms.map Meantime.micros).sum : Nat) + d = s.clock + elapsed := by
    rw [Int.add_assoc, ← Int.natCast_add]
  rw [hclock, helapsed] at hu
  refine ⟨hu.clock, ?_⟩
  rcases hu.overdue hlater with ⟨hanswers, hwaits⟩ | ⟨r, hanswers, e, he, hgives⟩
  · refine .inl ⟨hanswers, hwaits.imp_left fun hlt => ?_⟩
    exact Int.ofNat_lt.mp (Int.lt_of_add_lt_add_left hlt)
  · refine .inr ⟨r, hanswers, hgives.mono ?_⟩
    exact Int.ofNat_le.mp (Int.le_of_add_le_add_left he)

/-- A source that brings a story to start with, and then nothing. -/
def hanging : Source :=
  ⟨[⟨[], ⟨.setupReady, "LOC: a\n".toList⟩⟩], [], .hang⟩

/-- A session whose renders are held is about to read that source. -/
def asking : Session :=
  { (new (.new .default) true).addIntake (.whole 1) false with
    control := .perform (.consume hanging) ⟨some 0, []⟩ }

/-- Two seconds later the render of the first command is about to be released. -/
def releasing : Session :=
  { asking.turns 20 with
    clock := 2000000
    control := .perform (.release 0) ⟨some 1, []⟩ }

theorem call_hanging :
    ((new (.new .default) true).addIntake (.whole 1) false).call 0 (.consume hanging) =
      asking.turns 20 :=
  settle_eq_turns 20 (by decide +kernel)

theorem call_release :
    { asking.turns 20 with clock := 2000000 }.call 1 (.release 0) = releasing.turns 20 := by
  have hsettle : releasing.settle = releasing.turns 20 := settle_eq_turns 20 (by decide +kernel)
  rw [← hsettle]
  unfold releasing
  generalize asking.turns 20 = s
  rfl

/-- Time passes without more when no alarm is due in it. -/
theorem tick_of_later {d : Nat} (h : ∀ a ∈ s.alarms.filter s.isLive, s.clock + d < a.due) :
    s.tick d = { s with clock := s.clock + d } := by
  have hring : s.ringWhile (fun _ a => a.due ≤ s.clock + d) = s := by
    cases ha : earliest (s.alarms.filter s.isLive) with
    | none => exact ringWhile_of_none _ ha
    | some a =>
      have hlater := h a (earliest_eq_some ha).1
      exact ringWhile_of_stop ha (decide_eq_false (Int.not_le.mpr hlater))
  unfold tick
  dsimp only
  rw [hring, Int.max_eq_right (by omega)]

theorem tick_hanging :
    (asking.turns 20).tick (2000000 : Nat) = { asking.turns 20 with clock := 2000000 } := by
  have hclock : (asking.turns 20).clock = 0 := by decide +kernel
  rw [tick_of_later (by decide +kernel), hclock]
  rfl

/-- The call that has waited for a render beyond its deadline fails when the render is done. -/
theorem tick_consume_overdue_released :
    let v := ((new (.new .default) true).addIntake (.whole 1) false).call 0 (.consume hanging)
    let u := ([.pass 2000000, .release 1 0].foldl meanwhile v).tick (0 : Nat)
    (new (.new .default) true).Spare 0 ∧ (Seconds.whole 1).EndsAfter 1000000 ∧
      u.answersTo 0 = [.failed (.overdue (.whole 1))] := by
  have hspare : (new (.new .default) true).Spare 0 := new_spare (.of_none rfl) true 0
  have hends : (Seconds.whole 1).EndsAfter 1000000 :=
    Seconds.whole_endsAfter (n := 1) (by decide) (by decide +kernel)
  have hover := tick_consume_overdue hspare hends false hanging [.pass 2000000, .release 1 0]
    (by decide) 0
  dsimp only [List.foldl_cons, List.foldl_nil, meanwhile] at hover ⊢
  rw [call_hanging, tick_hanging, call_release, tick_of_later (by decide +kernel)] at hover ⊢
  have hnone : (releasing.turns 20).held = [] := List.isEmpty_iff.mp (by decide +kernel)
  generalize releasing.turns 20 = u at hover hnone ⊢
  obtain ⟨-, ⟨-, hlt | ⟨held, hheld, -⟩⟩ | ⟨r, hanswers, hgives⟩⟩ := hover
  · exact absurd hlt (by decide)
  · change held ∈ u.held at hheld
    rw [hnone] at hheld
    cases hheld
  · refine ⟨hspare, hends, hanswers.trans ?_⟩
    rcases hgives with ⟨-, rfl⟩ | ⟨o, ho, -, -, hlast, -⟩
    · rfl
    · rw [List.mem_singleton.mp ho] at hlast
      cases hlast

/-- A call under a deadline of one second has no answer after two, since a render is not done. -/
theorem tick_consume_unanswered :
    let v := ((new (.new .default) true).addIntake (.whole 1) false).call 0 (.consume hanging)
    let u := v.tick (2000000 : Nat)
    (Seconds.whole 1).EndsAfter 1000000 ∧ u.clock = 2000000 ∧ u.answersTo 0 = [] ∧
      (u.call 1 (.release 0)).answersTo 0 ≠ [] := by
  have hends : (Seconds.whole 1).EndsAfter 1000000 :=
    Seconds.whole_endsAfter (n := 1) (by decide) (by decide +kernel)
  dsimp only
  rw [call_hanging, tick_hanging, call_release]
  exact ⟨hends, rfl, by decide +kernel, by decide +kernel⟩

end Session

end StoryPlayer
