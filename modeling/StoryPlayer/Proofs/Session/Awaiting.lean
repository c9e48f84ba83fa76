import StoryPlayer.Proofs.Session.Course
import StoryPlayer.Proofs.Session.Exit

/-!
# A session in which a source is read

While a source is read one reader waits, with one task that is to bring what the source has next
and with the alarm for its deadline; or the source hangs, and there is the alarm alone. Timers come
and go beside it and only play, so what they do is told apart here from what is done for the reader.
-/

namespace StoryPlayer

/-- The reader that waits for an event. -/
def Event.waiter? : Event → Option Nat
  | .timer _ => none
  | .arrival id _ | .deadline id => some id

theorem Event.waiter?_of_reader? {e : Event} {id : Nat} (h : (Task.happen e).reader? = some id) :
    e.waiter? = some id := by
  cases e with
  | timer | deadline => cases h
  | arrival id' ps => exact h

/-- The turns that a task of a timer takes, at most, and one for any other. -/
def Task.toil (t : Task) : Nat :=
  if t.isPace then 2 else 1

/-- The turns of a session that bring the outcomes behind the next one, at most. -/
def Source.stepsBehind (s : Source) : Nat :=
  match s.arrivals with
  | [] => 0
  | _ :: rest => (rest.map Arrival.steps).sum + s.lastPauses.length + 4

/-- A call that reads a source: when and under which numbers it was made, with which deadline, what
was answered before, and the exit that it will take. -/
structure Consuming where
  step : Nat
  intake : Nat
  start : Int
  timeout : Seconds
  deadline : Nat
  offers : Bool
  answers : Array (Nat × Result)
  exit : Exit
  /-- The ingestor at the exit and a player with the story of then. -/
  leaves : Ingestor × Player

namespace Session

/-! ## What a session holds ready -/

/-- The tasks that are to bring something to a reader. -/
def errands (s : Session) (id : Nat) : List (Int × Task) :=
  s.pending.filter fun x => x.2.reader? == some id

/-- What timers still make a session do. -/
def toil (s : Session) : Nat :=
  5 * Player.work (s.player, none) + (s.queue.map Task.toil).sum

/-- Every armed timer has been noticed. -/
def Noticed (s : Session) : Prop :=
  ∀ t, s.player.timer = some t → t.serial < s.paced

/-- Renders are done at once, no alarm is overdue, every ready task is for a timer or for a reader
that waits, and the names that were given away are not given again. -/
structure Sound (s : Session) : Prop where
  gated : s.gated = false
  alarms : ∀ a ∈ s.alarms, s.clock ≤ a.due
  ready : ∀ t ∈ s.queue, t.timer? ≠ none ∨ ∃ w ∈ s.waiters, t.reader? = some w.id
  waiters : ∀ w ∈ s.waiters, w.id < s.nextId
  named : ∀ a ∈ s.alarms, ∀ id, a.event.waiter? = some id → id < s.nextId

/-- Another session with the same readers, of which only the player's playing and its timers have
gone on. -/
structure Ticks (s s' : Session) : Prop where
  waiters : s'.waiters = s.waiters
  intakes : s'.intakes = s.intakes
  finished : s'.finished = s.finished
  clock : s'.clock = s.clock
  story : s.player.SameStory s'.player
  alarms : ∀ a, a.event.waiter? ≠ none → (a ∈ s'.alarms ↔ a ∈ s.alarms)
  errands : ∀ id, s'.errands id = s.errands id

section

variable {s s' u : Session} {t : Task} {e : Event} {a : Alarm} {id : Nat} {micros : Int}

theorem errands_enqueue_of_ne (h : t.reader? ≠ some id) :
    (s.enqueue t).errands id = s.errands id := by
  simp [errands, pending, enqueue, h]

theorem errands_setAlarm_of_ne (h : (Task.happen e).reader? ≠ some id) (due : Int) :
    (s.setAlarm due e).errands id = s.errands id := by
  simp [errands, pending, setAlarm, Alarm.entry, h]

theorem errands_enqueue (h : t.reader? = some id) (hnone : s.errands id = []) :
    (s.enqueue t).errands id = [(s.clock, t)] := by
  have hperm := (s.pending_enqueue t).filter fun x => x.2.reader? == some id
  change (s.pending.filter fun x => x.2.reader? == some id) = [] at hnone
  rw [List.filter_cons_of_pos (by simp [h]), hnone] at hperm
  exact List.perm_singleton.mp hperm.symm

theorem errands_setAlarm {due : Int} (h : (Task.happen e).reader? = some id)
    (hnone : s.errands id = []) :
    (s.setAlarm due e).errands id = [(max s.clock due, .happen e)] := by
  have hperm := (s.pending_setAlarm due e).filter fun x => x.2.reader? == some id
  change (s.pending.filter fun x => x.2.reader? == some id) = [] at hnone
  rw [List.filter_cons_of_pos (by simp [h]), hnone] at hperm
  exact List.perm_singleton.mp hperm.symm

theorem errands_pause (h : (Task.happen e).reader? = some id) (hnone : s.errands id = []) :
    (s.pause micros e).errands id = [(s.clock + micros.toNat, .happen e)] := by
  unfold pause
  split
  next hle =>
    rw [errands_enqueue h hnone, Int.toNat_of_nonpos hle, Int.natCast_zero, Int.add_zero]
  next hlt =>
    have hmax : max s.clock (s.clock + micros) = s.clock + micros.toNat := by omega
    rw [errands_setAlarm h hnone, hmax]

/-! ## Making something ready -/

theorem Sound.enqueue (h : s.Sound)
    (ht : t.timer? ≠ none ∨ ∃ w ∈ s.waiters, t.reader? = some w.id) : (s.enqueue t).Sound where
  gated := h.gated
  alarms := h.alarms
  ready := List.forall_mem_append.mpr ⟨h.ready, List.forall_mem_singleton.mpr ht⟩
  waiters := h.waiters
  named := h.named

theorem Sound.setAlarm (h : s.Sound) (he : ∀ id, e.waiter? = some id → id < s.nextId) (due : Int) :
    (s.setAlarm due e).Sound where
  gated := h.gated
  alarms := List.forall_mem_append.mpr
    ⟨h.alarms, List.forall_mem_singleton.mpr (Int.le_max_left _ _)⟩
  ready := h.ready
  waiters := h.waiters
  named := List.forall_mem_append.mpr ⟨h.named, List.forall_mem_singleton.mpr he⟩

theorem Sound.pause (h : s.Sound)
    (he : (Task.happen e).timer? ≠ none ∨ ∃ w ∈ s.waiters, (Task.happen e).reader? = some w.id) :
    (s.pause micros e).Sound := by
  unfold Session.pause
  split
  · exact h.enqueue he
  · refine h.setAlarm (fun id hid => ?_) _
    rcases he with he | ⟨w, hw, he⟩
    · cases e with
      | timer n => cases hid
      | arrival | deadline => exact absurd rfl he
    · cases hid.symm.trans (Event.waiter?_of_reader? he)
      exact h.waiters w hw

theorem Sound.notice (h : s.Sound) : s.notice.Sound := by
  rcases s.notice_eq with heq | ⟨n, heq⟩
  · rwa [heq]
  · have hpaced : { s with paced := n + 1 }.Sound :=
      ⟨h.gated, h.alarms, h.ready, h.waiters, h.named⟩
    rw [heq]
    exact hpaced.enqueue (.inl nofun)

theorem notice_noticed (s : Session) : s.notice.Noticed := by
  intro t ht
  rw [notice_player] at ht
  unfold Session.notice
  simp only [ht]
  split
  · exact Nat.lt_succ_self _
  next hlt => exact Nat.not_le.mp hlt

theorem Noticed.pause (h : s.Noticed) (micros : Int) (e : Event) : (s.pause micros e).Noticed := by
  unfold Session.pause
  split <;> exact h

theorem pause_clock (s : Session) (micros : Int) (e : Event) :
    (s.pause micros e).clock = s.clock := by
  unfold Session.pause
  split <;> rfl

/-! ## Timers -/

theorem Ticks.refl (s : Session) : s.Ticks s :=
  ⟨rfl, rfl, rfl, rfl, .refl _, fun _ _ => .rfl, fun _ => rfl⟩

theorem Ticks.trans (h : s.Ticks s') (h' : s'.Ticks u) : s.Ticks u where
  waiters := h'.waiters.trans h.waiters
  intakes := h'.intakes.trans h.intakes
  finished := h'.finished.trans h.finished
  clock := h'.clock.trans h.clock
  story := h.story.trans h'.story
  alarms a ha := (h'.alarms a ha).trans (h.alarms a ha)
  errands id := (h'.errands id).trans (h.errands id)

theorem enqueue_ticks (s : Session) (ht : t.reader? = none) : s.Ticks (s.enqueue t) :=
  ⟨rfl, rfl, rfl, rfl, .refl _, fun _ _ => .rfl, fun _ => errands_enqueue_of_ne (by simp [ht])⟩

theorem pause_timer_ticks (s : Session) (micros : Int) (n : Nat) :
    s.Ticks (s.pause micros (.timer n)) := by
  unfold Session.pause
  split
  · exact s.enqueue_ticks rfl
  · have herrands (id : Nat) :
        (s.setAlarm (s.clock + micros) (.timer n)).errands id = s.errands id :=
      errands_setAlarm_of_ne (by rintro ⟨⟩) (s.clock + micros)
    refine ⟨rfl, rfl, rfl, rfl, .refl _, fun a ha => ?_, herrands⟩
    rw [setAlarm, List.mem_append, List.mem_singleton, or_iff_left]
    rintro rfl
    exact ha rfl

theorem notice_ticks (s : Session) : s.Ticks s.notice := by
  rcases s.notice_eq with heq | ⟨n, heq⟩
  · rw [heq]
    exact .refl s
  · have hpaced : s.Ticks { s with paced := n + 1 } :=
      ⟨rfl, rfl, rfl, rfl, .refl _, fun _ _ => .rfl, fun _ => rfl⟩
    rw [heq]
    exact hpaced.trans (enqueue_ticks _ rfl)

theorem withPlayer_ticks {p : Player} (h : s.player.SameStory p) : s.Ticks { s with player := p } :=
  ⟨rfl, rfl, rfl, rfl, h, fun _ _ => .rfl, fun _ => rfl⟩

theorem toil_enqueue (s : Session) (t : Task) : (s.enqueue t).toil = s.toil + t.toil := by
  simp [toil, enqueue, Nat.add_assoc]

theorem toil_pause (s : Session) (micros : Int) (e : Event) :
    (s.pause micros e).toil ≤ s.toil + 1 := by
  unfold Session.pause
  split
  · exact Nat.le_of_eq (s.toil_enqueue (.happen e))
  · exact Nat.le_succ _

theorem toil_notice (s : Session) : s.notice.toil ≤ s.toil + 2 := by
  rcases s.notice_eq with heq | ⟨n, heq⟩
  · rw [heq]
    exact Nat.le_add_right _ _
  · rw [heq]
    exact Nat.le_of_eq ({ s with paced := n + 1 }.toil_enqueue (.pace n))

theorem fired_eq (s : Session) (n : Nat) :
    let u := { s with player := Player.settle s.player.fire }.notice
    s.fired n = u ∨ s.fired n = u.enqueue (.pace n) := by
  intro u
  unfold Session.fired
  dsimp only
  split
  · split
    · exact .inr rfl
    · exact .inl rfl
  · exact .inl rfl

/-- A timer that fires makes the player play on, and leaves less to do. -/
theorem fired_ticks {v : Timer} (hv : s.player.timer = some v) (n : Nat) :
    s.Ticks (s.fired n) ∧ (s.fired n).toil < s.toil := by
  have hsame := Player.settle_sameStory s.player.fire
  have hwork := Player.settle_work_le s.player.fire
  have hturn := s.player.fire_turn
  have hlt : Player.work s.player.fire < Player.work (s.player, none) :=
    hturn.work_lt rfl fun _ => by simp [hv]
  let u : Session := { s with player := Player.settle s.player.fire }
  have hu : s.Ticks u := withPlayer_ticks ((hturn.sameStory rfl).trans hsame)
  have hnotice := hu.trans u.notice_ticks
  have htoil : u.notice.toil + 2 < s.toil := by
    have hnoticed := u.toil_notice
    change u.notice.toil ≤ 5 * Player.work (Player.settle s.player.fire, none) +
      (s.queue.map Task.toil).sum + 2 at hnoticed
    change _ < 5 * Player.work (s.player, none) + (s.queue.map Task.toil).sum
    omega
  rcases s.fired_eq n with heq | heq
  · rw [heq]
    exact ⟨hnotice, Nat.lt_of_add_right_lt htoil⟩
  · rw [heq, toil_enqueue]
    exact ⟨hnotice.trans (enqueue_ticks _ rfl), htoil⟩

theorem Sound.fired (h : s.Sound) (n : Nat) : (s.fired n).Sound ∧ (s.fired n).Noticed := by
  let u : Session := { s with player := Player.settle s.player.fire }
  have hu : u.Sound := ⟨h.gated, h.alarms, h.ready, h.waiters, h.named⟩
  have hnoticed : u.notice.Noticed := u.notice_noticed
  rcases s.fired_eq n with heq | heq
  · rw [heq]
    exact ⟨hu.notice, hnoticed⟩
  · rw [heq]
    exact ⟨hu.notice.enqueue (.inl nofun), hnoticed⟩

/-! ## Taking out what is next -/

theorem errands_of_queue {rest : List Task} (hqueue : s.queue = t :: rest) (id : Nat) :
    s.errands id =
      (if t.reader? == some id then [(s.clock, t)] else []) ++
        { s.resting with queue := rest }.errands id := by
  unfold errands pending
  rw [hqueue, List.map_cons, List.cons_append, List.filter_cons]
  split
  · rfl
  · rfl

/-- The session whose clock has moved to an alarm, which is taken out. -/
def ringing (s : Session) (a : Alarm) : Session :=
  { s with clock := a.due, alarms := (s.alarms.filter s.isLive).erase a }

theorem mem_of_ringing {b : Alarm} (hb : b ∈ (s.ringing a).alarms) :
    b ∈ s.alarms.filter s.isLive :=
  List.erase_subset hb

theorem Sound.ringing (h : s.Sound) (ha : earliest (s.alarms.filter s.isLive) = some a)
    (hqueue : s.queue = []) : (s.ringing a).Sound where
  gated := h.gated
  alarms b hb := (earliest_eq_some ha).2 b (mem_of_ringing hb)
  ready t ht := by
    rw [Session.ringing, hqueue] at ht
    cases ht
  waiters := h.waiters
  named b hb := h.named b (List.filter_sublist.subset (mem_of_ringing hb))

/-- What an alarm leaves of the tasks for a reader that waits. -/
theorem errands_of_alarm {v : Waiter} (hv : s.waiters = [v]) (hqueue : s.queue = [])
    (ha : a ∈ s.alarms.filter s.isLive) :
    ((if (Task.happen a.event).reader? == some v.id then [a.entry] else []) ++
      (s.ringing a).errands v.id).Perm (s.errands v.id) := by
  have hu : (s.ringing a).errands v.id =
      (((s.alarms.filter s.isLive).erase a).map Alarm.entry).filter
        fun x => x.2.reader? == some v.id := by
    simp [errands, pending, ringing, hqueue]
  have hs : s.errands v.id = ((s.alarms.filter s.isLive).map Alarm.entry).filter
      fun x => x.2.reader? == some v.id := by
    unfold errands pending
    rw [hqueue, List.map_nil, List.nil_append, List.filter_map, List.filter_map, List.filter_filter]
    congr 1
    apply List.filter_congr
    intro b _
    -- The alarms that are for the reader that waits all mean something.
    by_cases hb : (Task.happen b.event).reader? = some v.id
    · have hlive : s.isLive b = true := by
        unfold isLive
        cases hevent : b.event <;> simp_all [Task.reader?]
      simp [hlive]
    · simp [Alarm.entry, hb]
  have hperm := ((List.perm_cons_erase ha).map Alarm.entry).filter fun x => x.2.reader? == some v.id
  rw [hs, hu]
  refine List.Perm.trans (.of_eq ?_) hperm.symm
  rw [List.map_cons, List.filter_cons]
  split <;> simp_all [Alarm.entry]

end

end Session

end StoryPlayer
