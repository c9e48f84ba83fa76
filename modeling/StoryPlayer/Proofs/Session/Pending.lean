import Mathlib
import StoryPlayer.Proofs.Session.Settling
import StoryPlayer.Proofs.Stream.Telling

/-!
# What a session has before it

A session that plays a story by itself has little before it: the player's timer, the next record of
the source and the deadlines of the records that were waited for. Each stands once among the tasks
that are ready and the alarms. A task that runs puts the next one in its place, so this stays so,
and every one of them brings the session nearer to its end.
-/

namespace StoryPlayer

namespace Task

/-- The serial number of the timer that a task is for. -/
def timer? : Task → Option Nat
  | pace n | happen (.timer n) => some n
  | _ => none

/-- The name of the waiter whose next record a task is for. -/
def reader? : Task → Option Nat
  | fetch id | deliver id _ | happen (.arrival id _) => some id
  | _ => none

def isPace : Task → Bool
  | pace _ => true
  | _ => false

/-- The task only says that a record did not come in time. -/
def IsDeadline (t : Task) : Prop :=
  ∃ id, t = .happen (.deadline id)

theorem reader?_of_timer? {t : Task} {n : Nat} (h : t.timer? = some n) : t.reader? = none := by
  cases t with
  | pace | resume | deliver | fetch => first | rfl | cases h
  | happen e => cases e <;> first | rfl | cases h

theorem timer?_of_reader? {t : Task} {id : Nat} (h : t.reader? = some id) : t.timer? = none := by
  cases t with
  | pace | resume | deliver | fetch => first | rfl | cases h
  | happen e => cases e <;> first | rfl | cases h

theorem not_isDeadline_of_timer? {t : Task} {n : Nat} (h : t.timer? = some n) :
    ¬t.IsDeadline := by
  rintro ⟨id, rfl⟩
  cases h

theorem not_isDeadline_of_reader? {t : Task} {id : Nat} (h : t.reader? = some id) :
    ¬t.IsDeadline := by
  rintro ⟨id, rfl⟩
  cases h

end Task

/-- What an alarm will bring, and when. -/
def Alarm.entry (a : Alarm) : Int × Task :=
  (a.due, .happen a.event)

/-- The microseconds that pauses take. One that is not positive takes none. -/
def durationOf (pauses : List Int) : Nat :=
  (pauses.map Int.toNat).sum

/-- The microseconds until the last of records has come. -/
def durationOfAll (as : List Arrival) : Nat :=
  (as.map fun a => durationOf a.pauses).sum

/-- The microseconds until the last record of a source has come. -/
def Source.duration (s : Source) : Nat :=
  durationOfAll s.arrivals

/-- The turns of a session that bring a record, at most. -/
def Arrival.steps (a : Arrival) : Nat :=
  a.pauses.length + 4

/-- A stream that lasts for so many microseconds ends before its deadline. -/
structure Seconds.Allows (t : Seconds) (lasts : Nat) : Prop where
  countable : t.isCountable = true
  inTime : t.isOver lasts = false
  /-- The alarm for the deadline, which is set for a whole microsecond, is not due either. -/
  beforeAlarm : lasts = 0 ∨ ∀ micros, t.micros? = some micros → lasts < micros

namespace Session

/-- What is ready to run and what will happen, each with the time for which it is due. -/
def pending (s : Session) : List (Int × Task) :=
  s.queue.map (fun t => (s.clock, t)) ++ s.alarms.map Alarm.entry

/-- The task that is to bring the next record, and the turns that this takes at most. With the
pauses before it and what comes behind it, it keeps within a limit. -/
inductive Errand (id : Nat) (pauses : List Int) (behind limit : Nat) : Int × Task → Nat → Prop
  | fetch {due : Int} (h : due + durationOf pauses + behind ≤ limit) :
      Errand id pauses behind limit (due, .fetch id) (pauses.length + 3)
  | arrive {due : Int} {ps : List Int} (h : due + durationOf ps + behind ≤ limit) :
      Errand id pauses behind limit (due, .happen (.arrival id ps)) (ps.length + 3)
  | deliver {due : Int} {n : Nat} (hn : n ≤ 1) (h : due + behind ≤ limit) :
      Errand id pauses behind limit (due, .deliver id n) (n + 1)

/-- What a session still gets of a story, and the turns that this takes at most. -/
inductive Supply (p₀ : Player) (r : Reading) (answers : Array (Nat × Result)) (limit : Nat)
    (l : List (Int × Task)) (s : Session) : Nat → Prop
  /-- All has come: the calls have returned, and the player has the story. -/
  | all (hwaiters : s.waiters = []) (herrands : l.filter (·.2.reader?.isSome) = [])
      (hfinished : s.finished = answers) (hstream : s.player.streaming = false)
      (hstory : s.player.Holds r)
      (hplays : p₀.Performs (s.player, none) ∨ r.commands = [] ∧ p₀.Waits s.player) :
      Supply p₀ r answers limit l s 0
  /-- A reader waits for the next record. -/
  | comes {t sent : Text} {k : Intake} {timeout : Seconds} {id n : Nat} {a : Arrival}
      {rest : List Arrival} {lastPauses : List Int} {ending : Ending} {x : Int × Task}
      (hwaiters :
        s.waiters = [⟨id, ⟨0, 0, timeout, ⟨a :: rest, lastPauses, ending⟩⟩, ⟨some 0, []⟩⟩])
      (hintakes : s.intakes = #[k]) (htimeout : timeout.Allows limit)
      (hreading : r = readScript t Scene.empty) (hanswers : answers = #[(0, .choices r.offered)])
      (hfinished : s.finished = #[]) (hreceiving : k.ingestor.Receiving s.player sent)
      (hdelivers : Delivers t sent (a.record :: rest.map (·.record)))
      (htells : k.ingestor.Tells p₀ (s.player, none))
      (herrands : (l.filter (·.2.reader?.isSome)).Perm [x])
      (herrand : Errand id a.pauses (durationOfAll rest) limit x n)
      (hdeadlines : ∀ y ∈ l, y.2 = .happen (.deadline id) → limit = 0 ∨ limit < y.1) :
      Supply p₀ r answers limit l s (n + (rest.map Arrival.steps).sum)

/-- The timer of the player, if it has one, stands once among what is pending, unless its delay cannot
be waited for. -/
structure Timed (l : List (Int × Task)) (s : Session) : Prop where
  timers : (l.filterMap (·.2.timer?)).Perm (s.player.timer.toList.map (·.serial)) ∨
    s.player.IsStuck ∧ l.filterMap (·.2.timer?) = []
  noticed : ∀ t, s.player.timer = some t → t.serial < s.paced
  paced : s.paced ≤ s.player.serial

/-- All that is pending is a timer, the next record or a deadline, and none of it is overdue. -/
structure Orderly (l : List (Int × Task)) (s : Session) : Prop where
  gated : s.gated = false
  clock : 0 ≤ s.clock
  known : ∀ x ∈ l, x.2.timer? ≠ none ∨ x.2.reader? ≠ none ∨ x.2.IsDeadline
  ready : ∀ t ∈ s.queue, ¬t.IsDeadline
  alarms : ∀ a ∈ s.alarms, 0 ≤ a.due ∧ ∀ id ps, a.event = .arrival id ps → 0 < a.due
  named : ∀ x ∈ l, ∀ id, x.2 = .happen (.deadline id) → id < s.nextId

/-- Besides a timer there is what a story still needs, and nothing else. -/
structure Fed (p₀ : Player) (r : Reading) (answers : Array (Nat × Result)) (limit : Nat)
    (l : List (Int × Task)) (s : Session) (rank : Nat) : Prop extends Orderly l s where
  supply : Supply p₀ r answers limit l s rank

/-- The session plays a story by itself. -/
structure Plays (p₀ : Player) (r : Reading) (answers : Array (Nat × Result)) (limit : Nat)
    (l : List (Int × Task)) (s : Session) (rank : Nat) : Prop where
  timed : Timed l s
  fed : Fed p₀ r answers limit l s rank

section

variable {p₀ : Player} {r : Reading} {answers : Array (Nat × Result)} {limit rank : Nat}
  {l l' : List (Int × Task)} {s : Session} {x y : Int × Task}

/-! ## What is pending in another order -/

/-- What is supplied depends on the tasks that bring records alone, and a deadline that comes late
enough makes no difference. -/
theorem Supply.relist (h : Supply p₀ r answers limit l s rank)
    (hfilter : (l'.filter (·.2.reader?.isSome)).Perm (l.filter (·.2.reader?.isSome)))
    (hlate : ∀ z ∈ l', z.2.IsDeadline → z ∈ l ∨ limit = 0 ∨ limit < z.1) :
    Supply p₀ r answers limit l' s rank := by
  cases h with
  | all hwaiters herrands hfinished hstream hstory hplays =>
    rw [herrands] at hfilter
    exact .all hwaiters hfilter.eq_nil hfinished hstream hstory hplays
  | comes hwaiters hintakes htimeout hreading hanswers hfinished hreceiving hdelivers htells
      herrands herrand hdeadlines =>
    refine .comes hwaiters hintakes htimeout hreading hanswers hfinished hreceiving hdelivers htells
      (hfilter.trans herrands) herrand fun z hz heq => ?_
    rcases hlate z hz ⟨_, heq⟩ with hold | hnew
    · exact hdeadlines z hold heq
    · exact hnew

theorem Supply.perm (h : Supply p₀ r answers limit l s rank) (hl : l.Perm l') :
    Supply p₀ r answers limit l' s rank :=
  h.relist (hl.symm.filter _) fun _ hz _ => .inl (hl.mem_iff.mpr hz)

theorem Timed.perm (h : Timed l s) (hl : l.Perm l') : Timed l' s := by
  have hfilter := hl.filterMap (·.2.timer?)
  refine ⟨h.timers.imp hfilter.symm.trans fun ⟨hstuck, hnone⟩ => ⟨hstuck, ?_⟩, h.noticed, h.paced⟩
  rw [hnone] at hfilter
  exact hfilter.nil_eq.symm

theorem Orderly.perm (h : Orderly l s) (hl : l.Perm l') : Orderly l' s where
  gated := h.gated
  clock := h.clock
  known z hz := h.known z (hl.mem_iff.mpr hz)
  ready := h.ready
  alarms := h.alarms
  named z hz := h.named z (hl.mem_iff.mpr hz)

theorem Fed.perm (h : Fed p₀ r answers limit l s rank) (hl : l.Perm l') :
    Fed p₀ r answers limit l' s rank :=
  ⟨h.toOrderly.perm hl, h.supply.perm hl⟩

/-! ## Making something pending -/

theorem pending_enqueue (s : Session) (t : Task) :
    ((s.clock, t) :: s.pending).Perm (s.enqueue t).pending := by
  unfold pending enqueue
  rw [List.map_append, List.append_assoc]
  exact List.perm_middle.symm

theorem pending_setAlarm (s : Session) (due : Int) (e : Event) :
    ((max s.clock due, .happen e) :: s.pending).Perm (s.setAlarm due e).pending := by
  unfold pending setAlarm
  rw [List.map_append, ← List.append_assoc]
  exact (List.perm_append_singleton _ _).symm

theorem Supply.congr {s' : Session} (h : Supply p₀ r answers limit l s rank)
    (hplayer : s'.player = s.player) (hintakes : s'.intakes = s.intakes)
    (hwaiters : s'.waiters = s.waiters) (hfinished : s'.finished = s.finished) :
    Supply p₀ r answers limit l s' rank := by
  cases s
  cases s'
  cases hplayer
  cases hintakes
  cases hwaiters
  cases hfinished
  cases h with
  | all => constructor <;> assumption
  | comes => constructor <;> assumption

theorem Timed.congr {s' : Session} (h : Timed l s) (hplayer : s'.player = s.player)
    (hpaced : s'.paced = s.paced) : Timed l s' where
  timers := hplayer ▸ h.timers
  noticed := hplayer ▸ hpaced ▸ h.noticed
  paced := hplayer ▸ hpaced ▸ h.paced

theorem Orderly.congr {s' : Session} (h : Orderly l s) (hgated : s'.gated = s.gated)
    (hclock : s'.clock = s.clock) (hqueue : s'.queue = s.queue) (halarms : s'.alarms = s.alarms)
    (hname : s'.nextId = s.nextId) : Orderly l s' where
  gated := hgated.trans h.gated
  clock := hclock ▸ h.clock
  known := h.known
  ready := hqueue ▸ h.ready
  alarms := halarms ▸ h.alarms
  named := hname ▸ h.named

theorem Orderly.enqueue {t : Task} (h : Orderly ((s.clock, t) :: s.pending) s)
    (ht : ¬t.IsDeadline) : Orderly (s.enqueue t).pending (s.enqueue t) := by
  have hperm := h.perm (s.pending_enqueue t)
  refine ⟨hperm.gated, hperm.clock, hperm.known, ?_, hperm.alarms, hperm.named⟩
  intro u hu
  rcases List.mem_append.mp hu with hu | hu
  · exact h.ready u hu
  · rw [List.mem_singleton.mp hu]
    exact ht

theorem Orderly.setAlarm {due : Int} {e : Event}
    (h : Orderly ((max s.clock due, .happen e) :: s.pending) s)
    (hpos : ∀ id ps, e = .arrival id ps → 0 < due) :
    Orderly (s.setAlarm due e).pending (s.setAlarm due e) := by
  have hperm := h.perm (s.pending_setAlarm due e)
  refine ⟨hperm.gated, hperm.clock, hperm.known, hperm.ready, ?_, hperm.named⟩
  intro a ha
  rcases List.mem_append.mp ha with ha | ha
  · exact h.alarms a ha
  · rw [List.mem_singleton.mp ha]
    refine ⟨Int.le_trans h.clock (Int.le_max_left _ _), fun id ps heq => ?_⟩
    exact Int.lt_of_lt_of_le (hpos id ps heq) (Int.le_max_right _ _)

theorem Fed.enqueue {t : Task} (h : Fed p₀ r answers limit ((s.clock, t) :: s.pending) s rank)
    (ht : ¬t.IsDeadline) : Fed p₀ r answers limit (s.enqueue t).pending (s.enqueue t) rank :=
  ⟨h.toOrderly.enqueue ht, (h.supply.perm (s.pending_enqueue t)).congr rfl rfl rfl rfl⟩

theorem Fed.setAlarm {due : Int} {e : Event}
    (h : Fed p₀ r answers limit ((max s.clock due, .happen e) :: s.pending) s rank)
    (hpos : ∀ id ps, e = .arrival id ps → 0 < due) :
    Fed p₀ r answers limit (s.setAlarm due e).pending (s.setAlarm due e) rank :=
  ⟨h.toOrderly.setAlarm hpos, (h.supply.perm (s.pending_setAlarm due e)).congr rfl rfl rfl rfl⟩

theorem Timed.enqueue {t : Task} (h : Timed ((s.clock, t) :: s.pending) s) :
    Timed (s.enqueue t).pending (s.enqueue t) :=
  (h.perm (s.pending_enqueue t)).congr rfl rfl

theorem Timed.setAlarm {due : Int} {e : Event}
    (h : Timed ((max s.clock due, .happen e) :: s.pending) s) :
    Timed (s.setAlarm due e).pending (s.setAlarm due e) :=
  (h.perm (s.pending_setAlarm due e)).congr rfl rfl

theorem Plays.enqueue {t : Task}
    (h : Plays p₀ r answers limit ((s.clock, t) :: s.pending) s rank) (ht : ¬t.IsDeadline) :
    Plays p₀ r answers limit (s.enqueue t).pending (s.enqueue t) rank :=
  ⟨h.timed.enqueue, h.fed.enqueue ht⟩

/-- After a pause an event happens, whether the pause takes time or not. -/
theorem Plays.pause {micros : Int} {e : Event}
    (h : Plays p₀ r answers limit ((s.clock + micros.toNat, .happen e) :: s.pending) s rank)
    (he : ¬(Task.happen e).IsDeadline) :
    Plays p₀ r answers limit (s.pause micros e).pending (s.pause micros e) rank := by
  unfold Session.pause
  split
  next hle =>
    rw [Int.toNat_of_nonpos hle, Int.natCast_zero, Int.add_zero] at h
    exact h.enqueue he
  next hlt =>
    have hmax : max s.clock (s.clock + micros) = s.clock + micros.toNat := by omega
    rw [← hmax] at h
    have hclock := h.fed.clock
    exact ⟨h.timed.setAlarm, h.fed.setAlarm fun _ _ _ => by omega⟩

theorem pause_control (s : Session) (micros : Int) (e : Event) :
    (s.pause micros e).control = s.control := by
  unfold Session.pause
  split <;> rfl

/-! ## Tasks for the timer -/

theorem Orderly.of_subset (h : Orderly l s) (hl : l' ⊆ l) : Orderly l' s :=
  ⟨h.gated, h.clock, fun z hz => h.known z (hl hz), h.ready, h.alarms,
    fun z hz => h.named z (hl hz)⟩

theorem Orderly.cons (h : Orderly l s)
    (hx : x.2.timer? ≠ none ∨ x.2.reader? ≠ none ∨
      ∃ id, x.2 = .happen (.deadline id) ∧ id < s.nextId) : Orderly (x :: l) s := by
  refine ⟨h.gated, h.clock, ?_, h.ready, h.alarms, ?_⟩
  · intro z hz
    rcases List.mem_cons.mp hz with rfl | hz
    · exact hx.imp_right fun hx => hx.imp_right fun ⟨id, heq, _⟩ => ⟨id, heq⟩
    · exact h.known z hz
  · intro z hz id heq
    rcases List.mem_cons.mp hz with rfl | hz
    · rcases hx with hx | hx | ⟨id', heq', hlt⟩
      · simp [heq, Task.timer?] at hx
      · simp [heq, Task.reader?] at hx
      · cases heq.symm.trans heq'
        exact hlt
    · exact h.named z hz id heq

/-- Whether a task for the timer is pending makes no difference to the records. -/
theorem Fed.cons_timer {n : Nat} (hx : x.2.timer? = some n) :
    Fed p₀ r answers limit (x :: l) s rank ↔ Fed p₀ r answers limit l s rank := by
  have hreader := Task.reader?_of_timer? hx
  have hfilter : (x :: l).filter (·.2.reader?.isSome) = l.filter (·.2.reader?.isSome) := by
    simp [hreader]
  constructor
  · intro h
    refine ⟨h.toOrderly.of_subset (List.subset_cons_self x l),
      h.supply.relist (.of_eq hfilter.symm) ?_⟩
    exact fun z hz _ => .inl (List.mem_cons_of_mem x hz)
  · intro h
    refine ⟨h.toOrderly.cons (.inl (by simp [hx])), h.supply.relist (.of_eq hfilter) ?_⟩
    intro z hz hdeadline
    rcases List.mem_cons.mp hz with rfl | hz
    · exact absurd hdeadline (Task.not_isDeadline_of_timer? hx)
    · exact .inl hz

/-- One task for the timer stands in the place of another. -/
theorem Plays.retime {n : Nat} (h : Plays p₀ r answers limit (x :: l) s rank)
    (hx : x.2.timer? = some n) (hy : y.2.timer? = some n) :
    Plays p₀ r answers limit (y :: l) s rank := by
  refine ⟨⟨?_, h.timed.noticed, h.timed.paced⟩,
    (Fed.cons_timer hy).mpr ((Fed.cons_timer hx).mp h.fed)⟩
  simpa [hx, hy] using h.timed.timers

/-- Whether any other task is pending makes no difference to the timer. -/
theorem Timed.cons_iff (hx : x.2.timer? = none) : Timed (x :: l) s ↔ Timed l s := by
  have hfilter : (x :: l).filterMap (·.2.timer?) = l.filterMap (·.2.timer?) := by simp [hx]
  constructor
  · exact fun h => ⟨hfilter ▸ h.timers, h.noticed, h.paced⟩
  · exact fun h => ⟨hfilter.symm ▸ h.timers, h.noticed, h.paced⟩

/-- The task for the timer is for that of the player, and there is no other. -/
theorem Timed.of_cons {n : Nat} (h : Timed (x :: l) s) (hx : x.2.timer? = some n) :
    (∃ t, s.player.timer = some t ∧ t.serial = n) ∧ l.filterMap (·.2.timer?) = [] := by
  obtain htimers | ⟨-, hnone⟩ := h.timers
  case inr => simp [hx] at hnone
  simp only [List.filterMap_cons, hx] at htimers
  cases ht : s.player.timer with
  | none => simp [ht] at htimers
  | some t =>
    rw [ht] at htimers
    obtain ⟨hn, hl⟩ := List.cons.inj (List.perm_singleton.mp htimers)
    exact ⟨⟨t, rfl, hn.symm⟩, hl⟩

/-! ## Taking note of a timer -/

theorem notice_eq (s : Session) :
    s.notice = s ∨ ∃ n, s.notice = { s with paced := n + 1 }.enqueue (.pace n) := by
  unfold notice
  split
  · split
    · exact .inr ⟨_, rfl⟩
    · exact .inl rfl
  · exact .inl rfl

/-- A timer that was armed since the last time becomes pending. -/
theorem Timed.notice
    (htimers : (s.pending.filterMap (·.2.timer?)).Perm
        ((s.player.timer.toList.filter (·.serial < s.paced)).map (·.serial)) ∨
      s.player.IsStuck ∧ s.pending.filterMap (·.2.timer?) = [])
    (hserial : ∀ t, s.player.timer = some t → t.serial < s.player.serial)
    (hpaced : s.paced ≤ s.player.serial) : Timed s.notice.pending s.notice := by
  unfold Session.notice
  cases ht : s.player.timer with
  | none =>
    rw [ht] at htimers
    exact ⟨by simpa [ht] using htimers, by simp [ht], hpaced⟩
  | some t =>
    rw [ht] at htimers
    dsimp only
    split
    next hle =>
      have hnone : s.pending.filterMap (·.2.timer?) = [] := by
        rcases htimers with htimers | ⟨-, hnone⟩
        · simpa [Nat.not_lt.mpr hle] using htimers
        · exact hnone
      have hnew : Timed ((s.clock, .pace t.serial) :: s.pending)
          { s with paced := t.serial + 1 } := by
        refine ⟨.inl ?_, ?_, hserial t ht⟩
        · change (t.serial :: s.pending.filterMap (·.2.timer?)).Perm _
          rw [hnone, ht]
          exact .refl _
        · intro u hu
          cases ht.symm.trans hu
          exact Nat.lt_succ_self _
      exact hnew.enqueue
    next hlt =>
      replace hlt := Nat.not_le.mp hlt
      refine ⟨by simpa [ht, hlt] using htimers, ?_, hpaced⟩
      intro u hu
      cases ht.symm.trans hu
      exact hlt

theorem Orderly.notice (h : Orderly s.pending s) : Orderly s.notice.pending s.notice := by
  obtain heq | ⟨n, heq⟩ := s.notice_eq
  · rwa [heq]
  · have hnew : Orderly s.pending { s with paced := n + 1 } := h.congr rfl rfl rfl rfl rfl
    rw [heq]
    exact Orderly.enqueue (hnew.cons (.inl nofun)) (by rintro ⟨_, ⟨⟩⟩)

theorem Fed.notice (h : Fed p₀ r answers limit s.pending s rank) :
    Fed p₀ r answers limit s.notice.pending s.notice rank := by
  have horderly := h.toOrderly.notice
  obtain heq | ⟨n, heq⟩ := s.notice_eq
  · rwa [heq]
  · rw [heq] at horderly ⊢
    have hcons := (Fed.cons_timer (x := (s.clock, .pace n)) rfl).mpr h
    have hsupply := hcons.supply.perm ({ s with paced := n + 1 }.pending_enqueue (.pace n))
    exact ⟨horderly, hsupply.congr rfl rfl rfl rfl⟩

theorem notice_control (s : Session) (c : Control) :
    { s with control := c }.notice = { s.notice with control := c } := by
  unfold notice
  dsimp only
  split
  · split <;> rfl
  · rfl

@[simp]
theorem notice_player (s : Session) : s.notice.player = s.player := by
  rcases s.notice_eq with heq | ⟨n, heq⟩ <;> simp [heq, enqueue]

@[simp]
theorem notice_waiters (s : Session) : s.notice.waiters = s.waiters := by
  rcases s.notice_eq with heq | ⟨n, heq⟩ <;> simp [heq, enqueue]

@[simp]
theorem notice_intakes (s : Session) : s.notice.intakes = s.intakes := by
  rcases s.notice_eq with heq | ⟨n, heq⟩ <;> simp [heq, enqueue]

@[simp]
theorem notice_finished (s : Session) : s.notice.finished = s.finished := by
  rcases s.notice_eq with heq | ⟨n, heq⟩ <;> simp [heq, enqueue]

@[simp]
theorem notice_gated (s : Session) : s.notice.gated = s.gated := by
  rcases s.notice_eq with heq | ⟨n, heq⟩ <;> simp [heq, enqueue]

@[simp]
theorem notice_clock (s : Session) : s.notice.clock = s.clock := by
  rcases s.notice_eq with heq | ⟨n, heq⟩ <;> simp [heq, enqueue]

/-- No task for a reader is made. -/
theorem notice_errands (s : Session) :
    s.notice.pending.filter (·.2.reader?.isSome) = s.pending.filter (·.2.reader?.isSome) := by
  rcases s.notice_eq with heq | ⟨n, heq⟩ <;> simp [heq, pending, enqueue, Task.reader?]

end

end Session

end StoryPlayer
