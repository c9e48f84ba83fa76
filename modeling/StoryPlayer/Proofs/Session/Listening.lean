import StoryPlayer.Proofs.Decimal.Packing
import StoryPlayer.Proofs.Session.Clocked
import StoryPlayer.Proofs.Session.Leaving

/-!
# A call that reads while renders may be held

While renders are done at once a call that reads a source does nothing but wait for it. Where they
are held the call also waits for the renders of what it reads, for as long as these take. So it is
in one of three places: it waits for what comes next, under its deadline; it is suspended, or runs,
with a rest of what it has to do that leads it back to reading or to its answer; or it has its
answer. No turn of the session takes it anywhere else, and of turns there are only so many.
-/

namespace StoryPlayer

/-- The result of a reading under a deadline when so much time has passed: that of something that
has ended the stream and came by the deadline, or else that the deadline is over. -/
def Source.Gives (s : Source) (timeout : Seconds) (deadline elapsed : Nat) (r : Result) : Prop :=
  deadline ≤ elapsed ∧ r = .failed (.overdue timeout) ∨
    ∃ o ∈ s.outcomesFrom 0, o.1 ≤ deadline ∧ o.1 ≤ elapsed ∧ isLastOutcome o.2 = true ∧
      ∃ choices, r = Exit.result ⟨o.1, some o.2, []⟩ timeout choices

theorem Source.Gives.mono {s : Source} {timeout : Seconds} {deadline elapsed elapsed' : Nat}
    {r : Result} (h : s.Gives timeout deadline elapsed r) (hle : elapsed ≤ elapsed') :
    s.Gives timeout deadline elapsed' r := by
  rcases h with ⟨hover, hr⟩ | ⟨o, ho, hdeadline, helapsed, hlast, hr⟩
  · exact .inl ⟨Nat.le_trans hover hle, hr⟩
  · exact .inr ⟨o, ho, hdeadline, Nat.le_trans helapsed hle, hlast, hr⟩

/-- The turns of a session in which a source is read, at most. -/
def Source.turns (s : Source) : Nat :=
  (s.arrivals.map fun a => a.pauses.length + 8).sum + s.lastPauses.length + 8

/-- Those of them that are left when what comes next is there. -/
def Source.turnsBehind (s : Source) : Nat :=
  match s.arrivals with
  | [] => 2
  | _ :: rest => { s with arrivals := rest }.turns + 2

theorem Source.turns_eq (s : Source) : s.turns = s.nextPauses.length + 6 + s.turnsBehind := by
  obtain ⟨arrivals, lastPauses, ending⟩ := s
  cases arrivals with
  | nil => simp [turns, turnsBehind, nextPauses]
  | cons a rest =>
    simp only [turns, turnsBehind, nextPauses, List.map_cons, List.sum_cons]
    omega

theorem Source.one_lt_turnsBehind (s : Source) : 1 < s.turnsBehind := by
  unfold turnsBehind
  split <;> omega

/-- The turns that a rest of a call takes, at most. -/
def Remainder.turns : Remainder → Nat
  | .consume r => r.source.turns
  | _ => 1

theorem Remainder.turns_pos (x : Remainder) : 0 < x.turns := by
  cases x with
  | consume r => exact Nat.succ_pos _
  | offer | fail | batch => exact Nat.one_pos

def Control.turns : Control → Nat
  | .idle => 0
  | .read .. => 1
  | .answer .. => 2
  | .perform .. => 3

/-- Rounded to a microsecond or not, a time that has not come is not before now. -/
theorem Seconds.le_round {num den n : Nat} (hden : 0 < den) (h : n * den < num) :
    n ≤ (2 * num + den) / (2 * den) := by
  refine (Nat.le_div_iff_mul_le (by omega)).mpr ?_
  have hexpand : n * (2 * den) = 2 * (n * den) := by ring
  omega

/-- A reading that is not over has not lasted beyond its deadline. -/
theorem Seconds.EndsAfter.le_deadline {t : Seconds} {deadline n : Nat} (h : t.EndsAfter deadline)
    (hn : t.isOver n = false) : n ≤ deadline := by
  have hpositive := h.positive
  obtain ⟨m, hm, rfl⟩ := Option.map_eq_some_iff.mp h.finite
  cases t with
  | whole k =>
    cases hm
    simp only [Seconds.isOver, decide_eq_false_iff_not] at hn
    omega
  | float x =>
    unfold Seconds.isOver micros? at *
    dsimp only at *
    by_cases hfinite : x.isFinite = true
    · simp only [hfinite, if_true, Bool.or_eq_false_iff, decide_eq_false_iff_not] at hm hn
      have hden : 0 < (Decimal.Quotient.ofFloat x.abs).den := Nat.two_pow_pos _
      have hsign : x.toBits.toNat < Nat.pow 2 63 := by
        by_contra hnegative
        exact hn.1 (Rounding.le_zero hfinite hnegative)
      rw [if_pos hsign] at hm
      cases hm
      generalize Decimal.Quotient.ofFloat x.abs = q at hn hden ⊢
      rw [Int.toNat_natCast, Nat.mul_assoc]
      exact le_round hden (Nat.not_le.mp hn.2)
    · simp only [hfinite, Bool.false_eq_true, if_false, decide_eq_false_iff_not] at hm hpositive
      rw [if_neg hpositive] at hm
      cases hm

/-- A reading that is over has lasted until its deadline. -/
theorem Seconds.EndsAfter.deadline_le {t : Seconds} {deadline n : Nat} (h : t.EndsAfter deadline)
    (hn : t.isOver n = true) : deadline ≤ n := by
  by_contra hbefore
  have hearly : isBefore deadline n = true := by simp [isBefore, Nat.not_le.mp hbefore]
  exact Bool.false_ne_true ((h.isOver hearly).symm.trans hn)

namespace Session

/-- What was answered to a step. -/
def answersTo (s : Session) (step : Nat) : List Result :=
  s.finished.toList.filterMap fun x => if x.1 = step then some x.2 else none

/-- The renders that were released. -/
def released (s : Session) : Nat :=
  s.queue.countP (·.call?.isSome)

end Session

/-- A call that reads a source: when and under which numbers it was made, for how long it may, and
what was answered to its step before. -/
structure Audience where
  step : Nat
  intake : Nat
  start : Int
  timeout : Seconds
  deadline : Nat
  source : Source
  answers : List Result

namespace Audience

open Session

/-- The source of which these arrivals are left. -/
def rest (c : Audience) (left : List Arrival) : Source :=
  { c.source with arrivals := left }

def reader (c : Audience) (left : List Arrival) : Reader :=
  ⟨c.intake, c.start, c.timeout, c.rest left⟩

def call (c : Audience) : Call :=
  ⟨some c.step, []⟩

/-- Where the call is under way, if it does not wait for the source. -/
def own (c : Audience) (s : Session) : List (Result × Call) :=
  s.asks.filter fun x => x.2.step == some c.step

/-- Whether the ingestor of the call has finished its stream. -/
def finished? (c : Audience) (s : Session) : Option Bool :=
  (s.intakes[c.intake]?).map (·.ingestor.finished)

def Gives (c : Audience) (now : Int) (r : Result) : Prop :=
  ∃ elapsed : Nat, c.start + elapsed ≤ now ∧ c.source.Gives c.timeout c.deadline elapsed r

/-- What is left of the source has come no earlier than its pauses allow. -/
def Heard (c : Audience) (left : List Arrival) (now : Int) : Prop :=
  ∃ d : Nat, c.start + d ≤ now ∧ (c.rest left).outcomesFrom d ⊆ c.source.outcomesFrom 0

/-- A result, with a rest of the call that it is answered to, takes the call back to reading or to
what it gives. -/
inductive Leads (c : Audience) (s : Session) : Result → List Remainder → Prop
  | ends {r : Result} (h : c.Gives s.clock r) : Leads c s r []
  | failing {f : Failure} {rest : List Remainder} (h : c.Gives s.clock (.failed f)) :
      Leads c s (.failed f) rest
  | fails {f : Failure} {rest : List Remainder} (h : c.Gives s.clock (.failed f)) :
      Leads c s .nothing (.fail f :: rest)
  | reads {left : List Arrival} (hopen : c.finished? s = some false)
      (hheard : c.Heard left s.clock) : Leads c s .nothing [.consume (c.reader left)]
  /-- The stream is done, so the call stops reading. -/
  | closes {left : List Arrival} (hdone : c.finished? s = some true)
      (h : ∀ choices, c.Gives s.clock (.choices choices)) :
      Leads c s .nothing [.consume (c.reader left)]
  | offers {i : Nat} {final : Text} {left : List Arrival} (hdone : c.finished? s = some true)
      (h : ∀ choices, c.Gives s.clock (.choices choices)) :
      Leads c s .nothing [.offer i final, .consume (c.reader left)]

/-- The call waits for what the source has next, until the deadline at most. -/
structure Awaits (c : Audience) (id passed : Nat) (left : List Arrival) (s : Session) : Prop where
  waiters : s.waiters = [⟨id, c.reader left, c.call⟩]
  own : c.own s = []
  answers : s.answersTo c.step = c.answers
  unfinished : c.finished? s = some false
  heard : c.Heard left (c.start + passed)
  deadline : ⟨c.start + c.deadline, .deadline id⟩ ∈ s.alarms
  deadlines : ∀ a ∈ s.alarms, a.event = .deadline id → a.due = c.start + c.deadline

theorem sum_turns_lt (x : Remainder) (rest : List Remainder) :
    (rest.map Remainder.turns).sum < ((x :: rest).map Remainder.turns).sum := by
  have hpos := x.turns_pos
  rw [List.map_cons, List.sum_cons]
  omega

/-- Where the call is, and the turns that it still takes, at most. -/
inductive Stage (c : Audience) (s : Session) : Nat → Prop
  | waits {id passed n : Nat} {left : List Arrival} {x : Int × Task}
      (hawaits : c.Awaits id passed left s) (herrands : s.errands id = [x])
      (hbrings : Brings id (c.rest left)
        (c.start + passed + durationOf (c.rest left).nextPauses) x n) :
      Stage c s (n + (c.rest left).turnsBehind)
  | hangs {id passed : Nat} {left : List Arrival} (hawaits : c.Awaits id passed left s)
      (herrands : s.errands id = []) : Stage c s 2
  | runs {r : Result} {rest : List Remainder} (hwaiters : s.waiters = [])
      (hown : c.own s = [(r, ⟨some c.step, rest⟩)]) (hanswers : s.answersTo c.step = c.answers)
      (hleads : c.Leads s r rest) : Stage c s (rest.map Remainder.turns).sum
  | left {r : Result} (hwaiters : s.waiters = []) (hown : c.own s = [])
      (hanswers : s.answersTo c.step = c.answers ++ [r]) (hgives : c.Gives s.clock r) :
      Stage c s 0

/-- A session in which a call reads a source, or has read it. All other calls have nothing more to
do than to get their answers. -/
structure Listens (c : Audience) (s : Session) (rank : Nat) : Prop where
  clocked : s.Clocked
  ready : ∀ t ∈ s.queue, t.timer? ≠ none ∨ t.call? ≠ none ∨ ∃ w ∈ s.waiters, t.reader? = some w.id
  others : ∀ x ∈ s.asks, x.2.step ≠ some c.step → x.2.remainder = []
  control : ∀ a b, s.control ≠ .perform a b
  stage : c.Stage s rank

/-- The session when the call has just been taken out of it. -/
structure Silent (c : Audience) (s : Session) : Prop where
  clocked : s.Clocked
  ready : ∀ t ∈ s.queue, t.timer? ≠ none ∨ t.call? ≠ none
  others : ∀ b ∈ s.suspended, b.step ≠ some c.step ∧ b.remainder = []
  waiters : s.waiters = []
  answers : s.answersTo c.step = c.answers

/-- A session nearer to its rest than one of this rank. Releases are told apart from what timers
do, since a render that is done may give them more to do. -/
def Lower (u : Session) (rank' : Nat) (s : Session) (rank : Nat) : Prop :=
  rank' + u.released < rank + s.released ∨ rank' + u.released = rank + s.released ∧
    (u.toil < s.toil ∨ u.toil = s.toil ∧ u.control.turns < s.control.turns)

section

variable {c : Audience} {s u : Session} {id passed rank : Nat} {left : List Arrival} {a : Arrival}
  {r : Result} {rest : List Remainder} {now now' : Int} {x : Result × Call}

theorem Lower.lex {rank' : Nat} (h : Lower u rank' s rank) :
    Prod.Lex (· < ·) (Prod.Lex (· < ·) (· < ·)) (rank' + u.released, u.toil, u.control.turns)
      (rank + s.released, s.toil, s.control.turns) := by
  rcases h with hlt | ⟨heq, hlt | ⟨htoil, hlt⟩⟩
  · exact .left _ _ hlt
  · rw [heq]
    exact .right _ (.left _ _ hlt)
  · rw [heq, htoil]
    exact .right _ (.right _ hlt)

theorem Lower.trans {v : Session} {m n : Nat} (h : Lower v m u n) (h' : Lower u n s rank) :
    Lower v m s rank := by
  unfold Lower at *
  omega

/-! ## What comes of the source -/

theorem Heard.mono (h : c.Heard left now) (hle : now ≤ now') : c.Heard left now' := by
  obtain ⟨d, hd, houtcomes⟩ := h
  exact ⟨d, Int.le_trans hd hle, houtcomes⟩

theorem Heard.tail (h : c.Heard (a :: left) now) (hnow : now + durationOf a.pauses ≤ now') :
    c.Heard left now' := by
  obtain ⟨d, hd, houtcomes⟩ := h
  refine ⟨d + durationOf a.pauses, by push_cast; omega, fun o ho => houtcomes ?_⟩
  rw [Source.outcomesFrom_cons (s := c.rest (a :: left)) rfl]
  exact List.mem_cons_of_mem _ ho

theorem Gives.mono (h : c.Gives now r) (hle : now ≤ now') : c.Gives now' r := by
  obtain ⟨elapsed, helapsed, hgives⟩ := h
  exact ⟨elapsed, Int.le_trans helapsed hle, hgives⟩

/-- What is there by the deadline and ends the stream settles the result of the call. -/
theorem Heard.gives {o : Except Failure StreamRecord} (h : c.Heard left now)
    (hnext : ∀ d, (d + durationOf (c.rest left).nextPauses, o) ∈ (c.rest left).outcomesFrom d)
    (hlast : isLastOutcome o = true) (hnow : now' = now + durationOf (c.rest left).nextPauses)
    (hdeadline : now' ≤ c.start + c.deadline) (choices : List Text) :
    c.Gives now' (Exit.result ⟨0, some o, []⟩ c.timeout choices) := by
  obtain ⟨d, hd, houtcomes⟩ := h
  refine ⟨d + durationOf (c.rest left).nextPauses, by push_cast; omega, .inr ?_⟩
  exact ⟨_, houtcomes (hnext d), by dsimp only; omega, Nat.le_refl _, hlast, choices, rfl⟩

theorem gives_overdue (h : c.start + c.deadline ≤ now) :
    c.Gives now (.failed (.overdue c.timeout)) :=
  ⟨c.deadline, h, .inl ⟨Nat.le_refl _, rfl⟩⟩

/-! ## Where the call is -/

theorem Leads.aside (h : c.Leads s r rest) (hfinished : c.finished? u = c.finished? s)
    (hclock : s.clock ≤ u.clock) : c.Leads u r rest := by
  cases h with
  | ends h => exact .ends (h.mono hclock)
  | failing h => exact .failing (h.mono hclock)
  | fails h => exact .fails (h.mono hclock)
  | reads hopen hheard => exact .reads (hfinished.trans hopen) (hheard.mono hclock)
  | closes hdone h => exact .closes (hfinished.trans hdone) fun choices => (h choices).mono hclock
  | offers hdone h => exact .offers (hfinished.trans hdone) fun choices => (h choices).mono hclock

theorem finished?_setIngestor_of_eq (c : Audience) {i : Nat} {k : Intake} {g : Ingestor}
    (hk : s.intakes[i]? = some k) (hg : g.finished = k.ingestor.finished) :
    c.finished? (s.setIngestor i g) = c.finished? s := by
  unfold finished? setIngestor
  rw [Array.getElem?_modify]
  split
  next heq =>
    subst heq
    simp [hk, hg]
  · rfl

theorem finished?_setIngestor {k : Intake} (hk : s.intakes[c.intake]? = some k) (g : Ingestor) :
    c.finished? (s.setIngestor c.intake g) = some g.finished := by
  unfold finished?
  rw [setIngestor_intake hk]
  rfl

theorem exists_intake {b : Bool} (h : c.finished? s = some b) :
    ∃ k, s.intakes[c.intake]? = some k ∧ k.ingestor.finished = b := by
  simpa [finished?] using h

/-- Another session in which nothing has happened to the call. -/
structure Aside (c : Audience) (s u : Session) : Prop where
  clock : s.clock ≤ u.clock
  waiters : u.waiters = s.waiters
  finished : c.finished? u = c.finished? s
  answers : u.answersTo c.step = s.answersTo c.step
  own : (c.own u).Perm (c.own s)
  deadlines : ∀ w ∈ s.waiters, ∀ b, b.event = .deadline w.id → (b ∈ u.alarms ↔ b ∈ s.alarms)
  errands : ∀ w ∈ s.waiters, (u.errands w.id).Perm (s.errands w.id)

theorem Awaits.isLive (h : c.Awaits id passed left s) :
    s.isLive ⟨c.start + c.deadline, .deadline id⟩ = true :=
  (isLive_reader rfl).mpr ⟨⟨id, c.reader left, c.call⟩, by simp [h.waiters], rfl⟩

theorem Awaits.aside (h : c.Awaits id passed left s) (hu : c.Aside s u) :
    c.Awaits id passed left u where
  waiters := hu.waiters.trans h.waiters
  own := (h.own ▸ hu.own).eq_nil
  answers := hu.answers.trans h.answers
  unfinished := hu.finished.trans h.unfinished
  heard := h.heard
  deadline := (hu.deadlines ⟨id, c.reader left, c.call⟩ (by simp [h.waiters]) _ rfl).mpr h.deadline
  deadlines b hb heq := h.deadlines b
    ((hu.deadlines ⟨id, c.reader left, c.call⟩ (by simp [h.waiters]) b heq).mp hb) heq

theorem Stage.aside (h : c.Stage s rank) (hu : c.Aside s u) : c.Stage u rank := by
  cases h with
  | waits hawaits herrands hbrings =>
    have hperm := hu.errands _ (hawaits.waiters ▸ List.mem_singleton_self _)
    rw [herrands] at hperm
    exact .waits (hawaits.aside hu) (List.perm_singleton.mp hperm) hbrings
  | hangs hawaits herrands =>
    have hperm := hu.errands _ (hawaits.waiters ▸ List.mem_singleton_self _)
    rw [herrands] at hperm
    exact .hangs (hawaits.aside hu) hperm.eq_nil
  | runs hwaiters hown hanswers hleads =>
    have hperm := hu.own
    rw [hown] at hperm
    exact .runs (hu.waiters.trans hwaiters) (List.perm_singleton.mp hperm)
      (hu.answers.trans hanswers) (hleads.aside hu.finished hu.clock)
  | left hwaiters hown hanswers hgives =>
    exact .left (hu.waiters.trans hwaiters) (hown ▸ hu.own).eq_nil (hu.answers.trans hanswers)
      (hgives.mono hu.clock)

/-- When someone waits, it is the reader of the call. -/
theorem Stage.awaits {w : Waiter} (h : c.Stage s rank) (hw : w ∈ s.waiters) :
    ∃ passed left, c.Awaits w.id passed left s ∧
      (s.errands w.id = [] ∧ rank = 2 ∨ ∃ x n, s.errands w.id = [x] ∧
        Brings w.id (c.rest left) (c.start + passed + durationOf (c.rest left).nextPauses) x n ∧
          rank = n + (c.rest left).turnsBehind) := by
  cases h with
  | runs hwaiters | left hwaiters =>
    rw [hwaiters] at hw
    cases hw
  | hangs hawaits herrands =>
    rw [hawaits.waiters, List.mem_singleton] at hw
    subst hw
    exact ⟨_, _, hawaits, .inl ⟨herrands, rfl⟩⟩
  | waits hawaits herrands hbrings =>
    rw [hawaits.waiters, List.mem_singleton] at hw
    subst hw
    exact ⟨_, _, hawaits, .inr ⟨_, _, herrands, hbrings, rfl⟩⟩

/-! ## Handing over to a call -/

section

variable {p : Player} {h : Held}

theorem mem_asks_of_hands (hu : s.Hands p x u) {y : Result × Call} (hy : y ∈ u.asks) :
    y = x ∨ y.2 ∈ s.suspended := by
  rcases List.mem_cons.mp (hu.asks.mem_iff.mp hy) with rfl | hy
  · exact .inl rfl
  · obtain ⟨b, hb, rfl⟩ := List.mem_map.mp hy
    exact .inr hb

theorem ready_of_hands {P : Task → Prop} (hu : s.Hands p x u) (h : ∀ t ∈ s.queue, P t)
    (hpace : ∀ n, P (.pace n)) : ∀ t ∈ u.queue, P t := by
  rcases hu.queue with hqueue | ⟨n, hqueue⟩ <;> rw [hqueue]
  · exact h
  · exact List.forall_mem_append.mpr ⟨h, List.forall_mem_singleton.mpr (hpace n)⟩

theorem own_of_hands (hu : s.Hands p x u) :
    (c.own u).Perm ((x :: s.suspended.map (Prod.mk .nothing)).filter
      fun y => y.2.step == some c.step) :=
  hu.asks.filter _

theorem errands_of_hands (hu : s.Hands p x u) (id : Nat) : u.errands id = s.errands id := by
  unfold Session.errands pending
  rw [hu.alarms, hu.clock]
  rcases hu.queue with hqueue | ⟨n, hqueue⟩ <;> simp [hqueue, Task.reader?]

theorem released_of_hands (hu : s.Hands p x u) : u.released = s.released := by
  unfold released
  rcases hu.queue with hqueue | ⟨n, hqueue⟩ <;> simp [hqueue, Task.call?]

theorem answersTo_of_finished (h : u.finished = s.finished) (step : Nat) :
    u.answersTo step = s.answersTo step := by
  rw [answersTo, h, answersTo]

theorem finished?_of_hands (hu : s.Hands p x u) : c.finished? u = c.finished? s := by
  rw [finished?, hu.intakes, finished?]

/-- A call of someone else goes on. -/
theorem Listens.hands (h : c.Listens s rank) (hidle : s.control = .idle) (hp : s.player.Arms p)
    (hu : s.Hands p x u) (hstep : x.2.step ≠ some c.step) (hrest : x.2.remainder = []) :
    c.Listens u rank := by
  have hasks := asks_of_idle hidle
  have hown : (c.own u).Perm (c.own s) := by
    have hperm := own_of_hands (c := c) hu
    rwa [List.filter_cons_of_neg (by simpa using hstep), ← hasks] at hperm
  refine ⟨h.clocked.hands hp hu, ?_, ?_, hu.control, h.stage.aside ?_⟩
  · rw [hu.waiters]
    exact ready_of_hands hu h.ready fun n => .inl nofun
  · intro y hy hne
    rcases mem_asks_of_hands hu hy with rfl | hy
    · exact hrest
    · refine h.others (.nothing, y.2) ?_ hne
      rw [hasks]
      exact List.mem_map_of_mem hy
  · refine ⟨Int.le_of_eq hu.clock.symm, hu.waiters, finished?_of_hands hu,
      answersTo_of_finished hu.finished _, hown, ?_, fun w _ => .of_eq (errands_of_hands hu w.id)⟩
    intro w _ b _
    rw [hu.alarms]

/-- The call itself goes on. -/
theorem Silent.runs (h : c.Silent s) (hp : s.player.Arms p)
    (hu : s.Hands p (r, ⟨some c.step, rest⟩) u) (hleads : c.Leads u r rest) :
    c.Listens u (rest.map Remainder.turns).sum := by
  have hown : c.own u = [(r, ⟨some c.step, rest⟩)] := by
    have hperm := own_of_hands (c := c) hu
    have hnone : (s.suspended.map (Prod.mk Result.nothing)).filter
        (fun y => y.2.step == some c.step) = [] := by
      refine List.filter_eq_nil_iff.mpr fun y hy => ?_
      obtain ⟨b, hb, rfl⟩ := List.mem_map.mp hy
      simpa using (h.others b hb).1
    rw [List.filter_cons_of_pos (by simp), hnone] at hperm
    exact List.perm_singleton.mp hperm
  refine ⟨h.clocked.hands hp hu, ?_, ?_, hu.control, ?_⟩
  · refine ready_of_hands hu (fun t ht => ?_) fun n => .inl nofun
    exact (h.ready t ht).imp_right .inl
  · intro y hy hne
    rcases mem_asks_of_hands hu hy with rfl | hy
    · exact absurd rfl hne
    · exact (h.others _ hy).2
  · exact .runs (hu.waiters.trans h.waiters) hown
      ((answersTo_of_finished hu.finished _).trans h.answers) hleads

/-- When the call is among those under way, it does not wait for the source, and it is there only
once. -/
theorem Stage.of_asks {l : List (Result × Call)} (h : c.Stage s rank)
    (hasks : s.asks.Perm ((r, ⟨some c.step, rest⟩) :: l)) :
    s.waiters = [] ∧ s.answersTo c.step = c.answers ∧ c.Leads s r rest ∧
      rank = (rest.map Remainder.turns).sum ∧ ∀ y ∈ l, y.2.step ≠ some c.step := by
  have hown := hasks.filter fun y => y.2.step == some c.step
  rw [List.filter_cons_of_pos (by simp)] at hown
  change (c.own s).Perm _ at hown
  cases h with
  | waits hawaits => exact absurd (hawaits.own ▸ hown).nil_eq.symm (List.cons_ne_nil _ _)
  | hangs hawaits => exact absurd (hawaits.own ▸ hown).nil_eq.symm (List.cons_ne_nil _ _)
  | left _ hnone => exact absurd (hnone ▸ hown).nil_eq.symm (List.cons_ne_nil _ _)
  | runs hwaiters hown' hanswers hleads =>
    rw [hown'] at hown
    obtain ⟨heq, hnone⟩ := List.cons.inj (List.singleton_perm.mp hown)
    cases heq
    refine ⟨hwaiters, hanswers, hleads, rfl, fun y hy hstep => ?_⟩
    exact absurd (List.filter_eq_nil_iff.mp hnone.symm y hy) (by simpa using hstep)

/-- When the call is under way, the session without it is silent. -/
theorem Listens.silent_of_asks (h : c.Listens s rank) (hu : u.Clocked) (hqueue : u.queue ⊆ s.queue)
    (hwaiters : u.waiters = s.waiters) (hfinished : u.finished = s.finished)
    (hasks : s.asks.Perm ((r, ⟨some c.step, rest⟩) :: u.suspended.map (Prod.mk .nothing))) :
    c.Silent u ∧ c.Leads s r rest ∧ rank = (rest.map Remainder.turns).sum := by
  obtain ⟨hnone, hanswers, hleads, hrank, hothers⟩ := h.stage.of_asks hasks
  refine ⟨⟨hu, fun t ht => ?_, fun b hb => ?_, hwaiters.trans hnone,
    (answersTo_of_finished hfinished _).trans hanswers⟩, hleads, hrank⟩
  · rcases h.ready t (hqueue ht) with htimer | hcall | ⟨w, hw, -⟩
    · exact .inl htimer
    · exact .inr hcall
    · rw [hnone] at hw
      cases hw
  · have hmem : (Result.nothing, b) ∈ u.suspended.map (Prod.mk Result.nothing) :=
      List.mem_map_of_mem hb
    have hstep := hothers _ hmem
    exact ⟨hstep, h.others _ (hasks.mem_iff.mpr (List.mem_cons_of_mem _ hmem)) hstep⟩

/-- A call that runs is taken out of the session. -/
theorem Listens.silent (h : c.Listens s rank)
    (hask : s.control.ask? = some (r, ⟨some c.step, rest⟩)) :
    c.Silent s ∧ c.Leads s r rest ∧ rank = (rest.map Remainder.turns).sum := by
  refine h.silent_of_asks h.clocked (List.Subset.refl _) rfl rfl (.of_eq ?_)
  rw [asks, hask]
  rfl

end

/-! ## Turns of a call -/

/-- One turn later the session is nearer to its rest, at the same time. -/
def Goes (c : Audience) (s : Session) (rank : Nat) (u : Session) : Prop :=
  u.clock = s.clock ∧ ∃ rank', c.Listens u rank' ∧ Lower u rank' s rank

theorem answersTo_push (s : Session) (step step' : Nat) (r : Result) :
    { s with finished := s.finished.push (step, r) }.answersTo step' =
      s.answersTo step' ++ if step = step' then [r] else [] := by
  unfold answersTo
  by_cases heq : step = step' <;> simp [heq]

/-- The call gets its answer. -/
theorem Silent.answered (h : c.Silent s) (hgives : c.Gives s.clock r) :
    c.Listens { s with control := .idle, finished := s.finished.push (c.step, r) } 0 := by
  let u : Session := { s with control := .idle, finished := s.finished.push (c.step, r) }
  have hasks : u.asks = s.suspended.map (Prod.mk .nothing) := rfl
  have hnone : c.own u = [] := by
    refine List.filter_eq_nil_iff.mpr fun y hy => ?_
    obtain ⟨b, hb, rfl⟩ := List.mem_map.mp hy
    simpa using (h.others b hb).1
  refine ⟨h.clocked.mono rfl (List.Subset.refl _) rfl (.refl _) (List.Subset.refl _), ?_, ?_, nofun,
    .left h.waiters hnone ?_ hgives⟩
  · exact fun t ht => (h.ready t ht).imp_right .inl
  · intro y hy _
    obtain ⟨b, hb, rfl⟩ := List.mem_map.mp hy
    exact (h.others b hb).2
  · exact (answersTo_push s _ _ r).trans (by rw [if_pos rfl, h.answers])

theorem Silent.answer (h : c.Silent s) (hleads : c.Leads s r rest) :
    c.Listens { s with control := .answer r ⟨some c.step, rest⟩ } (rest.map Remainder.turns).sum :=
  h.runs (.refl _) (s.answer_hands _ _) (hleads.aside rfl (Int.le_refl _))

theorem Silent.goes (h : c.Silent s) (hleads : c.Leads s r rest)
    (hlt : (rest.map Remainder.turns).sum < rank) :
    c.Goes s rank { s with control := .answer r ⟨some c.step, rest⟩ } :=
  ⟨rfl, _, h.answer hleads, .inl (Nat.add_lt_add_right hlt _)⟩

theorem Silent.goes_answered (h : c.Silent s) (hgives : c.Gives s.clock r) {b : Call}
    (hcontrol : s.control = .answer r b) :
    c.Goes s 0 { s with control := .idle, finished := s.finished.push (c.step, r) } :=
  ⟨rfl, 0, h.answered hgives, .inr ⟨rfl, .inr ⟨rfl, by rw [hcontrol]; exact Nat.two_pos⟩⟩⟩

/-- The call goes back to reading. -/
theorem Silent.goes_read {reader : Reader} {b : Call} (h : c.Silent s)
    (hleads : c.Leads s .nothing [.consume reader]) (hcontrol : s.control = .answer r b) :
    c.Goes s (List.map Remainder.turns [.consume reader]).sum
      { s with control := .read reader ⟨some c.step, []⟩ } := by
  refine ⟨rfl, _, h.runs (.refl _) (s.read_hands reader ⟨some c.step, []⟩)
    (hleads.aside rfl (Int.le_refl _)), .inr ⟨rfl, .inr ⟨rfl, ?_⟩⟩⟩
  rw [hcontrol]
  exact Nat.one_lt_two

theorem Silent.withIntakes (h : c.Silent s) (intakes : Array Intake) (offered : Array (List Text)) :
    c.Silent { s with intakes := intakes, offered := offered } :=
  ⟨h.clocked.congr rfl rfl rfl rfl rfl, h.ready, h.others, h.waiters, h.answers⟩

/-- Choices are offered before the call goes back to reading. -/
theorem Silent.goes_offer (h : c.Silent s) (i : Nat) (final : Text)
    (hdone : c.finished? s = some true) (hgives : ∀ choices, c.Gives s.clock (.choices choices)) :
    c.Goes s (List.map Remainder.turns [.offer i final, .consume (c.reader left)]).sum
      (s.answer .nothing ⟨some c.step, [.offer i final, .consume (c.reader left)]⟩) := by
  cases hk : s.intakes[i]? with
  | none =>
    have hanswer : s.answer .nothing ⟨some c.step, [.offer i final, .consume (c.reader left)]⟩ =
        { s with control := .answer .nothing ⟨some c.step, [.consume (c.reader left)]⟩ } := by
      simp only [Session.answer, hk]
    rw [hanswer]
    exact h.goes (.closes hdone hgives) (sum_turns_lt _ _)
  | some k =>
    let v := s.offering i k final
    have hanswer : s.answer .nothing ⟨some c.step, [.offer i final, .consume (c.reader left)]⟩ =
        { v with control := .answer .nothing ⟨some c.step, [.consume (c.reader left)]⟩ } := by
      simp only [Session.answer, hk]
      rfl
    have hv : c.Silent v := h.withIntakes _ _
    have hdone' : c.finished? v = some true :=
      (finished?_setIngestor_of_eq c (g := k.ingestor.offer final) hk rfl).trans hdone
    rw [hanswer]
    exact ⟨rfl, _, hv.answer (.closes hdone' hgives),
      .inl (Nat.add_lt_add_right (sum_turns_lt _ _) _)⟩

/-- The answer to a call of someone else goes nowhere else. -/
theorem Listens.answer_other {step : Option Nat} (h : c.Listens s rank)
    (hcontrol : s.control = .answer r ⟨step, []⟩) (hstep : step ≠ some c.step) :
    c.Goes s rank (s.answer r ⟨step, []⟩) := by
  let u := s.answer r ⟨step, []⟩
  have hasks : s.asks = (r, ⟨step, []⟩) :: u.asks := by
    rw [asks, hcontrol]
    rfl
  have hown : c.own s = c.own u := by
    rw [own, hasks, List.filter_cons_of_neg (by simpa using hstep), own]
  have hanswers : u.answersTo c.step = s.answersTo c.step := by
    cases step with
    | none => rfl
    | some k =>
      refine (answersTo_push s k _ r).trans ?_
      rw [if_neg fun heq => hstep (congrArg some heq), List.append_nil]
  refine ⟨rfl, rank, ⟨?_, h.ready, ?_, by rintro _ _ ⟨⟩, h.stage.aside ?_⟩,
    .inr ⟨rfl, .inr ⟨rfl, ?_⟩⟩⟩
  · exact h.clocked.mono rfl (List.Subset.refl _) rfl (.refl _) (List.Subset.refl _)
  · exact fun y hy => h.others y (hasks ▸ List.mem_cons_of_mem _ hy)
  · exact ⟨Int.le_refl _, rfl, rfl, hanswers, .of_eq hown.symm, fun _ _ _ _ => .rfl,
      fun _ _ => .refl _⟩
  · rw [hcontrol]
    exact Nat.two_pos

/-- An answer goes to what remains of its call. -/
theorem Listens.answer {b : Call} (h : c.Listens s rank) (hcontrol : s.control = .answer r b) :
    c.Goes s rank (s.answer r b) := by
  obtain ⟨step, rest⟩ := b
  by_cases hstep : step = some c.step
  · subst hstep
    obtain ⟨hsilent, hleads, rfl⟩ := h.silent (congrArg Control.ask? hcontrol)
    cases hleads with
    | ends hgives => exact hsilent.goes_answered hgives hcontrol
    | @failing f _ hgives =>
      cases rest with
      | nil => exact hsilent.goes_answered hgives hcontrol
      | cons y rest =>
        exact hsilent.goes (.failing hgives) (sum_turns_lt y rest)
    | fails hgives => exact hsilent.goes (.failing hgives) (sum_turns_lt _ _)
    | reads hopen hheard => exact hsilent.goes_read (.reads hopen hheard) hcontrol
    | closes hdone hgives => exact hsilent.goes_read (.closes hdone hgives) hcontrol
    | @offers i final left hdone hgives => exact hsilent.goes_offer i final hdone hgives
  · have hnil : rest = [] := by
      refine h.others (r, ⟨step, rest⟩) ?_ hstep
      rw [asks, hcontrol]
      exact List.mem_cons_self
    subst hnil
    exact h.answer_other hcontrol hstep

/-! ## Reading -/

/-- The call gives up, and fails when it is not held any more. -/
theorem Silent.abandon {f : Failure} {b : Bool} (h : c.Silent s) (hread : c.finished? s = some b)
    (hgives : c.Gives s.clock (.failed f)) (left : List Arrival) :
    let u := s.abandon (c.reader left) f c.call
    u.clock = s.clock ∧ u.released = s.released ∧ c.Listens u 1 := by
  intro u
  obtain ⟨k, hk, -⟩ := exists_intake hread
  let g := k.ingestor.abort s.player
  let v := s.setIngestor c.intake g.1
  have hu : u = v.await g.2 ⟨some c.step, [.fail f]⟩ := by
    simp only [u, Session.abandon, reader, hk]
    rfl
  have hv : c.Silent v := h.withIntakes _ _
  have hands := v.await_hands g.2 ⟨some c.step, [.fail f]⟩
  have hreleased : (v.await g.2 ⟨some c.step, [.fail f]⟩).released = v.released :=
    released_of_hands hands
  rw [hu]
  exact ⟨hands.clock, hreleased,
    hv.runs (Player.abort_arms k.ingestor s.player) hands (.fails (hands.clock.symm ▸ hgives))⟩

theorem Silent.errands_nextId (h : c.Silent s) : s.errands s.nextId = [] := by
  apply List.filter_eq_nil_iff.mpr
  intro x hx hreader
  replace hreader : x.2.reader? = some s.nextId := by simpa using hreader
  rcases List.mem_append.mp hx with hx | hx
  · obtain ⟨t, ht, rfl⟩ := List.mem_map.mp hx
    rcases h.ready t ht with htimer | hcall
    · exact htimer (Task.timer?_of_reader? hreader)
    · exact hcall (Task.call?_of_reader? hreader)
  · obtain ⟨a, ha, rfl⟩ := List.mem_map.mp hx
    exact Nat.lt_irrefl _ (h.clocked.names a ha _ (Event.waiter?_of_reader? hreader))

/-- A reader that is not too late waits for what comes next. -/
theorem Silent.park (h : c.Silent s) (hopen : c.finished? s = some false)
    (hheard : c.Heard left s.clock) (hclock : s.clock = c.start + passed)
    (hpassed : passed ≤ c.deadline) :
    let u := (s.park (c.reader left) c.call).setAlarm (c.start + c.deadline) (.deadline s.nextId)
    c.Listens u ((c.rest left).nextPauses.length + 3 + (c.rest left).turnsBehind) := by
  intro u
  let waiter : Waiter := ⟨s.nextId, c.reader left, c.call⟩
  let v : Session :=
    { s with control := .idle, waiters := s.waiters ++ [waiter], nextId := s.nextId + 1 }
  have hwaiters : v.waiters = [waiter] := by
    change s.waiters ++ _ = _
    rw [h.waiters, List.nil_append]
  have hv : v.Clocked := h.clocked.named (w := waiter) rfl rfl rfl rfl rfl rfl
  have hv' : (v.enqueue (.fetch s.nextId)).Clocked := hv.congr rfl rfl rfl rfl rfl
  have hdue : max s.clock (c.start + c.deadline) = c.start + c.deadline := by omega
  have hnone : v.errands s.nextId = [] := h.errands_nextId
  have herrands : u.errands s.nextId = [(s.clock, .fetch s.nextId)] :=
    (errands_setAlarm_of_ne (by rintro ⟨⟩) _).trans (errands_enqueue rfl hnone)
  have hsuspended : u.suspended = s.suspended := by
    simp [suspended, u, Session.park, enqueue, setAlarm, Task.call?]
  have hasks : u.asks = s.suspended.map (Prod.mk .nothing) := by
    rw [asks, hsuspended]
    rfl
  have hown : c.own u = [] := by
    refine List.filter_eq_nil_iff.mpr fun y hy => ?_
    rw [hasks] at hy
    obtain ⟨b, hb, rfl⟩ := List.mem_map.mp hy
    simpa using (h.others b hb).1
  refine ⟨hv'.setAlarm (fun n hn => ?_) (fun id hid => ?_) _, ?_, ?_, by rintro _ _ ⟨⟩, ?_⟩
  · cases hn
  · cases hid
    exact Nat.lt_succ_self _
  · refine List.forall_mem_append.mpr ⟨fun t ht => ?_, List.forall_mem_singleton.mpr ?_⟩
    · exact (h.ready t ht).imp_right .inl
    · exact .inr (.inr ⟨waiter, by simp [u, Session.park, enqueue, setAlarm, waiter], rfl⟩)
  · intro y hy _
    rw [hasks] at hy
    obtain ⟨b, hb, rfl⟩ := List.mem_map.mp hy
    exact (h.others b hb).2
  · have hawaits : c.Awaits s.nextId passed left u := by
      refine ⟨hwaiters, hown, h.answers, hopen, hclock ▸ hheard, ?_, ?_⟩
      · refine List.mem_append_right _ (List.mem_singleton.mpr ?_)
        exact congrArg (Alarm.mk · (.deadline s.nextId)) hdue.symm
      · refine List.forall_mem_append.mpr ⟨fun b hb heq => ?_,
          List.forall_mem_singleton.mpr fun _ => hdue⟩
        have hlt := h.clocked.names b hb s.nextId (by rw [heq]; rfl)
        exact absurd hlt (Nat.lt_irrefl _)
    exact .waits hawaits herrands (.fetch (by rw [hclock]))

theorem setAlarm_congr {due due' : Int} (h : max s.clock due = max s.clock due') (e : Event) :
    s.setAlarm due e = s.setAlarm due' e := by
  rw [setAlarm, h, setAlarm]

theorem released_park (s : Session) (r : Reader) (b : Call) :
    (s.park r b).released = s.released := by
  simp [released, park, enqueue, Task.call?]

/-- While the stream is open the call waits for what comes next, or gives up when it is too late. -/
theorem Silent.read_open (h : c.Silent s) (hends : c.timeout.EndsAfter c.deadline)
    (hopen : c.finished? s = some false) (hheard : c.Heard left s.clock) :
    c.Goes s (c.rest left).turns (s.read (c.reader left) c.call) := by
  obtain ⟨k, hk, hunfinished⟩ := exists_intake hopen
  obtain ⟨m, hm, hdeadline⟩ := Option.map_eq_some_iff.mp hends.finite
  have hturns := (c.rest left).turns_eq
  have hstart : c.start ≤ s.clock := by
    obtain ⟨d, hd, -⟩ := hheard
    omega
  by_cases hover : c.timeout.isOver (s.clock - c.start).toNat = true
  · have hread : s.read (c.reader left) c.call =
        s.abandon (c.reader left) (.overdue c.timeout) c.call := by
      simp [Session.read, Audience.reader, hk, hunfinished, hover]
    have hlate := hends.deadline_le hover
    obtain ⟨hclock, hreleased, hu⟩ := h.abandon hopen (gives_overdue (by omega)) left
    rw [hread]
    exact ⟨hclock, 1, hu, .inl (by omega)⟩
  · -- The clock may have gone on while records were rendered, but it is not past the deadline.
    have hpassed := hends.le_deadline (eq_false_of_ne_true hover)
    have hu := h.park hopen hheard (by omega) hpassed
    have hread : s.read (c.reader left) c.call =
        (s.park (c.reader left) c.call).setAlarm (c.start + c.deadline) (.deadline s.nextId) := by
      have hdue : max s.clock (c.start + m) = max s.clock (c.start + c.deadline) := by omega
      rw [← setAlarm_congr (s := s.park (c.reader left) c.call) hdue (.deadline s.nextId)]
      simp [Session.read, Audience.reader, hk, hunfinished, hover, hm]
    have hreleased := released_park s (c.reader left) c.call
    rw [hread]
    refine ⟨rfl, _, hu, .inl ?_⟩
    change _ + (s.park (c.reader left) c.call).released < _
    omega

/-- Behind the end of its stream the call stops reading. -/
theorem Silent.read_done (h : c.Silent s) (hdone : c.finished? s = some true)
    (hgives : ∀ choices, c.Gives s.clock (.choices choices)) (left : List Arrival) :
    c.Goes s (c.rest left).turns (s.read (c.reader left) c.call) := by
  obtain ⟨k, hk, hfinished⟩ := exists_intake hdone
  have hread : s.read (c.reader left) c.call =
      s.give s.player (.choices k.ingestor.choices) c.call := by
    simp [Session.read, Audience.reader, hk, hfinished]
  have hands := s.give_hands s.player (.choices k.ingestor.choices) c.call
  rw [hread]
  refine ⟨hands.clock, _, h.runs (.refl _) hands (.ends (hands.clock.symm ▸ hgives _)), .inl ?_⟩
  rw [released_of_hands hands]
  exact Nat.add_lt_add_right (Nat.succ_pos _) _

theorem Listens.read {reader : Reader} {b : Call} (h : c.Listens s rank)
    (hends : c.timeout.EndsAfter c.deadline) (hcontrol : s.control = .read reader b) :
    c.Goes s rank (s.read reader b) := by
  obtain ⟨step, rest⟩ := b
  have hask := congrArg Control.ask? hcontrol
  -- Nobody else reads, since all others have nothing left to do.
  have hstep : step = some c.step := by
    by_contra hne
    refine List.cons_ne_nil _ _ (h.others (.nothing, ⟨step, .consume reader :: rest⟩) ?_ hne)
    rw [asks, hask]
    exact List.mem_cons_self
  subst hstep
  obtain ⟨hsilent, hleads, rfl⟩ := h.silent hask
  cases hleads with
  | reads hopen hheard => exact hsilent.read_open hends hopen hheard
  | @closes left hdone hgives => exact hsilent.read_done hdone hgives left

end

end Audience

end StoryPlayer
