import StoryPlayer.Proofs.Playback.Basic
import StoryPlayer.Proofs.Stream.Intake

/-!
# The one timer of a playback

At most one timer task is ever alive. It is the timer that the player holds, and it is what the
phase asks for: a reveal of the current command while that is typed, and otherwise at most one that
goes on, armed in the present session while the player waits for input.

That there is no other task rests on two things. Whatever arms a timer, or leaves the phase that one
fits, cancels the held one before, and the handle is let go without cancelling only by the task it
names, which is over then. So the invariant `Player.Steady` says both of the tasks that they are held
and of the timer that it fits the phase. It ties the timer to the renders that are under way as
well, since a render that is done late runs the player again. Only the render of the present session
has an effect, there is one such render at most, and as long as there is one no timer is armed.
-/

namespace StoryPlayer

namespace Player

/-- A timer that reveals what is still hidden of the current command. -/
def Reveals (p : Player) (t : Timer) : Prop :=
  ∃ c rest, p.current = some c ∧ t.job = .reveal rest ∧ c.spoken? = some (p.display.text ++ rest)

theorem Reveals.canWait {p : Player} {t : Timer} (h : p.Reveals t) : t.canWait = true := by
  obtain ⟨c, rest, -, hjob, -⟩ := h
  exact canWait_of_reveal hjob

/-- The timer is one that the phase asks for. -/
def TimerFits (p : Player) : Prop :=
  match p.phase with
  | .typing => ∃ t, p.timer = some t ∧ t.session = p.session ∧ p.Reveals t
  | .awaitingInput => ∀ t, p.timer = some t → t.session = p.session ∧ ∃ delay, t.job = .goOn delay
  | _ => p.timer = none

/-- The tasks that are alive are no more than the timer. -/
structure TasksFit (p : Player) : Prop where
  held : p.tasks.Sublist p.timer.toList
  /-- Only a timer that cannot wait is over while it is still held. -/
  alive : ∀ t, p.timer = some t → t.canWait = true → p.tasks = [t]

/-- The timer fits the phase and is the only task, and the renders under way fit as well. -/
structure Steady (p : Player) (ts : List Ticket) : Prop where
  fits : p.TimerFits
  tasks : p.TasksFit
  serial : ∀ t, p.timer = some t → t.serial < p.serial
  issued : ∀ t ∈ ts, t.session ≤ p.session
  /-- The render of the present session is that of the current command, and no timer is armed. -/
  awaited : ∀ t ∈ ts, t.session = p.session →
    p.current = some t.command ∧ p.phase ≠ .typing ∧ p.phase ≠ .awaitingInput
  distinct : ts.Pairwise fun t u => t.session ≠ u.session

theorem TimerFits.of_none {p : Player} (h : p.timer = none) (hphase : p.phase ≠ .typing) :
    p.TimerFits := by
  unfold TimerFits
  split
  next htyping => exact absurd htyping hphase
  · simp [h]
  · exact h

theorem TimerFits.of_reveals {p : Player} {t : Timer} (hphase : p.phase = .typing)
    (ht : p.timer = some t) (hsession : t.session = p.session) (h : p.Reveals t) :
    p.TimerFits := by
  unfold TimerFits
  rw [hphase]
  exact ⟨t, ht, hsession, h⟩

theorem TimerFits.timer_eq_none {p : Player} (h : p.TimerFits) (htyping : p.phase ≠ .typing)
    (hawaiting : p.phase ≠ .awaitingInput) : p.timer = none := by
  unfold TimerFits at h
  split at h
  next hphase => exact absurd hphase htyping
  next hphase => exact absurd hphase hawaiting
  · exact h

theorem TimerFits.reveals {p : Player} (h : p.TimerFits) (hphase : p.phase = .typing) :
    ∃ t, p.timer = some t ∧ t.session = p.session ∧ p.Reveals t := by
  simpa [TimerFits, hphase] using h

theorem TimerFits.goesOn {p : Player} (h : p.TimerFits) (hphase : p.phase = .awaitingInput)
    {t : Timer} (ht : p.timer = some t) : t.session = p.session ∧ ∃ delay, t.job = .goOn delay := by
  unfold TimerFits at h
  rw [hphase] at h
  exact h t ht

theorem TimerFits.phase_of_reveal {p : Player} (h : p.TimerFits) {t : Timer} {rest : Text}
    (ht : p.timer = some t) (hjob : t.job = .reveal rest) : p.phase = .typing := by
  unfold TimerFits at h
  split at h
  next hphase => exact hphase
  · obtain ⟨-, delay, hdelay⟩ := h t ht
    rw [hjob] at hdelay
    cases hdelay
  · rw [h] at ht
    cases ht

/-- What a timer that reveals has left is what is hidden of the current command. -/
theorem TimerFits.reveals_of_timer {p : Player} (h : p.TimerFits) {t : Timer} {rest : Text}
    (ht : p.timer = some t) (hjob : t.job = .reveal rest) :
    t.session = p.session ∧
      ∃ c, p.current = some c ∧ c.spoken? = some (p.display.text ++ rest) := by
  obtain ⟨u, hu, hsession, c, hidden, hcurrent, hreveal, htext⟩ :=
    h.reveals (h.phase_of_reveal ht hjob)
  rw [ht] at hu
  cases hu
  rw [hjob] at hreveal
  cases hreveal
  exact ⟨hsession, c, hcurrent, htext⟩

/-- A timer that goes on is armed only in its session and while the player waits for input. -/
theorem TimerFits.guard_of_goOn {p : Player} (h : p.TimerFits) {t : Timer} {delay : Int}
    (ht : p.timer = some t) (hjob : t.job = .goOn delay) :
    t.session = p.session ∧ p.phase = .awaitingInput := by
  unfold TimerFits at h
  split at h
  · obtain ⟨u, hu, -, c, rest, -, hreveal, -⟩ := h
    rw [ht] at hu
    cases hu
    rw [hjob] at hreveal
    cases hreveal
  next hphase => exact ⟨(h t ht).1, hphase⟩
  · rw [h] at ht
    cases ht

namespace TasksFit

variable {p q : Player}

/-- It is enough that the timer is alive. -/
theorem of_eq (h : p.tasks = p.timer.toList) : p.TasksFit where
  held := h ▸ .refl _
  alive t ht _ := by rw [h, ht, Option.toList_some]

theorem of_none (htimer : p.timer = none) (htasks : p.tasks = []) : p.TasksFit :=
  .of_eq (by rw [htimer, htasks, Option.toList_none])

theorem of_singleton {t : Timer} (htimer : p.timer = some t) (htasks : p.tasks = [t]) :
    p.TasksFit :=
  .of_eq (by rw [htimer, htasks, Option.toList_some])

theorem congr (h : p.TasksFit) (htimer : q.timer = p.timer) (htasks : q.tasks = p.tasks) :
    q.TasksFit where
  held := by simpa only [htimer, htasks] using h.held
  alive := by simpa only [htimer, htasks] using h.alive

theorem tasks_eq_nil (h : p.TasksFit) (htimer : p.timer = none) : p.tasks = [] := by
  have hheld := h.held
  rw [htimer] at hheld
  exact List.sublist_nil.mp hheld

theorem timer_of_mem (h : p.TasksFit) {t : Timer} (ht : t ∈ p.tasks) : p.timer = some t :=
  Option.mem_toList.mp (h.held.subset ht)

theorem length_le_one (h : p.TasksFit) : p.tasks.length ≤ 1 :=
  Nat.le_trans h.held.length_le Option.length_toList_le

/-- Cancelling the timer leaves no task alive. -/
theorem disarm_tasks (h : p.TasksFit) : p.disarm.tasks = [] := by
  refine List.filter_eq_nil_iff.mpr fun t ht => ?_
  simp [holds, h.timer_of_mem ht]

theorem arm_tasks (h : p.TasksFit) (session : Nat) (job : Job) :
    (p.arm session job).tasks = (p.arm session job).timer.toList := by
  change p.disarm.tasks ++ _ = _
  rw [h.disarm_tasks, List.nil_append]
  rfl

theorem arm (h : p.TasksFit) (session : Nat) (job : Job) : (p.arm session job).TasksFit :=
  .of_eq (h.arm_tasks session job)

/-- When the timer is over, no task is left alive. -/
theorem drop_tasks (h : p.TasksFit) {t : Timer} (ht : p.timer = some t) :
    (p.drop t).tasks = [] := by
  have hdrop : (p.drop t).letGo.tasks = p.disarm.tasks := by rw [drop_letGo ht]
  exact hdrop.trans h.disarm_tasks

end TasksFit

namespace Steady

variable {p : Player} {ts : List Ticket}

theorem tail {t : Ticket} (h : p.Steady (t :: ts)) : p.Steady ts where
  fits := h.fits
  tasks := h.tasks
  serial := h.serial
  issued u hu := h.issued u (List.mem_cons_of_mem t hu)
  awaited u hu := h.awaited u (List.mem_cons_of_mem t hu)
  distinct := h.distinct.of_cons

theorem of_trigger {c : Trigger} (h : p.Steady (c.ticket?.toList ++ ts)) : p.Steady ts := by
  cases c with
  | render t => exact h.tail
  | request r => exact h
  | timer => exact h
  | failure => exact h

/-- When a render of the present session is done, all others are stale. -/
theorem stale_of_cons {t : Ticket} (h : p.Steady (t :: ts)) (ht : t.session = p.session) :
    ∀ u ∈ ts, u.session < p.session := by
  intro u hu
  have hle := h.issued u (List.mem_cons_of_mem t hu)
  have hne := (List.pairwise_cons.mp h.distinct).1 u hu
  omega

theorem timer_eq_none {t : Ticket} (h : p.Steady (t :: ts)) (ht : t.session = p.session) :
    p.timer = none := by
  obtain ⟨-, htyping, hawaiting⟩ := h.awaited t List.mem_cons_self ht
  exact h.fits.timer_eq_none htyping hawaiting

theorem stale_of_phase (h : p.Steady ts) (hphase : p.phase = .typing ∨ p.phase = .awaitingInput) :
    ∀ u ∈ ts, u.session < p.session := by
  intro u hu
  have hle := h.issued u hu
  have hne : u.session ≠ p.session := by
    intro heq
    obtain ⟨-, htyping, hawaiting⟩ := h.awaited u hu heq
    exact hphase.elim htyping hawaiting
  omega

/-- Where all renders are stale, only the timer matters. -/
theorem of_stale {q : Player} (hfits : q.TimerFits) (htasks : q.TasksFit)
    (hserial : ∀ t, q.timer = some t → t.serial < q.serial)
    (hstale : ∀ t ∈ ts, t.session < q.session)
    (hdistinct : ts.Pairwise fun t u => t.session ≠ u.session) : q.Steady ts where
  fits := hfits
  tasks := htasks
  serial := hserial
  issued t ht := Nat.le_of_lt (hstale t ht)
  awaited t ht heq := absurd heq (Nat.ne_of_lt (hstale t ht))
  distinct := hdistinct

theorem of_disarmed {q : Player} (htimer : q.timer = none) (htasks : q.tasks = [])
    (hphase : q.phase ≠ .typing) (hstale : ∀ t ∈ ts, t.session < q.session)
    (hdistinct : ts.Pairwise fun t u => t.session ≠ u.session) : q.Steady ts :=
  .of_stale (.of_none htimer hphase) (.of_none htimer htasks) (by simp [htimer]) hstale hdistinct

theorem congr {q : Player} (h : p.Steady ts) (hphase : q.phase = p.phase)
    (htimer : q.timer = p.timer) (htasks : q.tasks = p.tasks) (hsession : q.session = p.session)
    (hserial : q.serial = p.serial) (hcurrent : q.current = p.current)
    (hdisplay : q.display = p.display) : q.Steady ts where
  fits := by
    have hfits := h.fits
    simpa only [TimerFits, Reveals, hphase, htimer, hsession, hcurrent, hdisplay] using hfits
  tasks := h.tasks.congr htimer htasks
  serial := by simpa only [htimer, hserial] using h.serial
  issued := by simpa only [hsession] using h.issued
  awaited := by simpa only [hsession, hcurrent, hphase] using h.awaited
  distinct := h.distinct

theorem rest {q : Player} (h : q.Steady ts) :
    Steady (q, (none : Option Ticket)).1 (ts ++ (q, (none : Option Ticket)).2.toList) := by
  simpa using h

theorem perm {us : List Ticket} (h : p.Steady ts) (hperm : ts.Perm us) : p.Steady us where
  fits := h.fits
  tasks := h.tasks
  serial := h.serial
  issued t ht := h.issued t (hperm.mem_iff.mpr ht)
  awaited t ht := h.awaited t (hperm.mem_iff.mpr ht)
  distinct := hperm.pairwise h.distinct fun hne => hne.symm

end Steady

/-! ## What a turn keeps -/

/-- Processing a command makes all renders stale but its own. -/
theorem process_steady {p : Player} {ts : List Ticket} (h : p.Steady ts) (s : Store) :
    (process { p with store := s }).1.Steady
      (ts ++ (process { p with store := s }).2.toList) := by
  have hnone : { p with store := s }.disarm.tasks = [] := h.tasks.disarm_tasks
  have hstale : ∀ t ∈ ts, t.session < p.session + 1 :=
    fun t ht => Nat.lt_succ_of_le (h.issued t ht)
  cases hc : s.current? with
  | none =>
    rw [process_of_none (p := { p with store := s }) hc, Option.toList_none, List.append_nil]
    refine .of_disarmed rfl hnone ?_ hstale h.distinct
    rw [exhaust]
    split <;> simp
  | some c =>
    rw [process_of_some (p := { p with store := s }) hc]
    refine ⟨.of_none rfl (by simp [cue]), .of_none rfl hnone, (fun t ht => by cases ht), ?_, ?_, ?_⟩
    · intro t ht
      rcases List.mem_append.mp ht with ht | ht
      · exact Nat.le_of_lt (hstale t ht)
      · rw [List.mem_singleton.mp ht]
        exact Nat.le_refl _
    · intro t ht heq
      rcases List.mem_append.mp ht with ht | ht
      · exact absurd heq (Nat.ne_of_lt (hstale t ht))
      · rw [List.mem_singleton.mp ht]
        exact ⟨rfl, by simp [cue], by simp [cue]⟩
    · refine List.pairwise_append.mpr ⟨h.distinct, List.pairwise_singleton _ _, ?_⟩
      intro t ht u hu
      rw [List.mem_singleton.mp hu]
      exact Nat.ne_of_lt (hstale t ht)

theorem arm_goOn_steady {q : Player} {ts : List Ticket} (hphase : q.phase = .awaitingInput)
    (htasks : q.TasksFit) (delay : Int) (hstale : ∀ t ∈ ts, t.session < q.session)
    (hdistinct : ts.Pairwise fun t u => t.session ≠ u.session) :
    (q.arm q.session (.goOn delay)).Steady ts := by
  refine .of_stale ?_ (htasks.arm _ _) ?_ hstale hdistinct
  · have hawaiting : (q.arm q.session (.goOn delay)).phase = .awaitingInput := hphase
    unfold TimerFits
    rw [hawaiting]
    rintro t ⟨⟩
    exact ⟨rfl, delay, rfl⟩
  · intro t ht
    cases ht
    exact Nat.lt_succ_self q.serial

theorem finishReveal_steady {q : Player} {ts : List Ticket} (htimer : q.timer = none)
    (htasks : q.tasks = []) (hstale : ∀ t ∈ ts, t.session < q.session)
    (hdistinct : ts.Pairwise fun t u => t.session ≠ u.session) :
    (q.finishReveal q.session).Steady ts := by
  have hnone : q.revealed.timer = none := htimer
  have hfit : q.revealed.TasksFit := .of_none htimer htasks
  rw [finishReveal_eq]
  split
  · exact arm_goOn_steady rfl hfit _ hstale hdistinct
  split
  · exact arm_goOn_steady rfl hfit _ hstale hdistinct
  · exact .of_disarmed hnone htasks (by simp [revealed, notify, cue]) hstale hdistinct

theorem Steady.exhaust {p : Player} {ts : List Ticket} (h : p.Steady ts) :
    p.disarm.exhaust.Steady ts := by
  have hphase : p.disarm.exhaust.phase ≠ .typing ∧ p.disarm.exhaust.phase ≠ .awaitingInput := by
    rw [Player.exhaust]
    split <;> simp
  have htasks : p.disarm.exhaust.tasks = [] := h.tasks.disarm_tasks
  refine ⟨.of_none rfl hphase.1, .of_none rfl htasks, ?_, h.issued, ?_, h.distinct⟩
  · intro t ht
    cases ht
  · intro t ht heq
    exact ⟨(h.awaited t ht heq).1, hphase⟩

theorem Steady.toggleAuto {p : Player} {ts : List Ticket} (h : p.Steady ts) :
    p.toggleAuto.Steady ts := by
  by_cases hphase : p.phase = .awaitingInput
  · have hstale := h.stale_of_phase (.inr hphase)
    rw [toggleAuto_of_eq hphase]
    split
    · have hfit : { p with autoMode := true }.TasksFit := h.tasks.congr rfl rfl
      exact arm_goOn_steady (q := { p with autoMode := true }) hphase hfit _ hstale h.distinct
    split
    · exact h.congr rfl rfl rfl rfl rfl rfl rfl
    · have hne : p.phase ≠ .typing := by simp [hphase]
      exact .of_disarmed rfl h.tasks.disarm_tasks hne hstale h.distinct
  · rw [toggleAuto_of_ne hphase]
    exact h.congr rfl rfl rfl rfl rfl rfl rfl

/-- A turn keeps the timer and the renders in step. The render that it ran for is done, and the one
that it asks for is under way. -/
theorem Turn.steady {p : Player} {c : Trigger} {w : Waiting} {ts : List Ticket} (h : p.Turn c w)
    (hp : p.Steady (c.ticket?.toList ++ ts)) : w.1.Steady (ts ++ w.2.toList) := by
  have hts := hp.of_trigger
  cases h with
  | stay r => exact .rest hts
  | load t =>
    have hstale : ∀ u ∈ ts, u.session < p.session + 1 :=
      fun u hu => Nat.lt_succ_of_le (hts.issued u hu)
    exact .rest (.of_disarmed rfl hts.tasks.disarm_tasks nofun hstale hts.distinct)
  | append t => exact .rest (hts.congr rfl rfl rfl rfl rfl rfl rfl)
  | stream on => exact .rest (hts.congr rfl rfl rfl rfl rfl rfl rfl)
  | seek h => exact .rest (hts.congr rfl rfl rfl rfl rfl rfl rfl)
  | textSpeed n => exact .rest (hts.congr rfl rfl rfl rfl rfl rfl rfl)
  | autoSpeed n => exact .rest (hts.congr rfl rfl rfl rfl rfl rfl rfl)
  | toggle r => exact .rest hts.toggleAuto
  | finish => exact .rest ⟨.of_none rfl nofun, .of_none rfl hts.tasks.disarm_tasks, nofun,
      hts.issued, fun t ht heq => ⟨(hts.awaited t ht heq).1, nofun, nofun⟩, hts.distinct⟩
  | skip r hphase =>
    rw [skip_of_typing hphase]
    exact .rest (finishReveal_steady rfl hts.tasks.disarm_tasks
      (hts.stale_of_phase (.inl hphase)) hts.distinct)
  | runOut hphase hstream hlast =>
    have htimer := hts.fits.timer_eq_none (by simp [hphase]) (by simp [hphase])
    have hexhaust := hts.exhaust
    rw [disarm_eq_self htimer, exhaust_of_not_streaming hstream] at hexhaust
    exact .rest hexhaust
  | restart r h hsize => exact process_steady hts _
  | back hr h hback => exact process_steady hts _
  | onward h hnext => exact process_steady hts _
  | exhaust h hlast => exact .rest hts.exhaust
  | spent h hlast =>
    have hexhaust := hts.exhaust
    rw [disarm_eq_self (hp.timer_eq_none h.1)] at hexhaust
    exact .rest hexhaust
  | late h => exact .rest hts
  | @reveal t text h htext =>
    obtain ⟨hcurrent, -, -⟩ := hp.awaited t List.mem_cons_self h
    have hreveals : (p.startReveal t.command.label text).TimerFits :=
      ⟨⟨p.serial, p.session, .reveal text⟩, rfl, rfl, t.command, text, hcurrent, rfl, htext⟩
    have hsaid : ({ p with phase := .typing }.say t.command.label []).TasksFit :=
      hts.tasks.congr rfl rfl
    refine .rest (.of_stale hreveals (hsaid.arm _ _) ?_ (hp.stale_of_cons h) hts.distinct)
    intro u hu
    cases hu
    exact Nat.lt_succ_self p.serial
  | stayOn h htext hcast =>
    have hfit : { p with phase := .awaitingInput }.TasksFit := hts.tasks.congr rfl rfl
    rw [stayOn_eq]
    split
    · exact .rest (arm_goOn_steady rfl hfit _ (hp.stale_of_cons h) hts.distinct)
    · have htimer := hp.timer_eq_none h
      have htasks := hts.tasks.tasks_eq_nil htimer
      exact .rest (.of_disarmed htimer htasks nofun (hp.stale_of_cons h) hts.distinct)
  | disarmed h => exact .rest hts
  | @showNext t c rest h hjob hrest =>
    have hphase := hts.fits.phase_of_reveal h hjob
    obtain ⟨hsession, command, hcurrent, htext⟩ := hts.fits.reveals_of_timer h hjob
    -- What is shown and what is still hidden make up the text at every character.
    have hshown : command.spoken? = some ((p.display.text ++ [c]) ++ rest) := by
      rw [htext, List.append_assoc, List.singleton_append]
    refine .rest (.of_stale ?_ ?_ ?_ (hts.stale_of_phase (.inl hphase)) hts.distinct)
    · exact .of_reveals hphase rfl hsession ⟨command, rest, hcurrent, rfl, hshown⟩
    · refine .of_singleton rfl ?_
      rw [hts.tasks.drop_tasks h, List.nil_append]
    · intro u hu
      cases hu
      exact hts.serial t h
  | @showLast t c h hjob =>
    have hphase := hts.fits.phase_of_reveal h hjob
    rw [(hts.fits.reveals_of_timer h hjob).1]
    exact .rest (finishReveal_steady rfl hts.tasks.disarm_tasks
      (hts.stale_of_phase (.inl hphase)) hts.distinct)
  | @showNone t h hjob =>
    have hphase := hts.fits.phase_of_reveal h hjob
    rw [(hts.fits.reveals_of_timer h hjob).1]
    exact .rest (finishReveal_steady rfl hts.tasks.disarm_tasks
      (hts.stale_of_phase (.inl hphase)) hts.distinct)
  | lapse h hjob hlate => exact absurd (hts.fits.guard_of_goOn h hjob) hlate
  | @fail t h hwait =>
    have htasks : (p.drop t).TasksFit := by
      refine ⟨by simp [hts.tasks.drop_tasks h], fun u hu hcan => ?_⟩
      cases h.symm.trans hu
      cases hwait.symm.trans hcan
    exact .rest ⟨hts.fits, htasks, hts.serial, hts.issued, hts.awaited, hts.distinct⟩

/-! ## What a turn does to the timer -/

/-- The timer of `q` is that of `p`, or one that was armed since. -/
structure Rearms (p q : Player) : Prop where
  serial_le : p.serial ≤ q.serial
  timer : ∀ t, q.timer = some t → p.timer = some t ∨ p.serial ≤ t.serial

namespace Rearms

variable {p q r : Player}

theorem of_eq (hserial : q.serial = p.serial) (htimer : q.timer = p.timer) : p.Rearms q :=
  ⟨Nat.le_of_eq hserial.symm, fun _ ht => .inl (htimer ▸ ht)⟩

theorem of_none (hserial : q.serial = p.serial) (htimer : q.timer = none) : p.Rearms q :=
  ⟨Nat.le_of_eq hserial.symm, fun t ht => by rw [htimer] at ht; cases ht⟩

theorem of_armed {t : Timer} (hserial : q.serial = p.serial + 1) (htimer : q.timer = some t)
    (ht : t.serial = p.serial) : p.Rearms q where
  serial_le := by omega
  timer u hu := by
    rw [htimer] at hu
    cases hu
    exact .inr (Nat.le_of_eq ht.symm)

theorem trans (h : p.Rearms q) (h' : q.Rearms r) : p.Rearms r where
  serial_le := Nat.le_trans h.serial_le h'.serial_le
  timer t ht := by
    rcases h'.timer t ht with ht | ht
    · exact h.timer t ht
    · exact .inr (Nat.le_trans h.serial_le ht)

end Rearms

theorem process_rearms {p q : Player} (hserial : q.serial = p.serial) :
    p.Rearms (process q).1 := by
  cases hc : q.store.current? with
  | none =>
    rw [process_of_none hc]
    exact .of_none hserial rfl
  | some c =>
    rw [process_of_some hc]
    exact .of_none hserial rfl

theorem finishReveal_rearms {p q : Player} (hserial : q.serial = p.serial) (htimer : q.timer = none)
    (session : Nat) : p.Rearms (q.finishReveal session) := by
  have harmed : q.serial + 1 = p.serial + 1 := by rw [hserial]
  rw [finishReveal_eq]
  split
  · exact .of_armed harmed rfl hserial
  split
  · exact .of_armed harmed rfl hserial
  · exact .of_none hserial htimer

/-- No call lets a task run on under another timer. -/
theorem Turn.rearms {p : Player} {c : Trigger} {w : Waiting} (h : p.Turn c w)
    (hc : c.isTimer = false) : p.Rearms w.1 := by
  cases h with
  | stay r => exact .of_eq rfl rfl
  | load t => exact .of_none rfl rfl
  | append t => exact .of_eq rfl rfl
  | stream on => exact .of_eq rfl rfl
  | seek h => exact .of_eq rfl rfl
  | textSpeed n => exact .of_eq rfl rfl
  | autoSpeed n => exact .of_eq rfl rfl
  | toggle r =>
    by_cases hphase : p.phase = .awaitingInput
    · rw [toggleAuto_of_eq hphase]
      split
      · exact .of_armed rfl rfl rfl
      split
      · exact .of_eq rfl rfl
      · exact .of_none rfl rfl
    · rw [toggleAuto_of_ne hphase]
      exact .of_eq rfl rfl
  | finish => exact .of_none rfl rfl
  | skip r hphase =>
    rw [skip_of_typing hphase]
    refine finishReveal_rearms ?_ ?_ _ <;> rfl
  | runOut hphase hstream hlast => exact .of_eq rfl rfl
  | restart r h hsize => exact process_rearms rfl
  | back hr h hback => exact process_rearms rfl
  | onward h hnext => exact process_rearms rfl
  | exhaust h hlast => exact .of_none rfl rfl
  | spent h hlast => exact .of_eq rfl rfl
  | late h => exact .of_eq rfl rfl
  | reveal h htext => exact .of_armed rfl rfl rfl
  | stayOn h htext hcast =>
    rw [stayOn_eq]
    split
    · exact .of_armed rfl rfl rfl
    · exact .of_eq rfl rfl
  | disarmed h => cases hc
  | showNext h hjob hrest => cases hc
  | showLast h hjob => cases hc
  | showNone h hjob => cases hc
  | lapse h hjob hlate => cases hc
  | fail h hwait => exact .of_eq rfl rfl

theorem askAll_steady {p : Player} {ts : List Ticket} (h : p.Steady ts) (rs : List Request) :
    (p.askAll rs).1.Steady (ts ++ (p.askAll rs).2) ∧ p.Rearms (p.askAll rs).1 := by
  induction rs generalizing p ts with
  | nil => exact ⟨by simpa [askAll] using h, .of_eq rfl rfl⟩
  | cons r rs ih =>
    have hturn := p.ask_turn r
    obtain ⟨hsteady, hrearms⟩ := ih (hturn.steady h)
    exact ⟨by simpa [askAll] using hsteady, (hturn.rearms rfl).trans hrearms⟩

end Player

namespace Playback

/-- The player is steady with the renders that calls wait for. -/
structure Steady (s : Playback) : Prop where
  player : s.player.Steady s.tickets

theorem new_steady (s : Settings) : (new s).Steady where
  player := ⟨rfl, .of_none rfl rfl, nofun, nofun, nofun, .nil⟩

/-- A playback of given commands in which nothing has happened. -/
def ofCommands (s : Settings) (cs : List Command) : Playback :=
  { new s with player := { Player.new s with store := .ofList cs } }

theorem ofCommands_steady (s : Settings) (cs : List Command) : (ofCommands s cs).Steady where
  player := ⟨rfl, .of_none rfl rfl, nofun, nofun, nofun, .nil⟩

theorem leave_steady {s : Playback} {w : Waiting} {a : Afterwards}
    (h : w.1.Steady (s.tickets ++ w.2.toList)) : (s.leave w a).Steady where
  player := by simpa using h

/-- Only the timer can be woken. -/
theorem Steady.timer_of_task {s : Playback} (h : s.Steady) {i : Nat} {t : Timer}
    (ht : s.tasks[i]? = some t) : s.player.timer = some t :=
  h.player.tasks.timer_of_mem (List.mem_of_getElem? ht)

theorem step_steady {s : Playback} (h : s.Steady) (m : Move) : (s.step m).Steady := by
  cases m with
  | ask r => exact leave_steady ((s.player.ask_turn r).steady h.player)
  | handle r =>
    obtain ⟨rs, -, hasked⟩ := s.ingestor.handle_takes s.player r
    obtain ⟨hsteady, -⟩ := Player.askAll_steady h.player rs
    rw [hasked] at hsteady
    exact leave_steady hsteady
  | giveUp =>
    obtain ⟨hsteady, -⟩ := Player.askAll_steady h.player [.streaming false, .resume]
    refine leave_steady ?_
    simpa [Player.askAll, Player.ask, tickets] using hsteady
  | complete i =>
    cases hc : s.suspended[i]? with
    | none => rwa [step_complete_of_none hc]
    | some c =>
      rw [step_complete hc]
      have hplayer := h.player.perm (tickets_perm hc)
      exact leave_steady ((s.player.rendered_turn c.ticket).steady hplayer)
  | fire i =>
    cases ht : s.tasks[i]? with
    | none => rwa [step_fire_of_none ht]
    | some t =>
      rw [step_fire ht]
      refine leave_steady ((Player.wake_turn (h.timer_of_task ht)).steady ?_)
      simpa using h.player

/-- How a move runs the player. It takes one turn, for what is asked or for something of its own, or
it answers an ingestor. A move that names nothing under way does neither. -/
inductive Runs (s : Playback) (m : Move) : Player → Prop
  | stay : s.Runs m s.player
  | turn {c : Trigger} {w : Waiting} {ts : List Ticket} (h : s.player.Turn c w)
      (hsteady : s.player.Steady (c.ticket?.toList ++ ts))
      (hask : ∀ r, c = .request r → m = .ask r) : s.Runs m w.1
  | intake {rs : List Request} {g : Ingestor} {a : Afterwards} (h : s.ingestor.Intake rs g a)
      (hm : m = .giveUp ∨ ∃ r, m = .handle r) : s.Runs m (s.player.askAll rs).1

theorem Steady.runs {s : Playback} (h : s.Steady) (m : Move) : s.Runs m (s.step m).player := by
  cases m with
  | ask r =>
    rw [step_ask_player]
    refine .turn (s.player.ask_turn r) h.player ?_
    rintro _ ⟨⟩
    rfl
  | handle r =>
    obtain ⟨rs, hintake, hasked⟩ := s.ingestor.handle_takes s.player r
    have hruns : s.Runs (.handle r) (s.player.askAll rs).1 := .intake hintake (.inr ⟨r, rfl⟩)
    rw [hasked] at hruns
    rwa [step_handle_player]
  | giveUp =>
    rw [step_giveUp_player]
    exact .intake (.fail .nothing) (.inl rfl)
  | complete i =>
    cases hc : s.suspended[i]? with
    | none =>
      rw [step_complete_of_none hc]
      exact .stay
    | some c =>
      rw [step_complete hc, leave_player]
      refine .turn (s.player.rendered_turn c.ticket) (h.player.perm (tickets_perm hc)) ?_
      rintro _ ⟨⟩
  | fire i =>
    cases ht : s.tasks[i]? with
    | none =>
      rw [step_fire_of_none ht]
      exact .stay
    | some t =>
      rw [step_fire ht, leave_player]
      refine .turn (Player.wake_turn (h.timer_of_task ht)) (by simpa using h.player) fun r hr => ?_
      rcases t.trigger_cases with htrigger | htrigger <;> rw [htrigger] at hr <;> cases hr

theorem Steady.run {s : Playback} (h : s.Steady) (ms : List Move) : (s.run ms).Steady :=
  run_keeps Steady (fun _ => True) (fun _ m _ hs => step_steady hs m) s h ms fun _ _ => trivial

/-- At every moment of a playback at most one timer task is alive, and it is the one that the player
holds. While a text is typed it is a reveal of the current command in the present session, while the
player waits for input it goes on from there, and in every other phase there is none. So a task that
goes on runs only in its session and while the player waits for input: none comes too late. -/
theorem run_one_timer (settings : Settings) (ms : List Move) :
    let s := (new settings).run ms
    s.tasks.length ≤ 1 ∧ (∀ t ∈ s.tasks, s.player.timer = some t) ∧
      (s.player.phase = .typing →
        ∃ t, s.tasks = [t] ∧ t.session = s.player.session ∧ s.player.Reveals t) ∧
      (s.player.phase = .awaitingInput →
        ∀ t ∈ s.tasks, t.session = s.player.session ∧ ∃ delay, t.job = .goOn delay) ∧
      (s.player.phase ≠ .typing → s.player.phase ≠ .awaitingInput → s.tasks = []) ∧
      ∀ t ∈ s.tasks, ∀ delay, t.job = .goOn delay →
        t.session = s.player.session ∧ s.player.phase = .awaitingInput := by
  intro s
  have h := ((new_steady settings).run ms).player
  refine ⟨h.tasks.length_le_one, fun t ht => h.tasks.timer_of_mem ht, ?_, ?_, ?_, ?_⟩
  · intro hphase
    obtain ⟨t, ht, hsession, hreveals⟩ := h.fits.reveals hphase
    exact ⟨t, h.tasks.alive t ht hreveals.canWait, hsession, hreveals⟩
  · intro hphase t ht
    exact h.fits.goesOn hphase (h.tasks.timer_of_mem ht)
  · intro htyping hawaiting
    exact h.tasks.tasks_eq_nil (h.fits.timer_eq_none htyping hawaiting)
  · intro t ht delay hjob
    exact h.fits.guard_of_goOn (h.tasks.timer_of_mem ht) hjob

end Playback

end StoryPlayer
