import StoryPlayer.Proofs.Player.Pace
import StoryPlayer.Proofs.Player.Past

/-!
# Renders that are done in any order

Every call that has a command rendered may wait for that, so any number of renders can be under way.
Only one of them still counts, and that is told by the sessions: it is the render of the present
one. When it is done the player may go on and open further sessions, but it never goes back to an
earlier one. The other renders therefore stay without effect, before and after, and it makes no
difference in which order renders are done.
-/

namespace StoryPlayer

namespace Player

/-- The player when a render is done, and all those at once that it leads to. -/
def resolve (p : Player) (t : Ticket) : Player :=
  settle (p.rendered t)

/-- The render of the present session, if it is under way. -/
def IsLatest (p : Player) (ts : List Ticket) (latest : Option Ticket) : Prop :=
  ∀ t, latest = some t ↔ t ∈ ts ∧ t.session = p.session

section

variable {p : Player} {t : Ticket} {ts : List Ticket} {latest : Option Ticket}

/-! ## The render that counts -/

theorem IsLatest.perm {us : List Ticket} (h : p.IsLatest ts latest) (hperm : ts.Perm us) :
    p.IsLatest us latest := by
  intro t
  rw [← hperm.mem_iff]
  exact h t

theorem IsLatest.eq_none (h : p.IsLatest [] latest) : latest = none := by
  cases latest with
  | none => rfl
  | some t => exact absurd ((h t).mp rfl).1 List.not_mem_nil

/-- A render of the present session is the only one. -/
theorem Steady.isLatest_cons (h : p.Steady (t :: ts)) (ht : t.session = p.session) :
    p.IsLatest (t :: ts) (some t) := by
  intro u
  refine ⟨?_, ?_⟩
  · rintro ⟨⟩
    exact ⟨List.mem_cons_self, ht⟩
  · rintro ⟨hu, hsession⟩
    rcases List.mem_cons.mp hu with rfl | hu
    · rfl
    · exact absurd hsession (Nat.ne_of_lt (h.stale_of_cons ht u hu))

theorem isLatest_cons_of_late (ht : t.session ≠ p.session) :
    p.IsLatest (t :: ts) latest ↔ p.IsLatest ts latest := by
  refine forall_congr' fun u => ?_
  have hmem : u ∈ t :: ts ∧ u.session = p.session ↔ u ∈ ts ∧ u.session = p.session := by
    rw [List.mem_cons]
    refine and_congr_left fun hu => or_iff_right ?_
    rintro rfl
    exact ht hu
  rw [hmem]

theorem Steady.exists_latest (h : p.Steady ts) : ∃ latest, p.IsLatest ts latest := by
  induction ts with
  | nil => exact ⟨none, fun t => ⟨nofun, fun ht => absurd ht.1 List.not_mem_nil⟩⟩
  | cons t ts ih =>
    by_cases ht : t.session = p.session
    · exact ⟨some t, h.isLatest_cons ht⟩
    · obtain ⟨latest, hlatest⟩ := ih h.tail
      exact ⟨latest, (isLatest_cons_of_late ht).mpr hlatest⟩

/-! ## Renders that are late -/

theorem rendered_of_late (h : t.session ≠ p.session) : p.rendered t = (p, none) := if_pos h

theorem resolve_of_late (h : t.session ≠ p.session) : p.resolve t = p := by
  rw [resolve, rendered_of_late h, settle_none]

theorem resolve_session_le (p : Player) (t : Ticket) : p.session ≤ (p.resolve t).session := by
  have hturn := p.rendered_turn t
  refine settle_keeps (P := fun w => p.session ≤ w.1.session) ?_ hturn.keeps.session_le
  exact fun q u hle => Nat.le_trans hle (q.rendered_turn u).keeps.session_le

theorem foldl_resolve_session_le (p : Player) (ts : List Ticket) :
    p.session ≤ (ts.foldl resolve p).session := by
  induction ts generalizing p with
  | nil => exact Nat.le_refl _
  | cons t ts ih => exact Nat.le_trans (p.resolve_session_le t) (ih (p.resolve t))

theorem foldl_resolve_of_late (h : ∀ t ∈ ts, t.session < p.session) : ts.foldl resolve p = p := by
  induction ts with
  | nil => rfl
  | cons t ts ih =>
    have hlate := Nat.ne_of_lt (h t List.mem_cons_self)
    rw [List.foldl_cons, resolve_of_late hlate]
    exact ih fun u hu => h u (List.mem_cons_of_mem t hu)

/-- Renders that are done one after another come to the one that counts. -/
theorem Steady.foldl_resolve (h : p.Steady ts) (hlatest : p.IsLatest ts latest) :
    ts.foldl resolve p = settle (p, latest) := by
  induction ts with
  | nil =>
    rw [hlatest.eq_none, settle_none]
    rfl
  | cons t ts ih =>
    rw [List.foldl_cons]
    by_cases ht : t.session = p.session
    · -- Those that come behind it are of earlier sessions still.
      have hstale : ∀ u ∈ ts, u.session < (p.resolve t).session := fun u hu =>
        Nat.lt_of_lt_of_le (h.stale_of_cons ht u hu) (p.resolve_session_le t)
      rw [foldl_resolve_of_late hstale, (hlatest t).mpr ⟨List.mem_cons_self, ht⟩]
      exact (settle_some p t).symm
    · rw [resolve_of_late ht]
      exact ih h.tail ((isLatest_cons_of_late ht).mp hlatest)

/-- A render that does not count has no effect, whatever others are done before it. -/
theorem Steady.rendered_of_not_latest (h : p.Steady ts) (hlatest : p.IsLatest ts latest)
    (ht : t ∈ ts) (hne : latest ≠ some t) (front : List Ticket) :
    (front.foldl resolve p).rendered t = (front.foldl resolve p, none) := by
  have hlate : t.session ≠ p.session := fun hsession => hne ((hlatest t).mpr ⟨ht, hsession⟩)
  have hle := h.issued t ht
  have hfront := p.foldl_resolve_session_le front
  apply rendered_of_late
  omega

/-! ## The renders that a render leads to -/

theorem process_ticket (h : (process p).2 = some t) : t.session = (process p).1.session := by
  cases hc : p.store.current? with
  | none =>
    rw [process_of_none hc] at h
    cases h
  | some c =>
    rw [process_of_some hc] at h ⊢
    cases h
    rfl

/-- When the render that counts is done, the one that it leads to counts. -/
theorem rendered_latest (p : Player) (t : Ticket) (hstale : ∀ u ∈ ts, u.session < p.session) :
    (p.rendered t).1.IsLatest (ts ++ (p.rendered t).2.toList) (p.rendered t).2 := by
  have hturn := p.rendered_turn t
  generalize p.rendered t = w at hturn ⊢
  have hle := hturn.keeps.session_le
  have hsession : ∀ u, w.2 = some u → u.session = w.1.session := by
    intro u hu
    cases hturn with
    | onward => exact process_ticket hu
    | _ => cases hu
  intro u
  rw [List.mem_append, Option.mem_toList]
  refine ⟨fun hu => ⟨.inr hu, hsession u hu⟩, ?_⟩
  rintro ⟨hu | hu, hpresent⟩
  · have hlt := hstale u hu
    omega
  · exact hu

/-- A render that is done leaves the timer alive, or what it arms is. -/
theorem rendered_tasks (h : p.tasks = p.timer.toList) (t : Ticket) :
    (p.rendered t).1.tasks = (p.rendered t).1.timer.toList := by
  have hfit : p.TasksFit := .of_eq h
  have hturn := p.rendered_turn t
  generalize p.rendered t = w at hturn ⊢
  cases hturn with
  | @onward _ s hon hnext =>
    have hnone : { p with store := s }.disarm.tasks = [] := hfit.disarm_tasks
    cases hc : s.current? with
    | none =>
      rw [process_of_none (p := { p with store := s }) hc]
      exact hnone
    | some c =>
      rw [process_of_some (p := { p with store := s }) hc]
      exact hnone
  | exhaust hon hlast => exact hfit.disarm_tasks
  | spent hon hlast => exact h
  | late hlate => exact h
  | @reveal t text hsession htext =>
    have hsaid : ({ p with phase := .typing }.say t.command.label []).TasksFit := .of_eq h
    exact hsaid.arm_tasks _ _
  | stayOn hsession htext hcast =>
    have hwaits : { p with phase := .awaitingInput }.TasksFit := .of_eq h
    rw [stayOn_eq]
    split
    · exact hwaits.arm_tasks _ _
    · exact h

/-- When the render of the present session is done, whatever timer is held then is alive. -/
theorem IsLatest.settle_tasks (h : p.Steady ts) (hlatest : p.IsLatest ts latest)
    (hsome : latest ≠ none) :
    (settle (p, latest)).tasks = (settle (p, latest)).timer.toList := by
  obtain ⟨t, rfl⟩ := Option.ne_none_iff_exists'.mp hsome
  obtain ⟨hmem, hsession⟩ := (hlatest t).mp rfl
  obtain ⟨-, htyping, hawaiting⟩ := h.awaited t hmem hsession
  have htimer := h.fits.timer_eq_none htyping hawaiting
  have hnone : p.tasks = p.timer.toList := by
    rw [h.tasks.tasks_eq_nil htimer, htimer, Option.toList_none]
  exact settle_keeps (P := fun w => w.1.tasks = w.1.timer.toList)
    (fun q u hq => rendered_tasks hq u) hnone

end

end Player

open Player

/-- A move that only says that a render is done. -/
def Move.isRender : Move → Bool
  | complete _ => true
  | _ => false

namespace Playback

/-- A render that is done leaves what will have become of the player when all are. -/
theorem step_render {s : Playback} (h : s.Steady) {latest : Option Ticket}
    (hlatest : s.player.IsLatest s.tickets latest) {m : Move} (hm : m.isRender = true) :
    ∃ next, (s.step m).player.IsLatest (s.step m).tickets next ∧
      settle ((s.step m).player, next) = settle (s.player, latest) := by
  cases m with
  | ask | handle | giveUp | fire => cases hm
  | complete i =>
    cases hc : s.suspended[i]? with
    | none =>
      rw [step_complete_of_none hc]
      exact ⟨latest, hlatest, rfl⟩
    | some c =>
      have hperm := tickets_perm hc
      have hcons := hlatest.perm hperm
      rw [step_complete hc, leave_player, leave_tickets]
      by_cases hsession : c.ticket.session = s.player.session
      · have hstale := (h.player.perm hperm).stale_of_cons hsession
        refine ⟨_, s.player.rendered_latest c.ticket hstale, ?_⟩
        rw [(hcons c.ticket).mpr ⟨List.mem_cons_self, hsession⟩]
        exact (settle_some s.player c.ticket).symm
      · rw [rendered_of_late hsession, Option.toList_none, List.append_nil]
        exact ⟨latest, (isLatest_cons_of_late hsession).mp hcons, rfl⟩

theorem run_renders {s : Playback} (h : s.Steady) {latest : Option Ticket}
    (hlatest : s.player.IsLatest s.tickets latest) {ns : List Move}
    (hns : ∀ m ∈ ns, m.isRender = true) (hdone : (s.run ns).suspended = []) :
    (s.run ns).player = settle (s.player, latest) := by
  induction ns generalizing s latest with
  | nil =>
    have hnone : s.tickets = [] := by
      exact congrArg (List.map (·.ticket)) hdone
    rw [hnone] at hlatest
    rw [hlatest.eq_none, settle_none]
    rfl
  | cons m ns ih =>
    obtain ⟨next, hnext, heq⟩ := step_render h hlatest (hns m List.mem_cons_self)
    rw [← heq]
    exact ih (step_steady h m) hnext (fun n hn => hns n (List.mem_cons_of_mem m hn)) hdone

/-- Slow renders commute. Of the renders that are under way one at most still counts, and it is that
of the command which was processed last. In whatever order all of them are done, each followed at
once by those that it leads to, the player ends up as if only that one had been under way; every
other leaves the player as it finds it. The same holds of every run in which nothing happens but
that renders are done, until no call waits for one: those that come of it may be done late as well.
No task is alive then but the timer that the player holds. That is alive if the render that counts
was under way, and in any case if it can wait. -/
theorem run_renders_commute (settings : Settings) (cs : List Command) (ms : List Move) :
    let s := (ofCommands settings cs).run ms
    let p := s.player
    ∃ latest : Option Ticket,
      (∀ t, latest = some t ↔ t ∈ s.tickets ∧ t.session = p.session) ∧
      (∀ t, latest = some t → p.current = some t.command) ∧
      (∀ ts : List Ticket, ts.Perm s.tickets → ts.foldl resolve p = settle (p, latest)) ∧
      (∀ (front back : List Ticket) (t : Ticket), (front ++ t :: back).Perm s.tickets →
        latest ≠ some t →
        let q := front.foldl resolve p
        q.rendered t = (q, none)) ∧
      (∀ ns : List Move, (∀ m ∈ ns, m.isRender = true) → (s.run ns).suspended = [] →
        (s.run ns).player = settle (p, latest) ∧
          (s.run ns).tasks.Sublist (settle (p, latest)).timer.toList ∧
          (latest ≠ none → (s.run ns).tasks = (settle (p, latest)).timer.toList) ∧
          ∀ t, (settle (p, latest)).timer = some t → t.canWait = true →
            (s.run ns).tasks = [t]) := by
  intro s p
  have hsteady : s.Steady := (ofCommands_steady settings cs).run ms
  obtain ⟨latest, hlatest⟩ := hsteady.player.exists_latest
  refine ⟨latest, hlatest, fun t ht => ?_, fun ts hperm => ?_, ?_, fun ns hns hdone => ?_⟩
  · obtain ⟨hmem, hsession⟩ := (hlatest t).mp ht
    exact (hsteady.player.awaited t hmem hsession).1
  · exact (hsteady.player.perm hperm.symm).foldl_resolve (hlatest.perm hperm.symm)
  · intro front back t hperm hne
    have hmem : t ∈ s.tickets := hperm.mem_iff.mp (by simp)
    exact hsteady.player.rendered_of_not_latest hlatest hmem hne front
  · have hplayer := run_renders hsteady hlatest hns hdone
    have htasks := (hsteady.run ns).player.tasks
    rw [← hplayer]
    refine ⟨rfl, htasks.held, fun hsome => ?_, htasks.alive⟩
    have hsettled := hlatest.settle_tasks hsteady.player hsome
    rwa [← hplayer] at hsettled

end Playback

end StoryPlayer
