import StoryPlayer.Proofs.Session.Records

/-!
# How a session that plays by itself goes on

Whatever task runs and whatever alarm goes off, the session goes on playing and is nearer to its end.
So it settles each time, and its alarms run out, when the whole story has come.
-/

namespace StoryPlayer.Session

section

variable {p₀ : Player} {r : Reading} {answers : Array (Nat × Result)} {limit rank n : Nat}
  {l l' : List (Int × Task)} {s s' : Session} {x y : Int × Task} {a : Alarm}

/-! ## Tasks -/

theorem Plays.fire_leadsOn (h : Plays p₀ r answers limit (x :: s.pending) s rank)
    (hx : x.2.timer? = some n) {load : Nat} (hload : s.load ≤ load) :
    LeadsOn p₀ r answers limit (s.fire n) rank load := by
  obtain ⟨hfired, hlt⟩ := h.fired hx
  exact ⟨s.fired n, rank, fire_settle h.fed.gated n, hfired,
    .inr ⟨rfl, Nat.lt_of_lt_of_le hlt hload⟩⟩

/-- A timer begins to wait, if its delay can be waited for. -/
theorem Plays.pace_leadsOn (h : Plays p₀ r answers limit ((s.clock, .pace n) :: s.pending) s rank)
    (hidle : s.control = .idle) : LeadsOn p₀ r answers limit (s.pace n) rank (s.load + 1) := by
  obtain ⟨⟨t, ht, rfl⟩, hnone⟩ := h.timed.of_cons rfl
  have hfed := (Fed.cons_timer rfl).mp h.fed
  unfold pace
  simp only [ht, ne_eq, not_true_eq_false, if_false]
  cases hdelay : s.player.delay? with
  | none => exact h.fire_leadsOn rfl (Nat.le_succ _)
  | some delay =>
    dsimp only
    split
    next hcount =>
      have hplays := (h.retime (y := (s.clock + (microsOfMillis delay).toNat,
        .happen (.timer t.serial))) rfl rfl).pause (by rintro ⟨_, ⟨⟩⟩)
      have hcontrol : (s.pause (microsOfMillis delay) (.timer t.serial)).control = .idle :=
        (s.pause_control _ _).trans hidle
      refine ⟨_, rank, congrArg settle (resting_eq hcontrol).symm, hplays, .inr ⟨rfl, ?_⟩⟩
      rw [load_pause]
      exact Nat.lt_succ_self _
    next hcount =>
      -- The timer never fires, and nothing is pending for it any more.
      have hstuck : s.player.IsStuck := ⟨delay, hdelay, eq_false_of_ne_true hcount⟩
      exact ⟨s, rank, congrArg settle (resting_eq hidle).symm,
        ⟨⟨.inr ⟨hstuck, hnone⟩, h.timed.noticed, h.timed.paced⟩, hfed⟩,
        .inr ⟨rfl, Nat.lt_succ_self _⟩⟩

/-- Any task that can be ready leads on. -/
theorem Plays.begin {t : Task} (h : Plays p₀ r answers limit ((s.clock, t) :: s.pending) s rank)
    (hidle : s.control = .idle) (ht : ¬t.IsDeadline) :
    LeadsOn p₀ r answers limit (s.begin t) rank (s.load + if t.isPace then 1 else 0) := by
  rcases h.fed.known _ List.mem_cons_self with htimer | hreader | hdeadline
  · obtain ⟨n, hn⟩ := Option.ne_none_iff_exists'.mp htimer
    cases t with
    | pace m =>
      cases hn
      exact h.pace_leadsOn hidle
    | resume | fetch | deliver => cases hn
    | happen e =>
      cases e with
      | timer m =>
        cases hn
        obtain ⟨⟨v, hv, rfl⟩, -⟩ := h.timed.of_cons rfl
        have hhappen : s.begin (.happen (.timer v.serial)) = s.fire v.serial := by
          simp [Session.begin, happen, hv]
        rw [hhappen]
        exact h.fire_leadsOn rfl (Nat.le_refl _)
      | arrival | deadline => cases hn
  · obtain ⟨w, b, rest, n, hwaiters, harrivals, herrand, rfl, hgoes⟩ := h.errand hreader
    cases herrand with
    | fetch htime =>
      have hbegin : s.begin (.fetch w.id) = s.expect w.id b.pauses := by
        simp [Session.begin, hwaiters, harrivals]
      rw [hbegin]
      exact expect_leadsOn hgoes hidle htime (Nat.lt_succ_self _)
    | arrive htime => exact expect_leadsOn hgoes hidle htime (Nat.lt_succ_self _)
    | @deliver _ m hm htime =>
      cases m with
      | zero => exact h.deliver
      | succ m =>
        have hplays := hgoes (s.clock, .deliver w.id m) _ (.deliver (by omega) htime)
        exact ⟨s.enqueue (.deliver w.id m), _,
          congrArg settle (resting_eq (s := s.enqueue _) hidle).symm,
          hplays.enqueue (by rintro ⟨_, ⟨⟩⟩), .inl (by omega)⟩
  · exact absurd hdeadline ht

/-- The session has nothing to do until an alarm goes off. -/
structure Quiet (s : Session) : Prop where
  control : s.control = .idle
  queue : s.queue = []

/-- When what plays has settled it still does. -/
theorem Plays.settle {s : Session} {rank : Nat} (h : Plays p₀ r answers limit s.pending s rank) :
    ∃ v rank', s.resting.settle = v ∧ v.Quiet ∧ Plays p₀ r answers limit v.pending v rank' ∧
      (rank' < rank ∨ rank' = rank ∧ v.load ≤ s.load) := by
  cases hqueue : s.queue with
  | nil =>
    have hrests := settle_resting_nil hqueue
    refine ⟨s.resting, rank, hrests, ⟨rfl, hqueue⟩, ⟨?_, ?_, ?_⟩, .inr ⟨rfl, Nat.le_refl _⟩⟩
    · exact h.timed.congr rfl rfl
    · exact h.fed.toOrderly.congr rfl rfl rfl rfl rfl
    · exact h.fed.supply.congr rfl rfl rfl rfl
  | cons t rest =>
    let u : Session := { s.resting with queue := rest }
    have hpending : s.pending = (u.clock, t) :: u.pending := by
      simp [pending, hqueue, u, resting]
    have hload : s.load = u.load + if t.isPace then 1 else 0 := by
      unfold load
      rw [hpending, List.countP_cons, Nat.add_assoc]
      rfl
    have hu : Plays p₀ r answers limit ((u.clock, t) :: u.pending) u rank := by
      rw [← hpending]
      refine ⟨h.timed.congr rfl rfl, ⟨h.fed.gated, h.fed.clock,
        h.fed.known, ?_, h.fed.alarms, h.fed.named⟩, h.fed.supply.congr rfl rfl rfl rfl⟩
      exact fun v hv => h.fed.ready v (hqueue ▸ List.mem_cons_of_mem t hv)
    have hready := h.fed.ready t (hqueue ▸ List.mem_cons_self)
    obtain ⟨s', rank', hsettle, hplays, hnearer⟩ := hu.begin rfl hready
    rw [← hload] at hnearer
    -- A record lowers the rank, whatever it gives the player to do; a timer lowers the load alone.
    have hlex : Prod.Lex (· < ·) (· < ·) (rank', s'.load) (rank, s.load) := by
      rcases hnearer with hlt | ⟨rfl, hlt⟩
      · exact .left _ _ hlt
      · exact .right _ hlt
    obtain ⟨v, rank'', hv, hquiet, hplays', hless⟩ := hplays.settle
    refine ⟨v, rank'', ?_, hquiet, hplays', ?_⟩
    · rw [settle_resting_cons hqueue, hsettle, hv]
    · rcases hnearer with hlt | ⟨rfl, hlt⟩ <;> omega
termination_by (rank, s.load)
decreasing_by exact hlex

/-! ## Alarms -/

/-- What is pending and will happen still means something, unless it is a deadline. -/
theorem Plays.isLive (h : Plays p₀ r answers limit l s rank)
    (ha : a.entry ∈ l) (hnot : ∀ id, a.event ≠ .deadline id) :
    s.isLive a = true := by
  obtain ⟨due, e⟩ := a
  cases e with
  | timer m =>
    have hmem : m ∈ l.filterMap (·.2.timer?) := List.mem_filterMap.mpr ⟨_, ha, rfl⟩
    rcases h.timed.timers with htimers | ⟨-, hnone⟩
    · replace hmem := htimers.mem_iff.mp hmem
      cases ht : s.player.timer with
      | none => simp [ht] at hmem
      | some t =>
        rw [ht] at hmem
        simpa [Session.isLive, ht] using (List.mem_singleton.mp hmem).symm
    · rw [hnone] at hmem
      cases hmem
  | arrival id ps =>
    have hmem : (due, .happen (.arrival id ps)) ∈ l.filter (·.2.reader?.isSome) :=
      List.mem_filter.mpr ⟨ha, rfl⟩
    cases h.fed.supply with
    | all _ herrands =>
      rw [herrands] at hmem
      cases hmem
    | comes hwaiters _ _ _ _ _ _ _ _ herrands herrand _ =>
      have heq := List.mem_singleton.mp (herrands.mem_iff.mp hmem)
      have hreader := herrand.reader?
      rw [← heq] at hreader
      cases hreader
      simp [Session.isLive, hwaiters]
  | deadline id => exact absurd rfl (hnot id)

theorem Quiet.pending_eq (h : s.Quiet) : s.pending = s.alarms.map Alarm.entry := by
  unfold pending
  rw [h.queue]
  rfl

theorem Quiet.load_eq (h : s.Quiet) : s.load = 2 * Player.work (s.player, none) := by
  have hnone : (s.alarms.map Alarm.entry).countP (·.2.isPace) = 0 := by
    rw [List.countP_map]
    exact List.countP_eq_zero.mpr fun _ _ => Bool.false_ne_true
  unfold load
  rw [h.pending_eq, hnone]
  rfl

/-- An alarm that means nothing any more is a deadline. -/
theorem Plays.dead (h : Plays p₀ r answers limit s.pending s rank) (hquiet : s.Quiet)
    (ha : a ∈ s.alarms) (hnot : s.isLive a = false) : ∃ id, a.event = .deadline id := by
  by_contra hne
  have hmem : a.entry ∈ s.pending := hquiet.pending_eq ▸ List.mem_map_of_mem ha
  cases hnot.symm.trans (h.isLive hmem (not_exists.mp hne))

/-- The alarms that mean nothing any more make no difference. -/
theorem Plays.live (h : Plays p₀ r answers limit s.pending s rank) (hquiet : s.Quiet) :
    Plays p₀ r answers limit ((s.alarms.filter s.isLive).map Alarm.entry) s rank := by
  have hsub : (s.alarms.filter s.isLive).map Alarm.entry ⊆ s.pending := by
    rw [hquiet.pending_eq]
    exact List.map_subset _ List.filter_sublist.subset
  have htimers : ((s.alarms.filter s.isLive).map Alarm.entry).filterMap (·.2.timer?) =
      s.pending.filterMap (·.2.timer?) := by
    rw [hquiet.pending_eq, List.filterMap_map, List.filterMap_map, List.filterMap_filter]
    apply List.filterMap_congr
    intro b hb
    split
    · rfl
    next hnot =>
      obtain ⟨id, heq⟩ := h.dead hquiet hb (eq_false_of_ne_true hnot)
      simp [Alarm.entry, heq, Task.timer?]
  have herrands : ((s.alarms.filter s.isLive).map Alarm.entry).filter (·.2.reader?.isSome) =
      s.pending.filter (·.2.reader?.isSome) := by
    rw [hquiet.pending_eq, List.filter_map, List.filter_map, List.filter_filter]
    congr 1
    apply List.filter_congr
    intro b hb
    by_cases hlive : s.isLive b = true
    · simp [hlive]
    · obtain ⟨id, heq⟩ := h.dead hquiet hb (eq_false_of_ne_true hlive)
      simp [Alarm.entry, heq, Task.reader?]
  exact ⟨⟨htimers ▸ h.timed.timers, h.timed.noticed, h.timed.paced⟩,
    h.fed.toOrderly.of_subset hsub,
    h.fed.supply.relist (.of_eq herrands) fun z hz _ => .inl (hsub hz)⟩

/-- The next record comes before any deadline does. -/
theorem Plays.not_deadline (h : Plays p₀ r answers limit s.pending s rank) (hquiet : s.Quiet)
    (ha : earliest (s.alarms.filter s.isLive) = some a) (id : Nat) : a.event ≠ .deadline id := by
  intro heq
  obtain ⟨hmem, hleast⟩ := earliest_eq_some ha
  obtain ⟨hset, hlive⟩ := List.mem_filter.mp hmem
  cases hsupply : h.fed.supply with
  | all hwaiters => simp [Session.isLive, heq, hwaiters] at hlive
  | @comes _ _ _ _ id' _ _ _ _ _ y hwaiters _ _ _ _ _ _ _ _ herrands herrand hdeadlines =>
    have hid : id' = id := by simpa [Session.isLive, heq, hwaiters] using hlive
    have hdue : limit = 0 ∨ limit < a.due :=
      hdeadlines a.entry (hquiet.pending_eq ▸ List.mem_map_of_mem hset)
        (hid ▸ congrArg Task.happen heq)
    -- The record that is waited for has an alarm of its own, which is due before the deadline.
    have hy := (List.mem_filter.mp (herrands.mem_iff.mpr (List.mem_singleton_self y))).1
    have hy' := hy
    rw [hquiet.pending_eq] at hy'
    obtain ⟨b, hb, rfl⟩ := List.mem_map.mp hy'
    obtain ⟨due, e⟩ := b
    cases herrand with
    | arrive htime =>
      have hlive' := h.isLive (a := ⟨due, _⟩) hy (by rintro _ ⟨⟩)
      have hle := hleast _ (List.mem_filter.mpr ⟨hb, hlive'⟩)
      have hpos := (h.fed.alarms _ hb).2 _ _ rfl
      dsimp only at hle hpos htime
      omega

/-- The alarm that goes off next leads on. -/
theorem Plays.ring (h : Plays p₀ r answers limit s.pending s rank) (hquiet : s.Quiet)
    (ha : earliest (s.alarms.filter s.isLive) = some a) :
    LeadsOn p₀ r answers limit
      ({ s with alarms := (s.alarms.filter s.isLive).erase a }.ring a) rank s.load := by
  obtain ⟨hmem, -⟩ := earliest_eq_some ha
  have hset := (List.mem_filter.mp hmem).1
  let u : Session := { s with clock := a.due, alarms := (s.alarms.filter s.isLive).erase a }
  have hquiet' : u.Quiet := ⟨hquiet.control, hquiet.queue⟩
  have hlive := h.live hquiet
  have hu : Plays p₀ r answers limit ((s.alarms.filter s.isLive).map Alarm.entry) u rank := by
    refine ⟨hlive.timed.congr rfl rfl, ⟨hlive.fed.gated, (h.fed.alarms a hset).1, hlive.fed.known,
      hlive.fed.ready, ?_, hlive.fed.named⟩, hlive.fed.supply.congr rfl rfl rfl rfl⟩
    exact fun b hb => h.fed.alarms b (List.filter_sublist.subset (List.erase_subset hb))
  have hperm : ((s.alarms.filter s.isLive).map Alarm.entry).Perm
      ((u.clock, .happen a.event) :: u.pending) := by
    rw [hquiet'.pending_eq]
    exact (List.perm_cons_erase hmem).map Alarm.entry
  have hnext : ¬∃ id, Task.happen a.event = .happen (.deadline id) := by
    rintro ⟨id, heq⟩
    exact h.not_deadline hquiet ha id (Task.happen.inj heq)
  have hload : u.load = s.load := hquiet'.load_eq.trans hquiet.load_eq.symm
  have hring := Plays.begin (s := u) (t := .happen a.event)
    ⟨hu.timed.perm hperm, hu.fed.perm hperm⟩ hquiet.control hnext
  rwa [hload] at hring

/-- While it rings its alarms, what plays goes on playing, and it comes to an end. -/
theorem Plays.ringWhile {s : Session} {rank : Nat} (goesOn : Session → Alarm → Bool)
    (h : Plays p₀ r answers limit s.pending s rank) (hquiet : s.Quiet) :
    ∃ v rank', s.ringWhile goesOn = v ∧ v.Quiet ∧ Plays p₀ r answers limit v.pending v rank' ∧
      ∀ b, earliest (v.alarms.filter v.isLive) = some b → goesOn v b = false := by
  cases ha : earliest (s.alarms.filter s.isLive) with
  | none => exact ⟨s, rank, ringWhile_of_none goesOn ha, hquiet, h, by simp [ha]⟩
  | some a =>
    cases hgoes : goesOn s a with
    | false =>
      refine ⟨s, rank, ringWhile_of_stop ha hgoes, hquiet, h, fun b hb => ?_⟩
      cases ha.symm.trans hb
      exact hgoes
    | true =>
      obtain ⟨s', rank', hsettle, hplays, hnearer⟩ := h.ring hquiet ha
      obtain ⟨u, rank'', hu, hquiet', hplays', hless⟩ := hplays.settle
      have hlex : Prod.Lex (· < ·) (· < ·) (rank'', u.load) (rank, s.load) := by
        rcases hnearer with hlt | ⟨rfl, hlt⟩ <;> rcases hless with hlt' | ⟨rfl, hle⟩
        · exact .left _ _ (Nat.lt_trans hlt' hlt)
        · exact .left _ _ hlt
        · exact .left _ _ hlt'
        · exact .right _ (Nat.lt_of_le_of_lt hle hlt)
      obtain ⟨v, rest, hv, hend⟩ := hplays'.ringWhile goesOn hquiet'
      refine ⟨v, rest, ?_, hend⟩
      rw [ringWhile_of_some ha hgoes, hsettle, hu, hv]
termination_by (rank, s.load)
decreasing_by exact hlex

/-! ## The end -/

/-- When no alarm is left the whole story has come. A timer that is armed then never fires. -/
theorem Plays.atEnd (h : Plays p₀ r answers limit s.pending s rank) (hquiet : s.Quiet)
    (hnone : earliest (s.alarms.filter s.isLive) = none) :
    s.finished = answers ∧ s.player.streaming = false ∧ s.player.Holds r ∧
      (p₀.Performs (s.player, none) ∨ r.commands = [] ∧ p₀.Waits s.player) ∧
      (s.player.timer = none ∨ s.player.IsStuck) := by
  -- All that is left are deadlines that mean nothing any more.
  have hdead (x : Int × Task) (hx : x ∈ s.pending) : x.2.IsDeadline := by
    rw [hquiet.pending_eq] at hx
    obtain ⟨b, hb, rfl⟩ := List.mem_map.mp hx
    have hnot := List.filter_eq_nil_iff.mp (earliest_eq_none hnone) b hb
    obtain ⟨id, heq⟩ := h.dead hquiet hb (eq_false_of_ne_true hnot)
    exact ⟨id, congrArg Task.happen heq⟩
  cases hsupply : h.fed.supply with
  | all hwaiters herrands hfinished hstream hstory hplays =>
    refine ⟨hfinished, hstream, hstory, hplays, ?_⟩
    obtain htimers | ⟨hstuck, -⟩ := h.timed.timers
    case inr => exact .inr hstuck
    cases ht : s.player.timer with
    | none => exact .inl rfl
    | some t =>
      have hmem : t.serial ∈ s.pending.filterMap (·.2.timer?) :=
        htimers.mem_iff.mpr (by simp [ht])
      obtain ⟨x, hx, htimer⟩ := List.mem_filterMap.mp hmem
      exact absurd (hdead x hx) (Task.not_isDeadline_of_timer? htimer)
  | @comes _ _ _ _ _ _ _ _ _ _ y _ _ _ _ _ _ _ _ _ herrands herrand _ =>
    have hy := (List.mem_filter.mp (herrands.mem_iff.mpr (List.mem_singleton_self y))).1
    exact absurd (hdead y hy) (Task.not_isDeadline_of_reader? herrand.reader?)

end

end StoryPlayer.Session
