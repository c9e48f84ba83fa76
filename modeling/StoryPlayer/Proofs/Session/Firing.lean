import StoryPlayer.Proofs.Session.Pending

/-!
# The timers of a session that plays by itself

A timer waits for its delay and fires. That takes the player further, and what is armed then waits in
its turn, so a timer is pending all the while. One whose delay cannot be waited for never fires.
-/

namespace StoryPlayer.Session

/-- What is left for the timers to do. A timer that has not begun to wait has one turn more. -/
def load (s : Session) : Nat :=
  2 * Player.work (s.player, none) + s.pending.countP (·.2.isPace)

/-- A session nearer to its end than one of this rank and load. -/
def Nearer (rank' load' rank load : Nat) : Prop :=
  rank' < rank ∨ rank' = rank ∧ load' < load

section

variable {p₀ : Player} {r : Reading} {answers : Array (Nat × Result)} {limit rank n : Nat}
  {l l' : List (Int × Task)} {s s' : Session} {x y : Int × Task}

theorem load_enqueue (s : Session) (t : Task) :
    (s.enqueue t).load = s.load + if t.isPace then 1 else 0 := by
  have hcount := (s.pending_enqueue t).countP_eq (·.2.isPace)
  rw [List.countP_cons] at hcount
  unfold load
  rw [← hcount, Nat.add_assoc]
  rfl

theorem load_setAlarm (s : Session) (due : Int) (e : Event) : (s.setAlarm due e).load = s.load := by
  have hcount := (s.pending_setAlarm due e).countP_eq (·.2.isPace)
  rw [List.countP_cons] at hcount
  unfold load
  rw [← hcount]
  rfl

theorem load_pause (s : Session) (micros : Int) (e : Event) : (s.pause micros e).load = s.load := by
  unfold pause
  split
  · exact s.load_enqueue (.happen e)
  · exact s.load_setAlarm _ e

theorem load_notice (s : Session) : s.notice.load ≤ s.load + 1 := by
  unfold notice
  split
  next t _ =>
    split
    · exact Nat.le_of_eq ({ s with paced := t.serial + 1 }.load_enqueue (.pace t.serial))
    · exact Nat.le_succ _
  · exact Nat.le_succ _

theorem notice_of_lt (h : ∀ t, s.player.timer = some t → t.serial < s.paced) : s.notice = s := by
  unfold notice
  split
  next t ht => exact if_neg (Nat.not_le.mpr (h t ht))
  · rfl

/-! ## Firing -/

theorem await_eq (h : s.gated = false) (w : Waiting) (c : Call) :
    s.await w c =
      { { s with player := Player.settle w }.notice with control := .answer .nothing c } := by
  have hawait : s.await w c =
      { { s with player := Player.settle w } with control := .answer .nothing c }.notice := by
    unfold await
    rw [h]
  rw [hawait, notice_control]

/-- The session behind a timer that has fired. -/
def fired (s : Session) (n : Nat) : Session :=
  let s := { s with player := Player.settle s.player.fire }.notice
  match s.player.timer with
  | some t => if t.serial = n then s.enqueue (.pace n) else s
  | none => s

theorem fire_settle (h : s.gated = false) (n : Nat) :
    (s.fire n).settle = (s.fired n).resting.settle := by
  have hfire : s.fire n = { s.fired n with control := .answer .nothing ⟨none, []⟩ } := by
    unfold fire fired
    rw [await_eq h]
    generalize { s with player := Player.settle s.player.fire }.notice = u
    cases ht : u.player.timer with
    | none => simp only [ht]
    | some t =>
      simp only [ht]
      split <;> rfl
  rw [hfire, settle_answer_none]

/-- A timer that stays armed is ready to wait anew. -/
theorem fired_of_stays {t : Timer} (ht : (Player.settle s.player.fire).timer = some t)
    (hlt : t.serial < s.paced) :
    s.fired t.serial =
      { s with player := Player.settle s.player.fire }.enqueue (.pace t.serial) := by
  have hnotice : { s with player := Player.settle s.player.fire }.notice =
      { s with player := Player.settle s.player.fire } := by
    apply notice_of_lt
    intro v hv
    cases ht.symm.trans hv
    exact hlt
  unfold fired
  rw [hnotice]
  simp only [ht, if_true]

/-- Any other timer was armed since. -/
theorem fired_of_new (hnew : ∀ t, (Player.settle s.player.fire).timer = some t → t.serial ≠ n) :
    s.fired n = { s with player := Player.settle s.player.fire }.notice := by
  unfold fired
  dsimp only
  rw [notice_player]
  split
  next t ht => exact if_neg (hnew t ht)
  · rfl

/-- A player that has a timer performs. -/
theorem Supply.performs (h : Supply p₀ r answers limit l s rank) (htimer : s.player.timer ≠ none) :
    p₀.Performs (s.player, none) := by
  cases h with
  | all _ _ _ _ _ hplays =>
    rcases hplays with hperforms | ⟨-, hwaits⟩
    · exact hperforms
    · exact absurd hwaits.timer htimer
  | @comes _ _ k _ _ _ _ _ _ _ _ _ _ _ _ _ _ hreceiving _ htells =>
    by_cases hready : k.ingestor.setupReady = true
    · exact htells.performs hreceiving.unfinished hready
    · have hwaits := (htells.before (eq_false_of_ne_true hready)).2
      exact absurd hwaits.timer htimer

/-- The story goes on in the hands of a player that performs it further. -/
theorem Supply.withPlayer {q : Player} (h : Supply p₀ r answers limit l s rank)
    (htimer : s.player.timer ≠ none) (hq : p₀.Performs (q, none)) (hsame : s.player.SameStory q) :
    Supply p₀ r answers limit l { s with player := q } rank := by
  cases h with
  | all hwaiters herrands hfinished hstream hstory hplays =>
    exact .all hwaiters herrands hfinished (hsame.streaming.trans hstream)
      (hstory.sameStory hsame) (.inl hq)
  | comes hwaiters hintakes htimeout hreading hanswers hfinished hreceiving hdelivers htells
      herrands herrand hdeadlines =>
    refine .comes hwaiters hintakes htimeout hreading hanswers hfinished
      (hreceiving.sameStory hsame) hdelivers ⟨fun hready => ?_, fun _ => .inl hq⟩ herrands herrand
      hdeadlines
    exact absurd (htells.before hready).2.timer htimer

/-- A timer that fires takes the player further and is pending anew, if one is armed still. -/
theorem Plays.fired (h : Plays p₀ r answers limit (x :: s.pending) s rank)
    (hx : x.2.timer? = some n) :
    Plays p₀ r answers limit (s.fired n).pending (s.fired n) rank ∧ (s.fired n).load < s.load := by
  obtain ⟨⟨t, ht, rfl⟩, hnone⟩ := h.timed.of_cons hx
  have hsome : s.player.timer ≠ none := by simp [ht]
  have hfed := (Fed.cons_timer hx).mp h.fed
  obtain ⟨hq, hlt, hsame, hserial, htimer⟩ := (hfed.supply.performs hsome).fire ht
  let q := Player.settle s.player.fire
  let u : Session := { s with player := q }
  have hsupply : Supply p₀ r answers limit u.pending u rank :=
    hfed.supply.withPlayer hsome hq hsame
  have hu : Fed p₀ r answers limit u.pending u rank :=
    ⟨hfed.toOrderly.congr rfl rfl rfl rfl rfl, hsupply⟩
  have hpaced := h.timed.paced
  replace hlt : Player.work (q, none) < Player.work (s.player, none) := hlt
  have hload : u.load + 2 ≤ s.load := by
    change 2 * Player.work (q, none) + s.pending.countP (·.2.isPace) + 2 ≤
      2 * Player.work (s.player, none) + s.pending.countP (·.2.isPace)
    omega
  by_cases hstays : ∃ v, q.timer = some v ∧ v.serial = t.serial
  · obtain ⟨v, hv, hvt⟩ := hstays
    rw [← hvt, fired_of_stays hv (hvt ▸ h.timed.noticed t ht), load_enqueue]
    refine ⟨Plays.enqueue ⟨⟨.inl ?_, ?_, ?_⟩, (Fed.cons_timer rfl).mpr hu⟩ (by rintro ⟨_, ⟨⟩⟩), ?_⟩
    · change (v.serial :: s.pending.filterMap (·.2.timer?)).Perm (q.timer.toList.map (·.serial))
      rw [hnone, hv]
      exact .refl _
    · intro w hw
      cases hv.symm.trans hw
      rw [hvt]
      exact h.timed.noticed t ht
    · exact Nat.le_trans hpaced hserial
    · simp only [Task.isPace, if_true]
      exact hload
  · have hnew (v : Timer) (hv : q.timer = some v) : v.serial ≠ t.serial := by
      intro heq
      exact hstays ⟨v, hv, heq⟩
    have hafter (v : Timer) (hv : q.timer = some v) : s.paced ≤ v.serial :=
      Nat.le_trans hpaced ((htimer v hv).resolve_left (hnew v hv))
    rw [fired_of_new hnew]
    refine ⟨⟨Timed.notice (.inl ?_) hq.settled.serial (Nat.le_trans hpaced hserial), hu.notice⟩, ?_⟩
    · change (s.pending.filterMap (·.2.timer?)).Perm
        ((q.timer.toList.filter (·.serial < s.paced)).map (·.serial))
      rw [hnone]
      cases hv : q.timer with
      | none => exact .refl _
      | some v => simp [Nat.not_lt.mpr (hafter v hv)]
    · exact Nat.lt_of_le_of_lt u.load_notice (by omega)

end

end StoryPlayer.Session
