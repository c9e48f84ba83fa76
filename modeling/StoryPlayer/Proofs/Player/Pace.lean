import Mathlib
import StoryPlayer.Proofs.Playback.Streaming
import StoryPlayer.Proofs.Player.Delays
import StoryPlayer.Proofs.Player.Recital

/-!
# A player that plays by itself

In auto mode a player goes on until it runs out of commands. Every timer that fires and every render
that is done takes it a step further, and of these steps there are only so many: one for each
character and a few for each command. All that it takes is that its delays can be waited for.
-/

namespace StoryPlayer

/-- The steps that a command may take. -/
def Command.work (c : Command) : Nat :=
  (c.spoken?.getD []).length + 3

/-- The steps that a timer may take, until the player goes on to the next command. -/
def Timer.work (t : Timer) : Nat :=
  match t.job with
  | .reveal rest => rest.length + 2
  | .goOn _ => 1

namespace Player

/-- The steps that the commands behind the current one may take. -/
def ahead (p : Player) : Nat :=
  ((p.store.commands.drop (p.store.cursor + 1)).map Command.work).sum

/-- The steps that a player may take by itself, when it may wait for a render. -/
def work (w : Waiting) : Nat :=
  w.1.ahead + (w.1.timer.map Timer.work).getD 0 + (w.2.map fun t => t.command.work).getD 0

/-- The player plays in the mode of `p₀` and with the delays of that, and so does its timer. -/
structure Paces (p₀ p : Player) : Prop where
  auto : p.autoMode = p₀.autoMode
  textSpeed : p.textSpeed = p₀.textSpeed
  autoSpeed : p.autoSpeed = p₀.autoSpeed
  streamingAdvance : p.streamingAdvance = p₀.streamingAdvance
  locationAdvance : p.locationAdvance = p₀.locationAdvance
  timer : ∀ t delay, p.timer = some t → t.job = .goOn delay →
    delay = p₀.autoSpeed ∨ delay = p₀.streamingAdvance ∨ delay = p₀.locationAdvance

section

variable {p₀ p q r : Player}

theorem ahead_eq {s : Store} {c : Command} (hnext : p.store.advance? = some s)
    (hc : s.current? = some c) : p.ahead = c.work + { p with store := s }.ahead := by
  obtain ⟨-, rfl⟩ := Store.advance?_eq_some hnext
  obtain ⟨hlt, hget⟩ := List.getElem?_eq_some_iff.mp hc
  unfold ahead
  rw [List.drop_eq_getElem_cons hlt, List.map_cons, List.sum_cons, hget]

theorem process_work {s : Store} (hnext : p.store.advance? = some s) :
    work (process { p with store := s }) = p.ahead := by
  obtain ⟨hlt, rfl⟩ := Store.advance?_eq_some hnext
  let s : Store := { p.store with cursor := p.store.cursor + 1 }
  obtain ⟨c, hc⟩ := Store.exists_current? (s := s) hlt
  rw [process_of_some (p := { p with store := s }) hc, ahead_eq hnext hc]
  exact Nat.add_comm ({ p with store := s }.ahead + 0) c.work

theorem finishReveal_work (htimer : p.timer = none) (session : Nat) :
    work (p.finishReveal session, none) ≤ p.ahead + 1 := by
  rw [finishReveal_eq]
  split
  · exact Nat.le_refl _
  split
  · exact Nat.le_refl _
  · have hnone : p.revealed.timer = none := htimer
    simp only [work, hnone]
    exact Nat.le_succ _

/-- A render that is done, or a timer that fires, leaves less to do. -/
theorem Turn.work_lt {c : Trigger} {w : Waiting} (hturn : p.Turn c w) (hc : c.isOwn = true)
    (htimer : c.isTimer = true → p.timer ≠ none) : work w < work (p, c.ticket?) := by
  have hpos (d : Command) : 3 ≤ d.work := Nat.le_add_left _ _
  have hmoves (hon : p.MovesOn c) : p.ahead < work (p, c.ticket?) := by
    cases c with
    | request r => cases hc
    | render t =>
      have ht := hpos t.command
      simp only [work, Trigger.ticket?, Option.map_some, Option.getD_some]
      omega
    | timer =>
      obtain ⟨-, t, delay, ht, hjob, -⟩ := hon
      simp [work, ht, Timer.work, hjob, Trigger.ticket?]
    | failure => cases hc
  cases hturn with
  | stay | load | append | stream | seek | textSpeed | autoSpeed | toggle | finish | skip | runOut
  | restart | back | fail => cases hc
  | onward hon hnext =>
    rw [process_work hnext]
    exact hmoves hon
  | exhaust hon hlast => exact hmoves hon
  | @spent t hon hlast =>
    have ht := hpos t.command
    change p.ahead + _ + 0 < p.ahead + _ + t.command.work
    exact Nat.add_lt_add_left (by omega) _
  | @late t hlate =>
    have ht := hpos t.command
    exact Nat.add_lt_add_left (by change 0 < t.command.work; omega) _
  | @reveal t text hsession htext =>
    have ht : t.command.work = text.length + 3 := by simp [Command.work, htext]
    change p.ahead + (text.length + 2) + 0 < p.ahead + _ + t.command.work
    omega
  | @stayOn t hsession htext hcast =>
    have ht := hpos t.command
    rw [stayOn_eq]
    split
    · change p.ahead + 1 + 0 < p.ahead + _ + t.command.work
      omega
    · exact Nat.add_lt_add_left (by change 0 < t.command.work; omega) _
  | disarmed hnone => exact absurd hnone (htimer rfl)
  | @showNext t char rest ht hjob hrest =>
    have hwork : work (p, Trigger.timer.ticket?) = p.ahead + (rest.length + 3) := by
      simp [work, ht, Timer.work, hjob, Trigger.ticket?]
    rw [hwork]
    exact Nat.add_lt_add_left (Nat.lt_succ_self (rest.length + 2)) p.ahead
  | @showLast t char ht hjob =>
    have hle := finishReveal_work (p := (p.showNext char).disarm) rfl t.session
    have hwork : work (p, Trigger.timer.ticket?) = p.ahead + 3 := by
      simp [work, ht, Timer.work, hjob, Trigger.ticket?]
    rw [hwork]
    exact Nat.lt_of_le_of_lt hle (Nat.add_lt_add_left (by decide) _)
  | @showNone t ht hjob =>
    have hle := finishReveal_work (p := p.disarm) rfl t.session
    have hwork : work (p, Trigger.timer.ticket?) = p.ahead + 2 := by
      simp [work, ht, Timer.work, hjob, Trigger.ticket?]
    rw [hwork]
    exact Nat.lt_of_le_of_lt hle (Nat.add_lt_add_left (by decide) _)
  | @lapse t delay ht hjob hlate =>
    have hwork : work (p, Trigger.timer.ticket?) = p.ahead + 1 := by
      simp [work, ht, Timer.work, hjob, Trigger.ticket?]
    rw [hwork]
    exact Nat.lt_succ_self p.ahead

/-! ## Delays -/

theorem Paces.process (h : p₀.Paces p) : p₀.Paces (process p).1 := by
  cases hc : p.store.current? with
  | none =>
    rw [process_of_none hc]
    exact ⟨h.auto, h.textSpeed, h.autoSpeed, h.streamingAdvance, h.locationAdvance, nofun⟩
  | some c =>
    rw [process_of_some hc]
    exact ⟨h.auto, h.textSpeed, h.autoSpeed, h.streamingAdvance, h.locationAdvance, nofun⟩

theorem Paces.arm (h : p₀.Paces p) (session : Nat) {delay : Int}
    (hdelay : delay = p₀.autoSpeed ∨ delay = p₀.streamingAdvance ∨ delay = p₀.locationAdvance) :
    p₀.Paces (p.arm session (.goOn delay)) := by
  refine ⟨h.auto, h.textSpeed, h.autoSpeed, h.streamingAdvance, h.locationAdvance, ?_⟩
  rintro t d ⟨⟩ hjob
  cases hjob
  exact hdelay

theorem Paces.finishReveal (h : p₀.Paces p) (session : Nat) :
    p₀.Paces (p.finishReveal session) := by
  have hrevealed : p₀.Paces p.revealed :=
    ⟨h.auto, h.textSpeed, h.autoSpeed, h.streamingAdvance, h.locationAdvance, h.timer⟩
  rw [finishReveal_eq]
  split
  · exact hrevealed.arm _ (.inr (.inl h.streamingAdvance))
  split
  · exact hrevealed.arm _ (.inl h.autoSpeed)
  · exact hrevealed

theorem Paces.disarm (h : p₀.Paces p) : p₀.Paces p.disarm :=
  ⟨h.auto, h.textSpeed, h.autoSpeed, h.streamingAdvance, h.locationAdvance, nofun⟩

theorem Paces.exhaust (h : p₀.Paces p) : p₀.Paces p.exhaust :=
  ⟨h.auto, h.textSpeed, h.autoSpeed, h.streamingAdvance, h.locationAdvance, h.timer⟩

/-- A player goes on at its own pace. -/
theorem Turn.paces {c : Trigger} {w : Waiting} (hturn : p.Turn c w) (hc : c.isOwn = true)
    (h : p₀.Paces p) : p₀.Paces w.1 := by
  have hreveal (d : Display) (cues : Array Cue) (phase : Phase) {t : Timer} {text : Text}
      (tasks : List Timer) (serial : Nat) (hjob : t.job = .reveal text) :
      p₀.Paces { p with
        phase := phase, display := d, cues := cues, timer := some t, tasks := tasks,
        serial := serial } := by
    refine ⟨h.auto, h.textSpeed, h.autoSpeed, h.streamingAdvance, h.locationAdvance, ?_⟩
    rintro u delay ⟨⟩ hgoes
    cases hjob.symm.trans hgoes
  cases hturn with
  | stay | load | append | stream | seek | textSpeed | autoSpeed | toggle | finish | skip | runOut
  | restart | back | fail => cases hc
  | onward hon hnext =>
    apply Paces.process
    exact ⟨h.auto, h.textSpeed, h.autoSpeed, h.streamingAdvance, h.locationAdvance, h.timer⟩
  | exhaust hon hlast => exact h.disarm.exhaust
  | spent hon hlast => exact h.exhaust
  | late hlate => exact h
  | reveal hsession htext => exact hreveal _ _ _ _ _ rfl
  | stayOn hsession htext hcast =>
    have hwaits : p₀.Paces { p with phase := .awaitingInput } :=
      ⟨h.auto, h.textSpeed, h.autoSpeed, h.streamingAdvance, h.locationAdvance, h.timer⟩
    rw [stayOn_eq]
    split
    · exact hwaits.arm _ (.inr (.inr h.locationAdvance))
    · exact hwaits
  | disarmed hnone => exact h
  | showNext ht hjob hrest => exact hreveal _ _ p.phase _ _ rfl
  | @showLast t char ht hjob =>
    have hshown : p₀.Paces (p.showNext char) :=
      ⟨h.auto, h.textSpeed, h.autoSpeed, h.streamingAdvance, h.locationAdvance, h.timer⟩
    exact hshown.disarm.finishReveal _
  | showNone ht hjob => exact h.disarm.finishReveal _
  | lapse ht hjob hlate => exact h.disarm

theorem Paces.resume (h : p₀.Paces p) : p₀.Paces p.resume.1 := by
  unfold Player.resume
  split
  · exact h
  split
  · apply Paces.process
    exact ⟨h.auto, h.textSpeed, h.autoSpeed, h.streamingAdvance, h.locationAdvance, h.timer⟩
  split
  · exact h
  · exact ⟨h.auto, h.textSpeed, h.autoSpeed, h.streamingAdvance, h.locationAdvance, h.timer⟩

theorem Paces.setStreaming (h : p₀.Paces p) (on : Bool) : p₀.Paces (p.setStreaming on) :=
  ⟨h.auto, h.textSpeed, h.autoSpeed, h.streamingAdvance, h.locationAdvance, h.timer⟩

theorem Paces.append (h : p₀.Paces p) (t : Text) : p₀.Paces (p.append t) :=
  ⟨h.auto, h.textSpeed, h.autoSpeed, h.streamingAdvance, h.locationAdvance, h.timer⟩

theorem Paces.loadAndStart (h : p₀.Paces p) (t : Text) : p₀.Paces (p.load t).start.1 := by
  have hloaded : p₀.Paces (p.load t) :=
    ⟨h.auto, h.textSpeed, h.autoSpeed, h.streamingAdvance, h.locationAdvance, nofun⟩
  unfold start
  split
  · exact hloaded
  · apply Paces.process
    exact ⟨hloaded.auto, hloaded.textSpeed, hloaded.autoSpeed, hloaded.streamingAdvance,
      hloaded.locationAdvance, hloaded.timer⟩

/-- A player that goes at the pace of another waits for no other delays. -/
theorem Paces.delays (h : p₀.Paces p) : p.delays ⊆ p₀.delays := by
  have hpace : p.pace = p₀.pace := by
    simp only [pace, h.textSpeed, h.autoSpeed, h.streamingAdvance, h.locationAdvance]
  rw [Player.delays, hpace]
  refine List.append_subset.mpr ⟨List.subset_append_left _ _, fun d hd => ?_⟩
  obtain ⟨t, ht, hdelay⟩ := Option.bind_eq_some_iff.mp (Option.mem_toList.mp hd)
  have hmem : d ∈ p₀.pace := by
    rcases h.timer t d ht (Timer.job_of_delay? hdelay) with rfl | rfl | rfl <;> simp [pace]
  exact List.mem_append_left _ hmem

theorem Paces.keepsTime (h : p₀.Paces p) (hp : p₀.KeepsTime) : p.KeepsTime :=
  hp.of_subset h.delays

/-! ## Timers -/

/-- The timer that a timer leaves armed when it fires is the same one, or it was armed since. -/
theorem fire_serial (p : Player) :
    p.serial ≤ p.fire.1.serial ∧ ∀ u, p.fire.1.timer = some u →
      (∃ t, p.timer = some t ∧ u.serial = t.serial) ∨ p.serial ≤ u.serial := by
  have hrearms {q : Player} (h : p.Rearms q) : p.serial ≤ q.serial ∧
      ∀ u, q.timer = some u → (∃ t, p.timer = some t ∧ u.serial = t.serial) ∨
        p.serial ≤ u.serial :=
    ⟨h.serial_le, fun u hu => (h.timer u hu).imp_left fun ht => ⟨u, ht, rfl⟩⟩
  have hturn := p.fire_turn
  generalize p.fire = w at hturn ⊢
  cases hturn with
  | onward hon hnext => exact hrearms (process_rearms rfl)
  | exhaust hon hlast => exact hrearms (.of_none rfl rfl)
  | disarmed hnone => exact hrearms (.of_eq rfl rfl)
  | @showNext t char rest ht hjob hrest =>
    refine ⟨Nat.le_refl _, ?_⟩
    rintro u ⟨⟩
    exact .inl ⟨t, ht, rfl⟩
  | @showLast t char ht hjob =>
    have hserial : (p.showNext char).disarm.serial = p.serial := rfl
    exact hrearms (finishReveal_rearms hserial rfl _)
  | showNone ht hjob =>
    have hserial : p.disarm.serial = p.serial := rfl
    exact hrearms (finishReveal_rearms hserial rfl _)
  | lapse ht hjob hlate => exact hrearms (.of_none rfl rfl)

/-! ## Renders that are done at once -/

/-- What every render that is done keeps is kept until no call waits for one. -/
theorem complete_keeps {P : Waiting → Prop} (hstep : ∀ q t, P (q, some t) → P (q.rendered t))
    {n : Nat} {w : Waiting} (h : P w)
    (hn : w.2.toList.length + (w.1.store.size - w.1.store.cursor) ≤ n) :
    P (complete n w, none) := by
  induction n generalizing w with
  | zero =>
    obtain ⟨q, t⟩ := w
    cases t with
    | none => exact h
    | some t =>
      simp at hn
  | succ n ih =>
    obtain ⟨q, t⟩ := w
    cases t with
    | none => exact h
    | some t =>
      have hleft := Playback.rendered_left q t
      apply ih (hstep q t h)
      simp at hn hleft ⊢
      omega

theorem settle_keeps {P : Waiting → Prop} (hstep : ∀ q t, P (q, some t) → P (q.rendered t))
    {w : Waiting} (h : P w) : P (settle w, none) := by
  apply complete_keeps hstep h
  have hone : w.2.toList.length ≤ 1 := by cases w.2 <;> simp
  omega

theorem settle_of_none {w : Waiting} (h : w.2 = none) : settle w = w.1 := by
  obtain ⟨q, t⟩ := w
  cases h
  rfl

theorem settle_none (p : Player) : settle (p, none) = p := rfl

/-- With enough renders to complete, it does not matter how many. -/
theorem complete_eq {m n : Nat} {w : Waiting}
    (hm : w.2.toList.length + (w.1.store.size - w.1.store.cursor) ≤ m)
    (hn : w.2.toList.length + (w.1.store.size - w.1.store.cursor) ≤ n) :
    complete m w = complete n w := by
  induction m generalizing n w with
  | zero =>
    obtain ⟨q, t⟩ := w
    cases t with
    | none => cases n <;> rfl
    | some t => simp at hm
  | succ m ih =>
    obtain ⟨q, t⟩ := w
    cases t with
    | none => cases n <;> rfl
    | some t =>
      cases n with
      | zero => simp at hn
      | succ n =>
        have hleft := Playback.rendered_left q t
        simp at hm hn
        exact ih (by omega) (by omega)

/-- A render that is done at once is followed by those that it leads to. -/
theorem settle_some (p : Player) (t : Ticket) : settle (p, some t) = settle (p.rendered t) := by
  have hone : (p.rendered t).2.toList.length ≤ 1 := by cases (p.rendered t).2 <;> simp
  unfold settle
  rw [complete]
  exact complete_eq (Playback.rendered_left p t) (by omega)

/-- Since `p₀` the player has told a story by itself, and goes on with it. -/
structure Performs (p₀ : Player) (w : Waiting) : Prop where
  settled : w.1.Settled w.2.toList
  recites : p₀.Recites w.1
  paces : p₀.Paces w.1
  playing : w.2 ≠ none → w.1.phase = .playing

/-- Since `p₀` there was no story to tell. -/
structure Waits (p₀ p : Player) : Prop where
  settled : p.Settled []
  idle : p.phase = .idle
  renders : p₀.Renders p []
  completes : p₀.Completes p []
  paces : p₀.Paces p

theorem SameStory.trans (h : p.SameStory q) (h' : q.SameStory r) : p.SameStory r :=
  ⟨h'.commands.trans h.commands, h'.scene.trans h.scene, h'.choices.trans h.choices,
    h'.streaming.trans h.streaming⟩

theorem process_playing (h : (process p).2 ≠ none) : (process p).1.phase = .playing := by
  cases hc : p.store.current? with
  | none =>
    rw [process_of_none hc] at h
    exact absurd rfl h
  | some c =>
    rw [process_of_some hc]
    rfl

theorem Turn.playing {c : Trigger} {w : Waiting} (hturn : p.Turn c w) (h : w.2 ≠ none) :
    w.1.phase = .playing := by
  cases hturn with
  | restart | back | onward => exact process_playing h
  | _ => exact absurd rfl h

theorem resume_playing (h : p.resume.2 ≠ none) : p.resume.1.phase = .playing :=
  p.resume_turn.playing h

theorem Performs.turn {c : Trigger} {w : Waiting} (h : p₀.Performs (p, c.ticket?))
    (hturn : p.Turn c w) (hc : c.isOwn = true) : p₀.Performs w where
  settled := by
    have hsettled : p.Settled (c.ticket?.toList ++ []) := by
      rw [List.append_nil]
      exact h.settled
    exact hturn.settled (Trigger.isPlayback_of_isOwn hc) hsettled
  recites := by
    have hsettled : p.Settled (c.ticket?.toList ++ []) := by
      rw [List.append_nil]
      exact h.settled
    exact hturn.recites hc hsettled h.recites h.playing
  paces := hturn.paces hc h.paces
  playing := hturn.playing

/-- When its renders are done at once, a player that performs still does, with the same story and
not more left to do. -/
theorem Performs.settle {w : Waiting} (h : p₀.Performs w) :
    p₀.Performs (Player.settle w, none) ∧ work (Player.settle w, none) ≤ work w ∧
      w.1.Rearms (Player.settle w) ∧ w.1.SameStory (Player.settle w) := by
  let P : Waiting → Prop := fun v =>
    p₀.Performs v ∧ work v ≤ work w ∧ w.1.Rearms v.1 ∧ w.1.SameStory v.1
  have hw : P w := ⟨h, Nat.le_refl _, .of_eq rfl rfl, .refl _⟩
  refine settle_keeps (P := P) ?_ hw
  rintro q t ⟨hperforms, hwork, hrearms, hsame⟩
  have hturn := q.rendered_turn t
  have hlt := hturn.work_lt rfl nofun
  exact ⟨hperforms.turn hturn rfl, Nat.le_trans (Nat.le_of_lt hlt) hwork,
    hrearms.trans (hturn.rearms rfl), hsame.trans (hturn.sameStory rfl)⟩

/-- The timer of a player that performs takes it further. -/
theorem Performs.fire {t : Timer} (h : p₀.Performs (p, none)) (ht : p.timer = some t) :
    let q := Player.settle p.fire
    p₀.Performs (q, none) ∧ work (q, none) < work (p, none) ∧ p.SameStory q ∧
      p.serial ≤ q.serial ∧ ∀ u, q.timer = some u → u.serial = t.serial ∨ p.serial ≤ u.serial := by
  intro q
  have hturn := p.fire_turn
  have hperforms : p₀.Performs p.fire := Performs.turn (c := .timer) h hturn rfl
  obtain ⟨hsettled, hwork, hrearms, hsame⟩ := hperforms.settle
  have hlt := hturn.work_lt rfl fun _ => by simp [ht]
  obtain ⟨hserial, htimer⟩ := p.fire_serial
  refine ⟨hsettled, Nat.lt_of_le_of_lt hwork hlt, (hturn.sameStory rfl).trans hsame,
    Nat.le_trans hserial hrearms.serial_le, ?_⟩
  intro u hu
  rcases hrearms.timer u hu with hu | hu
  · rcases htimer u hu with ⟨v, hv, heq⟩ | hle
    · cases ht.symm.trans hv
      exact .inl heq
    · exact .inr hle
  · exact .inr (Nat.le_trans hserial hu)

end

end Player

end StoryPlayer
