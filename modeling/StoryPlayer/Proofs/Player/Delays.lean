import StoryPlayer.Proofs.Playback.Timer

/-!
# Delays that can be waited for

A delay is waited for as a number of seconds, which for a whole number of milliseconds may be past
the range of the clock. A player waits for the speeds it was given and for the two delays of its
settings, and its timer for one of those as they were when it was armed. So under settings whose
delays can be waited for, every timer can wait.
-/

namespace StoryPlayer

/-- The delays of settings can be waited for: as numbers of seconds they are in the range of the
clock. -/
structure Settings.IsPaced (s : Settings) : Prop where
  textSpeed : millisCountable s.textSpeed = true
  autoSpeed : millisCountable s.autoSpeed = true
  streamingAdvance : millisCountable s.streamingAdvance = true
  locationAdvance : millisCountable s.locationAdvance = true

/-- The delay of a timer that goes on. -/
def Timer.delay? (t : Timer) : Option Int :=
  match t.job with
  | .reveal _ => none
  | .goOn delay => some delay

theorem Timer.job_of_delay? {t : Timer} {delay : Int} (h : t.delay? = some delay) :
    t.job = .goOn delay := by
  unfold Timer.delay? at h
  split at h
  · cases h
  next hjob =>
    cases h
    exact hjob

theorem millisCountable_of_le {n : Int} (h : n.natAbs ≤ 5000) : millisCountable n = true := by
  have hlimit : 5000 < 1000 * floatLimit := by decide +kernel
  exact decide_eq_true (Nat.lt_of_le_of_lt h hlimit)

namespace Player

/-- The delays with which a player arms its timers. -/
def pace (p : Player) : List Int :=
  [p.textSpeed, p.autoSpeed, p.streamingAdvance, p.locationAdvance]

/-- The delays for which a player may have to wait: those and the one of its timer. -/
def delays (p : Player) : List Int :=
  p.pace ++ (p.timer.bind Timer.delay?).toList

/-- All its delays can be waited for. -/
def KeepsTime (p : Player) : Prop :=
  ∀ d ∈ p.delays, millisCountable d = true

/-- The timer of a player never fires, for its delay cannot be waited for. -/
def IsStuck (p : Player) : Prop :=
  ∃ delay, p.delay? = some delay ∧ millisCountable delay = false

section

variable {p q : Player}

theorem mem_delays_of_delay? {d : Int} (h : p.delay? = some d) : d ∈ p.delays := by
  obtain ⟨t, ht, hjob⟩ := Option.bind_eq_some_iff.mp h
  split at hjob
  next => cases hjob
  next =>
    cases hjob
    exact List.mem_cons_self
  next heq =>
    cases hjob
    refine List.mem_append_right _ ?_
    simp [ht, Timer.delay?, heq]

/-- A timer whose delay is among those that can be waited for can wait. -/
theorem KeepsTime.canWait (h : p.KeepsTime) {t : Timer} (ht : p.timer = some t) :
    t.canWait = true := by
  unfold Timer.canWait
  split
  · rfl
  next delay hjob =>
    refine h delay (List.mem_append_right _ ?_)
    simp [ht, Timer.delay?, hjob]

theorem KeepsTime.of_subset (h : p.KeepsTime) (hsub : q.delays ⊆ p.delays) : q.KeepsTime :=
  fun d hd => h d (hsub hd)

theorem KeepsTime.not_isStuck (h : p.KeepsTime) : ¬p.IsStuck := by
  rintro ⟨delay, hdelay, hcount⟩
  cases hcount.symm.trans (h delay (mem_delays_of_delay? hdelay))

theorem IsStuck.timer_ne_none (h : p.IsStuck) : p.timer ≠ none := by
  obtain ⟨delay, hdelay, -⟩ := h
  obtain ⟨t, ht, -⟩ := Option.bind_eq_some_iff.mp hdelay
  simp [ht]

/-- A player stays stuck as long as it keeps its timer and its pace. -/
theorem IsStuck.keep (h : p.IsStuck) (htimer : q.timer = p.timer)
    (hspeed : q.textSpeed = p.textSpeed) : q.IsStuck := by
  unfold IsStuck delay? at h ⊢
  rwa [htimer, hspeed]

/-- No timer goes on after any other delay than before. -/
theorem delays_of_quiet (hpace : q.pace = p.pace) (hquiet : q.timer.bind Timer.delay? = none) :
    q.delays ⊆ p.delays := by
  rw [delays, hpace, hquiet, Option.toList_none, List.append_nil]
  exact List.subset_append_left _ _

theorem arm_delays {d : Int} (h : d ∈ p.pace) (session : Nat) :
    (p.arm session (.goOn d)).delays ⊆ p.delays := by
  change p.pace ++ [d] ⊆ p.delays
  refine List.append_subset.mpr ⟨List.subset_append_left _ _, ?_⟩
  exact List.cons_subset.mpr ⟨List.mem_append_left _ h, List.nil_subset _⟩

theorem process_delays (p : Player) : (process p).1.delays ⊆ p.delays := by
  cases hc : p.store.current? with
  | none =>
    rw [process_of_none hc]
    exact delays_of_quiet rfl rfl
  | some c =>
    rw [process_of_some hc]
    exact delays_of_quiet rfl rfl

theorem finishReveal_delays (p : Player) (session : Nat) :
    (p.finishReveal session).delays ⊆ p.delays := by
  have hrevealed : p.revealed.delays = p.delays := rfl
  rw [finishReveal_eq, ← hrevealed]
  split
  · exact arm_delays (by simp [pace, revealed, notify, cue]) session
  split
  · exact arm_delays (by simp [pace, revealed, notify, cue]) session
  · exact List.Subset.refl _

theorem stayOn_delays (p : Player) : p.stayOn.delays ⊆ p.delays := by
  rw [stayOn_eq]
  split
  · exact arm_delays (p := { p with phase := .awaitingInput }) (by simp [pace]) p.session
  · exact List.Subset.refl _

theorem toggleAuto_delays (p : Player) : p.toggleAuto.delays ⊆ p.delays := by
  by_cases hphase : p.phase = .awaitingInput
  · rw [toggleAuto_of_eq hphase]
    split
    · exact arm_delays (p := { p with autoMode := true }) (by simp [pace]) p.session
    split
    · exact List.Subset.refl _
    · exact delays_of_quiet rfl rfl
  · rw [toggleAuto_of_ne hphase]
    exact List.Subset.refl _

theorem natAbs_clamp_le {n low high : Int} (hlow : 0 ≤ low) (hhigh : low ≤ high) :
    (clamp n low high).natAbs ≤ high.natAbs := by
  unfold clamp
  omega

/-- Whatever makes the player run, it waits for no delay that cannot be waited for, unless it did
before. -/
theorem Turn.keepsTime {c : Trigger} {w : Waiting} (h : p.Turn c w) (hp : p.KeepsTime) :
    w.1.KeepsTime := by
  cases h with
  | stay | append | stream | seek | late | disarmed | runOut | spent | fail => exact hp
  | textSpeed n =>
    have hspeed : millisCountable (clampTextSpeed n) = true :=
      millisCountable_of_le <|
        Nat.le_trans (natAbs_clamp_le (by decide) (by decide)) (by decide)
    exact List.forall_mem_cons.mpr ⟨hspeed, (List.forall_mem_cons.mp hp).2⟩
  | autoSpeed n =>
    have hspeed : millisCountable (clampAutoSpeed n) = true :=
      millisCountable_of_le (natAbs_clamp_le (by decide) (by decide))
    obtain ⟨htext, hrest⟩ := List.forall_mem_cons.mp hp
    refine List.forall_mem_cons.mpr ⟨htext, List.forall_mem_cons.mpr ⟨hspeed, ?_⟩⟩
    exact (List.forall_mem_cons.mp hrest).2
  | toggle r => exact hp.of_subset p.toggleAuto_delays
  | load | finish | exhaust | reveal | lapse => exact hp.of_subset (delays_of_quiet rfl rfl)
  | skip r hphase =>
    rw [skip_of_typing hphase]
    have hdisarmed : p.disarm.KeepsTime := hp.of_subset (delays_of_quiet rfl rfl)
    exact hdisarmed.of_subset (finishReveal_delays _ _)
  | restart | back | onward => exact hp.of_subset (process_delays _)
  | stayOn => exact hp.of_subset p.stayOn_delays
  | showNext => exact hp.of_subset (delays_of_quiet rfl rfl)
  | showLast | showNone =>
    have hdisarmed : p.disarm.KeepsTime := hp.of_subset (delays_of_quiet rfl rfl)
    exact hdisarmed.of_subset (finishReveal_delays _ _)

theorem askAll_keepsTime (h : p.KeepsTime) (rs : List Request) : (p.askAll rs).1.KeepsTime := by
  induction rs generalizing p with
  | nil => exact h
  | cons r rs ih => exact ih ((p.ask_turn r).keepsTime h)

end

end Player

open Player

theorem Settings.IsPaced.keepsTime {s : Settings} (h : s.IsPaced) : (Player.new s).KeepsTime := by
  simp [KeepsTime, delays, pace, Player.new, h.textSpeed, h.autoSpeed, h.streamingAdvance,
    h.locationAdvance]

namespace Playback

theorem step_keepsTime {s : Playback} (hsteady : s.Steady) (h : s.player.KeepsTime) (m : Move) :
    (s.step m).player.KeepsTime := by
  have hruns := hsteady.runs m
  generalize (s.step m).player = q at hruns ⊢
  cases hruns with
  | stay => exact h
  | turn hturn => exact hturn.keepsTime h
  | intake => exact askAll_keepsTime h _

theorem Steady.run_keepsTime {s : Playback} (hsteady : s.Steady) (h : s.player.KeepsTime)
    (ms : List Move) : (s.run ms).player.KeepsTime := by
  have hkept : (s.run ms).Steady ∧ (s.run ms).player.KeepsTime :=
    run_keeps (fun s => s.Steady ∧ s.player.KeepsTime) (fun _ => True)
      (fun _ m _ hs => ⟨step_steady hs.1 m, step_keepsTime hs.1 hs.2 m⟩) s ⟨hsteady, h⟩ ms
      fun _ _ => trivial
  exact hkept.2

end Playback

end StoryPlayer
