import StoryPlayer.Proofs.Playback.Timer
import StoryPlayer.Proofs.Player.Past

/-!
# Loading a script in the middle of playback

A load drops everything that was going on. Afterwards the playback differs from a new one, of the
same modes and speeds, in what it has behind it and in the calls that still wait for a render of
before. The relation `Playback.Succeeds` says just that, every move keeps it, and a render of before
that is done is a move of the one playback only.
-/

namespace StoryPlayer

/-- A move that is one of the player alone: a request, a render that is done, or a task that fires. -/
def Move.isOwn : Move → Bool
  | ask _ | complete _ | fire _ => true
  | _ => false

/-- The call with its render under the name that it has with a past. -/
def Past.suspended (h : Past) (c : Suspended) : Suspended :=
  { c with ticket := h.ticket c.ticket }

namespace Playback

theorem step_keeps (s : Playback) (m : Move) : s.player.Keeps (s.step m).player := by
  cases m with
  | ask r =>
    rw [step_ask_player]
    exact (s.player.ask_turn r).keeps
  | handle r =>
    obtain ⟨rs, -, hasked⟩ := s.ingestor.handle_takes s.player r
    have hkeeps := s.player.askAll_keeps rs
    rw [hasked] at hkeeps
    rwa [step_handle_player]
  | giveUp =>
    rw [step_giveUp_player]
    exact s.player.askAll_keeps [.streaming false, .resume]
  | complete i =>
    cases hc : s.suspended[i]? with
    | none =>
      rw [step_complete_of_none hc]
      exact .refl _
    | some c =>
      rw [step_complete hc, leave_player]
      exact (s.player.rendered_turn c.ticket).keeps
  | fire i =>
    cases ht : s.tasks[i]? with
    | none =>
      rw [step_fire_of_none ht]
      exact .refl _
    | some t =>
      rw [step_fire ht, leave_player]
      exact s.player.wake_keeps t

theorem run_keepsPlayer (s : Playback) (ms : List Move) : s.player.Keeps (s.run ms).player :=
  run_keeps (fun e => s.player.Keeps e.player) (fun _ => True)
    (fun e m _ he => he.trans (e.step_keeps m)) s (.refl _) ms fun _ _ => trivial

/-- The playback `c` is `f` with a past, in which the calls `old` were left behind. -/
structure Succeeds (h : Past) (old : List Suspended) (f c : Playback) : Prop where
  player : c.player = h.player f.player
  suspended : c.suspended = old ++ f.suspended.map h.suspended
  stale : ∀ o ∈ old, o.ticket.session ≤ h.sessions
  opened : 0 < f.player.session

theorem leave_suspended (s : Playback) (w : Waiting) (a : Afterwards) :
    (s.leave w a).suspended = s.suspended ++ (w.2.map fun t => ⟨t, a⟩).toList := by
  unfold leave
  split
  next t h => simp [h]
  next h => cases a <;> simp [conclude, h]

section

variable {h : Past} {old : List Suspended} {f c : Playback}

theorem Succeeds.leave (hc : Succeeds h old f c) {w : Waiting}
    (hkeeps : f.player.session ≤ w.1.session) (a : Afterwards) :
    Succeeds h old (f.leave w a) (c.leave (h.waiting w) a) where
  player := by simp [Past.waiting]
  suspended := by
    rw [leave_suspended, leave_suspended, hc.suspended, List.map_append, List.append_assoc]
    cases hw : w.2 <;> simp [Past.waiting, Past.suspended, hw]
  stale := hc.stale
  opened := by
    rw [leave_player]
    exact Nat.lt_of_lt_of_le hc.opened hkeeps

theorem Succeeds.tasks (hc : Succeeds h old f c) : c.tasks = f.tasks.map h.timer :=
  congrArg Player.tasks hc.player

/-- A call that was left behind ends without an effect on the player. -/
theorem Succeeds.drop (hc : Succeeds h old f c) {i : Nat} {o : Suspended}
    (ho : old[i]? = some o) : Succeeds h (old.eraseIdx i) f (c.step (.complete i)) := by
  obtain ⟨hi, rfl⟩ := List.getElem?_eq_some_iff.mp ho
  have hcall : c.suspended[i]? = some old[i] := by
    rw [hc.suspended, List.getElem?_append_left hi]
    exact ho
  have hlate : old[i].ticket.session ≠ c.player.session := by
    have hle := hc.stale old[i] (List.getElem_mem hi)
    have hopened := hc.opened
    rw [hc.player]
    change _ ≠ h.sessions + f.player.session
    omega
  have hrendered : c.player.rendered old[i].ticket = (c.player, none) := if_pos hlate
  rw [step_complete hcall, hrendered]
  refine ⟨?_, ?_, ?_, hc.opened⟩
  · rw [leave_player]
    exact hc.player
  · rw [leave_suspended]
    simp [hc.suspended, List.eraseIdx_append_of_lt_length hi]
  · exact fun u hu => hc.stale u (List.mem_of_mem_eraseIdx hu)

theorem Succeeds.step (hc : Succeeds h old f c) {m : Move} (hm : m.isOwn = true)
    (hnew : ∀ i, m ≠ .complete i) : Succeeds h old (f.step m) (c.step m) := by
  cases m with
  | handle r => cases hm
  | giveUp => cases hm
  | complete i => exact absurd rfl (hnew i)
  | ask r =>
    have hask : c.player.ask r = h.waiting (f.player.ask r) := by
      rw [hc.player]
      exact h.player_ask f.player r
    simp only [Playback.step, hask]
    exact hc.leave (f.player.ask_turn r).keeps.session_le .nothing
  | fire i =>
    cases ht : f.tasks[i]? with
    | none =>
      have ht' : c.tasks[i]? = none := by simp [hc.tasks, ht]
      rw [step_fire_of_none ht, step_fire_of_none ht']
      exact hc
    | some t =>
      have ht' : c.tasks[i]? = some (h.timer t) := by simp [hc.tasks, ht]
      have hwake : c.player.wake (h.timer t) = h.waiting (f.player.wake t) := by
        rw [hc.player]
        exact h.player_wake f.player t
      rw [step_fire ht, step_fire ht', hwake]
      exact hc.leave (f.player.wake_keeps t).session_le .nothing

/-- A render that was asked for since is done for both. -/
theorem Succeeds.complete (hc : Succeeds h old f c) (i : Nat) :
    Succeeds h old (f.step (.complete i)) (c.step (.complete (old.length + i))) := by
  have hcalls : c.suspended[old.length + i]? = f.suspended[i]?.map h.suspended := by
    rw [hc.suspended, List.getElem?_append_right (Nat.le_add_right _ _), Nat.add_sub_cancel_left,
      List.getElem?_map]
  cases hs : f.suspended[i]? with
  | none =>
    rw [step_complete_of_none hs, step_complete_of_none (by rw [hcalls, hs]; rfl)]
    exact hc
  | some u =>
    have hs' : c.suspended[old.length + i]? = some (h.suspended u) := by rw [hcalls, hs]; rfl
    have hrendered : c.player.rendered (h.suspended u).ticket =
        h.waiting (f.player.rendered u.ticket) := by
      rw [hc.player]
      exact h.player_rendered f.player u.ticket
    rw [step_complete hs, step_complete hs', hrendered]
    have hbefore : Succeeds h old { f with suspended := f.suspended.eraseIdx i }
        { c with suspended := c.suspended.eraseIdx (old.length + i) } := by
      refine ⟨hc.player, ?_, hc.stale, hc.opened⟩
      simp [hc.suspended, List.eraseIdx_append_of_length_le, List.eraseIdx_map]
    exact hbefore.leave (f.player.rendered_turn u.ticket).keeps.session_le u.afterwards

end

/-- Moves as they are where the `n` oldest of the renders under way do not exist: what is done of
those is left out, and the others count from where they ended. -/
def withoutOldest : Nat → List Move → List Move
  | _, [] => []
  | n, .complete i :: ms =>
    if i < n then withoutOldest (n - 1) ms else .complete (i - n) :: withoutOldest n ms
  | n, m :: ms => m :: withoutOldest n ms

theorem Succeeds.run {h : Past} {old : List Suspended} {f c : Playback} (hc : Succeeds h old f c)
    {ms : List Move} (hms : ∀ m ∈ ms, m.isOwn = true) :
    ∃ left, Succeeds h left (f.run (withoutOldest old.length ms)) (c.run ms) := by
  induction ms generalizing old f c with
  | nil => exact ⟨old, hc⟩
  | cons m ms ih =>
    have hm := hms m List.mem_cons_self
    have hrest : ∀ n ∈ ms, n.isOwn = true := fun n hn => hms n (List.mem_cons_of_mem m hn)
    cases m with
    | complete i =>
      simp only [withoutOldest]
      split
      next hi =>
        have ho : old[i]? = some old[i] := List.getElem?_eq_getElem hi
        have hdropped := hc.drop ho
        have hlength : (old.eraseIdx i).length = old.length - 1 := List.length_eraseIdx_of_lt hi
        rw [← hlength]
        exact ih hdropped hrest
      next hi =>
        have hdone := hc.complete (i - old.length)
        rw [Nat.add_sub_cancel' (Nat.le_of_not_lt hi)] at hdone
        exact ih hdone hrest
    | ask r => exact ih (hc.step hm nofun) hrest
    | fire i => exact ih (hc.step hm nofun) hrest
    | handle r => cases hm
    | giveUp => cases hm

/-- A load leaves everything under way behind it. -/
theorem succeeds_load {settings : Settings} {c : Playback} (hsteady : c.Steady)
    (hkeeps : (Player.new settings).Keeps c.player) (t : Text) :
    Succeeds c.player.past c.suspended
      ({ new settings with player := .freshAs settings c.player }.step (.ask (.load t)))
      (c.step (.ask (.load t))) where
  player := by
    rw [step_ask_player, step_ask_player]
    exact Player.load_freshAs hkeeps hsteady.player.tasks.disarm_tasks t
  suspended := by
    simp only [Playback.step, leave_suspended]
    rfl
  stale := fun o ho => hsteady.player.issued o.ticket (List.mem_map_of_mem ho)
  opened := by
    rw [step_ask_player]
    exact Nat.succ_pos _

/-- A load leaves no trace of what was before it. Whatever was asked, rendered and revealed until
then, from the load on the playback does what a new one with its modes and speeds does: it is in the
same phase at the same command of the same script, shows the same, has a timer alive for the same
job, and gives the same cues. Renders of before that are done in between make no difference. -/
theorem run_load_forgets (settings : Settings) (before after : List Move) (t : Text)
    (hafter : ∀ m ∈ after, m.isOwn = true) :
    let c := (new settings).run before
    let f := { new settings with player := Player.freshAs settings c.player }
    let c' := (c.step (.ask (.load t))).run after
    let f' := (f.step (.ask (.load t))).run (withoutOldest c.suspended.length after)
    c'.player.phase = f'.player.phase ∧ c'.player.display = f'.player.display ∧
      c'.player.store = f'.player.store ∧ c'.player.current = f'.player.current ∧
      c'.player.choices = f'.player.choices ∧ c'.player.delay? = f'.player.delay? ∧
      c'.player.timer.map (·.job) = f'.player.timer.map (·.job) ∧
      c'.tasks.map (·.job) = f'.tasks.map (·.job) ∧
      c'.player.cues = c.player.cues ++ f'.player.cues := by
  intro c f c' f'
  have hsteady : c.Steady := (new_steady settings).run before
  have hloaded := succeeds_load hsteady ((new settings).run_keepsPlayer before) t
  obtain ⟨left, hsame⟩ := hloaded.run hafter
  have hplayer : c'.player = c.player.past.player f'.player := hsame.player
  have htasks : c'.tasks = f'.tasks.map c.player.past.timer := hsame.tasks
  have hjob : Timer.job ∘ c.player.past.timer = Timer.job := rfl
  rw [hplayer, htasks, List.map_map, hjob]
  refine ⟨rfl, rfl, rfl, rfl, rfl, ?_, ?_, rfl, rfl⟩
  · change (f'.player.timer.map _).bind _ = _
    rw [Option.bind_map]
    rfl
  · change (f'.player.timer.map _).map _ = _
    rw [Option.map_map, hjob]

/-- Playback is left during a reveal with a render still under way that is done after the load. -/
theorem run_load_forgets_reveal :
    let before : List Move :=
      [.ask (.load ['A', '\n', 'B']), .ask .start, .ask .advance, .complete 1, .fire 0]
    let after : List Move := [.ask .start, .complete 0, .complete 0, .fire 0]
    let c := (new .default).run before
    let c' := (c.step (.ask (.load ['C', 'D']))).run after
    let f := { new .default with player := Player.freshAs .default c.player }
    let f' := (f.step (.ask (.load ['C', 'D']))).run (withoutOldest c.suspended.length after)
    (∀ m ∈ after, m.isOwn = true) ∧ c.tickets = [⟨2, .action ['A'] Scene.empty⟩] ∧
      withoutOldest c.suspended.length after = [.ask .start, .complete 0, .fire 0] ∧
      c'.player.display = ⟨narration, ['C'], false⟩ ∧ c'.player.phase = .typing ∧
      c'.player.cues = c.player.cues ++ f'.player.cues := by
  have hsame := run_load_forgets .default
    [.ask (.load ['A', '\n', 'B']), .ask .start, .ask .advance, .complete 1, .fire 0]
    [.ask .start, .complete 0, .complete 0, .fire 0] ['C', 'D'] (by decide)
  dsimp only at hsame ⊢
  obtain ⟨hphase, hdisplay, -, -, -, -, -, -, hcues⟩ := hsame
  refine ⟨by decide, by decide +kernel, by decide +kernel, hdisplay.trans ?_, hphase.trans ?_, ?_⟩
  · decide +kernel
  · decide +kernel
  · exact hcues

end Playback

end StoryPlayer
