import StoryPlayer.Proofs.Playback.Timer
import StoryPlayer.Proofs.Store.Cursor

/-!
# Playback that has ended

A player that has ended holds no timer, so all that can still come are renders that are under way. A
render of an earlier session is dropped. Ending opens no session of its own, however: if the render
of the present session is under way, the player ends while it is still waiting for it, and takes up
playing again when it is done. Only when that render is of a cast command, and nothing stands behind
it, is there nothing to take up.
-/

namespace StoryPlayer

/-- A move that nobody makes: a render is done or a task fires. -/
def Move.isInternal : Move → Bool
  | complete _ | fire _ => true
  | _ => false

namespace Player

/-- The render has no effect on the player once it has ended: it is of an earlier session, or of a
cast command behind which there is nothing and nothing is to come. -/
def Drops (p : Player) (t : Ticket) : Prop :=
  t.session = p.session →
    t.command.isCast = true ∧ p.store.advance? = none ∧ p.streaming = false

variable {p : Player} {t : Ticket}

theorem exhaust_eq_self (hphase : p.phase = .ended) (hstream : p.streaming = false) :
    p.exhaust = p := by
  rw [exhaust_of_not_streaming hstream, ← hphase]

theorem rendered_of_drops (hphase : p.phase = .ended) (htimer : p.timer = none) (h : p.Drops t) :
    p.rendered t = (p, none) := by
  have hturn := p.rendered_turn t
  generalize p.rendered t = w at hturn ⊢
  cases hturn with
  | onward hmoves hnext =>
    rw [(h hmoves.1).2.1] at hnext
    cases hnext
  | exhaust hmoves hlast => rw [disarm_eq_self htimer, exhaust_eq_self hphase (h hmoves.1).2.2]
  | spent hmoves hlast => rw [exhaust_eq_self hphase (h hmoves.1).2.2]
  | late hsession => rfl
  | reveal hsession htext =>
    have hcast := (h hsession).1
    cases hcommand : t.command <;> simp [hcommand, Command.isCast, Command.spoken?] at hcast htext
  | stayOn hsession htext hcast =>
    rw [(h hsession).1] at hcast
    cases hcast

/-- A render that is not dropped takes a player up again, whatever its phase. -/
theorem rendered_phase_ne_ended (h : ¬p.Drops t) : (p.rendered t).1.phase ≠ .ended := by
  obtain ⟨hsession, hgoes⟩ := Classical.not_imp.mp h
  have hturn := p.rendered_turn t
  generalize p.rendered t = w at hturn ⊢
  have hstream : p.MovesOn (.render t) → p.store.advance? = none → p.streaming = true :=
    fun hmoves hlast => eq_true_of_ne_false fun hstream => hgoes ⟨hmoves.2, hlast, hstream⟩
  cases hturn with
  | onward hmoves hnext =>
    obtain ⟨hlt, rfl⟩ := Store.advance?_eq_some hnext
    obtain ⟨c, hc⟩ := Store.exists_current? (s := { p.store with cursor := p.store.cursor + 1 }) hlt
    rw [process_of_some (p := { p with store := { p.store with cursor := p.store.cursor + 1 } }) hc]
    exact nofun
  | exhaust hmoves hlast =>
    rw [exhaust_of_streaming (p := p.disarm) (hstream hmoves hlast)]
    exact nofun
  | spent hmoves hlast =>
    rw [exhaust_of_streaming (hstream hmoves hlast)]
    exact nofun
  | late hlate => exact absurd hsession hlate
  | reveal _ htext => exact nofun
  | stayOn _ htext hcast =>
    obtain ⟨t, ts, n, heq⟩ := p.exists_stayOn
    rw [heq]
    exact nofun

end Player

namespace Playback

/-- The player has ended and drops all renders that are under way. -/
structure Over (s : Playback) : Prop where
  steady : s.Steady
  ended : s.player.phase = .ended
  drops : ∀ t ∈ s.tickets, s.player.Drops t

theorem Over.timer {s : Playback} (h : s.Over) : s.player.timer = none :=
  h.steady.player.fits.timer_eq_none (by simp [h.ended]) (by simp [h.ended])

theorem Over.step_player {s : Playback} (h : s.Over) {m : Move} (hm : m.isInternal = true) :
    (s.step m).player = s.player ∧ (s.step m).tickets ⊆ s.tickets := by
  cases m with
  | ask r => cases hm
  | handle r => cases hm
  | giveUp => cases hm
  | complete i =>
    cases hc : s.suspended[i]? with
    | none =>
      rw [step_complete_of_none hc]
      exact ⟨rfl, List.Subset.refl _⟩
    | some c =>
      have hperm := tickets_perm hc
      have hmem : c.ticket ∈ s.tickets := hperm.mem_iff.mpr List.mem_cons_self
      rw [step_complete hc, Player.rendered_of_drops h.ended h.timer (h.drops c.ticket hmem)]
      refine ⟨leave_player _ _ _, fun t ht => hperm.mem_iff.mpr (List.mem_cons_of_mem _ ?_)⟩
      rw [leave_tickets, Option.toList_none, List.append_nil] at ht
      exact ht
  | fire i =>
    have htasks : s.tasks = [] := h.steady.player.tasks.tasks_eq_nil h.timer
    rw [step_fire_of_none (by rw [htasks]; rfl)]
    exact ⟨rfl, List.Subset.refl _⟩

theorem Over.step {s : Playback} (h : s.Over) {m : Move} (hm : m.isInternal = true) :
    (s.step m).Over := by
  obtain ⟨hplayer, htickets⟩ := h.step_player hm
  refine ⟨step_steady h.steady m, ?_, ?_⟩
  · rw [hplayer]
    exact h.ended
  · rw [hplayer]
    exact fun t ht => h.drops t (htickets ht)

theorem Over.run_player {s : Playback} (h : s.Over) {ms : List Move}
    (hms : ∀ m ∈ ms, m.isInternal = true) : (s.run ms).player = s.player := by
  have hkept := run_keeps (fun e => e.Over ∧ e.player = s.player) (fun m => m.isInternal = true)
    (fun e m hm he => ⟨he.1.step hm, (he.1.step_player hm).1.trans he.2⟩) s ⟨h, rfl⟩ ms hms
  exact hkept.2

/-- Once playback has ended, the renders that are under way decide whether it stays so. If the
player drops them all, nothing that is done or fires changes anything about it, and any other
render takes it up again. -/
theorem run_ended (settings : Settings) (ms : List Move)
    (hended : ((new settings).run ms).player.phase = .ended) :
    let s := (new settings).run ms
    ((∀ t ∈ s.tickets, s.player.Drops t) →
        ∀ ns : List Move, (∀ n ∈ ns, n.isInternal = true) → (s.run ns).player = s.player) ∧
      ∀ i c, s.suspended[i]? = some c → ¬s.player.Drops c.ticket →
        (s.step (.complete i)).player.phase ≠ .ended := by
  intro s
  refine ⟨fun hdrops ns hns => ?_, fun i c hc hdrops => ?_⟩
  · have hover : s.Over := ⟨(new_steady settings).run ms, hended, hdrops⟩
    exact hover.run_player hns
  · rw [step_complete hc, leave_player]
    exact Player.rendered_phase_ne_ended hdrops

/-- The render of a command that was left is done after the end, and nothing comes of it. -/
theorem run_ended_left_behind :
    let ms : List Move :=
      [.ask (.load ['A', '\n', 'B']), .ask .start, .ask .advance, .complete 1, .fire 0,
        .ask .advance]
    let s := (new .default).run ms
    s.player.phase = .ended ∧ s.tickets = [⟨2, .action ['A'] Scene.empty⟩] ∧
      (s.run [.complete 0, .fire 0]).player = s.player := by
  intro ms s
  have hended : s.player.phase = .ended := rfl
  have htickets : s.tickets = [⟨2, .action ['A'] Scene.empty⟩] := rfl
  have hdrops : ∀ t ∈ s.tickets, s.player.Drops t := by
    intro t ht hsession
    rw [htickets, List.mem_singleton] at ht
    rw [ht] at hsession
    cases hsession
  obtain ⟨hstays, -⟩ := run_ended .default ms hended
  exact ⟨hended, htickets, hstays hdrops _ (by decide)⟩

/-- Playback that is ended while a text is rendered goes on with the text. -/
theorem run_ended_revived :
    let s := (new .default).run [.ask (.load ['A']), .ask .start, .ask .finish]
    s.player.phase = .ended ∧ (s.step (.complete 0)).player.phase = .typing :=
  ⟨rfl, rfl⟩

end Playback

end StoryPlayer
