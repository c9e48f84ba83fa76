import StoryPlayer.Proofs.Playback.Timer
import StoryPlayer.Proofs.Store.Cursor

/-!
# What the dialogue box shows

The current command is the one that the cursor stands on, and the dialogue box is that command's:
while its text is typed the box holds the beginning of it that the timer has revealed, and while the
player waits for input behind it the whole of it. A render that is done late, a reveal that is cut
short and a script that is loaded in between make no difference, so no two texts are ever mixed.

Only a cursor that is set from outside parts the two, since it takes no command with it.
-/

namespace StoryPlayer

/-- The request sets the cursor and lets the player do nothing about it. -/
def Request.setsCursor : Request → Bool
  | moveTo _ => true
  | _ => false

/-- A move that sets the cursor. -/
def Move.setsCursor : Move → Bool
  | ask r => r.setsCursor
  | _ => false

/-- A trigger that sets the cursor. -/
def Trigger.setsCursor : Trigger → Bool
  | request r => r.setsCursor
  | _ => false

namespace Player

/-- The dialogue box belongs to the command at the cursor. What of a text is still hidden is told by
the timer that reveals it. -/
structure ShowsCurrent (p : Player) : Prop where
  bounds : p.store.InBounds
  current : ∀ c, p.current = some c → p.store.current? = some c
  typing : p.phase = .typing → ∀ c, p.current = some c →
    p.display.speaker = c.label ∧ p.display.showContinue = false
  awaiting : p.phase = .awaitingInput → ∀ c text, p.current = some c → c.spoken? = some text →
    p.display = ⟨c.label, text, true⟩

section

variable {p q : Player}

theorem ShowsCurrent.of_phase (hbounds : q.store.InBounds)
    (hcurrent : ∀ c, q.current = some c → q.store.current? = some c) (htyping : q.phase ≠ .typing)
    (hawaiting : q.phase ≠ .awaitingInput) : q.ShowsCurrent :=
  ⟨hbounds, hcurrent, fun hphase => absurd hphase htyping, fun hphase => absurd hphase hawaiting⟩

theorem ShowsCurrent.congr (h : p.ShowsCurrent) (hstore : q.store = p.store)
    (hcurrent : q.current = p.current) (hphase : q.phase = p.phase)
    (hdisplay : q.display = p.display) : q.ShowsCurrent := by
  constructor
  · simpa only [hstore] using h.bounds
  · simpa only [hstore, hcurrent] using h.current
  · simpa only [hphase, hcurrent, hdisplay] using h.typing
  · simpa only [hphase, hcurrent, hdisplay] using h.awaiting

theorem ShowsCurrent.exhaust (h : p.ShowsCurrent) : p.exhaust.ShowsCurrent := by
  unfold Player.exhaust
  split <;> exact .of_phase h.bounds h.current nofun nofun

/-- The command that is processed is the one at the cursor. -/
theorem process_showsCurrent (h : q.store.cursor < q.store.size) : (process q).1.ShowsCurrent := by
  obtain ⟨c, hc⟩ := Store.exists_current? h
  rw [process_of_some hc]
  refine .of_phase (.inl h) ?_ nofun nofun
  rintro d ⟨⟩
  exact hc

/-- The text that has been revealed stands under the label of its command. -/
theorem finishReveal_showsCurrent (hbounds : q.store.InBounds)
    (hcurrent : ∀ c, q.current = some c → q.store.current? = some c)
    (hshown : ∀ c text, q.current = some c → c.spoken? = some text →
      q.display.speaker = c.label ∧ q.display.text = text) (session : Nat) :
    (q.finishReveal session).ShowsCurrent := by
  have hrevealed : q.revealed.ShowsCurrent := by
    refine ⟨hbounds, hcurrent, nofun, fun _ c text hc htext => ?_⟩
    obtain ⟨hlabel, hfull⟩ := hshown c text hc htext
    change (⟨q.display.speaker, q.display.text, true⟩ : Display) = _
    rw [hlabel, hfull]
  obtain ⟨t, ts, n, heq⟩ := q.exists_finishReveal session
  rw [heq]
  exact hrevealed.congr rfl rfl rfl rfl

theorem ShowsCurrent.toggleAuto (h : p.ShowsCurrent) : p.toggleAuto.ShowsCurrent := by
  obtain ⟨t, ts, n, heq⟩ := p.exists_toggleAuto
  rw [heq]
  exact h.congr rfl rfl rfl rfl

/-- Commands that are added leave the one at the cursor where it is. -/
theorem ShowsCurrent.append (h : p.ShowsCurrent) (t : Text) : (p.append t).ShowsCurrent where
  bounds := h.bounds.append _
  current c hc := by
    have hat : p.store.commands[p.store.cursor]? = some c := h.current c hc
    obtain ⟨hlt, -⟩ := List.getElem?_eq_some_iff.mp hat
    exact (List.getElem?_append_left hlt).trans hat
  typing := h.typing
  awaiting := h.awaiting

/-- Whatever makes the player run, the dialogue box is that of the command at the cursor. -/
theorem Turn.showsCurrent {c : Trigger} {w : Waiting} {ts : List Ticket} (h : p.Turn c w)
    (hc : c.setsCursor = false) (hsteady : p.Steady (c.ticket?.toList ++ ts))
    (hp : p.ShowsCurrent) : w.1.ShowsCurrent := by
  have hfits := hsteady.fits
  cases h with
  | stay r => exact hp
  | load t => exact .of_phase (.inr rfl) nofun nofun nofun
  | append t => exact hp.append t
  | stream on => exact hp.congr rfl rfl rfl rfl
  | seek h => cases hc
  | textSpeed n => exact hp.congr rfl rfl rfl rfl
  | autoSpeed n => exact hp.congr rfl rfl rfl rfl
  | toggle r => exact hp.toggleAuto
  | finish => exact .of_phase hp.bounds hp.current nofun nofun
  | skip r hphase =>
    rw [skip_of_typing hphase]
    apply finishReveal_showsCurrent
    · exact hp.bounds
    · exact hp.current
    · intro d text hd htext
      replace hd : p.current = some d := hd
      refine ⟨(hp.typing hphase d hd).1, ?_⟩
      -- The text is taken from the current command, whatever of it has been revealed.
      change (p.current.bind Command.spoken?).getD p.display.text = text
      rw [hd, Option.bind_some, htext, Option.getD_some]
  | runOut hphase hstream hlast => exact .of_phase hp.bounds hp.current nofun nofun
  | restart r h hsize => exact process_showsCurrent (Nat.pos_of_ne_zero hsize)
  | @back r s hr h hback =>
    exact process_showsCurrent (q := { p with store := s }) (hp.bounds.back?_lt hback)
  | onward h hnext =>
    obtain ⟨hlt, rfl⟩ := Store.advance?_eq_some hnext
    exact process_showsCurrent hlt
  | exhaust h hlast =>
    have hdisarm : p.disarm.ShowsCurrent := hp.congr rfl rfl rfl rfl
    exact hdisarm.exhaust
  | spent h hlast => exact hp.exhaust
  | late h => exact hp
  | @reveal t text h htext =>
    obtain ⟨hcurrent, -, -⟩ := hsteady.awaited t List.mem_cons_self h
    refine ⟨hp.bounds, hp.current, fun _ d hd => ?_, nofun⟩
    obtain rfl : t.command = d := Option.some.inj (hcurrent.symm.trans hd)
    exact ⟨rfl, rfl⟩
  | @stayOn t h htext hcast =>
    obtain ⟨hcurrent, -, -⟩ := hsteady.awaited t List.mem_cons_self h
    have hstays : { p with phase := .awaitingInput }.ShowsCurrent := by
      refine ⟨hp.bounds, hp.current, nofun, fun _ d text hd hspoken => ?_⟩
      obtain rfl : t.command = d := Option.some.inj (hcurrent.symm.trans hd)
      cases htext.symm.trans hspoken
    obtain ⟨t, ts, n, heq⟩ := p.exists_stayOn
    rw [heq]
    exact hstays.congr rfl rfl rfl rfl
  | disarmed h => exact hp
  | @showNext t char rest h hjob hrest =>
    have hphase := hfits.phase_of_reveal h hjob
    refine ⟨hp.bounds, hp.current, fun _ => hp.typing hphase, fun hawaiting => ?_⟩
    cases hphase.symm.trans hawaiting
  | @showLast t char h hjob =>
    have hphase := hfits.phase_of_reveal h hjob
    obtain ⟨-, d, hd, htext⟩ := hfits.reveals_of_timer h hjob
    apply finishReveal_showsCurrent
    · exact hp.bounds
    · exact hp.current
    · intro e text he hspoken
      obtain rfl : d = e := Option.some.inj (hd.symm.trans he)
      exact ⟨(hp.typing hphase d hd).1, Option.some.inj (htext.symm.trans hspoken)⟩
  | @showNone t h hjob =>
    have hphase := hfits.phase_of_reveal h hjob
    obtain ⟨-, d, hd, htext⟩ := hfits.reveals_of_timer h hjob
    rw [List.append_nil] at htext
    apply finishReveal_showsCurrent
    · exact hp.bounds
    · exact hp.current
    · intro e text he hspoken
      obtain rfl : d = e := Option.some.inj (hd.symm.trans he)
      exact ⟨(hp.typing hphase d hd).1, Option.some.inj (htext.symm.trans hspoken)⟩
  | lapse h hjob hlate => exact hp.congr rfl rfl rfl rfl
  | fail h hwait => exact hp.congr rfl rfl rfl rfl

theorem askAll_showsCurrent {ts : List Ticket} (hsteady : p.Steady ts) (hp : p.ShowsCurrent)
    {rs : List Request} (hrs : ∀ r ∈ rs, r.setsCursor = false) :
    (p.askAll rs).1.ShowsCurrent := by
  induction rs generalizing p ts with
  | nil => exact hp
  | cons r rs ih =>
    have hturn := p.ask_turn r
    have hnext := hturn.showsCurrent (hrs r List.mem_cons_self) hsteady hp
    exact ih (hturn.steady hsteady) hnext fun r hr => hrs r (List.mem_cons_of_mem _ hr)

end

end Player

/-- An ingestor never sets the cursor. -/
theorem Ingestor.Intake.keepsCursor {g g' : Ingestor} {rs : List Request} {a : Afterwards}
    (h : g.Intake rs g' a) : ∀ r ∈ rs, r.setsCursor = false := by
  cases h with
  | close final _ _ _ _ hrest =>
    rcases hrest with rfl | ⟨t, rfl⟩ <;> simp [Request.setsCursor]
  | _ => simp [Request.setsCursor]

namespace Playback

theorem step_showsCurrent {s : Playback} (hsteady : s.Steady) (h : s.player.ShowsCurrent) {m : Move}
    (hm : m.setsCursor = false) : (s.step m).player.ShowsCurrent := by
  have hruns := hsteady.runs m
  generalize (s.step m).player = q at hruns ⊢
  cases hruns with
  | stay => exact h
  | @turn c w ts hturn hplayer hask =>
    have hc : c.setsCursor = false := by
      cases c with
      | request r => rwa [hask r rfl] at hm
      | render | timer | failure => rfl
    exact hturn.showsCurrent hc hplayer h
  | intake hintake => exact Player.askAll_showsCurrent hsteady.player h hintake.keepsCursor

/-- The dialogue box always belongs to the current command, and that is the one at the cursor. While
a text is typed, it is the text of the current command, which is revealed under its label: what is
shown followed by what the one live timer task has still to show. While the player waits for input
behind a text, the whole of it is shown, with the mark that says so. -/
theorem run_shows_current (settings : Settings) (ms : List Move)
    (hms : ∀ m ∈ ms, m.setsCursor = false) :
    let s := (new settings).run ms
    let p := s.player
    (∀ c, p.current = some c → p.store.current? = some c) ∧
      (p.phase = .typing → ∃ c shown hidden t,
        p.current = some c ∧ c.spoken? = some (shown ++ hidden) ∧
          p.display = ⟨c.label, shown, false⟩ ∧ s.tasks = [t] ∧ t.job = .reveal hidden) ∧
      (p.phase = .awaitingInput → ∀ c text, p.current = some c → c.spoken? = some text →
        p.display = ⟨c.label, text, true⟩) := by
  intro s p
  have hnew : (new settings).player.ShowsCurrent := .of_phase (.inr rfl) nofun nofun nofun
  obtain ⟨hsteady, hshows⟩ : s.Steady ∧ p.ShowsCurrent :=
    run_keeps (fun s => s.Steady ∧ s.player.ShowsCurrent) (fun m => m.setsCursor = false)
      (fun _ m hm hs => ⟨step_steady hs.1 m, step_showsCurrent hs.1 hs.2 hm⟩) _
      ⟨new_steady settings, hnew⟩ ms hms
  refine ⟨hshows.current, fun hphase => ?_, hshows.awaiting⟩
  obtain ⟨t, ht, -, hreveals⟩ := hsteady.player.fits.reveals hphase
  have halive : s.tasks = [t] := hsteady.player.tasks.alive t ht hreveals.canWait
  obtain ⟨c, hidden, hcurrent, hjob, htext⟩ := hreveals
  obtain ⟨hspeaker, hcontinue⟩ := hshows.typing hphase c hcurrent
  refine ⟨c, p.display.text, hidden, t, hcurrent, htext, ?_, halive, hjob⟩
  rw [← hspeaker, ← hcontinue]

/-- A reader goes on while the first line is rendered, and the render of it is done after all. -/
theorem run_shows_current_late :
    let ms : List Move :=
      [.ask (.load ['A', '\n', 'B', ':', 'c', 'd']), .ask .start, .ask .advance, .complete 1,
        .fire 0, .complete 0]
    let s := (new .default).run ms
    (∀ m ∈ ms, m.setsCursor = false) ∧ s.player.phase = .typing ∧
      ∃ shown hidden t, shown ++ hidden = ['c', 'd'] ∧
        s.player.display = ⟨['B'], shown, false⟩ ∧ s.tasks = [t] ∧ t.job = .reveal hidden := by
  intro ms s
  have hms : ∀ m ∈ ms, m.setsCursor = false := by decide
  have hphase : s.player.phase = .typing := rfl
  have hcurrent : s.player.current = some (.dialogue ['B'] ['c', 'd'] neutral .empty) := rfl
  obtain ⟨-, htyping, -⟩ := run_shows_current .default ms hms
  obtain ⟨c, shown, hidden, t, hc, htext, hdisplay, hrest⟩ := htyping hphase
  obtain rfl : _ = c := Option.some.inj (hcurrent.symm.trans hc)
  exact ⟨hms, hphase, shown, hidden, t, (Option.some.inj htext).symm, hdisplay, hrest⟩

end Playback

end StoryPlayer
