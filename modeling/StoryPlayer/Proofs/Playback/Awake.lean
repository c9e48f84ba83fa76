import StoryPlayer.Proofs.Playback.Timer
import StoryPlayer.Proofs.Player.Story

/-!
# A player stays awake

While inputs are ignored nothing but what is under way can take a player on. In every phase that
needs it something is under way: a render of the present session while a command is rendered, a
reveal while it is typed, a timer that goes on while the player waits for input that it need not
wait for. Only a story that streams in is waited for without anything of the kind, and then it is
the stream that takes the player on.

Every call keeps this, and so does loading and adding in the midst of it, as long as nobody but an
ingestor says whether the story streams in. At the end of a stream the ingestor takes the player up
in the same breath, so only its lists of requests keep the last part.
-/

namespace StoryPlayer

/-- A request that is left to readers and hosts: it neither sets the cursor nor says whether the
story streams in. -/
def Request.isCall : Request → Bool
  | streaming _ | moveTo _ => false
  | _ => true

/-- A move that asks for nothing else. -/
def Move.isCall : Move → Bool
  | ask r => r.isCall
  | _ => true

/-- A trigger that asks for nothing else. -/
def Trigger.isCall : Trigger → Bool
  | request r => r.isCall
  | _ => true

theorem Trigger.isCall_of_isPlayback {c : Trigger} (h : c.isPlayback = true) :
    c.isCall = true := by
  cases c with
  | request r => cases r <;> first | rfl | cases h
  | render | timer | failure => rfl

theorem Timer.trigger_isCall (t : Timer) : t.trigger.isCall = true :=
  Trigger.isCall_of_isPlayback t.trigger_isPlayback

namespace Player

/-- Something is under way wherever the player cannot wait for input. -/
structure Stirs (p : Player) (ts : List Ticket) : Prop extends p.Steady ts where
  playing : p.phase = .playing → ∃ t ∈ ts, t.session = p.session
  awaiting : p.phase = .awaitingInput → p.streaming = true ∨ p.autoMode = true → p.timer ≠ none
  inBounds : p.store.InBounds

/-- Besides, a player that waits for more has a stream to wait for. -/
structure Awake (p : Player) (ts : List Ticket) : Prop extends p.Stirs ts where
  waiting : p.phase = .waitingForMore → p.streaming = true

section

variable {p q : Player} {ts : List Ticket}

namespace Stirs

theorem of_phase (h : p.Steady ts) (hplaying : p.phase ≠ .playing)
    (hawaiting : p.phase ≠ .awaitingInput) (hbounds : p.store.InBounds) : p.Stirs ts where
  toSteady := h
  playing hphase := absurd hphase hplaying
  awaiting hphase := absurd hphase hawaiting
  inBounds := hbounds

/-- While the player waits for input, the timer that goes on is armed where it has to be. -/
theorem of_awaiting (h : p.Steady ts) (hphase : p.phase = .awaitingInput)
    (harmed : p.streaming = true ∨ p.autoMode = true → p.timer ≠ none)
    (hbounds : p.store.InBounds) : p.Stirs ts where
  toSteady := h
  playing hplaying := by
    rw [hphase] at hplaying
    cases hplaying
  awaiting _ := harmed
  inBounds := hbounds

theorem of_late {t : Ticket} (h : p.Stirs (t :: ts)) (ht : t.session ≠ p.session) :
    p.Stirs ts where
  toSteady := h.toSteady.tail
  playing hphase := by
    obtain ⟨u, hu, hsession⟩ := h.playing hphase
    rcases List.mem_cons.mp hu with rfl | hu
    · exact absurd hsession ht
    · exact ⟨u, hu, hsession⟩
  awaiting := h.awaiting
  inBounds := h.inBounds

theorem rest (h : p.Stirs ts) :
    Stirs (p, (none : Option Ticket)).1 (ts ++ (p, (none : Option Ticket)).2.toList) := by
  simpa using h

theorem perm {us : List Ticket} (h : p.Stirs ts) (hperm : ts.Perm us) : p.Stirs us where
  toSteady := h.toSteady.perm hperm
  playing hphase := by
    obtain ⟨t, ht, hsession⟩ := h.playing hphase
    exact ⟨t, hperm.mem_iff.mp ht, hsession⟩
  awaiting := h.awaiting
  inBounds := h.inBounds

end Stirs

/-! ## What a turn keeps -/

/-- A command that is processed is rendered in a session of its own. -/
theorem process_stirs {s : Store} (h : p.Steady ts) (hlt : s.cursor < s.size) :
    (process { p with store := s }).1.Stirs (ts ++ (process { p with store := s }).2.toList) := by
  obtain ⟨c, hc⟩ := Store.exists_current? hlt
  have hsteady := process_steady h s
  rw [process_of_some (p := { p with store := s }) hc] at hsteady ⊢
  refine ⟨hsteady, fun _ => ?_, nofun, .inl hlt⟩
  exact ⟨_, List.mem_append_right _ (List.mem_singleton_self _), rfl⟩

theorem exhaust_stirs (h : q.exhaust.Steady ts) (hbounds : q.store.InBounds) :
    q.exhaust.Stirs ts := by
  cases hstream : q.streaming with
  | true =>
    rw [exhaust_of_streaming hstream] at h ⊢
    exact .of_phase h nofun nofun hbounds
  | false =>
    rw [exhaust_of_not_streaming hstream] at h ⊢
    exact .of_phase h nofun nofun hbounds

theorem finishReveal_stirs {session : Nat} (h : (q.finishReveal session).Steady ts)
    (hbounds : q.store.InBounds) : (q.finishReveal session).Stirs ts := by
  rw [finishReveal_eq] at h ⊢
  split
  next hstream =>
    rw [if_pos hstream] at h
    exact .of_awaiting h rfl nofun hbounds
  next hstream =>
    rw [if_neg hstream] at h
    split
    next hauto =>
      rw [if_pos hauto] at h
      exact .of_awaiting h rfl nofun hbounds
    next hauto =>
      rw [if_neg hauto] at h
      have hnone : ¬(q.streaming = true ∨ q.autoMode = true) := not_or.mpr ⟨hstream, hauto⟩
      exact .of_awaiting h rfl (fun hmode => absurd hmode hnone) hbounds

theorem stayOn_stirs (h : p.stayOn.Steady ts) (hbounds : p.store.InBounds) :
    p.stayOn.Stirs ts := by
  rw [stayOn_eq] at h ⊢
  split
  next hmode =>
    rw [if_pos hmode] at h
    exact .of_awaiting h rfl nofun hbounds
  next hmode =>
    rw [if_neg hmode] at h
    rw [Bool.or_eq_true] at hmode
    exact .of_awaiting h rfl (fun hmode' => absurd hmode' hmode) hbounds

/-- Turning auto mode off leaves the timer alone while the story streams in. -/
theorem Stirs.toggleAuto (h : p.Stirs ts) : p.toggleAuto.Stirs ts := by
  have hsteady := h.toSteady.toggleAuto
  by_cases hphase : p.phase = .awaitingInput
  · rw [toggleAuto_of_eq hphase] at hsteady ⊢
    split
    next hauto =>
      rw [if_pos hauto] at hsteady
      exact .of_awaiting hsteady hphase nofun h.inBounds
    next hauto =>
      rw [if_neg hauto] at hsteady
      split
      next hstream =>
        -- The stream had the timer armed before auto mode was turned off, and still does.
        rw [if_pos hstream] at hsteady
        have hkept := h.awaiting hphase (.inl hstream)
        exact .of_awaiting hsteady hphase (fun _ => hkept) h.inBounds
      next hstream =>
        rw [if_neg hstream] at hsteady
        have hnone : ¬(p.streaming = true ∨ false = true) := by simpa using hstream
        exact .of_awaiting hsteady hphase (fun hmode => absurd hmode hnone) h.inBounds
  · rw [toggleAuto_of_ne hphase] at hsteady ⊢
    exact ⟨hsteady, h.playing, fun heq => absurd heq hphase, h.inBounds⟩

theorem Steady.load (h : p.Steady ts) (t : Text) : (p.load t).Stirs ts := by
  have hsteady : (p.load t).Steady ts := by simpa using (Turn.load t).steady h
  exact .of_phase hsteady nofun nofun (.inr rfl)

theorem Stirs.append (h : p.Stirs ts) (t : Text) : (p.append t).Stirs ts where
  toSteady := h.toSteady.congr rfl rfl rfl rfl rfl rfl rfl
  playing := h.playing
  awaiting := h.awaiting
  inBounds := h.inBounds.append _

theorem Stirs.streamEnds (h : p.Stirs ts) : (p.setStreaming false).Stirs ts where
  toSteady := h.toSteady.congr rfl rfl rfl rfl rfl rfl rfl
  playing := h.playing
  awaiting hphase hmode := h.awaiting hphase (.inr (hmode.resolve_left nofun))
  inBounds := h.inBounds

/-- Every call keeps something under way. -/
theorem Turn.stirs {c : Trigger} {w : Waiting} (h : p.Turn c w) (hc : c.isCall = true)
    (hp : p.Stirs (c.ticket?.toList ++ ts)) : w.1.Stirs (ts ++ w.2.toList) := by
  have hbounds := hp.inBounds
  have hsteady := h.steady hp.toSteady
  -- Most turns ask for no render.
  have hrest : w.2 = none → w.1.Steady ts := by
    intro hnone
    simpa [hnone] using hsteady
  cases h with
  | stay r => exact .rest hp
  | load t => exact .rest (hp.toSteady.load t)
  | append t => exact .rest (hp.append t)
  | stream on => cases hc
  | seek h => cases hc
  | textSpeed n => exact .rest ⟨hrest rfl, hp.playing, hp.awaiting, hbounds⟩
  | autoSpeed n => exact .rest ⟨hrest rfl, hp.playing, hp.awaiting, hbounds⟩
  | toggle r => exact .rest hp.toggleAuto
  | finish => exact .rest (.of_phase (hrest rfl) nofun nofun hbounds)
  | skip r hphase =>
    have hskip := hrest rfl
    rw [skip_of_typing hphase] at hskip ⊢
    exact .rest (finishReveal_stirs hskip hbounds)
  | runOut hphase hstream hlast => exact .rest (.of_phase (hrest rfl) nofun nofun hbounds)
  | restart r h hsize => exact process_stirs hp.toSteady (Nat.pos_of_ne_zero hsize)
  | back hr h hback =>
    exact process_stirs hp.toSteady.of_trigger (hbounds.back?_lt hback)
  | onward h hnext =>
    obtain ⟨hlt, rfl⟩ := Store.advance?_eq_some hnext
    exact process_stirs hp.toSteady.of_trigger hlt
  | exhaust h hlast => exact .rest (exhaust_stirs (hrest rfl) hbounds)
  | spent h hlast => exact .rest (exhaust_stirs (hrest rfl) hbounds)
  | late h => exact .rest (hp.of_late h)
  | reveal h htext => exact .rest (.of_phase (hrest rfl) nofun nofun hbounds)
  | stayOn h htext hcast => exact .rest (stayOn_stirs (hrest rfl) hbounds)
  | disarmed h => exact .rest hp
  | @showNext t c rest h hjob hleft =>
    have hphase : (p.showNext c).phase = .typing := hp.fits.phase_of_reveal h hjob
    refine .rest (.of_phase (hrest rfl) ?_ ?_ hbounds)
    all_goals simp [hphase]
  | showLast h hjob => exact .rest (finishReveal_stirs (hrest rfl) hbounds)
  | showNone h hjob => exact .rest (finishReveal_stirs (hrest rfl) hbounds)
  | lapse h hjob hlate => exact absurd (hp.fits.guard_of_goOn h hjob) hlate
  | fail h hwait => exact .rest ⟨hrest rfl, hp.playing, hp.awaiting, hbounds⟩

/-! ## Waiting for more -/

/-- A player that waits for more has shown all that has streamed in. -/
def AtEnd (p : Player) : Prop :=
  p.phase = .waitingForMore → p.streaming = true ∧ p.store.advance? = none

theorem exhaust_atEnd (hlast : q.store.advance? = none) : q.exhaust.AtEnd := by
  cases hstream : q.streaming with
  | true =>
    rw [exhaust_of_streaming hstream]
    exact fun _ => ⟨hstream, hlast⟩
  | false =>
    rw [exhaust_of_not_streaming hstream]
    exact nofun

theorem process_atEnd (q : Player) : (process q).1.AtEnd := by
  cases hc : q.store.current? with
  | none =>
    rw [process_of_none hc]
    have hle : q.store.size ≤ q.store.cursor := List.getElem?_eq_none_iff.mp hc
    exact exhaust_atEnd (Store.advance?_eq_none_iff.mpr (Nat.le_succ_of_le hle))
  | some c =>
    rw [process_of_some hc]
    exact nofun

theorem finishReveal_atEnd (q : Player) (session : Nat) : (q.finishReveal session).AtEnd := by
  obtain ⟨t, ts, n, heq⟩ := q.exists_finishReveal session
  rw [heq]
  exact nofun

/-- A call that has the player wait for more finds it at the end, unless it leaves it waiting as it
was. -/
theorem Turn.atEnd {c : Trigger} {w : Waiting} (h : p.Turn c w) (hc : c.isCall = true) :
    w.1.AtEnd ∨
      w.1.phase = p.phase ∧ w.1.streaming = p.streaming ∧
        w.1.store.cursor = p.store.cursor := by
  cases h with
  | stay | append | textSpeed | autoSpeed | late | disarmed | showNext | lapse | fail =>
    exact .inr ⟨rfl, rfl, rfl⟩
  | stream | seek => cases hc
  | toggle r =>
    obtain ⟨t, ts, n, heq⟩ := p.exists_toggleAuto
    rw [heq]
    exact .inr ⟨rfl, rfl, rfl⟩
  | load | finish | runOut | reveal => exact .inl nofun
  | skip r hphase =>
    rw [skip_of_typing hphase]
    exact .inl (finishReveal_atEnd _ _)
  | restart | back | onward => exact .inl (process_atEnd _)
  | exhaust h hlast => exact .inl (exhaust_atEnd hlast)
  | spent h hlast => exact .inl (exhaust_atEnd hlast)
  | stayOn =>
    obtain ⟨t, ts, n, heq⟩ := p.exists_stayOn
    rw [heq]
    exact .inl nofun
  | showLast | showNone => exact .inl (finishReveal_atEnd _ _)

theorem resume_atEnd (p : Player) : p.resume.1.AtEnd := by
  unfold resume
  split
  next hphase => exact fun heq => absurd heq hphase
  split
  · exact process_atEnd _
  next hlast =>
    split
    next hstream => exact fun _ => ⟨hstream, hlast⟩
    · exact nofun

theorem load_start_atEnd (p : Player) (t : Text) : (p.load t).start.1.AtEnd := by
  unfold start
  split
  · exact nofun
  · exact process_atEnd _

/-! ## Calls and ingestors -/

theorem Turn.awake {c : Trigger} {w : Waiting} (h : p.Turn c w) (hc : c.isCall = true)
    (hp : p.Awake (c.ticket?.toList ++ ts)) : w.1.Awake (ts ++ w.2.toList) where
  toStirs := h.stirs hc hp.toStirs
  waiting hphase := by
    rcases h.atEnd hc with hend | ⟨hsame, hstream, -⟩
    · exact (hend hphase).1
    · exact hstream.trans (hp.waiting (hsame.symm.trans hphase))

/-- Taking up what was added leaves no player waiting without a stream. -/
theorem Stirs.resume (h : p.Stirs ts) : p.resume.1.Awake (ts ++ p.resume.2.toList) where
  toStirs := p.resume_turn.stirs rfl h
  waiting hphase := (p.resume_atEnd hphase).1

theorem Steady.load_start (h : p.Steady ts) (t : Text) :
    (p.load t).start.1.Awake (ts ++ (p.load t).start.2.toList) where
  toStirs := ((p.load t).start_turn .start (.inl rfl)).stirs rfl (h.load t)
  waiting hphase := (p.load_start_atEnd t hphase).1

theorem Awake.perm {us : List Ticket} (h : p.Awake ts) (hperm : ts.Perm us) : p.Awake us :=
  ⟨h.toStirs.perm hperm, h.waiting⟩

end

end Player

/-- The requests of an ingestor leave the player awake. -/
theorem Ingestor.Intake.awake {g g' : Ingestor} {rs : List Request} {a : Afterwards}
    (h : g.Intake rs g' a) {p : Player} {ts : List Ticket} (hp : p.Awake ts) :
    (p.askAll rs).1.Awake (ts ++ (p.askAll rs).2) := by
  cases h with
  | ignore => simpa [Player.askAll] using hp
  | begin =>
    have hon : (p.setStreaming true).Steady ts := hp.toSteady.congr rfl rfl rfl rfl rfl rfl rfl
    simpa [Player.askAll, Player.ask] using hon.load_start _
  | extend t => simpa [Player.askAll, Player.ask] using (hp.toStirs.append t).resume
  | whole t =>
    simpa [Player.askAll, Player.ask] using hp.toStirs.streamEnds.toSteady.load_start t
  | close final _ _ _ _ hrest =>
    rcases hrest with rfl | ⟨t, rfl⟩
    · simpa [Player.askAll, Player.ask] using hp.toStirs.streamEnds.resume
    · simpa [Player.askAll, Player.ask] using (hp.toStirs.streamEnds.append t).resume
  | fail => simpa [Player.askAll, Player.ask] using hp.toStirs.streamEnds.resume

namespace Playback

/-- The player is awake with the renders that calls wait for. -/
structure Awake (s : Playback) : Prop where
  player : s.player.Awake s.tickets

theorem Awake.steady {s : Playback} (h : s.Awake) : s.Steady :=
  ⟨h.player.toSteady⟩

theorem new_awake (s : Settings) : (new s).Awake where
  player := ⟨.of_phase (new_steady s).player nofun nofun (.inr rfl), nofun⟩

theorem leave_awake {s : Playback} {w : Waiting} {a : Afterwards}
    (h : w.1.Awake (s.tickets ++ w.2.toList)) : (s.leave w a).Awake where
  player := by simpa using h

theorem step_awake {s : Playback} (h : s.Awake) {m : Move} (hm : m.isCall = true) :
    (s.step m).Awake := by
  cases m with
  | ask r => exact leave_awake ((s.player.ask_turn r).awake hm h.player)
  | handle r =>
    obtain ⟨rs, hintake, hasked⟩ := s.ingestor.handle_takes s.player r
    have hplayer := hintake.awake h.player
    rw [hasked] at hplayer
    exact leave_awake hplayer
  | giveUp =>
    have hintake : s.ingestor.Intake _ _ .nothing := .fail .nothing
    have hplayer := hintake.awake h.player
    refine leave_awake ?_
    simpa [Player.askAll, Player.ask, tickets] using hplayer
  | complete i =>
    cases hc : s.suspended[i]? with
    | none => rwa [step_complete_of_none hc]
    | some c =>
      rw [step_complete hc]
      have hplayer := h.player.perm (tickets_perm hc)
      exact leave_awake ((s.player.rendered_turn c.ticket).awake rfl hplayer)
  | fire i =>
    cases ht : s.tasks[i]? with
    | none => rwa [step_fire_of_none ht]
    | some t =>
      have hturn := Player.wake_turn (h.steady.timer_of_task ht)
      rw [step_fire ht]
      exact leave_awake (hturn.awake t.trigger_isCall (by simpa using h.player))

end Playback

end StoryPlayer
