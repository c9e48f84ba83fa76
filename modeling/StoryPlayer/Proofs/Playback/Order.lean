import StoryPlayer.Proofs.Playback.Basic
import StoryPlayer.Proofs.Store.Cursor
import StoryPlayer.Proofs.Stream.Intake
import StoryPlayer.Stage.Follow

/-!
# Commands are rendered once and in order

Until it is sent back, a player renders the commands of its store from the first up to the one at
the cursor, each once and in their order, whatever is asked of it and whatever is added to the store
in the meantime. The reason is that a turn either leaves the cursor where it is and renders nothing, or
takes it one command on and renders that one.
-/

namespace StoryPlayer

namespace Player

/-- Between `p` and `q` these commands were rendered. -/
def Renders (p q : Player) (cs : List Command) : Prop :=
  ∃ added, q.cues.toList = p.cues.toList ++ added ∧ renders added = cs

namespace Renders

variable {p q r : Player} {cs ds : List Command}

theorem of_eq (h : q.cues = p.cues) : p.Renders q [] :=
  ⟨[], by simp [h], rfl⟩

theorem notify (h : p.Renders q cs) : p.Renders q.notify cs := by
  obtain ⟨added, hcues, hrenders⟩ := h
  refine ⟨added ++ [.display q.display], by simp [Player.notify, cue, hcues], ?_⟩
  rw [renders, List.filterMap_append]
  simpa [renders] using hrenders

theorem reset (h : p.Renders q cs) : p.Renders (q.cue .reset) cs := by
  obtain ⟨added, hcues, hrenders⟩ := h
  refine ⟨added ++ [.reset], by simp [cue, hcues], ?_⟩
  rw [renders, List.filterMap_append]
  simpa [renders] using hrenders

theorem render (h : p.Renders q cs) (c : Command) : p.Renders (q.cue (.render c)) (cs ++ [c]) := by
  obtain ⟨added, hcues, hrenders⟩ := h
  refine ⟨added ++ [.render c], by simp [cue, hcues], ?_⟩
  rw [renders, List.filterMap_append]
  change renders added ++ [c] = cs ++ [c]
  rw [hrenders]

theorem trans (h : p.Renders q cs) (h' : q.Renders r ds) : p.Renders r (cs ++ ds) := by
  obtain ⟨added, hcues, rfl⟩ := h
  obtain ⟨more, hcues', rfl⟩ := h'
  refine ⟨added ++ more, by rw [hcues', hcues, List.append_assoc], ?_⟩
  exact List.filterMap_append

end Renders

/-- Between `p` and `q` the cursor stays and nothing is rendered. Commands may be added. -/
structure Stays (p q : Player) : Prop where
  store : ∃ cs, q.store = p.store.append cs
  phase : p.phase ≠ .idle → q.phase ≠ .idle
  renders : p.Renders q []

/-- Since `p` the commands up to the cursor of `q` were rendered. -/
structure Tells (p q : Player) : Prop where
  lt : q.store.cursor < q.store.size
  started : q.phase ≠ .idle
  renders : p.Renders q (q.store.commands.take (q.store.cursor + 1))

/-! ## What a turn keeps -/

section

variable {p q : Player}

theorem Stays.of_eq (hstore : q.store = p.store) (hphase : p.phase ≠ .idle → q.phase ≠ .idle)
    (hrenders : p.Renders q []) : p.Stays q where
  store := ⟨[], by simp [hstore, Store.append]⟩
  phase := hphase
  renders := hrenders

theorem Stays.refl (p : Player) : p.Stays p :=
  .of_eq rfl id (.of_eq rfl)

theorem exhaust_stays (h : p.Stays q) : p.Stays q.exhaust where
  store := h.store
  phase := by
    intro
    rw [exhaust]
    split <;> simp
  renders := h.renders

theorem finishReveal_stays (hstore : q.store = p.store) (hrenders : p.Renders q [])
    (session : Nat) : p.Stays (q.finishReveal session) := by
  have hrevealed : p.Renders q.revealed [] := by
    have hquiet : p.Renders { q with
      phase := .awaitingInput, display := { q.display with showContinue := true } } [] := hrenders
    exact hquiet.notify
  obtain ⟨t, ts, n, heq⟩ := q.exists_finishReveal session
  rw [heq]
  exact .of_eq hstore nofun hrevealed

theorem toggleAuto_stays (p : Player) : p.Stays p.toggleAuto := by
  obtain ⟨t, ts, n, heq⟩ := p.exists_toggleAuto
  rw [heq]
  exact .of_eq rfl id (.of_eq rfl)

/-- Where the player is not sent back, a turn stays on the command or processes the next. -/
theorem Turn.stays_or_goes {c : Trigger} {w : Waiting} (h : p.Turn c w) (hc : c.isForward = true)
    (hidle : p.phase ≠ .idle) :
    p.Stays w.1 ∨ ∃ s, p.store.advance? = some s ∧ w = process { p with store := s } := by
  cases h with
  | stay r => exact .inl (.refl p)
  | load t => cases hc
  | append t => exact .inl ⟨⟨_, rfl⟩, id, .of_eq rfl⟩
  | stream on => exact .inl (.of_eq rfl id (.of_eq rfl))
  | seek h => cases hc
  | textSpeed n => exact .inl (.of_eq rfl id (.of_eq rfl))
  | autoSpeed n => exact .inl (.of_eq rfl id (.of_eq rfl))
  | toggle r => exact .inl p.toggleAuto_stays
  | finish =>
    have hquiet : p.Renders { p.disarm with
      phase := .ended, display := ⟨[], completedText, false⟩ } [] := .of_eq rfl
    exact .inl (.of_eq rfl nofun hquiet.notify)
  | skip r hphase =>
    rw [skip_of_typing hphase]
    refine .inl (finishReveal_stays ?_ ?_ _)
    · rfl
    · exact .of_eq rfl
  | runOut hphase hstream hlast => exact .inl (.of_eq rfl nofun (.of_eq rfl))
  | restart r h hsize =>
    -- Only a second start or an idle player would begin again.
    rcases h with rfl | h
    · cases hc
    · exact absurd h hidle
  | back hr h hback =>
    rcases hr with rfl | rfl
    · cases hc
    · cases hc
  | onward h hnext => exact .inr ⟨_, hnext, rfl⟩
  | exhaust h hlast =>
    have hstays : p.Stays p.disarm := .of_eq rfl id (.of_eq rfl)
    exact .inl (exhaust_stays hstays)
  | spent h hlast => exact .inl (exhaust_stays (.refl p))
  | late h => exact .inl (.refl p)
  | @reveal t text h htext =>
    have hquiet : p.Renders { p with
      phase := .typing, display := ⟨t.command.label, [], false⟩ } [] := .of_eq rfl
    exact .inl (.of_eq rfl nofun hquiet.notify)
  | stayOn h htext hcast =>
    obtain ⟨t, ts, n, heq⟩ := p.exists_stayOn
    rw [heq]
    exact .inl (.of_eq rfl nofun (.of_eq rfl))
  | disarmed h => exact .inl (.refl p)
  | @showNext t c rest h hjob hrest =>
    have hquiet : p.Renders { p with
      display := { p.display with text := p.display.text ++ [c] } } [] := .of_eq rfl
    exact .inl (.of_eq rfl id hquiet.notify)
  | @showLast t c h hjob =>
    have hquiet : p.Renders { p with
      display := { p.display with text := p.display.text ++ [c] } } [] := .of_eq rfl
    refine .inl (finishReveal_stays ?_ ?_ _)
    · rfl
    · exact hquiet.notify
  | showNone h hjob =>
    refine .inl (finishReveal_stays ?_ ?_ _)
    · rfl
    · exact .of_eq rfl
  | lapse h hjob hlate => exact .inl (.of_eq rfl id (.of_eq rfl))
  | fail h hwait => exact .inl (.of_eq rfl id (.of_eq rfl))

/-- Processing a command renders it behind those before it. -/
theorem process_tells {s : Store} (hlt : s.cursor < s.size)
    (h : p.Renders q (s.commands.take s.cursor)) : p.Tells (process { q with store := s }).1 := by
  obtain ⟨c, hc⟩ := Store.exists_current? hlt
  rw [process_of_some (p := { q with store := s }) hc]
  refine ⟨hlt, nofun, ?_⟩
  have hlast : s.commands[s.cursor]? = some c := hc
  change p.Renders _ (s.commands.take (s.cursor + 1))
  rw [List.take_add_one, hlast]
  exact Renders.render h c

theorem Tells.stays {r : Player} (h : p.Tells q) (hstays : q.Stays r) : p.Tells r := by
  obtain ⟨cs, hstore⟩ := hstays.store
  have hle : q.store.cursor + 1 ≤ q.store.commands.length := h.lt
  refine ⟨?_, hstays.phase h.started, ?_⟩
  · rw [hstore]
    unfold Store.append Store.size
    rw [List.length_append]
    exact Nat.lt_add_right _ hle
  · have hrenders := h.renders.trans hstays.renders
    rw [List.append_nil] at hrenders
    rw [hstore]
    unfold Store.append
    rwa [List.take_append_of_le_length hle]

theorem Tells.turn {c : Trigger} {w : Waiting} (h : p.Tells q) (hturn : q.Turn c w)
    (hc : c.isForward = true) : p.Tells w.1 := by
  rcases hturn.stays_or_goes hc h.started with hstays | ⟨s, hnext, rfl⟩
  · exact h.stays hstays
  · obtain ⟨hlt, rfl⟩ := Store.advance?_eq_some hnext
    exact process_tells hlt h.renders

theorem Tells.wake (h : p.Tells q) (t : Timer) : p.Tells (q.wake t).1 := by
  have hheld : q.Stays { q with timer := some t } := .of_eq rfl id (.of_eq rfl)
  have htells := (h.stays hheld).turn (wake_turn rfl) (by simp)
  obtain ⟨u, heq⟩ := q.wake_eq t
  rw [heq]
  exact htells.stays (.of_eq rfl id (.of_eq rfl))

theorem Tells.askAll (h : p.Tells q) {rs : List Request} (hrs : ∀ r ∈ rs, r.isForward = true) :
    p.Tells (q.askAll rs).1 := by
  induction rs generalizing q with
  | nil => exact h
  | cons r rs ih =>
    have hr := hrs r List.mem_cons_self
    exact ih (h.turn (q.ask_turn r) hr) fun r hr => hrs r (List.mem_cons_of_mem _ hr)

theorem start_tells (h : p.Renders q []) (hsize : q.start.1.store.size ≠ 0) :
    p.Tells q.start.1 := by
  unfold start at hsize ⊢
  split at hsize
  next hempty => exact absurd hempty hsize
  next hne =>
    rw [if_neg hne]
    exact process_tells (Nat.pos_of_ne_zero hne) h

theorem load_renders (p : Player) (t : Text) : p.Renders (p.load t) [] := by
  have hquiet : p.Renders { p.disarm with
    session := p.session + 1, store := .ofList (readScript t Scene.empty).commands, choices := [],
    current := none, phase := .idle } [] := .of_eq rfl
  exact Renders.notify hquiet.reset

end

end Player

/-- An ingestor that has started the story asks for nothing that sends the player back. -/
theorem Ingestor.Intake.forward {g g' : Ingestor} {rs : List Request} {a : Afterwards}
    (h : g.Intake rs g' a) (hready : g.setupReady = true) :
    (∀ r ∈ rs, r.isForward = true) ∧ g'.setupReady = true := by
  cases h with
  | ignore hsame => exact ⟨nofun, hsame.trans hready⟩
  | begin _ _ hnot => cases hnot.symm.trans hready
  | extend t _ _ hready' => exact ⟨by simp [Request.isForward], hready'⟩
  | whole _ _ _ hnot => cases hnot.symm.trans hready
  | close final _ _ hready' _ hrest =>
    refine ⟨?_, hready'⟩
    rcases hrest with rfl | ⟨t, rfl⟩ <;> simp [Request.isForward]
  | fail a => exact ⟨by simp [Request.isForward], hready⟩

/-- An ingestor that starts the story has it loaded and played from the start. -/
theorem Ingestor.Intake.starts {g g' : Ingestor} {rs : List Request} {a : Afterwards}
    (h : g.Intake rs g' a) (hready : g.setupReady = false) (hready' : g'.setupReady = true) :
    ∃ on t, rs = [.streaming on, .load t, .start] := by
  cases h with
  | ignore hsame => cases (hready'.symm.trans hsame).trans hready
  | begin => exact ⟨_, _, rfl⟩
  | extend _ _ hset => cases hset.symm.trans hready
  | whole => exact ⟨_, _, rfl⟩
  | close _ _ hset => cases hset.symm.trans hready
  | fail => cases hready'.symm.trans hready

namespace Playback

/-- The moves that start playback: it is asked for, or the ingestor is ready for it. -/
inductive Starts (s : Playback) : Move → Prop
  | start : Starts s (.ask .start)
  | advance (h : s.player.phase = .idle) : Starts s (.ask .advance)
  | input (h : s.player.phase = .idle) (hstream : s.player.streaming = false) :
      Starts s (.ask (.input .advance))
  | setup {r : StreamRecord} (hready : s.ingestor.setupReady = false)
      (hready' : (s.step (.handle r)).ingestor.setupReady = true) : Starts s (.handle r)

theorem Starts.tells {s : Playback} {m : Move} (h : s.Starts m)
    (hsize : (s.step m).player.store.size ≠ 0) : s.player.Tells (s.step m).player := by
  cases h with
  | start =>
    rw [step_ask_player] at hsize ⊢
    exact Player.start_tells (.of_eq rfl) hsize
  | advance hphase =>
    have hstart : s.player.ask .advance = s.player.start := Player.advance_of_idle hphase
    rw [step_ask_player, hstart] at hsize ⊢
    exact Player.start_tells (.of_eq rfl) hsize
  | input hphase hstream =>
    have hadvance : s.player.ask (.input .advance) = s.player.advance :=
      if_neg (by simp [hstream])
    rw [step_ask_player, hadvance, Player.advance_of_idle hphase] at hsize ⊢
    exact Player.start_tells (.of_eq rfl) hsize
  | @setup r hready hready' =>
    obtain ⟨rs, hintake, hasked⟩ := s.ingestor.handle_takes s.player r
    have hset : (s.ingestor.handle s.player r).ingestor.setupReady = true := by
      simpa [step] using hready'
    obtain ⟨on, t, rfl⟩ := hintake.starts hready hset
    have hplayer : (s.ingestor.handle s.player r).player =
        ((s.player.setStreaming on).load t).start.1 := by
      simpa [Player.askAll, Player.ask] using (congrArg Prod.fst hasked).symm
    rw [step_handle_player, hplayer] at hsize ⊢
    have hquiet : s.player.Renders (s.player.setStreaming on) [] := .of_eq rfl
    exact Player.start_tells (hquiet.trans ((s.player.setStreaming on).load_renders t)) hsize

/-- A move that does not send the player back goes on telling the story, and leaves an ingestor that
has started it started. -/
theorem step_tells {p : Player} {s : Playback} {m : Move} (h : p.Tells s.player)
    (hm : m.isForward = true) (hready : s.ingestor.setupReady = true ∨ m.record? = none) :
    p.Tells (s.step m).player ∧
      (s.ingestor.setupReady = true → (s.step m).ingestor.setupReady = true) := by
  cases m with
  | ask r =>
    rw [step_ask_player]
    exact ⟨h.turn (s.player.ask_turn r) hm, by simp [step]⟩
  | handle r =>
    replace hready := hready.resolve_right (by simp [Move.record?])
    obtain ⟨rs, hintake, hasked⟩ := s.ingestor.handle_takes s.player r
    obtain ⟨hforward, hready'⟩ := hintake.forward hready
    have htells := h.askAll hforward
    rw [hasked] at htells
    rw [step_handle_player]
    exact ⟨htells, fun _ => by simpa [step] using hready'⟩
  | giveUp =>
    have hturn := (s.player.setStreaming false).resume_turn
    have hstays : s.player.Stays (s.player.setStreaming false) := .of_eq rfl id (.of_eq rfl)
    rw [step_giveUp_player]
    exact ⟨(h.stays hstays).turn hturn rfl, by simp [step, Ingestor.abort]⟩
  | complete i =>
    cases hc : s.suspended[i]? with
    | none =>
      rw [step_complete_of_none hc]
      exact ⟨h, id⟩
    | some c =>
      rw [step_complete hc]
      have htells := h.turn (s.player.rendered_turn c.ticket) rfl
      exact ⟨by simpa using htells, by simp⟩
  | fire i =>
    cases ht : s.tasks[i]? with
    | none =>
      rw [step_fire_of_none ht]
      exact ⟨h, id⟩
    | some t =>
      rw [step_fire ht]
      exact ⟨by simpa using h.wake t, by simp⟩

theorem run_tells {p : Player} {s : Playback} (h : p.Tells s.player) {ms : List Move}
    (hms : ∀ m ∈ ms, m.isForward = true)
    (hready : s.ingestor.setupReady = true ∨ ∀ m ∈ ms, m.record? = none) :
    p.Tells (s.run ms).player := by
  induction ms generalizing s with
  | nil => exact h
  | cons m ms ih =>
    have hm := hms m List.mem_cons_self
    obtain ⟨htells, hkept⟩ :=
      step_tells h hm (hready.imp_right fun hnone => hnone m List.mem_cons_self)
    refine ih htells (fun n hn => hms n (List.mem_cons_of_mem m hn)) ?_
    exact hready.imp hkept fun hnone n hn => hnone n (List.mem_cons_of_mem m hn)

/-- From the move that starts playback on, as long as nothing sends the player back, the commands
rendered are those of the store up to the cursor, each once and in their order, however requests,
records, timers and renders interleave. -/
theorem run_renders_in_order {s : Playback} {m : Move} (hstart : s.Starts m)
    (hsize : (s.step m).player.store.size ≠ 0) {ms : List Move}
    (hms : ∀ m ∈ ms, m.isForward = true)
    (hready : (s.step m).ingestor.setupReady = true ∨ ∀ m ∈ ms, m.record? = none) :
    let p := ((s.step m).run ms).player
    p.store.cursor < p.store.size ∧
      s.player.Renders p (p.store.commands.take (p.store.cursor + 1)) := by
  intro p
  have htells := run_tells (hstart.tells hsize) hms hready
  exact ⟨htells.lt, htells.renders⟩

/-- A line that is added while the first is played is rendered in its turn. -/
theorem run_renders_added :
    let s := (new .default).step (.ask (.load ['A', '\n', 'B']))
    let ms : List Move :=
      [.complete 0, .ask .skip, .ask (.append ['C']), .ask .advance, .complete 0, .fire 0,
        .ask .advance]
    (∀ m ∈ ms, m.isForward = true) ∧ (∀ m ∈ ms, m.record? = none) ∧
      s.player.Renders ((s.step (.ask .start)).run ms).player
        [.action ['A'] .empty, .action ['B'] .empty, .action ['C'] .empty] := by
  intro s ms
  have hms : ∀ m ∈ ms, m.isForward = true := by decide
  have hnone : ∀ m ∈ ms, m.record? = none := by decide
  have hsize : (s.step (.ask .start)).player.store.size ≠ 0 := by decide
  have hcommands :
      ((s.step (.ask .start)).run ms).player.store.commands.take
          (((s.step (.ask .start)).run ms).player.store.cursor + 1) =
        [.action ['A'] .empty, .action ['B'] .empty, .action ['C'] .empty] := by decide +kernel
  have hrenders := (run_renders_in_order .start hsize hms (.inr hnone)).2
  rw [hcommands] at hrenders
  exact ⟨hms, hnone, hrenders⟩

end Playback

end StoryPlayer
