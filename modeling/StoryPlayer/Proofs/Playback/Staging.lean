import StoryPlayer.Proofs.Playback.Timer
import StoryPlayer.Proofs.Stage.Shows
import StoryPlayer.Proofs.Store.Cursor

/-!
# The stage under a reader who goes back and forth

A reader goes on by one command at a time and back as far as there are commands, so that whatever
stands before the current command has been passed. The stage follows the player through its cues.
-/

namespace StoryPlayer

/-- What a reader does, with the renders and timers that come of it. -/
def Move.isReading : Move → Bool
  | ask .finish => false
  | ask r => r.isPlayback
  | complete _ | fire _ => true
  | _ => false

/-- What a reader may make a player run for. -/
def Trigger.isReading : Trigger → Bool
  | request .finish => false
  | c => c.isPlayback

namespace Player

/-- How many commands a player has come to, from the first up to the current one. -/
def passed (p : Player) : Nat :=
  if p.current = none then p.store.cursor else p.store.cursor + 1

/-- Between `p` and `q` no command is processed. -/
structure Rests (p q : Player) : Prop where
  store : q.store = p.store
  current : q.current = p.current
  idle : q.phase = .idle ↔ p.phase = .idle
  cues : ∃ ds : List Display, q.cues.toList = p.cues.toList ++ ds.map .display

section

variable {p q : Player}

theorem Rests.of_quiet (hstore : q.store = p.store) (hcurrent : q.current = p.current)
    (hidle : q.phase = .idle ↔ p.phase = .idle) (hcues : q.cues = p.cues) : p.Rests q :=
  ⟨hstore, hcurrent, hidle, [], by simp [hcues]⟩

theorem Rests.of_display {d : Display} (hstore : q.store = p.store)
    (hcurrent : q.current = p.current) (hidle : q.phase = .idle ↔ p.phase = .idle)
    (hcues : q.cues = p.cues.push (.display d)) : p.Rests q :=
  ⟨hstore, hcurrent, hidle, [d], by simp [hcues]⟩

theorem Rests.trans {r : Player} (h : p.Rests q) (h' : q.Rests r) : p.Rests r := by
  obtain ⟨ds, hds⟩ := h.cues
  obtain ⟨es, hes⟩ := h'.cues
  refine ⟨h'.store.trans h.store, h'.current.trans h.current, h'.idle.trans h.idle, ds ++ es, ?_⟩
  rw [hes, hds, List.append_assoc, List.map_append]

theorem exhaust_rests (h : p.phase ≠ .idle) : p.Rests p.exhaust := by
  refine .of_quiet rfl rfl (iff_of_false ?_ h) rfl
  rw [exhaust]
  split <;> simp

theorem finishReveal_rests (h : q.phase ≠ .idle) (session : Nat) :
    q.Rests (q.finishReveal session) := by
  have hidle : Phase.awaitingInput = .idle ↔ q.phase = .idle := iff_of_false nofun h
  obtain ⟨t, ts, n, heq⟩ := q.exists_finishReveal session
  rw [heq]
  exact .of_display rfl rfl hidle rfl

theorem toggleAuto_rests (p : Player) : p.Rests p.toggleAuto := by
  obtain ⟨t, ts, n, heq⟩ := p.exists_toggleAuto
  rw [heq]
  exact .of_quiet rfl rfl .rfl rfl

/-- A reader's turn leaves the player where it is, or has it process a command that stands no
further on than the next. -/
theorem Turn.rests_or_processes {c : Trigger} {w : Waiting} (h : p.Turn c w)
    (hc : c.isReading = true) {ts : List Ticket} (hp : p.Steady (c.ticket?.toList ++ ts))
    (hidle : p.current = none ↔ p.phase = .idle) (hbounds : p.store.InBounds) :
    p.Rests w.1 ∨ ∃ s, s.commands = p.store.commands ∧ s.cursor ≤ p.passed ∧ s.cursor < s.size ∧
      w = process { p with store := s } := by
  -- Before playback has started there is neither a timer nor a render to run for.
  have hrender {t : Ticket} (ht : c = .render t) (hsession : t.session = p.session) :
      p.phase ≠ .idle := by
    subst ht
    intro hphase
    have hcurrent := (hp.awaited t List.mem_cons_self hsession).1
    rw [hidle.mpr hphase] at hcurrent
    cases hcurrent
  have htimer {t : Timer} (ht : p.timer = some t) : p.phase ≠ .idle := by
    intro hphase
    have hnone := hp.fits.timer_eq_none (by simp [hphase]) (by simp [hphase])
    rw [ht] at hnone
    cases hnone
  have hmoves (hon : p.MovesOn c) : p.phase ≠ .idle := by
    cases c with
    | request r => exact hon.2
    | render t => exact hrender rfl hon.1
    | timer =>
      rw [hon.1]
      decide
    | failure => exact hon.elim
  have hpassed (hphase : p.phase ≠ .idle) : p.passed = p.store.cursor + 1 :=
    if_neg (mt hidle.mp hphase)
  cases h with
  | stay r => exact .inl (.of_quiet rfl rfl .rfl rfl)
  | load t => cases hc
  | append t => cases hc
  | stream on => cases hc
  | seek h => cases hc
  | textSpeed n => exact .inl (.of_quiet rfl rfl .rfl rfl)
  | autoSpeed n => exact .inl (.of_quiet rfl rfl .rfl rfl)
  | toggle r => exact .inl p.toggleAuto_rests
  | finish => cases hc
  | skip r hphase =>
    rw [skip_of_typing hphase]
    left
    refine .trans ?_ (finishReveal_rests ?_ _)
    · exact .of_quiet rfl rfl .rfl rfl
    · simp [disarm, hphase]
  | runOut hphase hstream hlast =>
    exact .inl (.of_quiet rfl rfl (iff_of_false (by simp) (by simp [hphase])) rfl)
  | restart r h hsize => exact .inr ⟨p.store.rewind, rfl, Nat.zero_le _, Nat.pos_of_ne_zero hsize, rfl⟩
  | back hr h hback =>
    obtain ⟨hcommands, hlt⟩ := Store.back?_eq_some hback
    refine .inr ⟨_, hcommands, ?_, hbounds.back?_lt hback, rfl⟩
    unfold passed
    split <;> omega
  | onward h hnext =>
    obtain ⟨hlt, rfl⟩ := Store.advance?_eq_some hnext
    refine .inr ⟨{ p.store with cursor := p.store.cursor + 1 }, rfl, ?_, hlt, rfl⟩
    exact Nat.le_of_eq (hpassed (hmoves h)).symm
  | exhaust h hlast =>
    have hdisarm : p.Rests p.disarm := .of_quiet rfl rfl .rfl rfl
    exact .inl (hdisarm.trans (exhaust_rests (p := p.disarm) (hmoves h)))
  | spent h hlast => exact .inl (exhaust_rests (hmoves h))
  | late h => exact .inl (.of_quiet rfl rfl .rfl rfl)
  | reveal h htext =>
    have hidle : Phase.typing = .idle ↔ p.phase = .idle := iff_of_false (by decide) (hrender rfl h)
    exact .inl (.of_display rfl rfl hidle rfl)
  | stayOn h htext hcast =>
    have hidle : Phase.awaitingInput = .idle ↔ p.phase = .idle :=
      iff_of_false (by decide) (hrender rfl h)
    obtain ⟨t, ts, n, heq⟩ := p.exists_stayOn
    rw [heq]
    exact .inl (.of_quiet rfl rfl hidle rfl)
  | disarmed h => exact .inl (.of_quiet rfl rfl .rfl rfl)
  | showNext h hjob hrest => exact .inl (.of_display rfl rfl .rfl rfl)
  | @showLast t char h hjob =>
    have hshown : p.Rests (p.showNext char).disarm := .of_display rfl rfl .rfl rfl
    have hphase : (p.showNext char).disarm.phase ≠ .idle := htimer h
    exact .inl (hshown.trans (finishReveal_rests hphase _))
  | showNone h hjob =>
    have hdisarm : p.Rests p.disarm := .of_quiet rfl rfl .rfl rfl
    have hphase : p.disarm.phase ≠ .idle := htimer h
    exact .inl (hdisarm.trans (finishReveal_rests hphase _))
  | lapse h hjob hlate => exact .inl (.of_quiet rfl rfl .rfl rfl)
  | fail h hwait => exact .inl (.of_quiet rfl rfl .rfl rfl)

end

/-- The player plays the commands `cs` to a stage that was `start` at first. The current command is
the last that was rendered. -/
structure Staged (start : Stage) (cs : List Command) (reached : Nat → Prop) (p : Player) : Prop where
  commands : p.store.commands = cs
  bounds : p.store.InBounds
  idle : p.current = none ↔ p.phase = .idle
  rendered : ∀ c, p.current = some c → p.store.current? = some c ∧
    ∃ old : Stage, old.hidden = start.hidden ∧ (start.follow p.cues.toList).1 = (old.render c).1
  shows : (start.follow p.cues.toList).1.Shows cs reached p.passed

section

variable {start : Stage} {cs : List Command} {reached reached' : Nat → Prop} {p q : Player}

theorem Staged.rests (h : Staged start cs reached p) (hrests : p.Rests q)
    (hreached : ∀ l, reached l → reached' l) : Staged start cs reached' q := by
  obtain ⟨ds, hds⟩ := hrests.cues
  have hstage : (start.follow q.cues.toList).1 = (start.follow p.cues.toList).1 := by
    rw [hds, Stage.follow_append, Stage.follow_displays]
  have hpassed : q.passed = p.passed := by
    unfold passed
    rw [hrests.store, hrests.current]
  constructor
  · rw [hrests.store]
    exact h.commands
  · rw [hrests.store]
    exact h.bounds
  · rw [hrests.current, hrests.idle]
    exact h.idle
  · rw [hrests.current, hrests.store, hstage]
    exact h.rendered
  · rw [hstage, hpassed]
    exact h.shows.mono hreached

theorem Staged.process (h : Staged start cs reached p) (hproper : ProperFrom .empty cs)
    {s : Store} (hcommands : s.commands = p.store.commands) (hle : s.cursor ≤ p.passed)
    (hlt : s.cursor < s.size) (hreached : ∀ l, reached l ∨ l ≤ p.store.cursor → reached' l) :
    Staged start cs reached' (process { p with store := s }).1 := by
  obtain ⟨c, hc⟩ := Store.exists_current? hlt
  have hat : cs[s.cursor]? = some c := by
    rw [← h.commands, ← hcommands]
    exact hc
  have hpassed : p.passed ≤ p.store.cursor + 1 := by
    unfold passed
    split <;> omega
  rw [process_of_some (p := { p with store := s }) hc]
  let stage := (start.follow p.cues.toList).1
  have hstage : (start.follow (p.cues.push (.render c)).toList).1 = (stage.render c).1 := by
    rw [Array.toList_push, Stage.follow_append]
    rfl
  refine ⟨hcommands.trans h.commands, .inl hlt, iff_of_false nofun nofun, ?_, ?_⟩
  · rintro d ⟨⟩
    exact ⟨hc, stage, start.follow_hidden _, hstage⟩
  · change (start.follow (p.cues.push (.render c)).toList).1.Shows cs reached' (s.cursor + 1)
    rw [hstage]
    apply h.shows.render hproper hle hat
    intro l hl
    apply hreached l
    exact hl.imp_right fun hl => by omega

theorem Staged.turn (h : Staged start cs reached p) (hproper : ProperFrom .empty cs)
    {c : Trigger} {w : Waiting} (hturn : p.Turn c w) (hc : c.isReading = true) {ts : List Ticket}
    (hp : p.Steady (c.ticket?.toList ++ ts))
    (hreached : ∀ l, reached l ∨ l ≤ p.store.cursor → reached' l) :
    Staged start cs reached' w.1 := by
  rcases hturn.rests_or_processes hc hp h.idle h.bounds with hrests | ⟨s, hcommands, hle, hlt, rfl⟩
  · exact h.rests hrests fun l hl => hreached l (.inl hl)
  · exact h.process hproper hcommands hle hlt hreached

/-- A load empties the stage. -/
theorem load_staged (p : Player) (t : Text) (start : Stage) (reached : Nat → Prop) :
    Staged start (readScript t .empty).commands reached (p.load t) := by
  have hcues : (p.load t).cues.toList =
      p.cues.toList ++ [.reset, .display ⟨[], readyText, false⟩] := by
    simp [load, say, notify, cue, disarm]
  refine ⟨rfl, .inr rfl, iff_of_true rfl rfl, by rintro _ ⟨⟩, ?_⟩
  rw [hcues, Stage.follow_append]
  exact .inl rfl

end

end Player

namespace Playback

/-- What was reached in the course of moves. -/
def Reached (s : Playback) (ms : List Move) (l : Nat) : Prop :=
  ∃ front, front <+: ms ∧ l ≤ (s.run front).player.store.cursor

theorem step_staged {s : Playback} (hsteady : s.Steady) {start : Stage} {cs : List Command}
    {reached reached' : Nat → Prop} (h : s.player.Staged start cs reached)
    (hproper : ProperFrom .empty cs) {m : Move} (hm : m.isReading = true)
    (hreached : ∀ l, reached l ∨ l ≤ s.player.store.cursor → reached' l) :
    (s.step m).player.Staged start cs reached' := by
  have hruns := hsteady.runs m
  generalize (s.step m).player = q at hruns ⊢
  cases hruns with
  | stay => exact h.rests (.of_quiet rfl rfl .rfl rfl) fun l hl => hreached l (.inl hl)
  | @turn c w ts hturn hplayer hask =>
    have hc : c.isReading = true := by
      cases c with
      | request r =>
        rw [hask r rfl] at hm
        cases r <;> exact hm
      | render | timer | failure => rfl
    exact h.turn hproper hturn hc hplayer hreached
  | intake _ hstream => rcases hstream with rfl | ⟨r, rfl⟩ <;> cases hm

theorem run_staged {s : Playback} (hsteady : s.Steady) {start : Stage} {cs : List Command}
    (h : ∀ reached, s.player.Staged start cs reached) (hproper : ProperFrom .empty cs)
    {ms : List Move} (hms : ∀ m ∈ ms, m.isReading = true) :
    (s.run ms).player.Staged start cs (s.Reached ms) := by
  induction ms using List.reverseRecOn with
  | nil => exact h _
  | append_singleton ms m ih =>
    have hbefore := ih fun n hn => hms n (List.mem_append_left _ hn)
    have hm := hms m (by simp)
    rw [run_concat]
    apply step_staged (hsteady.run ms) hbefore hproper hm
    intro l hl
    rcases hl with ⟨front, hfront, hl⟩ | hl
    · exact ⟨front, hfront.trans (List.prefix_append ms [m]), hl⟩
    · exact ⟨ms, List.prefix_append ms [m], hl⟩

/-- However a reader has come to a dialogue or action, it is shown with the cast of its snapshot,
but for the hidden members, and at the location of its snapshot if that is one with a name. Any other
line, one read before any location or behind an empty one, leaves on stage what is there: that is the
location of the snapshot even so, or the location of a later command that was reached. As long as no
later command was reached, it is the location of the snapshot. -/
theorem run_shows_snapshot (settings : Settings) (canvas : Canvas) (hidden : List Text)
    (before ms : List Move) (t : Text) (hms : ∀ m ∈ ms, m.isReading = true) :
    let start := Stage.new canvas hidden
    let s := ((new settings).run before).step (.ask (.load t))
    let p := (s.run ms).player
    let scene := (start.follow p.cues.toList).1.scene
    ∀ c snapshot, p.current = some c → c.snapshot? = some snapshot →
      scene.cast = snapshot.cast.filter (fun m => Text.lower m.name ∉ hidden.map Text.lower) ∧
      (∀ place, snapshot.location = some place → place ≠ [] → scene.location = some place) ∧
      (scene.location = snapshot.location ∨
        ∃ l place colours, p.store.cursor < l ∧ s.Reached ms l ∧
          p.store.commands[l]? = some (.location place colours) ∧ scene.location = some place) ∧
      ((∀ l, s.Reached ms l → l ≤ p.store.cursor) → scene.location = snapshot.location) := by
  intro start s p scene c snapshot hcurrent hsnapshot
  have hsteady : s.Steady := step_steady ((new_steady settings).run before) (.ask (.load t))
  have hloaded (reached : Nat → Prop) :
      s.player.Staged start (readScript t .empty).commands reached := by
    rw [step_ask_player]
    exact Player.load_staged _ t start reached
  have hproper := (readScript_readable t .empty).commands
  have h : p.Staged start (readScript t .empty).commands (s.Reached ms) :=
    run_staged hsteady hloaded hproper hms
  obtain ⟨hat, old, hhidden, hstage⟩ := h.rendered c hcurrent
  have hscene : scene = ⟨Stage.moved old.scene.location snapshot.location,
      old.visible snapshot.cast⟩ := by
    rw [← old.render_snapshot hsnapshot, ← hstage]
  have hpassed : p.passed = p.store.cursor + 1 := by
    simp [Player.passed, hcurrent]
  have hlocation : (sceneBehind .empty ((readScript t .empty).commands.take p.passed)).location =
      snapshot.location := by
    rw [hpassed]
    apply hproper.location_snapshot _ hsnapshot
    rw [← h.commands]
    exact hat
  refine ⟨?_, ?_, ?_, ?_⟩
  · rw [hscene]
    simp only [Stage.visible, hhidden]
    rfl
  · intro place hplace hne
    rw [hscene, hplace]
    cases place with
    | nil => exact absurd rfl hne
    | cons a place => rfl
  · rcases h.shows with hsame | ⟨l, place, colours, hl, hreached, hget, hplace⟩
    · exact .inl (hsame.trans hlocation)
    · rw [← h.commands] at hget
      exact .inr ⟨l, place, colours, by omega, hreached, hget, hplace⟩
  · intro hfirst
    rcases h.shows with hsame | ⟨l, place, colours, hl, hreached, hget, hplace⟩
    · exact hsame.trans hlocation
    · have hle := hfirst l hreached
      omega

/-- A reader goes back from a second location to the line at the first. -/
theorem run_shows_snapshot_back :
    let ms : List Move :=
      [.ask .start, .complete 0, .ask .advance, .complete 0, .fire 0, .ask .advance, .complete 0,
        .ask .retreat]
    let script : Text := ['L', 'O', 'C', ':', 'a', '\n', 'A', '\n', 'L', 'O', 'C', ':', 'b']
    let start := Stage.new .full []
    let p := ((((new .default).run []).step (.ask (.load script))).run ms).player
    (∀ m ∈ ms, m.isReading = true) ∧ p.current = some (.action ['A'] ⟨some ['a'], []⟩) ∧
      (start.follow p.cues.toList).1.scene.location = some ['a'] := by
  have hshown := run_shows_snapshot .default .full [] []
    [.ask .start, .complete 0, .ask .advance, .complete 0, .fire 0, .ask .advance, .complete 0,
      .ask .retreat]
    ['L', 'O', 'C', ':', 'a', '\n', 'A', '\n', 'L', 'O', 'C', ':', 'b'] (by decide)
    (.action ['A'] ⟨some ['a'], []⟩) ⟨some ['a'], []⟩
  dsimp only at hshown ⊢
  obtain ⟨-, hplace, -, -⟩ := hshown (by decide +kernel) rfl
  refine ⟨by decide, by decide +kernel, ?_⟩
  exact hplace ['a'] rfl nofun

/-- A reader goes back from a location to a line before any, and the location stays. -/
theorem run_shows_later_place :
    let ms : List Move :=
      [.ask .start, .complete 0, .fire 0, .ask .advance, .complete 0, .ask .retreat]
    let s := (new .default).step (.ask (.load ['A', '\n', 'L', 'O', 'C', ':', 'b']))
    let p := (s.run ms).player
    p.current = some (.action ['A'] Scene.empty) ∧
      ((Stage.new .full []).follow p.cues.toList).1.scene.location = some ['b'] :=
  ⟨rfl, rfl⟩

end Playback

end StoryPlayer
