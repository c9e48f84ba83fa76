import StoryPlayer.Proofs.Player.Pace
import StoryPlayer.Proofs.Store.Cursor

/-!
# Where going back lands

Two loops run against each other when a reader goes back. The cursor is taken back over cast
commands, since one that is processed only leads forward again; and from where it ends up, commands
are processed until one is not a cast command. As a rule the second has nothing to do. Only when the
first ends at the start on a cast command, the second goes on from there, and past all cast commands
that the story begins with.
-/

namespace StoryPlayer

namespace Player

/-- The player is at this command: it is current, and its text is being revealed or, if it has none,
the player waits for input. -/
structure PlaysAt (p : Player) (i : Nat) (c : Command) : Prop where
  cursor : p.store.cursor = i
  command : p.store.current? = some c
  current : p.current = some c
  phase : p.phase = if c.spoken?.isSome then .typing else .awaitingInput

/-- The player has run out of commands: the last is current. -/
structure Exhausted (p : Player) : Prop where
  cursor : p.store.cursor + 1 = p.store.size
  current : p.current = p.store.current?
  phase : p.phase = if p.streaming then .waitingForMore else .ended

/-- From its cursor `p` goes over cast commands only, to a command that is none or to the end. -/
structure Lands (p q : Player) : Prop where
  commands : q.store.commands = p.store.commands
  streaming : q.streaming = p.streaming
  cursor_le : p.store.cursor ≤ q.store.cursor
  onlyCast : p.store.OnlyCast p.store.cursor q.store.cursor
  ends : (∃ c, c.isCast = false ∧ q.PlaysAt q.store.cursor c) ∨
    (p.store.OnlyCast p.store.cursor p.store.size ∧ q.Exhausted)

section

variable {p q : Player} {c : Command}

theorem process_store (p : Player) : (process p).1.store = p.store := by
  cases hc : p.store.current? with
  | none =>
    rw [process_of_none hc]
    rfl
  | some c =>
    rw [process_of_some hc]
    rfl

/-! ## Going forward over cast commands -/

theorem Exhausted.of_exhaust (hlast : p.store.advance? = none)
    (hc : p.store.current? = some c) (hcurrent : p.current = some c) : p.exhaust.Exhausted := by
  have hlt := (List.getElem?_eq_some_iff.mp hc).1
  have hle := Store.advance?_eq_none_iff.mp hlast
  refine ⟨?_, hcurrent.trans hc.symm, rfl⟩
  change p.store.cursor + 1 = p.store.size
  unfold Store.size at hle ⊢
  omega

/-- The player stays at the command that is processed, unless that is a cast command. -/
theorem Lands.at (hstore : q.store = p.store) (hstreaming : q.streaming = p.streaming)
    (hline : c.isCast = false) (hplays : q.PlaysAt p.store.cursor c) : p.Lands q where
  commands := congrArg Store.commands hstore
  streaming := hstreaming
  cursor_le := Nat.le_of_eq hplays.cursor.symm
  onlyCast := by
    rw [hplays.cursor]
    exact .nil _ _
  ends := .inl ⟨c, hline, by rwa [hplays.cursor]⟩

theorem Lands.atEnd (hstore : q.store = p.store) (hstreaming : q.streaming = p.streaming)
    (hc : p.store.current? = some c) (hcast : c.isCast = true) (h : q.Exhausted) :
    p.Lands q where
  commands := congrArg Store.commands hstore
  streaming := hstreaming
  cursor_le := Nat.le_of_eq (congrArg Store.cursor hstore).symm
  onlyCast := by
    rw [hstore]
    exact .nil _ _
  ends := by
    refine .inr ⟨?_, h⟩
    rw [← hstore, ← h.cursor, hstore]
    exact .single hc hcast

/-- The player goes on from a cast command. -/
theorem Lands.over {r : Player} (h : r.Lands q)
    (hstore : r.store = { p.store with cursor := p.store.cursor + 1 })
    (hstreaming : r.streaming = p.streaming) (hc : p.store.current? = some c)
    (hcast : c.isCast = true) : p.Lands q := by
  obtain ⟨hcommands, hstream, hle, honly, hends⟩ := h
  rw [hstore] at hcommands hle honly hends
  have hfirst : p.store.OnlyCast p.store.cursor (p.store.cursor + 1) := .single hc hcast
  refine ⟨hcommands, hstream.trans hstreaming, Nat.le_of_succ_le hle, hfirst.append honly, ?_⟩
  exact hends.imp_right fun ⟨hall, hend⟩ => ⟨hfirst.append hall, hend⟩

/-- Wherever a command is processed, the player goes over cast commands to another command or to the
end. -/
theorem process_lands (h : p.store.cursor < p.store.size) : p.Lands (settle (process p)) := by
  -- Each cast command takes the cursor on, so the commands that are left are fewer.
  induction hleft : p.store.size - p.store.cursor using Nat.strongRecOn generalizing p with
  | ind n ih =>
    obtain ⟨c, hc⟩ := Store.exists_current? h
    rw [process_of_some hc, settle_some]
    let u : Player :=
      { p.disarm with
        session := p.session + 1, current := some c, phase := .playing }.cue (.render c)
    change p.Lands (settle (u.rendered ⟨u.session, c⟩))
    have hturn := u.rendered_turn ⟨u.session, c⟩
    generalize u.rendered ⟨u.session, c⟩ = w at hturn ⊢
    cases hturn with
    | onward hon hnext =>
      obtain ⟨hlt, rfl⟩ := Store.advance?_eq_some hnext
      let r : Player := { u with store := { p.store with cursor := p.store.cursor + 1 } }
      have hrest : r.Lands (settle (process r)) := by
        refine ih _ ?_ hlt rfl
        change p.store.size - (p.store.cursor + 1) < n
        omega
      exact hrest.over rfl rfl hc hon.2
    | exhaust hon hlast =>
      have hend : u.disarm.exhaust.Exhausted := .of_exhaust (p := u.disarm) hlast hc rfl
      exact .atEnd rfl rfl hc hon.2 hend
    | spent hon hlast => exact .atEnd rfl rfl hc hon.2 (.of_exhaust (p := u) hlast hc rfl)
    | late hlate => exact absurd rfl hlate
    | @reveal _ text _ htext =>
      have htext : c.spoken? = some text := htext
      have hline : c.isCast = false := by
        cases c <;> first | rfl | cases htext
      refine .at rfl rfl hline ⟨rfl, hc, rfl, ?_⟩
      rw [htext]
      rfl
    | stayOn _ htext hline =>
      have htext : c.spoken? = none := htext
      obtain ⟨t, ts, n, heq⟩ := u.exists_stayOn
      rw [heq]
      refine .at rfl rfl hline ⟨rfl, hc, rfl, ?_⟩
      rw [htext]
      rfl

/-- Where the player lands is told by the commands alone. -/
theorem Lands.playsAt (h : p.Lands q) {j : Nat} (hj : p.store.commands[j]? = some c)
    (hline : c.isCast = false) (hle : p.store.cursor ≤ j)
    (honly : p.store.OnlyCast p.store.cursor j) : q.PlaysAt j c := by
  have hat : q.store.cursor ≤ j := h.onlyCast.notMem hj hline hle
  rcases h.ends with ⟨d, hd, hplays⟩ | ⟨hall, -⟩
  · have hcommand : p.store.commands[q.store.cursor]? = some d := by
      rw [← h.commands]
      exact hplays.command
    obtain rfl : j = q.store.cursor := Nat.le_antisymm (honly.notMem hcommand hd h.cursor_le) hat
    obtain rfl : c = d := Option.some.inj (hj.symm.trans hcommand)
    exact hplays
  · have hsize := (List.getElem?_eq_some_iff.mp hj).1
    exact absurd hsize (Nat.not_lt.mpr (hall.notMem hj hline hle))

theorem Lands.inBounds (h : p.Lands q) : q.store.InBounds := by
  rcases h.ends with ⟨d, -, hplays⟩ | ⟨-, hend⟩
  · exact .inl (List.getElem?_eq_some_iff.mp hplays.command).1
  · exact .inl (Nat.lt_of_succ_le (Nat.le_of_eq hend.cursor))

theorem Lands.exhausted (h : p.Lands q)
    (hall : p.store.OnlyCast p.store.cursor p.store.size) : q.Exhausted := by
  rcases h.ends with ⟨d, hd, hplays⟩ | ⟨-, hend⟩
  · have hcommand : p.store.commands[q.store.cursor]? = some d := by
      rw [← h.commands]
      exact hplays.command
    have hlt := (List.getElem?_eq_some_iff.mp hcommand).1
    exact absurd hlt (Nat.not_lt.mpr (hall.notMem hcommand hd h.cursor_le))
  · exact hend

/-! ## Going back -/

theorem retreat_of_none (hphase : p.phase ≠ .typing) (hback : p.store.back? = none) :
    p.retreat = (p, none) := by
  simp only [retreat, if_neg hphase, hback]

theorem retreat_of_some {s : Store} (hphase : p.phase ≠ .typing) (hback : p.store.back? = some s) :
    p.retreat = process { p with store := s } := by
  simp only [retreat, if_neg hphase, hback]

theorem retreat_lands (hphase : p.phase ≠ .typing) (hbounds : p.store.InBounds)
    (hpos : 0 < p.store.cursor) :
    ∃ t : Store, t.commands = p.store.commands ∧ t.cursor < p.store.cursor ∧
      p.store.OnlyCast (t.cursor + 1) p.store.cursor ∧
      (t.cursor = 0 ∨ ∃ c, p.store.commands[t.cursor]? = some c ∧ c.isCast = false) ∧
      { p with store := t }.Lands (settle p.retreat) := by
  obtain ⟨t, hback, hcommands, hlt, hpassed, hends⟩ := Store.back?_lands hbounds hpos
  refine ⟨t, hcommands, hlt, hpassed, hends, ?_⟩
  rw [retreat_of_some hphase hback]
  exact process_lands (hbounds.back?_lt hback)

/-- Going back lands on the last command before the cursor that is not a cast command. -/
theorem retreat_playsAt (hphase : p.phase ≠ .typing) (hbounds : p.store.InBounds) {j : Nat}
    (hj : p.store.commands[j]? = some c) (hline : c.isCast = false) (hlt : j < p.store.cursor)
    (honly : p.store.OnlyCast (j + 1) p.store.cursor) : (settle p.retreat).PlaysAt j c := by
  obtain ⟨t, hcommands, htlt, hpassed, hends, hlands⟩ :=
    retreat_lands hphase hbounds (Nat.zero_lt_of_lt hlt)
  have hge : j ≤ t.cursor := by
    by_contra hlower
    have hover := hpassed.notMem hj hline (Nat.lt_of_not_le hlower)
    omega
  have hle : t.cursor ≤ j := by
    rcases hends with hzero | ⟨d, hd, hd'⟩
    · omega
    · by_contra hhigher
      have hover := honly.notMem hd hd' (Nat.lt_of_not_le hhigher)
      omega
  obtain rfl : t.cursor = j := Nat.le_antisymm hle hge
  refine hlands.playsAt ?_ hline (Nat.le_refl _) (.nil _ _)
  change t.commands[t.cursor]? = some c
  rw [hcommands, hj]

/-- Going back over nothing but cast commands is going on from the start. -/
theorem retreat_rewinds (hphase : p.phase ≠ .typing) (hbounds : p.store.InBounds)
    (hpos : 0 < p.store.cursor) (honly : p.store.OnlyCast 0 p.store.cursor) :
    { p with store := p.store.rewind }.Lands (settle p.retreat) := by
  obtain ⟨t, hcommands, hlt, -, hends, hlands⟩ := retreat_lands hphase hbounds hpos
  have hzero : t.cursor = 0 := by
    rcases hends with hzero | ⟨d, hd, hd'⟩
    · exact hzero
    · have hover := honly.notMem hd hd' (Nat.zero_le _)
      omega
  have hrewind : t = p.store.rewind := by
    cases t
    cases hcommands
    cases hzero
    rfl
  rwa [hrewind] at hlands

/-- Going on from a command leads over cast commands, or nowhere. -/
theorem advance_lands (hphase : p.phase = .awaitingInput) :
    (settle p.advance).store = p.store ∨
      ∃ r : Player, r.store = { p.store with cursor := p.store.cursor + 1 } ∧
        r.Lands (settle p.advance) := by
  have hadvance : p.advance = p.disarm.stepForward := by simp only [advance, hphase]
  rw [hadvance]
  unfold stepForward
  split
  next s hnext =>
    obtain ⟨hlt, rfl⟩ := Store.advance?_eq_some hnext
    exact .inr ⟨_, rfl, process_lands hlt⟩
  next =>
    rw [settle_of_none rfl]
    exact .inl rfl

/-- A reader who goes on from a command and then goes back is at that command again. -/
theorem retreat_advance (hphase : p.phase = .awaitingInput) (hc : p.store.current? = some c)
    (hline : c.isCast = false) :
    let q := settle p.advance
    q.store.cursor ≠ p.store.cursor → (settle q.skip.retreat).PlaysAt p.store.cursor c := by
  intro q hne
  rcases advance_lands hphase with hstays | ⟨r, hr, hlands⟩
  · exact absurd (congrArg Store.cursor hstays) hne
  · have hcommands : q.store.commands = p.store.commands := by
      rw [hlands.commands, hr]
    have hle := hlands.cursor_le
    have honly := hlands.onlyCast.congr hlands.commands
    rw [hr] at hle honly
    apply retreat_playsAt q.skip_phase_ne_typing
    · rw [skip_store]
      exact hlands.inBounds
    · rw [skip_store, hcommands]
      exact hc
    · exact hline
    · rw [skip_store]
      exact hle
    · rw [skip_store]
      exact honly

/-! ## The cursor stays on a command -/

theorem Turn.inBounds {c : Trigger} {w : Waiting} (h : p.Turn c w) (hp : p.store.InBounds) :
    w.1.store.InBounds := by
  cases h with
  | stay | stream | textSpeed | autoSpeed | finish | runOut | exhaust | spent | late | reveal
  | disarmed | showNext | lapse | fail => exact hp
  | load => exact .inr rfl
  | append t => exact hp.append _
  | seek h =>
    obtain ⟨hlt, rfl⟩ := Store.moveTo?_eq_some h
    exact .inl hlt
  | toggle r =>
    obtain ⟨t, ts, n, heq⟩ := p.exists_toggleAuto
    rwa [heq]
  | skip r h => rwa [skip_store]
  | restart r h hsize =>
    rw [process_store]
    exact .inr rfl
  | back hr h hback =>
    rw [process_store]
    exact .inl (hp.back?_lt hback)
  | onward h hnext =>
    obtain ⟨hlt, rfl⟩ := Store.advance?_eq_some hnext
    rw [process_store]
    exact .inl hlt
  | stayOn =>
    obtain ⟨t, ts, n, heq⟩ := p.exists_stayOn
    rwa [heq]
  | showLast | showNone => rwa [finishReveal_store]

theorem askAll_inBounds (hp : p.store.InBounds) (rs : List Request) :
    (p.askAll rs).1.store.InBounds := by
  induction rs generalizing p with
  | nil => exact hp
  | cons r rs ih => exact ih ((p.ask_turn r).inBounds hp)

end

end Player

open Player

namespace Playback

theorem step_inBounds {s : Playback} (hsteady : s.Steady) (h : s.player.store.InBounds) (m : Move) :
    (s.step m).player.store.InBounds := by
  have hruns := hsteady.runs m
  generalize (s.step m).player = q at hruns ⊢
  cases hruns with
  | stay => exact h
  | turn hturn => exact hturn.inBounds h
  | intake => exact askAll_inBounds h _

theorem run_inBounds {s : Playback} (hsteady : s.Steady) (h : s.player.store.InBounds)
    (ms : List Move) : (s.run ms).player.store.InBounds := by
  induction ms generalizing s with
  | nil => exact h
  | cons m ms ih => exact ih (step_steady hsteady m) (step_inBounds hsteady h m)

/-- Going back lands on the last command before the cursor that is not a cast command. At the start
there is nothing to go back to and nothing changes. Where only cast commands stand before the
cursor, the player ends up on the first command of the story that is none, as if it had been
started, and if there is none either, it has run out of commands. So whoever goes on from a command,
and skips what is revealed then, comes back to it by going back. -/
theorem run_retreat_lands (settings : Settings) (cs : List Command) (ms : List Move)
    (hphase : ((ofCommands settings cs).run ms).player.phase ≠ .typing) :
    let p := ((ofCommands settings cs).run ms).player
    let s := p.store
    let q := settle p.retreat
    q.store.commands = s.commands ∧ (s.cursor = 0 → p.retreat = (p, none)) ∧
      (∀ j c, s.commands[j]? = some c → c.isCast = false → j < s.cursor →
        s.OnlyCast (j + 1) s.cursor → q.PlaysAt j c) ∧
      (0 < s.cursor → s.OnlyCast 0 s.cursor →
        (∀ j c, s.commands[j]? = some c → c.isCast = false → s.OnlyCast 0 j → q.PlaysAt j c) ∧
          (s.OnlyCast 0 s.size → q.Exhausted ∧ q.streaming = p.streaming)) ∧
      (p.phase = .awaitingInput → ∀ c, s.current? = some c → c.isCast = false →
        let r := settle p.advance
        r.store.cursor ≠ s.cursor → (settle r.skip.retreat).PlaysAt s.cursor c) := by
  intro p s q
  have hbounds : s.InBounds := run_inBounds (ofCommands_steady settings cs) (.inr rfl) ms
  have hstart (hzero : s.cursor = 0) : p.retreat = (p, none) :=
    retreat_of_none hphase (Store.back?_of_start hzero)
  refine ⟨?_, hstart, ?_, ?_, ?_⟩
  · rcases Nat.eq_zero_or_pos s.cursor with hzero | hpos
    · change (settle p.retreat).store.commands = _
      rw [hstart hzero]
      rfl
    · obtain ⟨t, hcommands, -, -, -, hlands⟩ := retreat_lands hphase hbounds hpos
      exact hlands.commands.trans hcommands
  · intro j c hj hline hlt honly
    exact retreat_playsAt hphase hbounds hj hline hlt honly
  · intro hpos honly
    have hlands := retreat_rewinds hphase hbounds hpos honly
    refine ⟨fun j c hj hline hbefore => ?_, fun hall => ⟨hlands.exhausted hall, hlands.streaming⟩⟩
    exact hlands.playsAt hj hline (Nat.zero_le _) hbefore
  · intro hawaiting c hc hline r hne
    exact retreat_advance hawaiting hc hline hne

/-- In a story of two lines, with cast commands before each, going back from the second line leads
to the first, and going back from the first leads to it once more. -/
theorem run_retreat_lands_twice :
    let cs : List Command :=
      [.cast [], .dialogue ['A'] ['o'] neutral .empty, .cast [], .action ['u'] .empty]
    let first : List Move := [.ask .start, .complete 0, .complete 0, .ask .skip]
    let second : List Move :=
      [.ask .start, .complete 0, .complete 0, .ask .skip, .ask .advance, .complete 0, .complete 0,
        .ask .skip]
    let p := ((ofCommands .default cs).run first).player
    let q := ((ofCommands .default cs).run second).player
    p.phase ≠ .typing ∧ q.phase ≠ .typing ∧ p.store.cursor = 1 ∧ q.store.cursor = 3 ∧
      (settle q.retreat).PlaysAt 1 (.dialogue ['A'] ['o'] neutral .empty) ∧
      (settle p.retreat).PlaysAt 1 (.dialogue ['A'] ['o'] neutral .empty) := by
  intro cs first second
  dsimp only
  have hp : ((ofCommands .default cs).run first).player.phase ≠ .typing := by decide +kernel
  have hq : ((ofCommands .default cs).run second).player.phase ≠ .typing := by decide +kernel
  have hpstore : ((ofCommands .default cs).run first).player.store = ⟨cs, 1⟩ := by decide +kernel
  have hqstore : ((ofCommands .default cs).run second).player.store = ⟨cs, 3⟩ := by decide +kernel
  obtain ⟨-, -, -, hrewinds, -⟩ := run_retreat_lands .default cs first hp
  obtain ⟨-, -, hlands, -, -⟩ := run_retreat_lands .default cs second hq
  generalize ((ofCommands .default cs).run first).player = p at *
  generalize ((ofCommands .default cs).run second).player = q at *
  rw [hpstore] at hrewinds ⊢
  rw [hqstore] at hlands ⊢
  have hbefore : Store.OnlyCast ⟨cs, 1⟩ 0 1 := .single rfl rfl
  have hbetween : Store.OnlyCast ⟨cs, 3⟩ 2 3 := .single rfl rfl
  refine ⟨hp, hq, rfl, rfl, ?_, ?_⟩
  · exact hlands 1 _ rfl rfl (by decide) hbetween
  · exact (hrewinds Nat.one_pos hbefore).1 1 _ rfl rfl hbefore

end Playback

end StoryPlayer
