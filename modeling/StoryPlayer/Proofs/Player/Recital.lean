import StoryPlayer.Proofs.Playback.Order
import StoryPlayer.Proofs.Playback.Progress

/-!
# Every text is shown in full, and once

A text is there in full when the player is done with it and lets the reader go on. While nothing
sends the player back, cuts a reveal short or ends playback by hand, this happens once for each text,
in their order, and the dialogue box keeps the last of them until the next one is revealed.
-/

namespace StoryPlayer

/-- What the dialogue box shows when the text of a command is there in full. -/
def Command.full? (c : Command) : Option Display :=
  c.spoken?.map fun text => ⟨c.label, text, true⟩

/-- The texts that are there in full among cues. -/
def fullDisplays (cues : List Cue) : List Display :=
  (displays cues).filter (·.showContinue)

theorem fullDisplays_append (cues more : List Cue) :
    fullDisplays (cues ++ more) = fullDisplays cues ++ fullDisplays more := by
  simp [fullDisplays, displays]

/-- A trigger that takes a player on by itself: nobody outside has to give it. -/
def Trigger.isOwn : Trigger → Bool
  | request _ | failure => false
  | render _ | timer => true

theorem Trigger.isPlayback_of_isOwn {c : Trigger} (h : c.isOwn = true) : c.isPlayback = true := by
  cases c with
  | request | failure => cases h
  | render | timer => rfl

namespace Player

/-- Between `p` and `q` these were there in full. -/
def Completes (p q : Player) (ds : List Display) : Prop :=
  ∃ added, q.cues.toList = p.cues.toList ++ added ∧ fullDisplays added = ds

namespace Completes

variable {p q r : Player} {ds es : List Display}

theorem of_eq (h : q.cues = p.cues) : p.Completes q [] :=
  ⟨[], by simp [h], rfl⟩

theorem of_push {c : Cue} (h : q.cues = p.cues.push c) (hds : fullDisplays [c] = ds) :
    p.Completes q ds :=
  ⟨[c], by simp [h], hds⟩

theorem trans (h : p.Completes q ds) (h' : q.Completes r es) : p.Completes r (ds ++ es) := by
  obtain ⟨added, hcues, rfl⟩ := h
  obtain ⟨more, hcues', rfl⟩ := h'
  exact ⟨added ++ more, by rw [hcues', hcues, List.append_assoc], fullDisplays_append added more⟩

theorem quiet (h : p.Completes q ds) (h' : q.Completes r []) : p.Completes r ds := by
  have htrans := h.trans h'
  rwa [List.append_nil] at htrans

end Completes

/-- How many commands the player is done with. -/
def told (p : Player) : Nat :=
  if p.phase = .playing ∨ p.phase = .typing then p.store.cursor else p.store.cursor + 1

/-- The texts that the player is done with. -/
def shown (p : Player) : List Display :=
  (p.store.commands.take p.told).filterMap Command.full?

/-- Since `p₀` the player has told the story up to where it is. -/
structure Recites (p₀ p : Player) : Prop extends p₀.Tells p where
  current : p.current = p.store.current?
  completes : p₀.Completes p p.shown
  typing : p.phase = .typing →
    p.display.showContinue = false ∧ ∀ c, p.current = some c → p.display.speaker = c.label
  display : p.phase ≠ .typing → ∀ d, p.shown.getLast? = some d → p.display = d
  ended : p.phase = .ended → p.streaming = false ∧ p.store.advance? = none

/-! ## What a turn keeps -/

section

variable {p₀ p q : Player}

theorem told_of_playing (h : p.phase = .playing) : p.told = p.store.cursor :=
  if_pos (.inl h)

theorem told_of_typing (h : p.phase = .typing) : p.told = p.store.cursor :=
  if_pos (.inr h)

theorem told_of_ne (h : p.phase ≠ .playing) (h' : p.phase ≠ .typing) :
    p.told = p.store.cursor + 1 :=
  if_neg (not_or.mpr ⟨h, h'⟩)

/-- The text of the current command comes behind those of the commands before. -/
theorem full_take_cursor (s : Store) :
    (s.commands.take (s.cursor + 1)).filterMap Command.full? =
      (s.commands.take s.cursor).filterMap Command.full? ++
        (s.current?.bind Command.full?).toList := by
  unfold Store.current?
  rw [List.take_add_one, List.filterMap_append]
  cases s.commands[s.cursor]? with
  | none => rfl
  | some c => cases hc : c.full? <;> simp [hc]

/-- Nothing is to be shown of the current command, or all of it was. -/
theorem Recites.shown_eq (h : p₀.Recites p) (htyping : p.phase ≠ .typing)
    (hsilent : p.phase = .playing → ∀ c, p.current = some c → c.spoken? = none) :
    p.shown = (p.store.commands.take (p.store.cursor + 1)).filterMap Command.full? := by
  by_cases hplaying : p.phase = .playing
  · have hnone : p.store.current?.bind Command.full? = none := by
      rw [← h.current]
      cases hc : p.current with
      | none => rfl
      | some c => simp [Command.full?, hsilent hplaying c hc]
    rw [shown, told_of_playing hplaying, full_take_cursor, hnone, Option.toList_none,
      List.append_nil]
  · rw [shown, told_of_ne hplaying htyping]

/-- The player is done with the current command and shows nothing new. -/
theorem Recites.settle (h : p₀.Recites p) (htyping : p.phase ≠ .typing)
    (hsilent : p.phase = .playing → ∀ c, p.current = some c → c.spoken? = none)
    (hstore : q.store = p.store) (hcurrent : q.current = p.current) (hcues : q.cues = p.cues)
    (hdisplay : q.display = p.display) (hplaying' : q.phase ≠ .playing)
    (htyping' : q.phase ≠ .typing) (hidle : q.phase ≠ .idle)
    (hover : q.phase = .ended → q.streaming = false ∧ q.store.advance? = none) :
    p₀.Recites q := by
  have hshown : q.shown = p.shown := by
    rw [shown, told_of_ne hplaying' htyping', hstore, h.shown_eq htyping hsilent]
  have hstays : p.Stays q := .of_eq hstore (fun _ => hidle) (.of_eq hcues)
  refine ⟨h.toTells.stays hstays, ?_, ?_, ?_, ?_, hover⟩
  · rw [hcurrent, hstore]
    exact h.current
  · rw [hshown]
    exact h.completes.quiet (.of_eq hcues)
  · exact fun heq => absurd heq htyping'
  · intro _ d hd
    rw [hdisplay]
    exact h.display htyping d (hshown ▸ hd)

/-- The player goes on to the next command. -/
theorem Recites.process (h : p₀.Recites p) (htyping : p.phase ≠ .typing)
    (hsilent : p.phase = .playing → ∀ c, p.current = some c → c.spoken? = none) {s : Store}
    (hnext : p.store.advance? = some s) : p₀.Recites (process { p with store := s }).1 := by
  obtain ⟨hlt, rfl⟩ := Store.advance?_eq_some hnext
  let s : Store := { p.store with cursor := p.store.cursor + 1 }
  obtain ⟨c, hc⟩ := Store.exists_current? (s := s) hlt
  have htells := process_tells (p := p₀) (q := p) (s := s) hlt h.renders
  rw [process_of_some (p := { p with store := s }) hc] at htells ⊢
  refine ⟨htells, hc.symm, ?_, by rintro ⟨⟩, ?_, by rintro ⟨⟩⟩
  · have hpush : p.Completes (p.cue (.render c)) [] := .of_push rfl rfl
    have hcompletes := h.completes.quiet hpush
    rw [h.shown_eq htyping hsilent] at hcompletes
    exact hcompletes
  · intro _ d hd
    apply h.display htyping d
    rw [h.shown_eq htyping hsilent]
    exact hd

theorem Recites.arm (h : p₀.Recites p) (session : Nat) (job : Job) :
    p₀.Recites (p.arm session job) :=
  ⟨⟨h.lt, h.started, h.renders⟩, h.current, h.completes, h.typing, h.display, h.ended⟩

/-- The text of the current command is there in full. -/
theorem Recites.finishReveal {text : Text} {c : Command} (h : p₀.Recites p)
    (hphase : p.phase = .typing) (hcurrent : p.current = some c) (htext : c.spoken? = some text)
    (hstore : q.store = p.store) (hcurrent' : q.current = p.current)
    (hcompletes : p.Completes q []) (hrenders : p.Renders q [])
    (hspeaker : q.display.speaker = p.display.speaker) (hshown : q.display.text = text)
    (session : Nat) : p₀.Recites (q.finishReveal session) := by
  obtain ⟨-, hlabel⟩ := h.typing hphase
  have hdisplay : q.revealed.display = ⟨c.label, text, true⟩ := by
    change (⟨q.display.speaker, q.display.text, true⟩ : Display) = _
    rw [hspeaker, hlabel c hcurrent, hshown]
  have hfull : c.full? = some ⟨c.label, text, true⟩ := by
    simp [Command.full?, htext]
  have hlines : q.revealed.shown = p.shown ++ [⟨c.label, text, true⟩] := by
    change (q.store.commands.take (q.store.cursor + 1)).filterMap Command.full? = _
    rw [full_take_cursor, hstore, ← h.current, hcurrent, Option.bind_some, hfull, shown,
      told_of_typing hphase]
    rfl
  have hpush : q.Completes q.revealed [q.revealed.display] := .of_push rfl rfl
  have hquiet : q.Renders { q with
    phase := .awaitingInput, display := { q.display with showContinue := true } } [] := .of_eq rfl
  have hrevealed : p₀.Recites q.revealed := by
    refine ⟨h.toTells.stays (.of_eq hstore nofun (hrenders.trans hquiet.notify)), ?_, ?_, nofun,
      ?_, nofun⟩
    · change q.current = q.store.current?
      rw [hcurrent', hstore]
      exact h.current
    · have htold := (h.completes.quiet hcompletes).trans hpush
      rwa [hdisplay, ← hlines] at htold
    · intro _ d hd
      rw [hlines, List.getLast?_concat] at hd
      cases hd
      exact hdisplay
  rw [finishReveal_eq]
  split
  · exact hrevealed.arm _ _
  split
  · exact hrevealed.arm _ _
  · exact hrevealed

/-- Out of commands the player is done. -/
theorem Recites.exhaust (h : p₀.Recites p) (htyping : p.phase ≠ .typing)
    (hsilent : p.phase = .playing → ∀ c, p.current = some c → c.spoken? = none)
    (hlast : p.store.advance? = none) (hstore : q.store = p.store)
    (hcurrent : q.current = p.current) (hcues : q.cues = p.cues)
    (hdisplay : q.display = p.display) : p₀.Recites q.exhaust := by
  have hphase : q.exhaust.phase ≠ .playing ∧ q.exhaust.phase ≠ .typing ∧
      q.exhaust.phase ≠ .idle := by
    rw [Player.exhaust]
    split <;> simp
  refine h.settle htyping hsilent hstore hcurrent hcues hdisplay hphase.1 hphase.2.1 hphase.2.2 ?_
  rw [Player.exhaust]
  intro hended
  refine ⟨?_, hstore ▸ hlast⟩
  by_contra hstream
  simp [hstream] at hended

/-- The text of the current command begins to be revealed. -/
theorem Recites.startReveal {c : Command} (h : p₀.Recites p) (hphase : p.phase = .playing)
    (hcurrent : p.current = some c) (text : Text) : p₀.Recites (p.startReveal c.label text) := by
  have hshown : p.shown = (p.store.commands.take p.store.cursor).filterMap Command.full? := by
    rw [shown, told_of_playing hphase]
  have hquiet : p.Renders { p with phase := .typing, display := ⟨c.label, [], false⟩ } [] :=
    .of_eq rfl
  refine ⟨h.toTells.stays (.of_eq rfl (by rintro _ ⟨⟩) hquiet.notify), h.current, ?_,
    fun _ => ⟨rfl, ?_⟩, fun hne => absurd rfl hne, by rintro ⟨⟩⟩
  · have hpush : p.Completes (p.startReveal c.label text) [] := .of_push rfl rfl
    have hcompletes := h.completes.quiet hpush
    rwa [hshown] at hcompletes
  · intro d hd
    cases hcurrent.symm.trans hd
    rfl

/-- A command without a text leaves the player waiting. -/
theorem Recites.stayOn (h : p₀.Recites p) (hphase : p.phase = .playing)
    (hsilent : ∀ c, p.current = some c → c.spoken? = none) : p₀.Recites p.stayOn := by
  have hstayed : p₀.Recites { p with phase := .awaitingInput } := by
    refine h.settle (by simp [hphase]) (fun _ => hsilent) rfl rfl rfl rfl ?_ ?_ ?_ ?_
    all_goals rintro ⟨⟩
  rw [stayOn_eq]
  split
  · exact hstayed.arm _ _
  · exact hstayed

/-- One character more is not the whole text. -/
theorem Recites.showNext_completes (h : p₀.Recites p) (hphase : p.phase = .typing) (char : Char) :
    p.Completes (p.showNext char) [] ∧ p.Renders (p.showNext char) [] := by
  have hnot := (h.typing hphase).1
  have hquiet : p.Renders { p with
    display := { p.display with text := p.display.text ++ [char] } } [] := .of_eq rfl
  exact ⟨.of_push rfl (by simp [fullDisplays, displays, hnot]), hquiet.notify⟩

/-- While a story is told, the renders that are done and the timers that fire tell it further. A
render that is done late has no effect. -/
theorem Turn.recites {c : Trigger} {w : Waiting} {ts : List Ticket} (hturn : p.Turn c w)
    (hc : c.isOwn = true) (hp : p.Settled (c.ticket?.toList ++ ts)) (h : p₀.Recites p)
    (hplaying : c.ticket? ≠ none → p.phase = .playing) : p₀.Recites w.1 := by
  have hfits := hp.fits
  have hrender {t : Ticket} (ht : c = .render t) (hsession : t.session = p.session) :
      p.phase = .playing ∧ p.current = some t.command := by
    subst ht
    exact ⟨hplaying (Option.some_ne_none t), (hp.awaited t List.mem_cons_self hsession).1⟩
  have hreveals {t : Timer} {rest : Text} (ht : p.timer = some t) (hjob : t.job = .reveal rest) :
      p.phase = .typing ∧ ∃ c, p.current = some c ∧ c.spoken? = some (p.display.text ++ rest) :=
    ⟨hfits.phase_of_reveal ht hjob, (hfits.reveals_of_timer ht hjob).2⟩
  -- The player moves on from a cast command or from a timer, with nothing left to show.
  have hmoves (hon : p.MovesOn c) : p.phase ≠ .typing ∧
      (p.phase = .playing → ∀ c, p.current = some c → c.spoken? = none) := by
    cases c with
    | request r => cases hc
    | render t =>
      obtain ⟨hphase, hcurrent⟩ := hrender rfl hon.1
      refine ⟨by simp [hphase], fun _ d hd => ?_⟩
      cases hcurrent.symm.trans hd
      have hcast := hon.2
      cases ht : t.command <;> simp_all [Command.isCast, Command.spoken?]
    | timer => simp [hon.1]
    | failure => cases hc
  cases hturn with
  | stay | load | append | stream | seek | textSpeed | autoSpeed | toggle | finish | skip | runOut
  | restart | back | fail => cases hc
  | onward hon hnext =>
    obtain ⟨htyping, hsilent⟩ := hmoves hon
    exact h.process htyping hsilent hnext
  | exhaust hon hlast =>
    obtain ⟨htyping, hsilent⟩ := hmoves hon
    exact h.exhaust (q := p.disarm) htyping hsilent hlast rfl rfl rfl rfl
  | spent hon hlast =>
    obtain ⟨htyping, hsilent⟩ := hmoves hon
    exact h.exhaust htyping hsilent hlast rfl rfl rfl rfl
  | late hlate => exact h
  | reveal hsession htext =>
    obtain ⟨hphase, hcurrent⟩ := hrender rfl hsession
    exact h.startReveal hphase hcurrent _
  | stayOn hsession htext hcast =>
    obtain ⟨hphase, hcurrent⟩ := hrender rfl hsession
    refine h.stayOn hphase fun d hd => ?_
    cases hcurrent.symm.trans hd
    exact htext
  | disarmed hnone => exact h
  | @showNext t char rest ht hjob hrest =>
    obtain ⟨hphase, -⟩ := hreveals ht hjob
    obtain ⟨hcompletes, hrenders⟩ := h.showNext_completes hphase char
    refine ⟨h.toTells.stays (.of_eq rfl id hrenders), h.current, h.completes.quiet hcompletes,
      fun _ => h.typing hphase, fun hne => absurd hphase hne, fun hended => ?_⟩
    cases hphase.symm.trans hended
  | @showLast t char ht hjob =>
    obtain ⟨hphase, c, hcurrent, htext⟩ := hreveals ht hjob
    obtain ⟨hcompletes, hrenders⟩ := h.showNext_completes hphase char
    exact h.finishReveal (q := (p.showNext char).disarm) hphase hcurrent htext rfl rfl hcompletes
      hrenders rfl rfl _
  | showNone ht hjob =>
    obtain ⟨hphase, c, hcurrent, htext⟩ := hreveals ht hjob
    rw [List.append_nil] at htext
    exact h.finishReveal (q := p.disarm) hphase hcurrent htext rfl rfl (.of_eq rfl) (.of_eq rfl)
      rfl rfl _
  | lapse ht hjob hlate => exact absurd (hfits.guard_of_goOn ht hjob) hlate

/-! ## What an ingestor asks for -/

/-- A player that waits for more takes up what has come, or ends when nothing will. -/
theorem Recites.resume (h : p₀.Recites p) : p₀.Recites p.resume.1 := by
  unfold Player.resume
  split
  · exact h
  next hphase =>
    replace hphase := Decidable.not_not.mp hphase
    have htyping : p.phase ≠ .typing := by simp [hphase]
    have hsilent : p.phase = .playing → ∀ c, p.current = some c → c.spoken? = none := by
      simp [hphase]
    split
    next s hnext => exact h.process htyping hsilent hnext
    next hlast =>
      split
      · exact h
      next hstream =>
        refine h.settle htyping hsilent rfl rfl rfl rfl nofun nofun nofun fun _ => ⟨?_, hlast⟩
        exact eq_false_of_ne_true hstream

theorem Recites.setStreaming (h : p₀.Recites p) : p₀.Recites (p.setStreaming false) :=
  ⟨⟨h.lt, h.started, h.renders⟩, h.current, h.completes, h.typing, h.display,
    fun hended => ⟨rfl, (h.ended hended).2⟩⟩

/-- Lines that are added come behind what the player has told. -/
theorem Recites.append (h : p₀.Recites p) (hended : p.phase ≠ .ended) (t : Text) :
    p₀.Recites (p.append t) := by
  have htold : p.told ≤ p.store.commands.length := by
    have hlt : p.store.cursor < p.store.commands.length := h.lt
    unfold told
    split <;> omega
  have hshown : (p.append t).shown = p.shown := by
    change ((p.store.commands ++ _).take p.told).filterMap Command.full? = _
    rw [List.take_append_of_le_length htold]
    rfl
  refine ⟨h.toTells.stays ⟨⟨_, rfl⟩, id, .of_eq rfl⟩, ?_, ?_, h.typing, ?_,
    fun heq => absurd heq hended⟩
  · refine h.current.trans (Eq.symm ?_)
    exact List.getElem?_append_left h.lt
  · rw [hshown]
    exact h.completes.quiet (.of_eq rfl)
  · rw [hshown]
    exact h.display

/-- The story is told from its start. -/
theorem recites_start (t : Text) (hrenders : p₀.Renders p []) (hcompletes : p₀.Completes p [])
    (hcommands : (readScript t Scene.empty).commands ≠ []) :
    p₀.Recites (p.load t).start.1 := by
  have hpos : 0 < (p.load t).store.rewind.size := List.length_pos_iff.mpr hcommands
  have hsize : (p.load t).start.1.store.size ≠ 0 := by
    have hsame := (p.load t).start_sameStory.commands
    rw [Store.size, hsame]
    exact Nat.ne_of_gt hpos
  have htells := start_tells (hrenders.trans (p.load_renders t)) hsize
  obtain ⟨c, hc⟩ := Store.exists_current? (s := (p.load t).store.rewind) hpos
  have hstart : (p.load t).start = Player.process { p.load t with
      store := (p.load t).store.rewind } := if_neg (Nat.ne_of_gt hpos)
  rw [hstart, process_of_some (p := { p.load t with store := (p.load t).store.rewind }) hc]
    at htells ⊢
  refine ⟨htells, hc.symm, ?_, by rintro ⟨⟩, ?_, by rintro ⟨⟩⟩
  · have hload : p.Completes (p.load t) [] :=
      ⟨[.reset, .display ⟨[], readyText, false⟩], by simp [load, say, notify, cue, disarm], rfl⟩
    have hpush : (p.load t).Completes ((p.load t).cue (.render c)) [] := .of_push rfl rfl
    exact (hcompletes.quiet hload).quiet hpush
  · intro _ d hd
    cases hd

end

end Player

end StoryPlayer
