import StoryPlayer.Proofs.Session.Consumed

/-!
# A story that is there from the first

A script that is loaded and started in one go is told like one that comes from a source.
-/

namespace StoryPlayer

open Player

namespace Session

variable {settings : Settings} {s : Session} {t : Text}

/-- The session with another player, whose timer is noticed. -/
def withPlayer (s : Session) (p : Player) : Session :=
  { s with player := p }.notice

theorem withPlayer_control (s : Session) (p : Player) (c : Control) :
    { s with control := c, player := p }.notice = { s.withPlayer p with control := c } :=
  notice_control { s with player := p } c

theorem settle_load (s : Session) (t : Text) (c : Call) :
    { s with control := .perform (.load t false) c }.settle =
      { s.withPlayer (s.player.load t) with
        control := .answer (.commands (s.player.load t).store.commands) c }.settle := by
  rw [← withPlayer_control]
  exact settle_of_turn rfl

theorem settle_start (h : s.gated = false) (c : Call) :
    { s with control := .perform .start c }.settle =
      { s.withPlayer (Player.settle s.player.start) with control := .answer .nothing c }.settle := by
  apply settle_of_turn
  change some ({ s with control := .perform .start c }.await s.player.start c) = _
  rw [await_eq (s := { s with control := .perform .start c }) h]
  exact congrArg (fun u : Session => some { u with control := .answer .nothing c })
    (withPlayer_control s (Player.settle s.player.start) (.perform .start c))

/-- A script that is loaded and started in one go plays at once. -/
theorem call_load_start (hgated : s.gated = false) (step : Nat) (t : Text) :
    s.call step (.batch [.load t false, .start]) =
      { (s.withPlayer (s.player.load t)).withPlayer (Player.settle (s.player.load t).start) with
        finished := s.finished.push (step,
          .all [.commands (s.player.load t).store.commands, .nothing]) }.resting.settle := by
  have hplayer : (s.withPlayer (s.player.load t)).player = s.player.load t := notice_player _
  have hfinished : ((s.withPlayer (s.player.load t)).withPlayer
      (Player.settle (s.player.load t).start)).finished = s.finished :=
    (notice_finished _).trans (notice_finished _)
  have hgated' : (s.withPlayer (s.player.load t)).gated = false := (notice_gated _).trans hgated
  unfold call
  rw [settle_batch, settle_load, settle_answer_batch_cons _ (fun _ => Result.noConfusion),
    settle_start hgated', settle_answer_batch_nil _ (fun _ => Result.noConfusion),
    settle_answer_some, hplayer, hfinished]
  rfl

end Session

namespace Player

/-- A script is told from its start, or there is nothing to tell. -/
theorem new_loadAndStart (settings : Settings) (t : Text) :
    let w := ((Player.new settings).load t).start
    let q := Player.settle w
    ((Player.new settings).Performs (q, none) ∨
      (readScript t Scene.empty).commands = [] ∧ (Player.new settings).Waits q) ∧
      w.1.Rearms q ∧ w.1.SameStory q := by
  intro w q
  have hstart := (new_waits settings).loadAndStart false t nofun
  change (Player.new settings).Performs w ∨ _ ∧ w.1.store.commands = [] ∧ w.2 = none ∧
    (Player.new settings).Waits w.1 at hstart
  rcases hstart with hperforms | ⟨-, hcommands, hnone, hwaits⟩
  · obtain ⟨hsettled, -, hrearms, hsame⟩ := hperforms.settle
    exact ⟨.inl hsettled, hrearms, hsame⟩
  · have hstill : q = w.1 := settle_of_none hnone
    rw [hstill]
    refine ⟨.inr ⟨?_, hwaits⟩, .of_eq rfl rfl, .refl _⟩
    exact ((Player.new settings).load_start_holds t).commands.symm.trans hcommands

end Player

namespace Session

theorem plays_load_start (settings : Settings) (timeout : Seconds) (offers : Bool) (t : Text) :
    let r := readScript t Scene.empty
    let s := ((Session.new (.new settings) false).addIntake timeout offers).call 0
      (.batch [.load t false, .start])
    s.Quiet ∧ ∃ rank, Plays (.new settings) r
      #[(0, .all [.commands r.commands, .nothing])] 0 s.pending s rank := by
  intro r s
  let p := (Player.new settings).load t
  let q := Player.settle p.start
  let u : Session :=
    { (Session.new (.new settings) false).addIntake timeout offers with player := p }
  have hstory : p.Holds r := (Player.new settings).load_holds t
  obtain ⟨htells, hrearms, hsame⟩ := new_loadAndStart settings t
  have hstarts := p.start_sameStory
  have hsettled : q.Settled [] ∧ (Player.new settings).Paces q := by
    rcases htells with hperforms | ⟨-, hwaits⟩
    · exact ⟨hperforms.settled, hperforms.paces⟩
    · exact ⟨hwaits.settled, hwaits.paces⟩
  have htimed : Timed (u.withPlayer q).pending (u.withPlayer q) := by
    have hu : Timed u.pending u := ⟨.inl (.refl _), nofun, Nat.le_refl _⟩
    have hstart : p.Rearms p.start.1 := (p.start_turn .start (.inl rfl)).rearms rfl
    exact hu.rearmed hsettled.1.serial (hstart.trans hrearms) (fun htimer => absurd rfl htimer)
      hsettled.2.textSpeed
  have horderly : Orderly (u.withPlayer q).pending (u.withPlayer q) :=
    Orderly.notice ⟨rfl, Int.le_refl _, nofun, nofun, nofun, nofun⟩
  let v : Session := { u.withPlayer q with
    finished := #[(0, .all [.commands p.store.commands, .nothing])] }
  have hplayer : v.player = q := notice_player _
  have hplays : Plays (.new settings) r #[(0, .all [.commands r.commands, .nothing])] 0
      v.pending v 0 := by
    refine ⟨htimed.congr rfl rfl, horderly.congr rfl rfl rfl rfl rfl, ?_⟩
    refine .all (notice_waiters _) (notice_errands _) (by rw [← hstory.commands]) ?_ ?_ ?_
    · rw [hplayer, hsame.streaming, hstarts.streaming]
      rfl
    · rw [hplayer]
      exact (hstory.sameStory hstarts).sameStory hsame
    · rw [hplayer]
      exact htells
  obtain ⟨e, rank, he, hquiet, hplays', -⟩ := hplays.settle
  have hcall : s = v.resting.settle := by
    have hload : ((Session.new (.new settings) false).addIntake timeout offers).withPlayer p = u :=
      notice_of_lt nofun
    change Session.call _ 0 _ = _
    rw [call_load_start rfl]
    change { Session.withPlayer (Session.withPlayer _ p) q with finished := _ }.resting.settle = _
    rw [hload]
    rfl
  rw [hcall, he]
  exact ⟨hquiet, rank, hplays'⟩

end Session

end StoryPlayer
