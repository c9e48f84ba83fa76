import Mathlib.Data.List.Perm.Basic
import StoryPlayer.Proofs.Player.Turn
import StoryPlayer.Stream.Ingestor

/-!
# Playback with everything under way around it

A playback is a player with the calls that wait for a render and the ingestor of a stream. It says
nothing about time: at any moment anything may be asked, any record may come, any waiting render may
be done and any task that is alive may be woken. What holds after every list of moves therefore
holds of every interleaving.

A task lives from when the player starts it until it has run, has failed or is cancelled. Nothing
here says that only the timer that the player holds is alive; that it is, is a theorem.
-/

namespace StoryPlayer

/-- A call that waits for a render, and what is left to do when the player has settled. -/
structure Suspended where
  ticket : Ticket
  afterwards : Afterwards

/-- A player and what is under way around it. -/
structure Playback where
  player : Player
  suspended : List Suspended
  ingestor : Ingestor
  /-- The choices that were offered, one list for each time. -/
  offered : List (List Text)

/-- What can happen to a playback. Renders and tasks are named by their position. -/
inductive Move
  | ask (r : Request)
  | handle (r : StreamRecord)
  /-- The source of the stream fails. -/
  | giveUp
  | complete (i : Nat)
  | fire (i : Nat)
deriving Repr, DecidableEq

namespace Move

/-- A move that only plays, whatever the stream does. -/
def isPlayback : Move → Bool
  | ask r => r.isPlayback
  | _ => true

/-- A move that asks for nothing that takes the cursor back. -/
def isForward : Move → Bool
  | ask r => r.isForward
  | _ => true

/-- The record that a move brings. -/
def record? : Move → Option StreamRecord
  | handle r => some r
  | _ => none

end Move

/-- The final text whose choices are still to be offered. -/
def Afterwards.offer? : Afterwards → Option Text
  | offer final => some final
  | _ => none

namespace Playback

/-- A playback in which nothing has happened. -/
def new (s : Settings) : Playback :=
  ⟨.new s, [], .new, []⟩

/-- The timer tasks that are alive. -/
def tasks (s : Playback) : List Timer :=
  s.player.tasks

/-- The renders that calls wait for. -/
def tickets (s : Playback) : List Ticket :=
  s.suspended.map (·.ticket)

/-- The final texts whose choices are still to be offered, one for each handling of a done record
that is under way. -/
def offers (s : Playback) : List Text :=
  s.suspended.filterMap (·.afterwards.offer?)

/-- Does what is left to do for a call. A failure goes to whoever called. -/
def conclude (s : Playback) : Afterwards → Playback
  | .offer final =>
    { s with
      ingestor := s.ingestor.offer final
      offered := s.offered ++ [(s.ingestor.offer final).choices] }
  | _ => s

/-- Leaves it at a player: the call waits for a render or is concluded. -/
def leave (s : Playback) (w : Waiting) (a : Afterwards) : Playback :=
  match w.2 with
  | some t => { s with player := w.1, suspended := s.suspended ++ [⟨t, a⟩] }
  | none => { s with player := w.1 }.conclude a

/-- Makes one move. -/
def step (s : Playback) : Move → Playback
  | .ask r => s.leave (s.player.ask r) .nothing
  | .handle r =>
    let h := s.ingestor.handle s.player r
    { s with ingestor := h.ingestor }.leave (h.player, h.ticket) h.afterwards
  | .giveUp =>
    let (g, w) := s.ingestor.abort s.player
    { s with ingestor := g }.leave w .nothing
  | .complete i =>
    match s.suspended[i]? with
    | none => s
    | some c =>
      { s with suspended := s.suspended.eraseIdx i }.leave (s.player.rendered c.ticket)
        c.afterwards
  | .fire i =>
    match s.tasks[i]? with
    | none => s
    | some t => s.leave (s.player.wake t) .nothing

/-- Makes moves one after another. -/
def run (s : Playback) : List Move → Playback
  | [] => s
  | m :: ms => (s.step m).run ms

theorem run_concat (s : Playback) (ms : List Move) (m : Move) :
    s.run (ms ++ [m]) = (s.run ms).step m := by
  induction ms generalizing s with
  | nil => rfl
  | cons n ms ih => exact ih (s.step n)

/-- What every move of a kind keeps is kept by every run of such moves. -/
theorem run_keeps (holds : Playback → Prop) (allowed : Move → Prop)
    (hstep : ∀ s m, allowed m → holds s → holds (s.step m)) (s : Playback) (hs : holds s)
    (ms : List Move) (hms : ∀ m ∈ ms, allowed m) : holds (s.run ms) := by
  induction ms generalizing s with
  | nil => exact hs
  | cons m ms ih =>
      have hm := hstep s m (hms m List.mem_cons_self) hs
      exact ih (s.step m) hm fun n hn => hms n (List.mem_cons_of_mem m hn)

theorem step_complete_of_none {s : Playback} {i : Nat} (h : s.suspended[i]? = none) :
    s.step (.complete i) = s := by
  simp only [step, h]

theorem step_complete {s : Playback} {i : Nat} {c : Suspended} (h : s.suspended[i]? = some c) :
    s.step (.complete i) =
      { s with suspended := s.suspended.eraseIdx i }.leave (s.player.rendered c.ticket)
        c.afterwards := by
  simp only [step, h]

theorem step_fire_of_none {s : Playback} {i : Nat} (h : s.tasks[i]? = none) :
    s.step (.fire i) = s := by
  simp only [step, h]

theorem step_fire {s : Playback} {i : Nat} {t : Timer} (h : s.tasks[i]? = some t) :
    s.step (.fire i) = s.leave (s.player.wake t) .nothing := by
  simp only [step, h]

theorem suspended_perm {s : Playback} {i : Nat} {c : Suspended} (h : s.suspended[i]? = some c) :
    s.suspended.Perm (c :: s.suspended.eraseIdx i) := by
  obtain ⟨hi, hc⟩ := List.getElem?_eq_some_iff.mp h
  have hperm := (List.getElem_cons_eraseIdx_perm hi).symm
  rwa [hc] at hperm

theorem tickets_perm {s : Playback} {i : Nat} {c : Suspended} (h : s.suspended[i]? = some c) :
    s.tickets.Perm (c.ticket :: { s with suspended := s.suspended.eraseIdx i }.tickets) := by
  simpa [tickets] using (suspended_perm h).map (·.ticket)

theorem offers_perm {s : Playback} {i : Nat} {c : Suspended} (h : s.suspended[i]? = some c) :
    s.offers.Perm
      (c.afterwards.offer?.toList ++ { s with suspended := s.suspended.eraseIdx i }.offers) := by
  have hperm := (suspended_perm h).filterMap (·.afterwards.offer?)
  rw [List.filterMap_cons] at hperm
  cases hoffer : c.afterwards.offer? <;> simpa [offers, hoffer] using hperm

@[simp]
theorem leave_player (s : Playback) (w : Waiting) (a : Afterwards) :
    (s.leave w a).player = w.1 := by
  unfold leave
  split
  · rfl
  · cases a <;> rfl

@[simp]
theorem leave_tickets (s : Playback) (w : Waiting) (a : Afterwards) :
    (s.leave w a).tickets = s.tickets ++ w.2.toList := by
  unfold leave
  split
  next t h => simp [tickets, h]
  next h => cases a <;> simp [tickets, conclude, h]

@[simp]
theorem leave_finished (s : Playback) (w : Waiting) (a : Afterwards) :
    (s.leave w a).ingestor.finished = s.ingestor.finished := by
  unfold leave
  split
  · rfl
  · cases a <;> rfl

@[simp]
theorem leave_setupReady (s : Playback) (w : Waiting) (a : Afterwards) :
    (s.leave w a).ingestor.setupReady = s.ingestor.setupReady := by
  unfold leave
  split
  · rfl
  · cases a <;> rfl

theorem step_ask_player (s : Playback) (r : Request) :
    (s.step (.ask r)).player = (s.player.ask r).1 :=
  leave_player _ _ _

theorem step_handle_player (s : Playback) (r : StreamRecord) :
    (s.step (.handle r)).player = (s.ingestor.handle s.player r).player :=
  leave_player _ _ _

theorem step_giveUp_player (s : Playback) :
    (s.step .giveUp).player = (s.player.setStreaming false).resume.1 :=
  leave_player _ _ _

end Playback

end StoryPlayer
