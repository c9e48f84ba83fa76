import StoryPlayer.Session.Basic

/-!
# The turns of a session

A session advances by turns. A turn performs an action, hands a result to what waits for it, or
starts the next ready task. `settle` takes turns until everything under way waits for an alarm, for
a release or for nothing that will come.

A reader fetches every record by a task of its own, behind the tasks that are ready already, and the
record reaches it two turns of the queue after it is there.
-/

namespace StoryPlayer.Session

/-- Goes on with a call: it is held when it waits for a render and renders are gated; otherwise its
renders complete at once. -/
def await (s : Session) (w : Waiting) (c : Call) : Session :=
  match s.gated, w.2 with
  | true, some t => notice { s with player := w.1, held := s.held ++ [⟨t, c⟩], control := .idle }
  | _, _ => notice { s with player := Player.settle w, control := .answer .nothing c }

/-- Goes on with a call that does not wait. -/
def give (s : Session) (p : Player) (r : Result) (c : Call) : Session :=
  notice { s with player := p, control := .answer r c }

/-- Lets an ingestor handle a record. -/
def handle (s : Session) (i : Nat) (r : StreamRecord) (c : Call) : Session :=
  match s.intakes[i]? with
  | none => s.give s.player .nothing c
  | some k =>
    let h := k.ingestor.handle s.player r
    let remainder :=
      match h.afterwards with
      | .nothing => c.remainder
      | .offer final => .offer i final :: c.remainder
      | .fail f => .fail f :: c.remainder
    (s.setIngestor i h.ingestor).await (h.player, h.ticket) { c with remainder := remainder }

/-- Aborts a stream that is being read, and fails. -/
def abandon (s : Session) (r : Reader) (f : Failure) (c : Call) : Session :=
  match s.intakes[r.intake]? with
  | none => s.give s.player (.failed f) c
  | some k =>
    let (g, w) := k.ingestor.abort s.player
    (s.setIngestor r.intake g).await w { c with remainder := .fail f :: c.remainder }

def perform (s : Session) (a : Action) (c : Call) : Session :=
  let p := s.player
  match a with
  | .load t false =>
    let p := p.load t
    s.give p (.commands p.store.commands) c
  | .load t true => s.give (p.append t) (.commands (readScript t p.scene).commands) c
  | .start => s.await p.start c
  | .advance => s.await p.advance c
  | .retreat => s.await p.retreat c
  | .skip => s.give p.skip .nothing c
  | .resume => s.await p.resume c
  | .input none => s.give p .nothing c
  | .input (some i) => s.await (p.input i) c
  | .finish => s.give p.finish .nothing c
  | .streaming on => s.give (p.setStreaming on) .nothing c
  | .toggleAuto => s.give p.toggleAuto .nothing c
  | .textSpeed n => s.give (p.setTextSpeed n) .nothing c
  | .autoSpeed n => s.give (p.setAutoSpeed n) .nothing c
  | .moveTo i =>
    match p.store.moveTo? i with
    | some store => s.give { p with store := store } (.truth true) c
    | none => s.give p (.truth false) c
  | .gate on => { s with gated := on }.give p .nothing c
  | .release i =>
    match s.held[i]? with
    | some h =>
      ({ s with held := s.held.eraseIdx i }.enqueue (.resume h)).give p (.truth true) c
    | none => s.give p (.truth false) c
  | .ingest timeout offers => (s.addIntake timeout offers).give p .nothing c
  | .handle r => s.handle (s.intakes.size - 1) r c
  | .consume source =>
    match s.intake? with
    | none => s.give p .nothing c
    | some k =>
      if k.timeout.isCountable then
        { s with control := .read ⟨s.intakes.size - 1, s.clock, k.timeout, source⟩ c }
      else s.give p (.failed .uncountable) c
  | .refuse f => s.give p (.failed f) c
  | .batch [] => s.give p (.all []) c
  | .batch (a :: rest) =>
    { s with control := .perform a ⟨c.step, .batch rest [] :: c.remainder⟩ }

/-- Hands a result to what remains of a call. A failure passes by whatever remains. -/
def answer (s : Session) (r : Result) (c : Call) : Session :=
  match c.remainder with
  | [] =>
    let finished :=
      match c.step with
      | some k => s.finished.push (k, r)
      | none => s.finished
    { s with control := .idle, finished := finished }
  | x :: rest =>
    let c := { c with remainder := rest }
    match r, x with
    | .failed f, _ => { s with control := .answer (.failed f) c }
    | _, .offer i final =>
      match s.intakes[i]? with
      | none => { s with control := .answer .nothing c }
      | some k =>
        let g := k.ingestor.offer final
        let offered := if k.offers then s.offered.push g.choices else s.offered
        { s.setIngestor i g with control := .answer .nothing c, offered := offered }
    | _, .fail f => { s with control := .answer (.failed f) c }
    | r, .batch [] results => { s with control := .answer (.all (results ++ [r])) c }
    | r, .batch (a :: more) results =>
      { s with control := .perform a ⟨c.step, .batch more (results ++ [r]) :: rest⟩ }
    | _, .consume reader => { s with control := .read reader c }

/-- A reader asks for the next record and waits for it. -/
def park (s : Session) (r : Reader) (c : Call) : Session :=
  let waiting : Session := { s with
    control := .idle
    waiters := s.waiters ++ [⟨s.nextId, r, c⟩]
    nextId := s.nextId + 1 }
  waiting.enqueue (.fetch s.nextId)

/-- Reads on: gives the choices when the stream has finished, fails when the deadline has passed,
and otherwise waits for the next record. -/
def read (s : Session) (r : Reader) (c : Call) : Session :=
  match s.intakes[r.intake]? with
  | none => s.give s.player .nothing c
  | some k =>
    if k.ingestor.finished then s.give s.player (.choices k.ingestor.choices) c
    else if r.timeout.isOver (s.clock - r.start).toNat then
      s.abandon r (.overdue r.timeout) c
    else
      match r.timeout.micros? with
      | none => s.park r c
      | some micros => (s.park r c).setAlarm (r.start + micros) (.deadline s.nextId)

/-- Fires the armed timer. One that stays armed begins to wait anew. -/
def fire (s : Session) (serial : Nat) : Session :=
  let s := s.await s.player.fire ⟨none, []⟩
  match s.player.timer with
  | some t => if t.serial = serial then s.enqueue (.pace serial) else s
  | none => s

/-- A record, or the end of a source, is so many pauses away. -/
def expect (s : Session) (id : Nat) : List Int → Session
  | [] => s.enqueue (.deliver id 1)
  | micros :: rest => s.pause micros (.arrival id rest)

/-- Takes the waiter of that name out. -/
def takeWaiter? (s : Session) (id : Nat) : Option (Waiter × Session) :=
  (s.waiters.find? fun w => w.id == id).map fun w =>
    (w, { s with waiters := s.waiters.filter fun w => w.id != id })

/-- Hands a reader what its source has for it. -/
def deliver (s : Session) (w : Waiter) : Session :=
  let r := w.reader
  match r.source.arrivals with
  | a :: rest =>
    let reader := { r with source := { r.source with arrivals := rest } }
    s.handle r.intake a.record
      { w.call with remainder := .consume reader :: w.call.remainder }
  | [] =>
    match r.source.ending with
    | .stop => s.abandon r .endedEarly w.call
    | .fail f => s.abandon r f w.call
    | .hang => s

/-- Lets a timer that is still armed wait for as long as it takes. For a delay that cannot be counted
in seconds nothing is set to happen, though the player goes on holding the timer. -/
def pace (s : Session) (serial : Nat) : Session :=
  match s.player.timer with
  | none => s
  | some t =>
    if t.serial ≠ serial then s
    else
      match s.player.delay? with
      | none => s.fire serial
      | some delay =>
        if millisCountable delay then s.pause (microsOfMillis delay) (.timer serial) else s

/-- Lets an event happen, unless nobody waits for it any more. -/
def happen (s : Session) (e : Event) : Session :=
  match e with
  | .timer serial =>
    match s.player.timer with
    | some t => if t.serial = serial then s.fire serial else s
    | none => s
  | .arrival id pauses => s.expect id pauses
  | .deadline id =>
    match s.takeWaiter? id with
    | none => s
    | some (w, s) => s.abandon w.reader (.overdue w.reader.timeout) w.call

/-- Starts a ready task. -/
def begin (s : Session) (t : Task) : Session :=
  match t with
  | .pace serial => s.pace serial
  | .happen e => s.happen e
  | .resume h => s.await (s.player.rendered h.ticket) h.call
  | .fetch id =>
    match s.waiters.find? fun w => w.id == id with
    | none => s
    | some w =>
      match w.reader.source.arrivals, w.reader.source.ending with
      | a :: _, _ => s.expect id a.pauses
      | [], .hang => s
      | [], _ => s.expect id w.reader.source.lastPauses
  | .deliver id (turns + 1) => s.enqueue (.deliver id turns)
  | .deliver id 0 =>
    match s.takeWaiter? id with
    | none => s
    | some (w, s) => s.deliver w

/-- Takes one turn, unless there is nothing to do. -/
def turn? (s : Session) : Option Session :=
  match s.control with
  | .perform a c => some (s.perform a c)
  | .answer r c => some (s.answer r c)
  | .read r c => some (s.read r c)
  | .idle =>
    match s.queue with
    | [] => none
    | t :: rest => some ({ s with queue := rest }.begin t)

/-- Goes on from session to session until there is no next one. -/
def exhaust (next? : Session → Option Session) (s : Session) : Session :=
  have : Nonempty Session := ⟨s⟩
  repeatM (m := Id) (fun s =>
    match next? s with
    | some t => .inl t
    | none => .inr s) s

/-- Takes turns until there is nothing to do. -/
def settle : Session → Session :=
  exhaust turn?

/-- An alarm goes off. -/
def ring (s : Session) (a : Alarm) : Session :=
  { s with clock := a.due }.happen a.event

end StoryPlayer.Session
