import StoryPlayer.Proofs.Session.Firing

/-!
# The records of a session that plays by itself

A reader that waits gets the records of its source one by one, each after its pauses. A record adds
to the story, or it is the last one and the call returns with the choices. While all come in time no
deadline passes.
-/

namespace StoryPlayer

namespace Seconds

/-- A time that is not over now was not over before. -/
theorem isOver_of_le {t : Seconds} {m n : Nat} (hle : m ≤ n) (h : t.isOver n = false) :
    t.isOver m = false := by
  cases t with
  | whole k =>
    simp only [isOver, decide_eq_false_iff_not] at h ⊢
    omega
  | float x =>
    unfold isOver at h ⊢
    dsimp only at h ⊢
    split
    next hfinite =>
      simp only [hfinite, if_true, Bool.or_eq_false_iff, decide_eq_false_iff_not] at h ⊢
      refine ⟨h.1, fun hover => h.2 (Nat.le_trans hover (Nat.mul_le_mul_right _ hle))⟩
    next hfinite => simpa [hfinite] using h

end Seconds

theorem Delivers.ne_nil {t sent : Text} {rs : List StreamRecord} (h : Delivers t sent rs) :
    rs ≠ [] := by
  cases h <;> exact List.cons_ne_nil _ _

namespace Ingestor

variable {g : Ingestor} {p : Player}

/-- A done record ends the stream, and the story has started by then. -/
theorem onDone_closed (g : Ingestor) (p : Player) (final : Text) :
    (g.onDone p final).ingestor.setupReady = true ∧
      (g.onDone p final).ingestor.finished = true := by
  have hdone := lastPart_finished { g with finished := true } final
  rw [onDone_eq]
  dsimp only
  split
  · exact ⟨rfl, hdone⟩
  next hready => exact ⟨eq_true_of_ne_false hready, hdone⟩

theorem handle_closed {t sent : Text} {r : StreamRecord} (h : g.Receiving p sent)
    (hdelivers : Delivers t sent [r]) :
    (g.handle p r).ingestor.setupReady = true ∧ (g.handle p r).ingestor.finished = true := by
  have hopen : ¬g.finished = true := by simp [h.unfinished]
  unfold Ingestor.handle
  rw [if_neg hopen]
  cases hdelivers with
  | chunk piece hrest => exact absurd rfl hrest.ne_nil
  | setup htext hrest => exact absurd rfl hrest.ne_nil
  | first piece hrest => exact absurd rfl hrest.ne_nil
  | done hsent => exact g.onDone_closed p t
  | doneEmpty => exact g.onDone_closed p []

end Ingestor

namespace Session

/-- The session settles to one that plays and is nearer to its end. -/
def LeadsOn (p₀ : Player) (r : Reading) (answers : Array (Nat × Result)) (limit : Nat)
    (s : Session) (rank load : Nat) : Prop :=
  ∃ s' rank', s.settle = s'.resting.settle ∧ Plays p₀ r answers limit s'.pending s' rank' ∧
    Nearer rank' s'.load rank load

/-- No reader waits, and none has returned. -/
structure Between (p₀ : Player) (k : Intake) (s : Session) : Prop where
  timed : Timed s.pending s
  orderly : Orderly s.pending s
  waiters : s.waiters = []
  intakes : s.intakes = #[k]
  finished : s.finished = #[]
  errands : s.pending.filter (·.2.reader?.isSome) = []
  tells : k.ingestor.Tells p₀ (s.player, none)

section

variable {p₀ : Player} {r : Reading} {answers : Array (Nat × Result)} {limit rank n : Nat}
  {l l' : List (Int × Task)} {s s' : Session} {x y : Int × Task} {k : Intake} {t sent : Text}

theorem resting_eq (h : s.control = .idle) : s.resting = s := by
  unfold resting
  rw [← h]

/-! ## Reading -/

/-- The session in which a reader waits for the next record, but for the task that asks for it. -/
def waiting (s : Session) (reader : Reader) : Session :=
  { s with
    control := .idle
    waiters := s.waiters ++ [⟨s.nextId, reader, ⟨some 0, []⟩⟩]
    nextId := s.nextId + 1 }

/-- A reader that goes on while there is more to come waits for it. -/
theorem Between.read_comes {timeout : Seconds} {a : Arrival} {rest : List Arrival}
    (h : Between p₀ k s) (htimeout : timeout.Allows limit)
    (hreceiving : k.ingestor.Receiving s.player sent)
    (hdelivers : Delivers t sent (a.record :: rest.map (·.record)))
    (htime : s.clock + durationOf a.pauses + durationOfAll rest ≤ limit) (lastPauses : List Int)
    (ending : Ending) :
    let reader : Reader := ⟨0, 0, timeout, ⟨a :: rest, lastPauses, ending⟩⟩
    let r := readScript t Scene.empty
    ∃ v, { s with control := .read reader ⟨some 0, []⟩ }.settle = v.resting.settle ∧
      Plays p₀ r #[(0, .choices r.offered)] limit v.pending v
        (a.pauses.length + 3 + (rest.map Arrival.steps).sum) := by
  intro reader r
  let u := s.waiting reader
  have horderly : Orderly u.pending u :=
    ⟨h.orderly.gated, h.orderly.clock, h.orderly.known, h.orderly.ready, h.orderly.alarms,
      fun z hz id heq => Nat.lt_succ_of_lt (h.orderly.named z hz id heq)⟩
  have hwaiters : u.waiters = [⟨s.nextId, reader, ⟨some 0, []⟩⟩] := by
    change s.waiters ++ _ = _
    rw [h.waiters, List.nil_append]
  have hsupply : Supply p₀ r #[(0, .choices r.offered)] limit
      ((u.clock, .fetch s.nextId) :: u.pending) u
      (a.pauses.length + 3 + (rest.map Arrival.steps).sum) := by
    refine .comes (x := (u.clock, .fetch s.nextId)) hwaiters h.intakes htimeout rfl rfl h.finished
      hreceiving hdelivers h.tells ?_ (.fetch htime) ?_
    · change ((u.clock, Task.fetch s.nextId) :: s.pending.filter (·.2.reader?.isSome)).Perm _
      rw [h.errands]
    · intro z hz heq
      rcases List.mem_cons.mp hz with rfl | hz
      · cases heq
      · exact absurd (h.orderly.named z hz _ heq) (Nat.lt_irrefl _)
  have hparked : Plays p₀ r #[(0, .choices r.offered)] limit
      (u.enqueue (.fetch s.nextId)).pending (u.enqueue (.fetch s.nextId)) _ :=
    Plays.enqueue ⟨(Timed.cons_iff rfl).mpr (h.timed.congr rfl rfl),
      horderly.cons (.inr (.inl (by rintro ⟨⟩))), hsupply⟩ (by rintro ⟨_, ⟨⟩⟩)
  have hover : timeout.isOver (s.clock - 0).toNat = false :=
    Seconds.isOver_of_le (by omega) htimeout.inTime
  have hk : s.intakes[0]? = some k := by simp [h.intakes]
  cases hmicros : timeout.micros? with
  | none =>
    have hread : { s with control := .read reader ⟨some 0, []⟩ }.settle =
        (u.enqueue (.fetch s.nextId)).settle := by
      apply settle_of_turn
      simp only [turn?, read, hk, hreceiving.unfinished, Bool.false_eq_true, if_false, reader,
        hover, hmicros]
      rfl
    exact ⟨_, hread.trans (congrArg settle (resting_eq rfl).symm), hparked⟩
  | some micros =>
    have hread : { s with control := .read reader ⟨some 0, []⟩ }.settle =
        ((u.enqueue (.fetch s.nextId)).setAlarm (0 + micros) (.deadline s.nextId)).settle := by
      apply settle_of_turn
      simp only [turn?, read, hk, hreceiving.unfinished, Bool.false_eq_true, if_false, reader,
        hover, hmicros]
      rfl
    refine ⟨_, hread.trans (congrArg settle (resting_eq rfl).symm), ?_, ?_⟩
    · exact ((Timed.cons_iff rfl).mpr hparked.timed).setAlarm
    · refine Fed.setAlarm ⟨hparked.fed.toOrderly.cons (.inr (.inr ⟨_, rfl, Nat.lt_succ_self _⟩)),
        hparked.fed.supply.relist (.of_eq rfl) ?_⟩ (by rintro _ _ ⟨⟩)
      intro z hz _
      rcases List.mem_cons.mp hz with rfl | hz
      · refine .inr (htimeout.beforeAlarm.imp_right fun hlate => ?_)
        have := hlate micros hmicros
        omega
      · exact .inl hz

/-- A reader that goes on when the stream is done gives the choices. -/
theorem settle_read_over {reader : Reader} {c : Call} (hk : s.intakes[reader.intake]? = some k)
    (hdone : k.ingestor.finished = true)
    (hnoticed : ∀ t, s.player.timer = some t → t.serial < s.paced) :
    { s with control := .read reader c }.settle =
      { s with control := .answer (.choices k.ingestor.choices) c }.settle := by
  apply settle_of_turn
  have hgive : { s with control := .read reader c }.give s.player (.choices k.ingestor.choices) c =
      { s with control := .answer (.choices k.ingestor.choices) c } := by
    change { s with control := .answer (.choices k.ingestor.choices) c }.notice = _
    rw [notice_control, notice_of_lt hnoticed]
  rw [← hgive]
  simp only [turn?, Session.read, hk, hdone, if_true]

/-- A reader that goes on when the stream is done returns with the choices. -/
theorem Between.read_over (h : Between p₀ k s) (hdone : k.ingestor.finished = true)
    {reader : Reader} (hreader : reader.intake = 0) :
    { s with control := .read reader ⟨some 0, []⟩ }.settle =
      { s with finished := #[(0, .choices k.ingestor.choices)] }.resting.settle := by
  have hk : s.intakes[reader.intake]? = some k := by simp [hreader, h.intakes]
  rw [settle_read_over hk hdone h.timed.noticed, settle_answer_some, h.finished]
  rfl

/-! ## Handling -/

theorem setIngestor_intakes (h : s.intakes = #[k]) (g : Ingestor) :
    (s.setIngestor 0 g).intakes = #[{ k with ingestor := g }] := by
  unfold setIngestor
  rw [h]
  rfl

/-- The session whose ingestor has done with a record or with the stream, and the player what was
asked of it. -/
def took (s : Session) (i : Nat) (g : Ingestor) (v : Waiting) : Session :=
  { s.setIngestor i g with player := Player.settle v }.notice

theorem handle_of_some {i : Nat} (hgated : s.gated = false) (hk : s.intakes[i]? = some k)
    (r : StreamRecord) (c : Call) :
    let h := k.ingestor.handle s.player r
    s.handle i r c =
      { s.took i h.ingestor (h.player, h.ticket) with
        control := .answer .nothing { c with
          remainder :=
            match h.afterwards with
            | .nothing => c.remainder
            | .offer final => .offer i final :: c.remainder
            | .fail f => .fail f :: c.remainder } } := by
  intro h
  unfold handle
  simp only [hk]
  exact await_eq (s := s.setIngestor i _) hgated _ _

/-- The session behind a record that was handled. -/
def handled (s : Session) (k : Intake) (r : StreamRecord) : Session :=
  let h := k.ingestor.handle s.player r
  { s.setIngestor 0 h.ingestor with player := Player.settle (h.player, h.ticket) }.notice

theorem handle_eq (hgated : s.gated = false) (hintakes : s.intakes = #[k]) (r : StreamRecord)
    (c : Call) :
    s.handle 0 r c =
      { s.handled k r with
        control := .answer .nothing { c with
          remainder :=
            match (k.ingestor.handle s.player r).afterwards with
            | .nothing => c.remainder
            | .offer final => .offer 0 final :: c.remainder
            | .fail f => .fail f :: c.remainder } } :=
  handle_of_some hgated (by simp [hintakes]) r c

/-- The timer of the player is noticed if it was armed since, and otherwise it is pending still. -/
theorem Timed.rearmed {q : Player} (h : Timed s.pending s)
    (hserial : ∀ v, q.timer = some v → v.serial < q.serial) (hrearms : s.player.Rearms q)
    (hkeeps : s.player.timer ≠ none → q.timer = s.player.timer)
    (hspeed : q.textSpeed = s.player.textSpeed) :
    Timed { s with player := q }.notice.pending { s with player := q }.notice := by
  have hpaced := Nat.le_trans h.paced hrearms.serial_le
  refine Timed.notice ?_ hserial hpaced
  refine h.timers.imp (fun htimers => ?_) fun ⟨hstuck, hnone⟩ =>
    ⟨hstuck.keep (hkeeps hstuck.timer_ne_none) hspeed, hnone⟩
  refine htimers.trans ?_
  change List.Perm _ ((q.timer.toList.filter (·.serial < s.paced)).map (·.serial))
  cases ht : s.player.timer with
  | some v =>
    rw [hkeeps (by simp [ht]), ht]
    simp [h.noticed v ht]
  | none =>
    cases hv : q.timer with
    | none => exact .refl _
    | some v =>
      rcases hrearms.timer v hv with hold | hnew
      · cases ht.symm.trans hold
      · simp [Nat.not_lt.mpr (Nat.le_trans h.paced hnew)]

/-- A record that is handled takes the story further. -/
theorem Between.handled (h : Between p₀ k s) (hreceiving : k.ingestor.Receiving s.player sent)
    (r : StreamRecord) :
    Between p₀ { k with ingestor := (k.ingestor.handle s.player r).ingestor } (s.handled k r) ∧
      (k.ingestor.handle s.player r).player.SameStory (s.handled k r).player := by
  obtain ⟨htells, hrearms, hsame, hkeeps⟩ := h.tells.handle hreceiving r
  have hplayer : (s.handled k r).player =
      Player.settle ((k.ingestor.handle s.player r).player,
        (k.ingestor.handle s.player r).ticket) := notice_player _
  have htimed : Timed (s.setIngestor 0 (k.ingestor.handle s.player r).ingestor).pending
      (s.setIngestor 0 (k.ingestor.handle s.player r).ingestor) :=
    h.timed.congr rfl rfl
  have hspeed := htells.paces.textSpeed.trans h.tells.paces.textSpeed.symm
  refine ⟨⟨htimed.rearmed htells.settled.serial hrearms hkeeps hspeed, Orderly.notice ?_, ?_, ?_,
    ?_, ?_, ?_⟩, ?_⟩
  · exact h.orderly.congr rfl rfl rfl rfl rfl
  · exact (notice_waiters _).trans h.waiters
  · exact (notice_intakes _).trans (setIngestor_intakes h.intakes _)
  · exact (notice_finished _).trans h.finished
  · exact (notice_errands _).trans h.errands
  · rw [hplayer]
    exact htells
  · rw [hplayer]
    exact hsame

/-- A record that is not the last one is handled, and the reader waits for the next. -/
theorem Between.handle_comes {timeout : Seconds} {a : Arrival} {rest : List Arrival}
    {record : StreamRecord} {sent' : Text} (h : Between p₀ k s) (htimeout : timeout.Allows limit)
    (hreceiving : k.ingestor.Receiving s.player sent)
    (hreceiving' : (k.ingestor.handle s.player record).ingestor.Receiving
      (k.ingestor.handle s.player record).player sent')
    (hafterwards : (k.ingestor.handle s.player record).afterwards = .nothing)
    (hdelivers : Delivers t sent' (a.record :: rest.map (·.record)))
    (htime : s.clock + durationOf a.pauses + durationOfAll rest ≤ limit) (lastPauses : List Int)
    (ending : Ending) :
    let reader : Reader := ⟨0, 0, timeout, ⟨a :: rest, lastPauses, ending⟩⟩
    let r := readScript t Scene.empty
    ∃ v, (s.handle 0 record ⟨some 0, [.consume reader]⟩).settle = v.resting.settle ∧
      Plays p₀ r #[(0, .choices r.offered)] limit v.pending v
        (a.pauses.length + 3 + (rest.map Arrival.steps).sum) := by
  intro reader r
  obtain ⟨hbetween, hsame⟩ := h.handled hreceiving record
  have hclock : (s.handled k record).clock = s.clock := notice_clock _
  rw [← hclock] at htime
  rw [handle_eq h.orderly.gated h.intakes, hafterwards]
  dsimp only
  rw [settle_answer_consume]
  exact hbetween.read_comes htimeout (hreceiving'.sameStory hsame) hdelivers htime lastPauses ending

/-- The choices that are offered make no difference to the story. -/
theorem Between.offering (h : Between p₀ k s) (final : Text) :
    Between p₀ { k with ingestor := k.ingestor.offer final } (s.offering 0 k final) where
  timed := h.timed.congr rfl rfl
  orderly := h.orderly.congr rfl rfl rfl rfl rfl
  waiters := h.waiters
  intakes := setIngestor_intakes h.intakes _
  finished := h.finished
  errands := h.errands
  tells := ⟨h.tells.before, h.tells.after⟩

/-- The last record is handled, and the call returns with the choices. -/
theorem Between.handle_over {record : StreamRecord} (h : Between p₀ k s) (reader : Reader)
    (hreader : reader.intake = 0) (hreceiving : k.ingestor.Receiving s.player sent)
    (hdelivers : Delivers t sent [record])
    (hwhole : (k.ingestor.handle s.player record).ingestor.Whole
      (k.ingestor.handle s.player record).player t)
    (hafterwards : (k.ingestor.handle s.player record).afterwards = .offer t) :
    let r := readScript t Scene.empty
    ∃ v, (s.handle 0 record ⟨some 0, [.consume reader]⟩).settle = v.resting.settle ∧
      Plays p₀ r #[(0, .choices r.offered)] limit v.pending v 0 := by
  intro r
  obtain ⟨hhandled, hsame⟩ := h.handled hreceiving record
  obtain ⟨hready, hdone⟩ := Ingestor.handle_closed hreceiving hdelivers
  have hwhole' := hwhole.sameStory hsame
  have hk : (s.handled k record).intakes[0]? =
      some { k with ingestor := (k.ingestor.handle s.player record).ingestor } := by
    simp [hhandled.intakes]
  have hoffered := hhandled.offering t
  rw [handle_eq h.orderly.gated h.intakes, hafterwards]
  dsimp only
  rw [settle_answer_offer hk, settle_answer_consume, hoffered.read_over hdone hreader]
  refine ⟨_, rfl, hoffered.timed.congr rfl rfl, hoffered.orderly.congr rfl rfl rfl rfl rfl, ?_⟩
  refine .all hoffered.waiters hoffered.errands rfl hwhole'.streaming hwhole'.story ?_
  refine (hoffered.tells.after hready).imp_right fun ⟨_, hcommands, _, hwaits⟩ => ⟨?_, hwaits⟩
  exact hwhole'.story.commands.symm.trans hcommands

/-! ## Errands -/

theorem Errand.reader? {id behind : Nat} {pauses : List Int}
    (h : Errand id pauses behind limit x n) : x.2.reader? = some id := by
  cases h <;> rfl

/-- The only errand is that of the reader that waits, and another one may stand in its place. -/
theorem Plays.errand (h : Plays p₀ r answers limit (x :: s.pending) s rank)
    (hx : x.2.reader? ≠ none) :
    ∃ (w : Waiter) (a : Arrival) (rest : List Arrival) (n : Nat), s.waiters = [w] ∧
      w.reader.source.arrivals = a :: rest ∧
      Errand w.id a.pauses (durationOfAll rest) limit x n ∧
      rank = n + (rest.map Arrival.steps).sum ∧
      ∀ y m, Errand w.id a.pauses (durationOfAll rest) limit y m →
        Plays p₀ r answers limit (y :: s.pending) s (m + (rest.map Arrival.steps).sum) := by
  have hsome : x.2.reader?.isSome = true := Option.isSome_iff_ne_none.mpr hx
  have htimed := h.timed
  have horderly := h.fed.toOrderly
  cases h.fed.supply with
  | all _ herrands => simp [hsome] at herrands
  | @comes _ _ _ _ id n a rest _ _ z hwaiters hintakes htimeout hreading hanswers hfinished
      hreceiving hdelivers htells herrands herrand hdeadlines =>
    have hkept (z : Int × Task) (hz : z.2.reader?.isSome = true) :
        (z :: s.pending).filter (·.2.reader?.isSome) =
          z :: s.pending.filter (·.2.reader?.isSome) := List.filter_cons_of_pos hz
    rw [hkept x hsome] at herrands
    obtain ⟨rfl, hnone⟩ := List.cons.inj (List.perm_singleton.mp herrands)
    refine ⟨_, a, rest, n, hwaiters, rfl, herrand, rfl, ?_⟩
    intro y m hy
    have hreader := hy.reader?
    have htimer := Task.timer?_of_reader? hreader
    have htimer' := Task.timer?_of_reader? herrand.reader?
    refine ⟨(Timed.cons_iff htimer).mpr ((Timed.cons_iff htimer').mp htimed),
      (horderly.of_subset (List.subset_cons_self _ _)).cons (.inr (.inl (by simp [hreader]))), ?_⟩
    refine .comes hwaiters hintakes htimeout hreading hanswers hfinished hreceiving hdelivers
      htells (x := y) ?_ hy ?_
    · rw [hkept y (by simp [hreader]), hnone]
    · intro z hz heq
      rcases List.mem_cons.mp hz with rfl | hz
      · simp [heq, Task.reader?] at hreader
      · exact hdeadlines z (List.mem_cons_of_mem _ hz) heq

/-- While pauses are left, the next one begins, and behind the last one the record is delivered. -/
theorem expect_leadsOn {id behind more load : Nat} {pauses ps : List Int}
    (hgoes : ∀ y m, Errand id pauses behind limit y m →
      Plays p₀ r answers limit (y :: s.pending) s (m + more))
    (hidle : s.control = .idle) (htime : s.clock + durationOf ps + behind ≤ limit)
    (hn : ps.length + 2 < n) : LeadsOn p₀ r answers limit (s.expect id ps) (n + more) load := by
  cases ps with
  | nil =>
    have htime' : s.clock + behind ≤ limit := by
      simpa [durationOf] using htime
    have hplays := hgoes (s.clock, .deliver id 1) 2 (.deliver (Nat.le_refl 1) htime')
    have hlt : 2 + more < n + more := Nat.add_lt_add_right hn more
    exact ⟨s.enqueue (.deliver id 1), _, congrArg settle (resting_eq (s := s.enqueue _) hidle).symm,
      hplays.enqueue (by rintro ⟨_, ⟨⟩⟩), .inl hlt⟩
  | cons micros ps =>
    have htime' : s.clock + micros.toNat + durationOf ps + behind ≤ limit := by
      simp only [durationOf, List.map_cons, List.sum_cons] at htime ⊢
      omega
    have hplays := hgoes (s.clock + micros.toNat, .happen (.arrival id ps)) _ (.arrive htime')
    have hcontrol : (s.pause micros (.arrival id ps)).control = .idle :=
      (s.pause_control micros _).trans hidle
    have hlt : ps.length + 3 + more < n + more := Nat.add_lt_add_right hn more
    exact ⟨s.pause micros (.arrival id ps), _, congrArg settle (resting_eq hcontrol).symm,
      hplays.pause (by rintro ⟨_, ⟨⟩⟩), .inl hlt⟩

/-- A record that is delivered is handled, and either another one is waited for or it was the last
one. -/
theorem Plays.deliver {id load : Nat}
    (h : Plays p₀ r answers limit ((s.clock, .deliver id 0) :: s.pending) s rank) :
    LeadsOn p₀ r answers limit (s.begin (.deliver id 0)) rank load := by
  have htimed := h.timed
  have horderly := h.fed.toOrderly
  cases h.fed.supply with
  | all _ herrands => cases herrands
  | @comes t sent k timeout id' n a rest lastPauses ending x hwaiters hintakes htimeout hreading
      hanswers hfinished hreceiving hdelivers htells herrands herrand hdeadlines =>
    obtain ⟨rfl, hnone⟩ := List.cons.inj (List.perm_singleton.mp herrands)
    cases herrand with
    | deliver hn htime =>
    let u : Session := { s with waiters := [] }
    have hbetween : Between p₀ k u := by
      have hsub := horderly.of_subset (List.subset_cons_self (s.clock, .deliver id 0) s.pending)
      exact ⟨((Timed.cons_iff rfl).mp htimed).congr rfl rfl, hsub.congr rfl rfl rfl rfl rfl, rfl,
        hintakes, hfinished, hnone, htells⟩
    have hbegin : s.begin (.deliver id 0) = u.handle 0 a.record
        ⟨some 0, [.consume ⟨0, 0, timeout, ⟨rest, lastPauses, ending⟩⟩]⟩ := by
      simp [begin, takeWaiter?, hwaiters, Session.deliver, u]
    rw [hbegin]
    subst hreading hanswers
    rcases hreceiving.handle hdelivers with
      ⟨sent', hdelivers', hreceiving', hafterwards⟩ | ⟨hlast, hwhole, hafterwards⟩
    · cases rest with
      | nil => exact absurd rfl hdelivers'.ne_nil
      | cons b rest =>
        have htime' : u.clock + durationOf b.pauses + durationOfAll rest ≤ limit := by
          simp only [durationOfAll, List.map_cons, List.sum_cons] at htime ⊢
          change s.clock + _ + _ ≤ _
          omega
        obtain ⟨v, hsettle, hplays⟩ := hbetween.handle_comes htimeout hreceiving hreceiving'
          hafterwards hdelivers' htime' lastPauses ending
        refine ⟨v, _, hsettle, hplays, .inl ?_⟩
        simp only [List.map_cons, List.sum_cons, Arrival.steps]
        omega
    · obtain rfl := List.map_eq_nil_iff.mp hlast
      obtain ⟨v, hsettle, hplays⟩ := hbetween.handle_over ⟨0, 0, timeout, _⟩ rfl
        hreceiving hdelivers hwhole hafterwards
      exact ⟨v, _, hsettle, hplays, .inl (Nat.succ_pos _)⟩

end

end Session

end StoryPlayer
