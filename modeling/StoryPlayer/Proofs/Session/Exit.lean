import StoryPlayer.Proofs.Session.Records
import StoryPlayer.Proofs.Stream.Feeding

/-!
# How the reading of a source ends

A source is read until a record ends the stream, the source fails or ends, or the deadline is there.
Which of these comes first is known from the source and the deadline alone, and so are the records
that are handled until then.

Time is told in microseconds behind the call that reads. What comes without a pause comes before any
deadline.
-/

namespace StoryPlayer

/-- The failure in which a source ends, if it does not hang. -/
def Ending.failure? : Ending → Option Failure
  | .stop => some .endedEarly
  | .hang => none
  | .fail f => some f

namespace Source

/-- What comes behind a time: records, each after its pauses, and the failure in which they end. -/
def outcomesOf (lastPauses : List Int) (ending : Ending) :
    Nat → List Arrival → List (Nat × Except Failure StreamRecord)
  | passed, [] => ending.failure?.toList.map fun f => (passed + durationOf lastPauses, .error f)
  | passed, a :: rest =>
    (passed + durationOf a.pauses, .ok a.record) ::
      outcomesOf lastPauses ending (passed + durationOf a.pauses) rest

/-- What comes of a source that is read from a time on, and when. -/
def outcomesFrom (s : Source) (passed : Nat) : List (Nat × Except Failure StreamRecord) :=
  outcomesOf s.lastPauses s.ending passed s.arrivals

/-- The pauses before what a source has next. -/
def nextPauses (s : Source) : List Int :=
  match s.arrivals with
  | a :: _ => a.pauses
  | [] => s.lastPauses

/-- Nothing comes of the source any more. -/
def Hangs (s : Source) : Prop :=
  s.arrivals = [] ∧ s.ending.failure? = none

end Source

/-- Whether an outcome is the last one of a stream. -/
def isLastOutcome : Except Failure StreamRecord → Bool
  | .ok r => r.isLast
  | .error _ => true

/-- Whether a time is before a deadline. -/
def isBefore (deadline time : Nat) : Bool :=
  time = 0 || time < deadline

/-- How a reading ends. -/
structure Exit where
  time : Nat
  /-- What ends it, unless that is the deadline. -/
  cause : Option (Except Failure StreamRecord)
  /-- The records that are handled until then. -/
  records : List StreamRecord

namespace Exit

/-- The exit from what comes: the first outcome before the deadline that is the last one of its
stream, and otherwise the deadline. The records before it are handled, and so is the exit itself
when it is a record. -/
def of (deadline : Nat) (outcomes : List (Nat × Except Failure StreamRecord)) : Exit :=
  let early := outcomes.filter fun o => isBefore deadline o.1
  let last := early.find? fun o => isLastOutcome o.2
  { time := last.elim deadline (·.1)
    cause := last.map (·.2)
    records := (early.takeWhile fun o => !isLastOutcome o.2).filterMap (·.2.toOption) ++
      (last.bind (·.2.toOption)).toList }

/-- What a call that reads gives at the exit, where these are the choices of the stream. A failure
of the source is given as it is. -/
def result (e : Exit) (timeout : Seconds) (choices : List Text) : Result :=
  match e.cause with
  | some (.ok r) => if r.kind = .done then .choices choices else .failed (.reported r.text)
  | some (.error f) => .failed f
  | none => .failed (.overdue timeout)

/-- What the ingestor and its player have come to at the exit. -/
def leaves (e : Exit) (w : Ingestor × Player) : Ingestor × Player :=
  Ingestor.close (e.records.foldl Ingestor.takeIn w)

end Exit

/-- The exit of a call that reads a source. -/
def Source.exit (s : Source) (deadline : Nat) : Exit :=
  .of deadline (s.outcomesFrom 0)

/-- The timeout is positive and finite, and its deadline comes after so many microseconds. -/
structure Seconds.EndsAfter (t : Seconds) (deadline : Nat) : Prop where
  countable : t.isCountable = true
  positive : t.isOver 0 = false
  finite : t.micros?.map Int.toNat = some deadline

namespace Seconds

variable {t : Seconds} {deadline n : Nat}

theorem whole_endsAfter {n : Nat} (hpos : 0 < n) (hlt : n < floatLimit) :
    (whole n).EndsAfter (n * 1000000) where
  countable := by
    have habs : (n : Int).natAbs < floatLimit := by rwa [Int.natAbs_natCast]
    simpa only [isCountable, decide_eq_true_eq] using habs
  positive := by
    clear hlt
    simp only [isOver, decide_eq_false_iff_not]
    omega
  finite := by
    clear hlt
    simp only [micros?, Option.map_some, Option.some.injEq]
    omega

/-- Rounded to a microsecond or not, the deadline is not there before it comes. -/
theorem lt_of_lt_round {num den n : Nat} (h : n < (2 * num + den) / (2 * den)) : n * den < num := by
  have hpos : 0 < 2 * den := by
    rcases Nat.eq_zero_or_pos (2 * den) with hzero | hpos
    · rw [hzero, Nat.div_zero] at h
      exact absurd h (Nat.not_lt_zero n)
    · exact hpos
  have hmul : (n + 1) * (2 * den) ≤ 2 * num + den := (Nat.le_div_iff_mul_le hpos).mp h
  have hexpand : (n + 1) * (2 * den) = 2 * (n * den) + 2 * den := by ring
  omega

theorem EndsAfter.isOver (h : t.EndsAfter deadline) (hbefore : isBefore deadline n = true) :
    t.isOver n = false := by
  have hpositive := h.positive
  rcases Nat.eq_zero_or_pos n with rfl | hpos
  · exact hpositive
  have hlt : n < deadline := by
    simpa [isBefore, Nat.ne_of_gt hpos] using hbefore
  obtain ⟨m, hm, rfl⟩ := Option.map_eq_some_iff.mp h.finite
  cases t with
  | whole k =>
    cases hm
    simp only [Seconds.isOver, decide_eq_false_iff_not]
    omega
  | float x =>
    unfold Seconds.isOver micros? at *
    dsimp only at *
    by_cases hfinite : x.isFinite = true
    · simp only [hfinite, if_true, Bool.or_eq_false_iff, decide_eq_false_iff_not] at hpositive hm ⊢
      refine ⟨hpositive.1, ?_⟩
      cases hm
      generalize Decimal.Quotient.ofFloat x.abs = q at hlt ⊢
      have hround : n < (2 * (q.num * 1000000) + q.den) / (2 * q.den) := by
        rw [← Nat.mul_assoc]
        generalize (2 * q.num * 1000000 + q.den) / (2 * q.den) = m at hlt ⊢
        split at hlt <;> omega
      exact Nat.not_le.mpr (lt_of_lt_round hround)
    · simpa [hfinite] using hpositive

end Seconds

namespace Exit

variable {deadline d : Nat} {outcomes : List (Nat × Except Failure StreamRecord)}
  {o : Nat × Except Failure StreamRecord}

/-- A record that comes before the deadline and does not end the stream is handled. -/
theorem of_cons_record {time : Nat} {r : StreamRecord} (hbefore : isBefore deadline time = true)
    (hr : r.isLast = false) :
    of deadline ((time, .ok r) :: outcomes) =
      { of deadline outcomes with records := r :: (of deadline outcomes).records } := by
  have hfilter : ((time, .ok r) :: outcomes).filter (fun o => isBefore deadline o.1) =
      (time, .ok r) :: outcomes.filter fun o => isBefore deadline o.1 :=
    List.filter_cons_of_pos hbefore
  have hnot : isLastOutcome (.ok r) = false := hr
  unfold of
  rw [hfilter]
  simp [hnot, Except.toOption]

/-- The last outcome of a stream is the exit when it comes before the deadline. -/
theorem of_cons_last (hbefore : isBefore deadline o.1 = true) (ho : isLastOutcome o.2 = true) :
    of deadline (o :: outcomes) = ⟨o.1, some o.2, o.2.toOption.toList⟩ := by
  have hfilter : (o :: outcomes).filter (fun o => isBefore deadline o.1) =
      o :: outcomes.filter fun o => isBefore deadline o.1 := List.filter_cons_of_pos hbefore
  unfold of
  rw [hfilter]
  simp [ho]

/-- When nothing comes before the deadline, that is the exit. -/
theorem of_late (h : ∀ o ∈ outcomes, isBefore deadline o.1 = false) :
    of deadline outcomes = ⟨deadline, none, []⟩ := by
  have hnone : (outcomes.filter fun o => isBefore deadline o.1) = [] :=
    List.filter_eq_nil_iff.mpr fun o ho => by simp [h o ho]
  simp [of, hnone]

theorem lt_time (h : ∀ o ∈ outcomes, d < o.1) (hdeadline : d < deadline) :
    d < (of deadline outcomes).time := by
  unfold of
  dsimp only
  generalize hearly : (outcomes.filter fun o => isBefore deadline o.1) = early
  cases hlast : early.find? fun o => isLastOutcome o.2 with
  | none => exact hdeadline
  | some o =>
    have hmem : o ∈ early := List.mem_of_find?_eq_some hlast
    rw [← hearly] at hmem
    exact h o (List.mem_filter.mp hmem).1

end Exit

namespace Source

variable {s : Source} {passed : Nat}

theorem outcomesFrom_cons {a : Arrival} {rest : List Arrival} (h : s.arrivals = a :: rest)
    (passed : Nat) :
    s.outcomesFrom passed =
      (passed + durationOf s.nextPauses, .ok a.record) ::
        { s with arrivals := rest }.outcomesFrom (passed + durationOf s.nextPauses) := by
  simp [outcomesFrom, nextPauses, h, outcomesOf]

theorem outcomesFrom_nil {f : Failure} (h : s.arrivals = []) (hf : s.ending.failure? = some f)
    (passed : Nat) :
    s.outcomesFrom passed = [(passed + durationOf s.nextPauses, .error f)] := by
  simp [outcomesFrom, nextPauses, h, hf, outcomesOf]

theorem Hangs.outcomesFrom (h : s.Hangs) (passed : Nat) : s.outcomesFrom passed = [] := by
  simp [Source.outcomesFrom, h.1, h.2, outcomesOf]

/-- Nothing comes before the next outcome does. -/
theorem le_of_mem_outcomesOf {lastPauses : List Int} {ending : Ending} {as : List Arrival}
    {o : Nat × Except Failure StreamRecord} (h : o ∈ outcomesOf lastPauses ending passed as) :
    passed ≤ o.1 := by
  induction as generalizing passed with
  | nil =>
    obtain ⟨f, -, rfl⟩ := List.mem_map.mp h
    exact Nat.le_add_right _ _
  | cons a rest ih =>
    rcases List.mem_cons.mp h with rfl | h
    · exact Nat.le_add_right _ _
    · exact Nat.le_trans (Nat.le_add_right _ _) (ih h)

theorem next_le_of_mem {o : Nat × Except Failure StreamRecord} (h : o ∈ s.outcomesFrom passed) :
    passed + durationOf s.nextPauses ≤ o.1 := by
  cases harrivals : s.arrivals with
  | nil =>
    simp only [outcomesFrom, harrivals, outcomesOf] at h
    obtain ⟨f, -, rfl⟩ := List.mem_map.mp h
    simp [nextPauses, harrivals]
  | cons a rest =>
    rw [outcomesFrom_cons harrivals] at h
    rcases List.mem_cons.mp h with rfl | h
    · exact Nat.le_refl _
    · exact le_of_mem_outcomesOf h

theorem outcomesOf_pairwise (lastPauses : List Int) (ending : Ending) (passed : Nat)
    (as : List Arrival) :
    (outcomesOf lastPauses ending passed as).Pairwise fun o o' => o.1 ≤ o'.1 := by
  induction as generalizing passed with
  | nil =>
    unfold outcomesOf
    cases ending.failure? with
    | none => exact .nil
    | some f => exact List.pairwise_singleton _ _
  | cons a rest ih => exact .cons (fun _ ho => le_of_mem_outcomesOf ho) (ih _)

/-- No end of a reading comes before its exit: neither the deadline nor anything that ends the
stream. -/
theorem exit_earliest (s : Source) (deadline : Nat) :
    (s.exit deadline).time ≤ deadline ∧
      ∀ o ∈ s.outcomesFrom 0, isLastOutcome o.2 = true → (s.exit deadline).time ≤ o.1 := by
  have hordered := outcomesOf_pairwise s.lastPauses s.ending 0 s.arrivals
  change (s.outcomesFrom 0).Pairwise _ at hordered
  unfold exit Exit.of
  dsimp only
  generalize s.outcomesFrom 0 = outcomes at hordered ⊢
  have hearly := hordered.filter fun o => isBefore deadline o.1
  have hlate {o : Nat × Except Failure StreamRecord} (ho : o ∈ outcomes)
      (hnot : o ∉ outcomes.filter fun o => isBefore deadline o.1) : deadline ≤ o.1 := by
    have hafter : isBefore deadline o.1 = false := by simpa [ho] using hnot
    simp only [isBefore, Bool.or_eq_false_iff, decide_eq_false_iff_not] at hafter
    exact Nat.not_lt.mp hafter.2
  have hbefore (o) (ho : o ∈ outcomes.filter fun o => isBefore deadline o.1) : o.1 ≤ deadline := by
    have hb := (List.mem_filter.mp ho).2
    simp only [isBefore, Bool.or_eq_true, decide_eq_true_eq] at hb
    omega
  generalize (outcomes.filter fun o => isBefore deadline o.1) = early at hearly hlate hbefore ⊢
  cases hlast : early.find? fun o => isLastOutcome o.2 with
  | none =>
    refine ⟨Nat.le_refl _, fun o ho hend => hlate ho fun hmem => ?_⟩
    have hnot := List.find?_eq_none.mp hlast o hmem
    exact hnot hend
  | some e =>
    obtain ⟨-, as, bs, rfl, hfirst⟩ := List.find?_eq_some_iff_append.mp hlast
    have he := hbefore e (by simp)
    refine ⟨he, fun o ho hend => ?_⟩
    by_cases hmem : o ∈ as ++ e :: bs
    · rcases List.mem_append.mp hmem with hin | hin
      · exact absurd hend (by simpa using hfirst o hin)
      · rcases List.mem_cons.mp hin with rfl | hin
        · exact Nat.le_refl _
        · exact (List.pairwise_cons.mp (List.pairwise_append.mp hearly).2.1).1 o hin
    · exact Nat.le_trans he (hlate ho hmem)

end Source

end StoryPlayer
