import StoryPlayer.Proofs.Text.Trimmed
import StoryPlayer.Proofs.Wire.Body

/-!
# Frames one behind the other

The blank lines of an event stream cut it into frames, and what a frame comes to hangs on its own
data lines alone. So streams with a blank line between them are one stream that goes on with the
other, and lines that mean nothing may stand anywhere. One thing takes more than its own frame with
it: a payload that runs into a limit of the reader ends the stream, be it JSON or not.
-/

namespace StoryPlayer

namespace Frame

/-- A line without the carriage returns at its end. -/
def bare (line : Text) : Text :=
  Text.dropEndWhile (· == '\r') line

/-- Whether a line ends the frame in which it stands. -/
def isBlankLine (line : Text) : Bool :=
  line.all (· == '\r')

/-- Whether a line means nothing: it is a comment, or it names another field than `data`. -/
def isIdle (line : Text) : Bool :=
  bare line ≠ [] && ((bare line).head? = some ':' || Text.before ':' (bare line) ≠ "data".toList)

/-- The value of a line that names the field `data`: what stands behind the first colon, without the
one space that may stand in front of it. -/
def dataOf? (line : Text) : Option Text :=
  if Text.before ':' (bare line) = "data".toList then
    let value := (Text.behind? ':' (bare line)).getD []
    some (if value.head? = some ' ' then value.tail else value)
  else none

/-- The payload of a frame with these lines: the values of its data lines, each on a line of its own.
There is none without a data line. -/
def payload? (frame : List Text) : Option Text :=
  let values := frame.filterMap dataOf?
  if values = [] then none else some (Text.join ['\n'] values)

/-- What a frame with these lines comes to. -/
def outcome? (frame : List Text) : Option Outcome :=
  (payload? frame).bind outcomeOfPayload

/-- The limit that the payload of a frame runs into, if it runs into one. -/
def limit? (frame : List Text) : Option Json.Limit :=
  match outcome? frame with
  | some (.error limit) => some limit
  | _ => none

/-- Whether the payload of a frame runs into no limit. -/
def isReadable (frame : List Text) : Bool :=
  (limit? frame).isNone

/-- The record that a frame comes to, if it comes to one. -/
def record? (frame : List Text) : Option StreamRecord :=
  (outcome? frame).bind Except.toOption

/-- The lines of an event stream between its blank ones: one frame behind each of these and one in
front of the first. -/
def framesOf (lines : List Text) : List (List Text) :=
  lines.splitOnP isBlankLine

section

variable {line : Text} {data frame lines : List Text}

/-! ## Lines -/

theorem bare_append_return (line : Text) (n : ℕ) :
    bare (line ++ List.replicate n '\r') = bare line := by
  induction n with
  | zero => rw [List.replicate_zero, List.append_nil]
  | succ n ih =>
    rw [← ih, List.replicate_succ', ← List.append_assoc, bare, Text.dropEndWhile,
      List.reverse_append]
    rfl

theorem bare_eq_nil_iff : bare line = [] ↔ isBlankLine line = true := by
  rw [bare, Text.dropEndWhile, List.reverse_eq_nil_iff, List.dropWhile_eq_nil_iff, isBlankLine,
    List.all_eq_true]
  exact forall_congr' fun c => by rw [List.mem_reverse]

theorem dataOf?_of_head? (h : (bare line).head? = some ':') : dataOf? line = none := by
  have hbefore : Text.before ':' (bare line) = [] := by
    cases hbare : bare line with
    | nil => rfl
    | cons c rest =>
      obtain rfl : c = ':' := by simpa [hbare] using h
      rfl
  rw [dataOf?, hbefore, if_neg (by decide)]

theorem dataOf?_eq_none_iff :
    dataOf? line = none ↔ Text.before ':' (bare line) ≠ "data".toList := by
  simp [dataOf?]

theorem isIdle_iff : isIdle line = true ↔ isBlankLine line = false ∧ dataOf? line = none := by
  -- a comment names no field, so it is one of the lines that carry no value
  have hcolon : (bare line).head? = some ':' → Text.before ':' (bare line) ≠ "data".toList :=
    fun h => dataOf?_eq_none_iff.mp (dataOf?_of_head? h)
  simp only [isIdle, Bool.and_eq_true, Bool.or_eq_true, decide_eq_true_eq,
    or_iff_right_of_imp hcolon, dataOf?_eq_none_iff, ne_eq, bare_eq_nil_iff, Bool.not_eq_true]

theorem unspaced_eq (value : Text) :
    unspaced value = if value.head? = some ' ' then value.tail else value := by
  unfold unspaced
  split
  · rfl
  next hspace =>
    refine (if_neg fun hhead => ?_).symm
    obtain ⟨rest, rfl⟩ := List.head?_eq_some_iff.mp hhead
    exact hspace rest rfl

/-- A line is blank, or it carries a value, or it means nothing. -/
theorem partOf_eq (line : Text) :
    partOf line = if isBlankLine line then .blank else (dataOf? line).elim .other .data := by
  by_cases hblank : isBlankLine line = true
  · have hbare : Text.dropEndWhile (· == '\r') line = [] := bare_eq_nil_iff.mpr hblank
    rw [partOf, hbare, if_pos hblank]
  · rw [if_neg hblank, partOf, ← bare]
    split
    next hbare => exact absurd (bare_eq_nil_iff.mp hbare) hblank
    next hbare =>
      rw [dataOf?_of_head? (by rw [hbare]; rfl)]
      rfl
    next =>
      rw [dataOf?, unspaced_eq]
      split <;> rfl

/-- A line ends the frame, or it adds the value that it carries, if any. -/
theorem step_eq (data : List Text) (line : Text) :
    step data line =
      if isBlankLine line then ([], close data) else (data ++ (dataOf? line).toList, none) := by
  rw [step, partOf_eq]
  by_cases hblank : isBlankLine line = true
  · simp only [if_pos hblank]
  · simp only [if_neg hblank]
    cases dataOf? line with
    | none => rw [Option.toList_none, List.append_nil]; rfl
    | some v => rfl

theorem run_cons (data : List Text) (line : Text) (rest : List Text) :
    run data (line :: rest) =
      ((run (step data line).1 rest).1,
        (step data line).2.toList ++ (run (step data line).1 rest).2) :=
  rfl

theorem step_idle (h : isIdle line = true) (data : List Text) : step data line = (data, none) := by
  obtain ⟨hblank, hnone⟩ := isIdle_iff.mp h
  rw [step_eq, hblank, hnone]
  simp

theorem step_append_return (data : List Text) (line : Text) (n : ℕ) :
    step data (line ++ List.replicate n '\r') = step data line := by
  rw [step, step, partOf, partOf, ← bare, ← bare, bare_append_return]

theorem run_congr {l l' : Text} (h : ∀ data, step data l = step data l') (a b : List Text) :
    run data (a ++ l :: b) = run data (a ++ l' :: b) := by
  simp only [run_append, run, h]

/-- A line that leaves every frame as it is can be left out. -/
theorem run_idle (h : isIdle line = true) (a b : List Text) :
    run data (a ++ line :: b) = run data (a ++ b) := by
  simp only [run_append, run, step_idle h, Option.toList_none, List.nil_append]

/-! ## Frames -/

theorem close_eq_outcome? (frame : List Text) : close (frame.filterMap dataOf?) = outcome? frame := by
  rw [outcome?, payload?, close]
  split <;> rfl

/-- Lines of which none is blank stay in the frame that is open. -/
theorem run_open (h : ∀ line ∈ lines, isBlankLine line = false) :
    run data lines = (data ++ lines.filterMap dataOf?, []) := by
  induction lines generalizing data with
  | nil => simp [run]
  | cons line rest ih =>
    rw [List.forall_mem_cons] at h
    rw [run_cons, step_eq, if_neg (by simp [h.1]), ih h.2]
    cases hdata : dataOf? line <;> simp [hdata]

/-- The lines behind a blank one start afresh. -/
theorem run_frame (hopen : ∀ line ∈ frame, isBlankLine line = false)
    (hblank : isBlankLine line = true) (lines : List Text) :
    run [] (frame ++ line :: lines) =
      ((run [] lines).1, (outcome? frame).toList ++ (run [] lines).2) := by
  rw [run_append, run_open hopen, run_cons, step_eq, if_pos hblank, ← close_eq_outcome?]
  rfl

/-- Lines that hold a blank one are a frame and more lines behind it. -/
theorem exists_frame (h : ¬∀ line ∈ lines, isBlankLine line = false) :
    ∃ frame line rest, lines = frame ++ line :: rest ∧
      (∀ line ∈ frame, isBlankLine line = false) ∧ isBlankLine line = true := by
  simp only [Bool.not_eq_false, not_forall] at h
  obtain ⟨line, hmem, hblank⟩ := h
  obtain ⟨line, frame, rest, hopen, hline, rfl, -⟩ := List.exists_of_eraseP hmem hblank
  exact ⟨frame, line, rest, rfl, fun l hl => Bool.eq_false_iff.mpr (hopen l hl), hline⟩

/-- What comes of lines: all frames but the last have ended, and the last is open. -/
theorem run_eq (lines : List Text) :
    ∃ last, (framesOf lines).getLast? = some last ∧
      run [] lines =
        (last.filterMap dataOf?, (framesOf lines).dropLast.filterMap outcome?) := by
  -- by the first blank line: what stands behind it is a stream of its own
  by_cases hopen : ∀ line ∈ lines, isBlankLine line = false
  · rw [framesOf, List.splitOnP_eq_singleton hopen]
    exact ⟨lines, rfl, run_open hopen⟩
  · obtain ⟨frame, line, rest, hlines, hframe, hline⟩ := exists_frame hopen
    obtain ⟨last, hlast, hrun⟩ := run_eq rest
    have hframes : framesOf lines = frame :: framesOf rest := by
      rw [hlines]
      exact List.splitOnP_append_cons_of_forall_mem hframe _ hline _
    have hne : framesOf rest ≠ [] := List.splitOnP_ne_nil _ _
    refine ⟨last, ?_, ?_⟩
    · rw [hframes, List.getLast?_cons_of_ne_nil hne, hlast]
    · rw [hframes, List.dropLast_cons_of_ne_nil hne, hlines, run_frame hframe hline, hrun]
      cases houtcome : outcome? frame <;> simp [houtcome]
termination_by lines.length
decreasing_by
  rw [hlines, List.length_append, List.length_cons]
  omega

/-- The outcomes of an event stream are those of its frames, in order. -/
theorem outcomes_eq (lines : List Text) : outcomes lines = (framesOf lines).filterMap outcome? := by
  obtain ⟨last, hlast, hrun⟩ := run_eq lines
  have hframes : (framesOf lines).dropLast ++ [last] = framesOf lines :=
    List.dropLast_append_getLast? last hlast
  have hclose : (close (last.filterMap dataOf?)).toList = [last].filterMap outcome? := by
    rw [close_eq_outcome?, List.filterMap_cons]
    cases outcome? last <;> rfl
  rw [outcomes, hrun]
  conv => rhs; rw [← hframes, List.filterMap_append, ← hclose]

theorem framesOf_append {z : Text} (hz : isBlankLine z = true) (a b : List Text) :
    framesOf (a ++ z :: b) = framesOf a ++ framesOf b :=
  List.splitOnP_append_cons a b hz

end

end Frame

namespace Source

open StoryPlayer.Frame

/-- A source that brings the records of frames up to the first that runs into a limit, with which
it fails, or else ends so. -/
structure Tells (s : Source) (fs : List (List Text)) (ending : Ending) : Prop where
  records : s.records = (fs.takeWhile isReadable).filterMap record?
  ending : s.ending = (fs.findSome? limit?).elim ending fun limit => .fail (.unreadable limit)

theorem tells_ofFrames {came : List (List Int × Outcome)} {fs : List (List Text)}
    (h : came.map (·.2) = fs.filterMap outcome?) (pauses : List Int) (ending : Ending) :
    (ofFrames came pauses ending).Tells fs ending := by
  induction fs generalizing came with
  | nil =>
    obtain rfl : came = [] := List.map_eq_nil_iff.mp h
    exact ⟨rfl, rfl⟩
  | cons f fs ih =>
    cases houtcome : outcome? f with
    | none =>
      have hlimit : limit? f = none := by rw [limit?, houtcome]
      have hrecord : record? f = none := by rw [record?, houtcome]; rfl
      rw [List.filterMap_cons_none houtcome] at h
      obtain ⟨hrecords, hending⟩ := ih h
      refine ⟨?_, ?_⟩
      · rw [hrecords, List.takeWhile_cons_of_pos (by rw [isReadable, hlimit]; rfl),
          List.filterMap_cons_none hrecord]
      · rw [hending, List.findSome?_cons_of_isNone (by rw [hlimit]; rfl)]
    | some o =>
      rw [List.filterMap_cons_some houtcome] at h
      obtain ⟨⟨waits, first⟩, came, rfl, hfirst, hcame⟩ := List.map_eq_cons_iff.mp h
      obtain rfl : first = o := hfirst
      cases first with
      | error limit =>
        have hlimit : limit? f = some limit := by rw [limit?, houtcome]
        refine ⟨?_, ?_⟩
        · rw [List.takeWhile_cons_of_neg (by simp [isReadable, hlimit])]
          rfl
        · rw [List.findSome?_cons, hlimit]
          rfl
      | ok r =>
        have hlimit : limit? f = none := by rw [limit?, houtcome]
        have hrecord : record? f = some r := by rw [record?, houtcome]; rfl
        obtain ⟨hrecords, hending⟩ := ih hcame
        refine ⟨?_, ?_⟩
        · rw [List.takeWhile_cons_of_pos (by rw [isReadable, hlimit]; rfl),
            List.filterMap_cons_some hrecord, ← hrecords]
          rfl
        · rw [List.findSome?_cons_of_isNone (by rw [hlimit]; rfl), ← hending]
          rfl

theorem findSome?_limit?_iff {fs : List (List Text)} :
    fs.findSome? limit? = none ↔ ∀ f ∈ fs, isReadable f = true := by
  simp [isReadable]

section

variable {s : Source} {fs : List (List Text)} {ending : Ending}

/-- Where no frame runs into a limit, all records come. -/
theorem Tells.whole (h : s.Tells fs ending) (hfs : ∀ f ∈ fs, isReadable f = true) :
    s.records = fs.filterMap record? ∧ s.ending = ending := by
  refine ⟨?_, ?_⟩
  · rw [h.records, List.takeWhile_eq_self_iff.mpr hfs]
  · rw [h.ending, findSome?_limit?_iff.mpr hfs]
    rfl

theorem Tells.ending_eq_iff (h : s.Tells fs .stop) :
    s.ending = .stop ↔ ∀ f ∈ fs, isReadable f = true := by
  rw [← findSome?_limit?_iff, h.ending]
  cases fs.findSome? limit? <;> simp

end

/-- The source that goes on with another one where it stops, and is the same where it does not. -/
def followedBy (s t : Source) : Source :=
  match s.ending with
  | .stop => { t with arrivals := s.arrivals ++ t.arrivals }
  | _ => s

theorem followedBy_of_stop {s : Source} (h : s.ending = .stop) (t : Source) :
    s.followedBy t = { t with arrivals := s.arrivals ++ t.arrivals } := by
  rw [followedBy, h]

theorem followedBy_of_ne {s : Source} (h : s.ending ≠ .stop) (t : Source) :
    s.followedBy t = s := by
  unfold followedBy
  split
  next hstop => exact absurd hstop h
  next => rfl

theorem cons_followedBy (a : Arrival) (s t : Source) :
    { s with arrivals := a :: s.arrivals }.followedBy t =
      { s.followedBy t with arrivals := a :: (s.followedBy t).arrivals } := by
  obtain ⟨arrivals, lastPauses, ending⟩ := s
  cases ending <;> rfl

theorem ofFrames_append (came came' : List (List Int × Outcome)) (pauses : List Int)
    (ending : Ending) :
    ofFrames (came ++ came') pauses ending =
      (ofFrames came [] .stop).followedBy (ofFrames came' pauses ending) := by
  induction came with
  | nil => rfl
  | cons first came ih =>
    obtain ⟨waits, o⟩ := first
    cases o with
    -- the first source fails here, so nothing of the second one is seen
    | error limit => rfl
    | ok r =>
      have hcons : ∀ came pauses ending, ofFrames ((waits, .ok r) :: came) pauses ending =
          { ofFrames came pauses ending with
            arrivals := ⟨waits, r⟩ :: (ofFrames came pauses ending).arrivals } := fun _ _ _ => rfl
      rw [List.cons_append, hcons, hcons, cons_followedBy, ih]

theorem ofLines_tells (lines : List Text) : (ofLines lines).Tells (framesOf lines) .stop :=
  tells_ofFrames (by rw [List.map_map, ← outcomes_eq]; exact List.map_id _) [] .stop

/-- A blank line, and nothing else, parts a stream from the one that goes on behind it. -/
theorem ofLines_append {z : Text} (hz : isBlankLine z = true) (a b : List Text) :
    ofLines (a ++ z :: b) = (ofLines a).followedBy (ofLines b) := by
  rw [ofLines, outcomes_eq, framesOf_append hz, List.filterMap_append, ← outcomes_eq,
    ← outcomes_eq, List.map_append, ofFrames_append]
  rfl

theorem records_followedBy_iff (s t : Source) :
    (s.followedBy t).records = s.records ++ t.records ↔ s.ending = .stop ∨ t.records = [] := by
  by_cases hstop : s.ending = .stop
  · rw [followedBy_of_stop hstop]
    exact iff_of_true List.map_append (.inl hstop)
  · rw [followedBy_of_ne hstop, or_iff_right hstop, List.self_eq_append_right]

/-- The frames of an event stream are taken one by one. What comes are the records of the frames
between the blank lines, each from the values of its own data lines, up to the first frame whose
payload runs into a limit of the reader; the stream stops if there is none, and else fails. So where
a blank line stands, the lines in front of it and those behind are streams of their own, of which
the second goes on where the first stops: the records are those of both unless the first fails and
the second has any. A line that means nothing can be left out wherever it stands, and carriage
returns at the end of a line change nothing. -/
theorem ofLines_frames (a b : List Text) :
    (ofLines a).records = ((framesOf a).takeWhile isReadable).filterMap record? ∧
    ((ofLines a).ending = .stop ↔ ∀ f ∈ framesOf a, isReadable f = true) ∧
    (∀ z, isBlankLine z = true →
      ofLines (a ++ z :: b) = (ofLines a).followedBy (ofLines b) ∧
      ((ofLines (a ++ z :: b)).records = (ofLines a).records ++ (ofLines b).records ↔
        (ofLines a).ending = .stop ∨ (ofLines b).records = [])) ∧
    (∀ line, isIdle line = true → ofLines (a ++ line :: b) = ofLines (a ++ b)) ∧
    ∀ line n, ofLines (a ++ (line ++ List.replicate n '\r') :: b) = ofLines (a ++ line :: b) := by
  have htells := ofLines_tells a
  refine ⟨htells.records, htells.ending_eq_iff, fun z hz => ⟨ofLines_append hz a b, ?_⟩,
    fun line hline => ?_, fun line n => ?_⟩
  · rw [ofLines_append hz]
    exact records_followedBy_iff _ _
  · rw [ofLines, outcomes, run_idle hline, ofLines, outcomes]
  · rw [ofLines, outcomes, run_congr fun data => step_append_return data line n, ofLines, outcomes]

/-- A frame that is no JSON at all, an integer of too many digits with a comma behind it, takes the
done record in the frame behind it with itself. -/
theorem ofLines_lost :
    let long := "data: ".toList ++ List.replicate 4301 '1' ++ [',']
    let done := "data: \x7b\"type\": \"done\"\x7d".toList
    (ofLines [long]).records = [] ∧ (ofLines [done]).records = [⟨.done, []⟩] ∧
      (ofLines ([long] ++ [] :: [done])).records = [] := by
  intro long done
  refine ⟨?_, ?_, ?_⟩
  · decide +kernel
  · decide +kernel
  · decide +kernel

end Source

end StoryPlayer
