import Mathlib.Data.List.Basic
import StoryPlayer.Wire.Exchange

/-!
# What a body brings

What the frames of a body come to depends on the octets that were received and not on the pieces in
which they came. A body whose lines all end in a break is taken line by line.
-/

namespace StoryPlayer

namespace Wire

/-- The octets that come in pieces. -/
def octetsOf : List Piece → List UInt8
  | [] => []
  | .pause _ :: rest => octetsOf rest
  | .octets bs :: rest => bs ++ octetsOf rest

namespace Body

variable (b : Body)

theorem take_append (bs cs : List UInt8) :
    b.take (bs ++ cs) =
      (((b.take bs).1.take cs).1, (b.take bs).2 ++ ((b.take bs).1.take cs).2) := by
  simp only [take, decode_append, takeText, cut_append, Frame.run_append]

/-- Where nothing is open, what is decoded as a whole is taken as text. -/
theorem take_eq_takeText {bs : List UInt8} {t : Text}
    (h : decode b.charset b.sequence bs = (t, b.sequence)) : b.take bs = b.takeText t := by
  unfold take
  rw [h]

end Body

/-- What comes in pieces is what the octets bring, whatever the pieces and the pauses. -/
theorem comings_eq (b : Body) (pauses : List Int) (pieces : List Piece) :
    (comings b pauses pieces).1.map (·.2) = (b.take (octetsOf pieces)).2 ∧
      (comings b pauses pieces).2.1 = (b.take (octetsOf pieces)).1 := by
  induction pieces generalizing b pauses with
  | nil => exact ⟨rfl, rfl⟩
  | cons piece rest ih =>
    cases piece with
    | pause micros => exact ih b (pauses ++ [micros])
    | octets bs =>
      simp only [comings, octetsOf, b.take_append]
      cases htake : b.take bs with
      | mk b' outcomes =>
        cases outcomes with
        | nil => simpa using ih b' pauses
        | cons o os =>
          obtain ⟨hcame, hbody⟩ := ih b' []
          refine ⟨?_, hbody⟩
          simp [hcame, Function.comp_def]

/-- The source of a body that does not break off has the outcomes of its octets in their order. -/
theorem sourceOfBody_eq (charset : Charset) (pieces : List Piece) :
    ∃ came pauses, sourceOfBody charset pieces none = .ofFrames came pauses .stop ∧
      came.map (·.2) = ((Body.new charset).take (octetsOf pieces)).2 ++
        ((Body.new charset).take (octetsOf pieces)).1.close := by
  obtain ⟨hcame, hbody⟩ := comings_eq (.new charset) [] pieces
  unfold sourceOfBody
  rw [← hcame, ← hbody]
  cases hcomings : comings (.new charset) [] pieces with
  | mk came rest =>
    obtain ⟨body, pauses⟩ := rest
    dsimp only
    cases hclose : body.close with
    | nil => exact ⟨came, pauses, rfl, by simp⟩
    | cons last more =>
      refine ⟨_, _, rfl, ?_⟩
      simp [Function.comp_def]

/-! ## Lines -/

/-- Whether a character goes on with its line. -/
def isInner (c : Char) : Bool :=
  !isBreak c && c != '\r'

/-- Characters that go on with their line stay on it. -/
theorem cut_inner {l : Text} (hl : ∀ c ∈ l, isInner c = true) (reversed : Text) :
    cut ⟨reversed, false⟩ l = ([], ⟨l.reverse ++ reversed, false⟩) := by
  induction l generalizing reversed with
  | nil => rfl
  | cons c l ih =>
    rw [List.forall_mem_cons] at hl
    have hc : isBreak c = false ∧ c ≠ '\r' := by simpa [isInner] using hl.1
    have hstep : cutStep ⟨reversed, false⟩ c = ([], ⟨c :: reversed, false⟩) := by
      simp [cutStep, extend, hc]
    simp [cut, hstep, ih hl.2]

/-- The characters up to a break are one line. -/
theorem cut_line {l : Text} (hl : ∀ c ∈ l, isInner c = true) {c : Char}
    (hc : isBreak c = true) (reversed rest : Text) :
    cut ⟨reversed, false⟩ (l ++ c :: rest) =
      ((reversed.reverse ++ l) :: (cut .none rest).1, (cut .none rest).2) := by
  have hreturn : c ≠ '\r' := by
    rintro rfl
    cases hc
  have hstep : cutStep ⟨l.reverse ++ reversed, false⟩ c = ([reversed.reverse ++ l], .none) := by
    simp [cutStep, extend, hreturn, hc]
  rw [cut_append, cut_inner hl, cut, hstep]
  rfl

/-- A body is taken line by line. -/
theorem Body.takeText_line {b : Body} (hb : b.line = .none) {l : Text}
    (hl : ∀ c ∈ l, isInner c = true) {c : Char} (hc : isBreak c = true) (rest : Text) :
    b.takeText (l ++ c :: rest) =
      (({ b with data := (Frame.step b.data l).1 }.takeText rest).1,
        (Frame.step b.data l).2.toList ++
          ({ b with data := (Frame.step b.data l).1 }.takeText rest).2) := by
  have hcut := cut_line hl hc [] rest
  simp only [takeText, hb, OpenLine.none] at hcut ⊢
  rw [hcut]
  rfl

end Wire

/-! ## Records of outcomes -/

/-- The records among the outcomes of frames. -/
def Frame.heard (os : List Frame.Outcome) : List StreamRecord :=
  os.filterMap Except.toOption

namespace Source

/-- Frames that come to records alone are all of the source. -/
theorem ofFrames_of_records {rs : List StreamRecord} {came : List (List Int × Frame.Outcome)}
    (h : came.map (·.2) = rs.map .ok) (pauses : List Int) (ending : Ending) :
    (ofFrames came pauses ending).records = rs ∧ (ofFrames came pauses ending).ending = ending := by
  induction came generalizing rs with
  | nil =>
    obtain rfl : rs = [] := by simpa using h.symm
    exact ⟨rfl, rfl⟩
  | cons first came ih =>
    cases rs with
    | nil => cases h
    | cons r rs =>
      obtain ⟨waits, o⟩ := first
      obtain ⟨rfl, hrest⟩ := List.cons.inj h
      obtain ⟨hrecords, hending⟩ := ih hrest
      exact ⟨congrArg (r :: ·) hrecords, hending⟩

/-- A source has no other records than its frames come to. -/
theorem length_ofFrames_le (came : List (List Int × Frame.Outcome)) (pauses : List Int)
    (ending : Ending) :
    (ofFrames came pauses ending).records.length ≤ (Frame.heard (came.map (·.2))).length := by
  induction came with
  | nil => exact Nat.le_refl 0
  | cons first came ih =>
    obtain ⟨waits, o⟩ := first
    cases o with
    | error limit => exact Nat.zero_le _
    | ok r => exact Nat.succ_le_succ ih

end Source

end StoryPlayer
