import StoryPlayer.Session.Clock

/-!
# How a session settles

A session settles by turns and is then what its last turn has left, so two sessions settle alike as
soon as turns of theirs lead to the same one. Running it on lets its alarms go off one after another,
the earliest first.
-/

namespace StoryPlayer.Session

/-! ## Turns -/

theorem exhaust_of_some {next? : Session → Option Session} {s t : Session} (h : next? s = some t) :
    exhaust next? s = exhaust next? t := by
  rw [exhaust, repeatM_eq_of_monadTail, repeatM.body, h]
  rfl

theorem exhaust_of_none {next? : Session → Option Session} {s : Session} (h : next? s = none) :
    exhaust next? s = s := by
  rw [exhaust, repeatM_eq_of_monadTail, repeatM.body, h]
  rfl

theorem settle_of_turn {s t : Session} (h : s.turn? = some t) : s.settle = t.settle :=
  exhaust_of_some h

theorem settle_of_quiet {s : Session} (h : s.turn? = none) : s.settle = s :=
  exhaust_of_none h

/-- What so many turns lead to. -/
def turns : Nat → Session → Session
  | 0, s => s
  | n + 1, s =>
    match s.turn? with
    | some t => turns n t
    | none => s

theorem settle_eq_turns {s : Session} (n : Nat) (h : (s.turns n).turn?.isNone = true) :
    s.settle = s.turns n := by
  induction n generalizing s with
  | zero => exact settle_of_quiet (Option.isNone_iff_eq_none.mp h)
  | succ n ih =>
    unfold turns at h ⊢
    cases hturn : s.turn? with
    | none => exact settle_of_quiet hturn
    | some t =>
      rw [hturn] at h
      exact (settle_of_turn hturn).trans (ih h)

/-- The session that has nothing at hand but its tasks. -/
def resting (s : Session) : Session :=
  { s with control := .idle }

theorem settle_resting_cons {s : Session} {t : Task} {rest : List Task} (h : s.queue = t :: rest) :
    s.resting.settle = ({ s.resting with queue := rest }.begin t).settle := by
  apply settle_of_turn
  simp [turn?, resting, h]

theorem settle_resting_nil {s : Session} (h : s.queue = []) : s.resting.settle = s.resting := by
  apply settle_of_quiet
  simp [turn?, resting, h]

/-- An answer that no step waits for goes nowhere. -/
theorem settle_answer_none (s : Session) (r : Result) :
    { s with control := .answer r ⟨none, []⟩ }.settle = s.resting.settle :=
  settle_of_turn rfl

theorem settle_answer_some (s : Session) (r : Result) (k : Nat) :
    { s with control := .answer r ⟨some k, []⟩ }.settle =
      { s with finished := s.finished.push (k, r) }.resting.settle :=
  settle_of_turn rfl

/-- The session in which the choices of a final text have been offered. -/
def offering (s : Session) (i : Nat) (k : Intake) (final : Text) : Session :=
  let g := k.ingestor.offer final
  { s.setIngestor i g with
    offered := if k.offers then s.offered.push g.choices else s.offered }

theorem settle_answer_offer {s : Session} {i : Nat} {k : Intake} (h : s.intakes[i]? = some k)
    (final : Text) (step : Option Nat) (rest : List Remainder) :
    { s with control := .answer .nothing ⟨step, .offer i final :: rest⟩ }.settle =
      { s.offering i k final with control := .answer .nothing ⟨step, rest⟩ }.settle := by
  apply settle_of_turn
  simp only [turn?, answer, h]
  rfl

theorem settle_answer_consume (s : Session) (reader : Reader) (step : Option Nat)
    (rest : List Remainder) :
    { s with control := .answer .nothing ⟨step, .consume reader :: rest⟩ }.settle =
      { s with control := .read reader ⟨step, rest⟩ }.settle :=
  settle_of_turn rfl

/-- The actions of a batch are performed one after another. -/
theorem settle_batch (s : Session) (a : Action) (rest : List Action) (step : Option Nat)
    (more : List Remainder) :
    { s with control := .perform (.batch (a :: rest)) ⟨step, more⟩ }.settle =
      { s with control := .perform a ⟨step, .batch rest [] :: more⟩ }.settle :=
  settle_of_turn rfl

theorem settle_answer_batch_cons (s : Session) {r : Result} (hr : ∀ f, r ≠ .failed f) (a : Action)
    (rest : List Action) (results : List Result) (step : Option Nat) (more : List Remainder) :
    { s with control := .answer r ⟨step, .batch (a :: rest) results :: more⟩ }.settle =
      { s with control := .perform a ⟨step, .batch rest (results ++ [r]) :: more⟩ }.settle := by
  apply settle_of_turn
  cases r with
  | failed f => exact absurd rfl (hr f)
  | _ => rfl

theorem settle_answer_batch_nil (s : Session) {r : Result} (hr : ∀ f, r ≠ .failed f)
    (results : List Result) (step : Option Nat) (more : List Remainder) :
    { s with control := .answer r ⟨step, .batch [] results :: more⟩ }.settle =
      { s with control := .answer (.all (results ++ [r])) ⟨step, more⟩ }.settle := by
  apply settle_of_turn
  cases r with
  | failed f => exact absurd rfl (hr f)
  | _ => rfl

/-! ## Alarms -/

theorem earliest_eq_none {as : List Alarm} (h : earliest as = none) : as = [] := by
  cases as with
  | nil => rfl
  | cons a rest =>
    unfold earliest at h
    split at h
    · split at h <;> cases h
    · cases h

theorem earliest_eq_some {as : List Alarm} {a : Alarm} (h : earliest as = some a) :
    a ∈ as ∧ ∀ b ∈ as, a.due ≤ b.due := by
  induction as generalizing a with
  | nil => cases h
  | cons c rest ih =>
    unfold earliest at h
    cases hrest : earliest rest with
    | none =>
      rw [hrest] at h
      cases h
      rw [earliest_eq_none hrest]
      simp
    | some b =>
      obtain ⟨hb, hleast⟩ := ih hrest
      rw [hrest] at h
      dsimp only at h
      split at h
      next hlt =>
        cases h
        refine ⟨List.mem_cons_of_mem c hb, List.forall_mem_cons.mpr ⟨Int.le_of_lt hlt, hleast⟩⟩
      next hle =>
        cases h
        refine ⟨List.mem_cons_self, List.forall_mem_cons.mpr ⟨Int.le_refl _, fun d hd => ?_⟩⟩
        exact Int.le_trans (Int.not_lt.mp hle) (hleast d hd)

theorem ringWhile_of_none {s : Session} (goesOn : Session → Alarm → Bool)
    (h : earliest (s.alarms.filter s.isLive) = none) : ringWhile goesOn s = s := by
  apply exhaust_of_none
  simp only [afterAlarm?, h]

theorem ringWhile_of_some {s : Session} {goesOn : Session → Alarm → Bool} {a : Alarm}
    (h : earliest (s.alarms.filter s.isLive) = some a) (hgoes : goesOn s a = true) :
    ringWhile goesOn s =
      ringWhile goesOn
        ({ s with alarms := (s.alarms.filter s.isLive).erase a }.ring a).settle := by
  apply exhaust_of_some
  simp only [afterAlarm?, h, hgoes, if_true]

theorem ringWhile_of_stop {s : Session} {goesOn : Session → Alarm → Bool} {a : Alarm}
    (h : earliest (s.alarms.filter s.isLive) = some a) (hgoes : goesOn s a = false) :
    ringWhile goesOn s = s := by
  apply exhaust_of_none
  simp [afterAlarm?, h, hgoes]

end StoryPlayer.Session
