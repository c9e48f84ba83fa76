import Mathlib.Data.List.Infix
import Mathlib.Data.List.TakeWhile
import StoryPlayer.Text.Basic

/-!
# Complete lines

A text that comes piece by piece is cut into lines again and again. What was cut off as complete
stays so: text that is added goes on with the last line and leaves the others alone. So the complete
lines and the last line are all that has to be kept of a text.
-/

namespace StoryPlayer.Text

/-- The lines that are followed by a line feed. -/
def fullLines (t : Text) : List Text :=
  (lines t).dropLast

/-- What follows the last line feed. -/
def lastLine (t : Text) : Text :=
  (lines t).getLastD []

/-! ## Pieces and joins -/

theorem pieces_eq_singleton {sep : Char} {t : Text} (h : sep ∉ t) : pieces sep t = [t] := by
  induction t with
  | nil => rfl
  | cons c t ih =>
    obtain ⟨hc, ht⟩ := List.ne_and_not_mem_of_not_mem_cons h
    rw [pieces, if_neg hc.symm, ih ht]

theorem pieces_append_sep {sep : Char} {t : Text} (h : sep ∉ t) (rest : Text) :
    pieces sep (t ++ sep :: rest) = t :: pieces sep rest := by
  induction t with
  | nil => exact if_pos rfl
  | cons c t ih =>
    obtain ⟨hc, ht⟩ := List.ne_and_not_mem_of_not_mem_cons h
    rw [List.cons_append, pieces, if_neg hc.symm, ih ht]

theorem pieces_cons_self (sep : Char) (t : Text) : pieces sep (sep :: t) = [] :: pieces sep t :=
  if_pos rfl

theorem pieces_cons_of_ne {sep c : Char} (h : c ≠ sep) {t p : Text} {ps : List Text}
    (ht : pieces sep t = p :: ps) : pieces sep (c :: t) = (c :: p) :: ps := by
  rw [pieces, if_neg h, ht]

theorem pieces_eq (sep : Char) (t : Text) :
    pieces sep t = (pieces sep t).dropLast ++ [(pieces sep t).getLastD []] := by
  have hlast := List.getLast?_eq_some_getLast (pieces_ne_nil sep t)
  rw [List.getLastD_eq_getLast?, hlast]
  exact (List.dropLast_concat_getLast (pieces_ne_nil sep t)).symm

/-- Text that is added goes on with the last piece. -/
theorem pieces_append (sep : Char) (t u : Text) :
    pieces sep (t ++ u) =
      (pieces sep t).dropLast ++ pieces sep ((pieces sep t).getLastD [] ++ u) := by
  induction t with
  | nil => rfl
  | cons c t ih =>
    obtain ⟨p, ps, hp⟩ := List.exists_cons_of_ne_nil (pieces_ne_nil sep t)
    by_cases hc : c = sep
    · subst hc
      rw [List.cons_append, pieces_cons_self, pieces_cons_self, ih, hp]
      rfl
    · rw [pieces_cons_of_ne hc hp]
      rw [hp] at ih
      cases ps with
      | nil =>
        -- The whole of `t` is one piece, which now begins with `c`.
        obtain ⟨q, qs, hq⟩ := List.exists_cons_of_ne_nil (pieces_ne_nil sep (p ++ u))
        have hu : pieces sep (t ++ u) = q :: qs := ih.trans hq
        change pieces sep (c :: (t ++ u)) = pieces sep (c :: (p ++ u))
        rw [pieces_cons_of_ne hc hu, pieces_cons_of_ne hc hq]
      | cons q qs => exact pieces_cons_of_ne hc ih

/-- A join is the first texts, each followed by the separator, and the join of the rest. -/
theorem join_append (sep : Text) (ts : List Text) {us : List Text} (h : us ≠ []) :
    join sep (ts ++ us) = join sep (ts ++ [[]]) ++ join sep us := by
  unfold join
  induction ts with
  | nil => rw [List.nil_append, List.nil_append, List.intercalate_singleton, List.nil_append]
  | cons t ts ih =>
    have hus : ts ++ us ≠ [] := List.append_ne_nil_of_right_ne_nil ts h
    have hend : ts ++ [[]] ≠ [] := List.append_ne_nil_of_right_ne_nil ts (List.cons_ne_nil [] [])
    rw [List.cons_append, List.intercalate_cons_of_ne_nil hus, ih, List.cons_append,
      List.intercalate_cons_of_ne_nil hend]
    simp only [List.append_assoc]

/-- Texts without the separator are the pieces of their join. -/
theorem pieces_join {sep : Char} {ts : List Text} (hne : ts ≠ []) (h : ∀ t ∈ ts, sep ∉ t) :
    pieces sep (join [sep] ts) = ts := by
  unfold join
  induction ts with
  | nil => exact absurd rfl hne
  | cons t ts ih =>
    have ht := h t List.mem_cons_self
    cases ts with
    | nil => rw [List.intercalate_singleton, pieces_eq_singleton ht]
    | cons u us =>
      have hus := ih (List.cons_ne_nil u us) fun v hv => h v (List.mem_cons_of_mem t hv)
      rw [List.intercalate_cons_cons, List.append_assoc, List.singleton_append,
        pieces_append_sep ht, hus]

theorem not_mem_join {c : Char} {sep : Text} (hsep : c ∉ sep) {ts : List Text}
    (h : ∀ t ∈ ts, c ∉ t) : c ∉ join sep ts := by
  unfold join
  induction ts with
  | nil => exact List.not_mem_nil
  | cons t ts ih =>
    have ht := h t List.mem_cons_self
    cases ts with
    | nil => rwa [List.intercalate_singleton]
    | cons u us =>
      have hus := ih fun v hv => h v (List.mem_cons_of_mem t hv)
      simp [List.intercalate_cons_cons, ht, hsep, hus]

theorem subset_of_mem_pieces {sep : Char} {t piece : Text} (h : piece ∈ pieces sep t) :
    piece ⊆ t := by
  intro c hc
  rw [← join_pieces sep t]
  unfold join
  generalize pieces sep t = ts at h
  induction ts with
  | nil => cases h
  | cons u us ih =>
    cases us with
    | nil =>
      rw [List.mem_singleton.mp h] at hc
      rwa [List.intercalate_singleton]
    | cons v vs =>
      rw [List.intercalate_cons_cons, List.mem_append, List.mem_append]
      rcases List.mem_cons.mp h with rfl | h
      · exact .inl (.inl hc)
      · exact .inr (ih h)

/-! ## Lines of a text that grows -/

theorem lines_ne_nil (t : Text) : lines t ≠ [] :=
  pieces_ne_nil '\n' t

theorem join_lines (t : Text) : join ['\n'] (lines t) = t :=
  join_pieces '\n' t

theorem lines_eq (t : Text) : lines t = fullLines t ++ [lastLine t] :=
  pieces_eq '\n' t

theorem not_mem_of_mem_fullLines {t l : Text} (h : l ∈ fullLines t) : '\n' ∉ l :=
  not_mem_of_mem_pieces (List.mem_of_mem_dropLast h)

theorem not_mem_lastLine (t : Text) : '\n' ∉ lastLine t := by
  refine not_mem_of_mem_pieces (t := t) ?_
  rw [← lines, lines_eq]
  exact List.mem_append_right _ List.mem_cons_self

theorem lastLine_eq_self {t : Text} (h : '\n' ∉ t) : lastLine t = t := by
  rw [lastLine, lines, pieces_eq_singleton h]
  rfl

/-- The complete lines, each with its line feed, are what stands before the last line. -/
theorem exists_append_lastLine (t : Text) :
    ∃ u, t = u ++ lastLine t ∧ lines u = fullLines t ++ [[]] := by
  refine ⟨join ['\n'] (fullLines t ++ [[]]), ?_, ?_⟩
  · have hjoin := join_append ['\n'] (fullLines t) (List.cons_ne_nil (lastLine t) [])
    rw [← lines_eq, join_lines, join, join, List.intercalate_singleton] at hjoin
    exact hjoin
  · refine pieces_join (List.append_ne_nil_of_right_ne_nil _ (List.cons_ne_nil [] [])) ?_
    intro l hl
    rcases List.mem_append.mp hl with hl | hl
    · exact not_mem_of_mem_fullLines hl
    · rw [List.mem_singleton.mp hl]
      exact List.not_mem_nil

theorem lines_append (t u : Text) : lines (t ++ u) = fullLines t ++ lines (lastLine t ++ u) :=
  pieces_append '\n' t u

theorem lines_append_newline (t u : Text) : lines (t ++ '\n' :: u) = lines t ++ lines u := by
  have hlast : lines (lastLine t ++ '\n' :: u) = lastLine t :: lines u :=
    pieces_append_sep (not_mem_lastLine t) u
  rw [lines_append, hlast, lines_eq t, List.append_assoc, List.singleton_append]

theorem fullLines_append (t u : Text) :
    fullLines (t ++ u) = fullLines t ++ fullLines (lastLine t ++ u) := by
  have hne := lines_ne_nil (lastLine t ++ u)
  unfold fullLines
  rw [lines_append, List.dropLast_append_of_ne_nil hne, fullLines]

theorem lastLine_append (t u : Text) : lastLine (t ++ u) = lastLine (lastLine t ++ u) := by
  rw [lastLine, lines_append, lines_eq (lastLine t ++ u), ← List.append_assoc,
    List.getLastD_concat]

/-- A text whose last line is empty has no line at all or ends in a line feed. -/
theorem getLast?_of_lastLine_eq_nil {t : Text} (h : lastLine t = []) :
    t = [] ∨ t.getLast? = some '\n' := by
  rcases List.eq_nil_or_concat t with rfl | ⟨u, c, rfl⟩
  · exact .inl rfl
  · right
    rw [List.concat_eq_append] at h ⊢
    rw [List.getLast?_concat]
    by_contra hc
    -- Otherwise the last character belongs to the last line.
    have hne : '\n' ≠ c := fun heq => hc (congrArg some heq.symm)
    have hlast : '\n' ∉ lastLine u ++ [c] :=
      List.not_mem_append (not_mem_lastLine u) (by simpa using hne)
    rw [lastLine_append, lastLine_eq_self hlast] at h
    exact List.cons_ne_nil c [] (List.append_eq_nil_iff.mp h).2

theorem after?_append (mark t : Text) : after? mark (mark ++ t) = some t := by
  induction mark with
  | nil => rfl
  | cons c mark ih => rw [List.cons_append, after?, if_pos rfl, ih]

/-! ## Blank texts -/

theorem trim_eq_nil_iff {t : Text} : trim t = [] ↔ ∀ c ∈ t, isBlank c = true := by
  unfold trim trimLeft dropEndWhile
  rw [List.reverse_eq_nil_iff, List.dropWhile_eq_nil_iff]
  constructor
  · intro h c hc
    by_cases hleft : c ∈ t.dropWhile isBlank
    · exact h c (List.mem_reverse.mpr hleft)
    · rw [← List.takeWhile_append_dropWhile (p := isBlank) (l := t)] at hc
      exact List.mem_takeWhile_imp ((List.mem_append.mp hc).resolve_right hleft)
  · intro h c hc
    exact h c ((List.dropWhile_suffix isBlank).subset (List.mem_reverse.mp hc))

theorem trim_eq_nil_of_mem_lines {t l : Text} (h : trim t = []) (hl : l ∈ lines t) :
    trim l = [] := by
  rw [trim_eq_nil_iff] at h ⊢
  exact fun c hc => h c (subset_of_mem_pieces hl hc)

end StoryPlayer.Text
