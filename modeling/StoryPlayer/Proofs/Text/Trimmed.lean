import Mathlib.Data.List.DropRight
import StoryPlayer.Proofs.Text.Lines

/-!
# Trimmed texts and cuts

A text is trimmed by taking away what is blank at its ends, and nothing else comes of it: blanks
that are added at the ends do not change what is left. So a text may be cut first and its pieces
trimmed afterwards, or the other way round, as long as the separator is no blank itself.
-/

namespace StoryPlayer.Text

/-- There is nothing but blanks. -/
def Blank (t : Text) : Prop :=
  ∀ c ∈ t, isBlank c = true

/-- The text neither begins nor ends with a blank. -/
structure IsTrimmed (t : Text) : Prop where
  head : ∀ c ∈ t.head?, isBlank c = false
  last : ∀ c ∈ t.getLast?, isBlank c = false

/-- Drops the blanks at the back. -/
def trimRight (t : Text) : Text :=
  dropEndWhile isBlank t

/-! ## Blanks at the ends -/

theorem blank_nil : Blank [] :=
  nofun

theorem blank_singleton {c : Char} (h : isBlank c = true) : Blank [c] := by
  intro d hd
  rwa [List.mem_singleton.mp hd]

theorem trimLeft_blank_append {w : Text} (h : Blank w) (t : Text) :
    trimLeft (w ++ t) = trimLeft t :=
  List.dropWhile_append_of_pos h

theorem trimRight_append_blank {w : Text} (h : Blank w) (t : Text) :
    trimRight (t ++ w) = trimRight t := by
  unfold trimRight dropEndWhile
  rw [List.reverse_append, List.dropWhile_append_of_pos]
  exact fun c hc => h c (List.mem_reverse.mp hc)

/-- Only what follows the last character that is no blank is dropped. -/
theorem trimRight_append_cons {c : Char} (h : isBlank c = false) (t u : Text) :
    trimRight (t ++ c :: u) = t ++ c :: trimRight u := by
  unfold trimRight dropEndWhile
  have hrest : (c :: t.reverse).dropWhile isBlank = c :: t.reverse :=
    List.dropWhile_cons_of_neg (by simp [h])
  rw [List.reverse_append, List.reverse_cons, List.append_assoc, List.singleton_append,
    List.dropWhile_append, hrest]
  split
  next hnil => simp [List.isEmpty_iff.mp hnil]
  next => simp

theorem exists_trimRight_append (t : Text) : ∃ w, Blank w ∧ t = trimRight t ++ w :=
  ⟨t.rtakeWhile isBlank, fun _ => List.mem_rtakeWhile_imp,
    List.rdropWhile_append_rtakeWhile.symm⟩

theorem trim_blank_append {w : Text} (h : Blank w) (t : Text) : trim (w ++ t) = trim t :=
  congrArg trimRight (trimLeft_blank_append h t)

theorem trim_append_blank {w : Text} (h : Blank w) (t : Text) : trim (t ++ w) = trim t := by
  change trimRight (trimLeft (t ++ w)) = trimRight (trimLeft t)
  unfold trimLeft
  rw [List.dropWhile_append]
  split
  next hnil =>
    have hw : w.dropWhile isBlank = [] := List.dropWhile_eq_nil_iff.mpr h
    rw [List.isEmpty_iff.mp hnil, hw]
  next => exact trimRight_append_blank h _

theorem trim_trimRight (t : Text) : trim (trimRight t) = trim t := by
  obtain ⟨w, hw, ht⟩ := exists_trimRight_append t
  calc
    trim (trimRight t) = trim (trimRight t ++ w) := (trim_append_blank hw _).symm
    _ = trim t := by rw [← ht]

/-! ## Trimmed texts -/

theorem isTrimmed_of_any {t : Text} (h : t.any isBlank = false) : IsTrimmed t := by
  have hall : ∀ c ∈ t, isBlank c = false := by simpa using h
  exact ⟨fun c hc => hall c (List.mem_of_mem_head? hc),
    fun c hc => hall c (List.mem_of_mem_getLast? hc)⟩

theorem IsTrimmed.trimLeft_eq {t : Text} (h : IsTrimmed t) : trimLeft t = t := by
  cases t with
  | nil => rfl
  | cons c t => exact List.dropWhile_cons_of_neg (by simp [h.head c rfl])

theorem IsTrimmed.trimRight_eq {t : Text} (h : IsTrimmed t) : trimRight t = t := by
  refine List.rdropWhile_eq_self_iff.mpr fun hne => ?_
  simp [h.last _ (List.getLast?_eq_some_getLast hne)]

theorem IsTrimmed.trim_eq {t : Text} (h : IsTrimmed t) : trim t = t := by
  change trimRight (trimLeft t) = t
  rw [h.trimLeft_eq, h.trimRight_eq]

/-- A character that is no blank keeps what stands before it. -/
theorem IsTrimmed.trim_append_cons {t : Text} (h : IsTrimmed t) {c : Char}
    (hc : isBlank c = false) (u : Text) : trim (t ++ c :: u) = t ++ c :: trimRight u := by
  have hleft : trimLeft (t ++ c :: u) = t ++ c :: u := by
    cases t with
    | nil => exact List.dropWhile_cons_of_neg (by simp [hc])
    | cons d t => exact List.dropWhile_cons_of_neg (by simp [h.head d rfl])
  change trimRight (trimLeft (t ++ c :: u)) = _
  rw [hleft, trimRight_append_cons hc]

/-- What a trimmed text begins with has blanks at its back only. -/
theorem IsTrimmed.trim_left {t u : Text} (h : IsTrimmed (t ++ u)) : trim t = trimRight t := by
  cases t with
  | nil => rfl
  | cons c t =>
    have hleft : trimLeft (c :: t) = c :: t := List.dropWhile_cons_of_neg (by simp [h.head c rfl])
    exact congrArg trimRight hleft

theorem isTrimmed_trim (t : Text) : IsTrimmed (trim t) := by
  constructor
  · intro c hc
    -- What is dropped at the back does not reach the first character.
    obtain ⟨w, -, ht⟩ := exists_trimRight_append (trimLeft t)
    have hhead : (trimLeft t).head? = some c := by
      rw [ht, List.head?_append]
      change (trim t).head?.or w.head? = some c
      rw [Option.mem_def.mp hc, Option.some_or]
    have hfirst := List.head?_dropWhile_not isBlank t
    rw [← trimLeft, hhead] at hfirst
    exact hfirst
  · intro c hc
    have hlast := List.head?_dropWhile_not isBlank (trimLeft t).reverse
    rw [← List.getLast?_reverse, ← dropEndWhile, ← trim, Option.mem_def.mp hc] at hlast
    exact hlast

theorem trim_trim (t : Text) : trim (trim t) = trim t :=
  (isTrimmed_trim t).trim_eq

theorem trim_subset (t : Text) : trim t ⊆ t := by
  have hright : trim t ⊆ trimLeft t := (List.rdropWhile_prefix isBlank (trimLeft t)).subset
  exact List.Subset.trans hright (List.dropWhile_suffix isBlank).subset

/-! ## Cuts at the first separator -/

section

variable {sep : Char} {t u : Text}

theorem not_mem_before (sep : Char) (t : Text) : sep ∉ before sep t := by
  intro h
  have hne := List.mem_takeWhile_imp h
  simp at hne

theorem before_subset (sep : Char) (t : Text) : before sep t ⊆ t :=
  (List.takeWhile_prefix _).subset

theorem behind?_eq_some (h : behind? sep t = some u) : t = before sep t ++ sep :: u := by
  unfold behind? at h
  split at h
  · cases h
  next c rest hdrop =>
    cases h
    have hc := List.head?_dropWhile_not (· != sep) t
    rw [hdrop] at hc
    obtain rfl : c = sep := by simpa using hc
    rw [before, ← hdrop, List.takeWhile_append_dropWhile]

theorem behind?_subset (h : behind? sep t = some u) : u ⊆ t := by
  intro c hc
  rw [behind?_eq_some h]
  exact List.mem_append_right _ (List.mem_cons_of_mem sep hc)

theorem behind?_eq_none_iff : behind? sep t = none ↔ sep ∉ t := by
  unfold behind?
  constructor
  · intro h
    split at h
    next hdrop =>
      intro hsep
      simpa using List.dropWhile_eq_nil_iff.mp hdrop sep hsep
    · cases h
  · intro h
    have hdrop : t.dropWhile (· != sep) = [] := by
      refine List.dropWhile_eq_nil_iff.mpr fun c hc => ?_
      simpa using ne_of_mem_of_not_mem hc h
    rw [hdrop]

theorem before_append (h : sep ∉ t) (u : Text) : before sep (t ++ sep :: u) = t := by
  have hall : ∀ c ∈ t, (c != sep) = true := fun c hc => by simpa using ne_of_mem_of_not_mem hc h
  rw [before, List.takeWhile_append_of_pos hall, List.takeWhile_cons_of_neg (by simp),
    List.append_nil]

theorem behind?_append (h : sep ∉ t) (u : Text) : behind? sep (t ++ sep :: u) = some u := by
  have hall : ∀ c ∈ t, (c != sep) = true := fun c hc => by simpa using ne_of_mem_of_not_mem hc h
  rw [behind?, List.dropWhile_append_of_pos hall, List.dropWhile_cons_of_neg (by simp)]

theorem after?_eq_some {mark rest : Text} (h : after? mark t = some rest) : t = mark ++ rest := by
  induction mark generalizing t with
  | nil => exact Option.some.inj h
  | cons m mark ih =>
    cases t with
    | nil => cases h
    | cons c t =>
      rw [after?] at h
      split at h
      next heq => rw [heq, ih h, List.cons_append]
      · cases h

/-- A mark that ends in the separator is found where its name stands before the first one. -/
theorem after?_append_sep {name : Text} (hname : sep ∉ name) (ht : sep ∉ t) (u : Text) :
    after? (name ++ [sep]) (t ++ sep :: u) = if t = name then some u else none := by
  split
  next heq =>
    subst heq
    have hmark := after?_append (t ++ [sep]) u
    rwa [List.append_assoc, List.singleton_append] at hmark
  next hne =>
    refine Option.eq_none_iff_forall_ne_some.mpr fun rest hrest => hne ?_
    have hmark := after?_eq_some hrest
    rw [← List.append_cons] at hmark
    rw [← before_append ht u, hmark, before_append hname rest]

end

/-! ## Pieces up to blanks -/

section

variable {sep : Char} {w : Text}

theorem Blank.not_mem (h : Blank w) (hsep : isBlank sep = false) : sep ∉ w := by
  intro hmem
  rw [h sep hmem] at hsep
  cases hsep

theorem map_trim_pieces_append_blank (hsep : isBlank sep = false) (h : Blank w) (t : Text) :
    (pieces sep (t ++ w)).map trim = (pieces sep t).map trim := by
  have hlast : sep ∉ (pieces sep t).getLastD [] := by
    refine not_mem_of_mem_pieces (t := t) ?_
    rw [List.getLastD_eq_getLast?, List.getLast?_eq_some_getLast (pieces_ne_nil sep t)]
    exact List.getLast_mem _
  have hone : sep ∉ (pieces sep t).getLastD [] ++ w := by
    rw [List.mem_append]
    exact not_or.mpr ⟨hlast, h.not_mem hsep⟩
  rw [pieces_append, pieces_eq_singleton hone, pieces_eq sep t]
  simp [trim_append_blank h]

theorem map_trim_pieces_blank_append (hsep : isBlank sep = false) (h : Blank w) (t : Text) :
    (pieces sep (w ++ t)).map trim = (pieces sep t).map trim := by
  induction w with
  | nil => rfl
  | cons c w ih =>
    have hc : isBlank c = true := h c List.mem_cons_self
    have hne : c ≠ sep := ne_of_mem_of_not_mem List.mem_cons_self (h.not_mem hsep)
    obtain ⟨p, ps, hp⟩ := List.exists_cons_of_ne_nil (pieces_ne_nil sep (w ++ t))
    have hrest := ih fun d hd => h d (List.mem_cons_of_mem c hd)
    rw [hp] at hrest
    rw [List.cons_append, pieces_cons_of_ne hne hp, ← hrest]
    exact congrArg (· :: ps.map trim) (trim_blank_append (blank_singleton hc) p)

theorem map_trim_pieces_trimRight (hsep : isBlank sep = false) (t : Text) :
    (pieces sep (trimRight t)).map trim = (pieces sep t).map trim := by
  obtain ⟨w, hw, ht⟩ := exists_trimRight_append t
  calc
    (pieces sep (trimRight t)).map trim = (pieces sep (trimRight t ++ w)).map trim :=
      (map_trim_pieces_append_blank hsep hw _).symm
    _ = (pieces sep t).map trim := by rw [← ht]

/-- Blanks in front of a join and around its separators do not matter. -/
theorem map_trim_pieces_join (sep : Char) (hsep : isBlank sep = false) {w front back : Text}
    (hw : Blank w) (hfront : Blank front) (hback : Blank back) {ts : List Text} (hne : ts ≠ [])
    (h : ∀ t ∈ ts, sep ∉ t) :
    (pieces sep (w ++ join (front ++ sep :: back) ts)).map trim = ts.map trim := by
  rw [map_trim_pieces_blank_append hsep hw]
  unfold join
  induction ts with
  | nil => exact absurd rfl hne
  | cons t ts ih =>
    have ht := h t List.mem_cons_self
    cases ts with
    | nil => rw [List.intercalate_singleton, pieces_eq_singleton ht]
    | cons u us =>
      have hus := ih (List.cons_ne_nil u us) fun v hv => h v (List.mem_cons_of_mem t hv)
      have hfirst : sep ∉ t ++ front := by
        rw [List.mem_append]
        exact not_or.mpr ⟨ht, hfront.not_mem hsep⟩
      rw [List.intercalate_cons_cons, ← List.append_assoc t front, List.append_assoc,
        List.cons_append, pieces_append_sep hfirst, List.map_cons,
        map_trim_pieces_blank_append hsep hback, hus, trim_append_blank hfront]
      rfl

end

end StoryPlayer.Text
