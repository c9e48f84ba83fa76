import Mathlib.Data.List.Forall2
import StoryPlayer.Schema.Field

/-!
# Records that passed their check

A record passes its check when each of its fields does, and what it comes to is made of what the
fields come to. A field that is left out counts as its default, as if that had been written there.
-/

namespace StoryPlayer.Schema

open Json

/-! ## Checks one after another -/

namespace Checked

variable {α β γ : Type}

theorem both_eq_ok_iff {f : α → β → γ} {a : Checked α} {b : Checked β} {c : γ} :
    both f a b = .ok c ↔ ∃ x y, a = .ok x ∧ b = .ok y ∧ c = f x y := by
  constructor
  · intro h
    cases a <;> cases b <;> cases h
    exact ⟨_, _, rfl, rfl, rfl⟩
  · rintro ⟨x, y, rfl, rfl, rfl⟩
    rfl

theorem apply_eq_ok_iff {f : Checked (α → β)} {a : Checked α} {b : β} :
    f.apply a = .ok b ↔ ∃ g x, f = .ok g ∧ a = .ok x ∧ b = g x :=
  both_eq_ok_iff

theorem map_eq_ok_iff {f : α → β} {a : Checked α} {b : β} :
    a.map f = .ok b ↔ ∃ x, a = .ok x ∧ b = f x := by
  constructor
  · intro h
    cases a <;> cases h
    exact ⟨_, rfl, rfl⟩
  · rintro ⟨x, rfl, rfl⟩
    rfl

theorem under_eq_ok_iff {part : Text} {c : Checked α} {a : α} :
    c.under part = .ok a ↔ c = .ok a := by
  cases c with
  | ok x => rfl
  | error cs => exact iff_of_false nofun nofun

theorem under_map (part : Text) (f : α → β) (c : Checked α) :
    (c.under part).map f = Checked.under part (c.map f) := by
  cases c <;> rfl

end Checked

/-! ## Values of fields -/

theorem asText_eq_ok_iff {v : Value} {t : Text} : asText v = .ok t ↔ v = .text t := by
  cases v <;> simp [asText, Checked.fail]

variable {α : Type} {f : Value → Checked α}

/-- Items pass one by one. -/
theorem items_eq_ok_iff {n : Nat} {vs : List Value} {xs : List α} :
    items f n vs = .ok xs ↔ List.Forall₂ (fun v x => f v = .ok x) vs xs := by
  induction vs generalizing n xs with
  | nil =>
    rw [items, List.forall₂_nil_left_iff, Except.ok.injEq]
    exact eq_comm
  | cons v vs ih =>
    rw [items, Checked.both_eq_ok_iff]
    constructor
    · rintro ⟨x, ys, hx, hys, rfl⟩
      exact .cons (Checked.under_eq_ok_iff.mp hx) (ih.mp hys)
    · rintro (_ | ⟨hx, hys⟩)
      exact ⟨_, _, Checked.under_eq_ok_iff.mpr hx, ih.mpr hys, rfl⟩

theorem asTuple_eq_ok_iff {v : Value} {xs : List α} :
    asTuple f v = .ok xs ↔ ∃ vs, v = .list vs ∧ List.Forall₂ (fun v x => f v = .ok x) vs xs := by
  cases v <;> simp [asTuple, Checked.fail, items_eq_ok_iff]

/-! ## Fields -/

variable {name : String} {fields : List (Text × Value)} {a : α}

theorem field_eq_ok_iff :
    field name f (.object fields) = .ok a ↔
      ∃ v, lookup name.toList fields = some v ∧ f v = .ok a := by
  have hfield : (Value.object fields).field? name.toList = lookup name.toList fields := rfl
  rw [field, hfield]
  cases lookup name.toList fields <;> simp [Checked.under_eq_ok_iff, Checked.fail]

/-- A field that is left out passes as its default does where it is written. -/
theorem fieldOr_eq_ok_iff {default : α} {written : Value} (h : f written = .ok default) :
    fieldOr name default f (.object fields) = .ok a ↔
      f ((lookup name.toList fields).getD written) = .ok a := by
  have hfield : (Value.object fields).field? name.toList = lookup name.toList fields := rfl
  rw [fieldOr, hfield]
  cases lookup name.toList fields <;> simp [Checked.under_eq_ok_iff, h]

theorem fieldOr_map {β : Type} (name : String) (default : α) (f : Value → Checked α) (g : α → β)
    (v : Value) :
    (fieldOr name default f v).map g = fieldOr name (g default) (fun w => (f w).map g) v := by
  unfold fieldOr
  split
  · exact Checked.under_map _ _ _
  · rfl

end StoryPlayer.Schema
