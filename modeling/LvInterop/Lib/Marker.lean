import Mathlib.Data.List.Infix

/-!
# LvInterop.Lib.Marker

Texts cut at the first occurrence of a marker.

A marker whose first letter does not return in it cannot overlap itself.  What
stands before its first occurrence is then determined by the whole text, and so
is what stands behind (`append_marker_inj`), where the marker may return.
-/

namespace Lib

variable {α : Type*} {c : α} {m : List α}

/-- A letter that the marker does not have completes no marker. -/
theorem not_isInfix_concat {p : List α} {d : α} (hd : d ∉ c :: m) (h : ¬ c :: m <:+: p) :
    ¬ c :: m <:+: p ++ [d] := by
  intro hin
  rcases List.infix_concat_iff.mp hin with hsuf | hin
  · rcases List.suffix_concat_iff.mp hsuf with hnil | ⟨t, ht, -⟩
    · cases hnil
    · exact hd (by simp [ht])
  · exact h hin

/-- Between two occurrences of the marker there is nothing or a whole one. -/
theorem eq_nil_or_isInfix_of_marker (hc : c ∉ m) {x t₁ t₂ : List α}
    (h : c :: m ++ t₁ = x ++ (c :: m ++ t₂)) : x = [] ∨ c :: m <:+: x := by
  rcases List.append_eq_append_iff.mp h with ⟨as, rfl, -⟩ | ⟨bs, hx, ht⟩
  · exact .inr (List.prefix_append _ _).isInfix
  · cases x with
    | nil => exact .inl rfl
    | cons x₀ x =>
        cases bs with
        | nil =>
            rw [List.append_nil] at hx
            exact .inr (hx ▸ List.infix_refl _)
        | cons b bs =>
            -- an overlap would start with the marker's first letter
            obtain ⟨-, rfl⟩ := List.cons.inj hx
            obtain ⟨rfl, -⟩ := List.cons.inj ht
            exact absurd (by simp) hc

/-- **The first occurrence of the marker cuts the text in one way.** -/
theorem append_marker_inj (hc : c ∉ m) {p₁ p₂ t₁ t₂ : List α} (h₁ : ¬ c :: m <:+: p₁)
    (h₂ : ¬ c :: m <:+: p₂) (h : p₁ ++ (c :: m ++ t₁) = p₂ ++ (c :: m ++ t₂)) :
    p₁ = p₂ ∧ t₁ = t₂ := by
  rcases List.append_eq_append_iff.mp h with ⟨x, hp, hx⟩ | ⟨x, hp, hx⟩
  · obtain rfl | hin := eq_nil_or_isInfix_of_marker hc hx
    · exact ⟨by rw [hp, List.append_nil], List.append_cancel_left hx⟩
    · exact absurd (hp ▸ hin.trans (List.suffix_append p₁ x).isInfix) h₂
  · obtain rfl | hin := eq_nil_or_isInfix_of_marker hc hx
    · exact ⟨by rw [hp, List.append_nil], (List.append_cancel_left hx).symm⟩
    · exact absurd (hp ▸ hin.trans (List.suffix_append p₂ x).isInfix) h₁

end Lib
