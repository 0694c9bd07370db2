import LvInterop.ErrorCluster
import LvInterop.Lib.Marker

/-!
# LvInterop.ErrorText

The text of an error cluster (`types/lv_errors.rs`): a source, and behind the
marker `<ERR>` a description.

Without a description the text has no marker, otherwise the first one follows
the source.  A source without the marker can therefore be told from its
description, whatever the description contains (`formatErrorSource_inj`).
-/

namespace LvInterop

open Lib

/-- The marker does not occur in a text. -/
def NoMarker (text : String) : Prop := ¬ "<ERR>".toList <:+: text.toList

instance : DecidablePred NoMarker := fun _ => inferInstanceAs (Decidable (¬ _))

/-- What stands before the marker: the source on a line of its own. -/
def sourceLine (source : String) : List Char :=
  if source = "" then [] else source.toList ++ ['\n']

theorem sourceLine_inj {s₁ s₂ : String} (h : sourceLine s₁ = sourceLine s₂) : s₁ = s₂ := by
  unfold sourceLine at h
  split_ifs at h with h₁ h₂ h₂
  · rw [h₁, h₂]
  · exact absurd h.symm (by simp)
  · exact absurd h (by simp)
  · exact String.toList_inj.mp (List.append_inj_left' h rfl)

/-- The line break before the marker is no part of it. -/
theorem not_isInfix_sourceLine {source : String} (hs : NoMarker source) :
    ¬ "<ERR>".toList <:+: sourceLine source := by
  unfold sourceLine
  split_ifs with h
  · decide
  · exact not_isInfix_concat (by decide) hs

/-- The two shapes of the text. -/
theorem toList_formatErrorSource (source description : String) :
    (description = "" ∧ source ≠ "" ∧ formatErrorSource source description = source) ∨
      (formatErrorSource source description).toList =
        sourceLine source ++ ("<ERR>".toList ++ '\n' :: description.toList) := by
  unfold formatErrorSource sourceLine
  split_ifs with h₁ h₂
  · right
    simp
  · exact .inl ⟨h₂, h₁, rfl⟩
  · right
    simp

/-- A text with a marker is not a source without one. -/
theorem not_noMarker_append (p t : List Char) {text : String}
    (h : text.toList = p ++ ("<ERR>".toList ++ t)) : ¬ NoMarker text := by
  intro hn
  refine hn ⟨p, t, ?_⟩
  rw [h, List.append_assoc]

/-- **The text determines source and description.** -/
theorem formatErrorSource_inj {s₁ d₁ s₂ d₂ : String} (h₁ : NoMarker s₁) (h₂ : NoMarker s₂)
    (h : formatErrorSource s₁ d₁ = formatErrorSource s₂ d₂) : s₁ = s₂ ∧ d₁ = d₂ := by
  rcases toList_formatErrorSource s₁ d₁ with ⟨hd₁, -, heq₁⟩ | heq₁ <;>
    rcases toList_formatErrorSource s₂ d₂ with ⟨hd₂, -, heq₂⟩ | heq₂
  · exact ⟨by rw [← heq₁, h, heq₂], by rw [hd₁, hd₂]⟩
  · rw [← h, heq₁] at heq₂
    exact absurd h₁ (not_noMarker_append _ _ heq₂)
  · rw [h, heq₂] at heq₁
    exact absurd h₂ (not_noMarker_append _ _ heq₁)
  · rw [h, heq₂] at heq₁
    obtain ⟨hp, ht⟩ := append_marker_inj (c := '<') (m := "ERR>".toList) (by decide)
      (not_isInfix_sourceLine h₂) (not_isInfix_sourceLine h₁) heq₁
    exact ⟨(sourceLine_inj hp).symm, (String.toList_inj.mp (List.cons.inj ht).2).symm⟩

/-- A description that contains the marker behind a source that ends in a part of it. -/
theorem formatErrorSource_inj_partial :
    "a<ERR" = "a<ERR" ∧ "b\n<ERR>" = "b\n<ERR>" := by
  have h : formatErrorSource "a<ERR" "b\n<ERR>" = formatErrorSource "a<ERR" "b\n<ERR>" := rfl
  exact formatErrorSource_inj (by decide) (by decide) h

end LvInterop
