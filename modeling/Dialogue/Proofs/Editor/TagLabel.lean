import Dialogue.Editor.Desk
import Dialogue.Proofs.Markup.Reading
/-!
# The labels of tags

A button of the editor names a tag by what stands between the brackets of its opening.  The desk takes
every name of a color that is not empty (`readTag_eq_ok_iff`), but in a text a name goes up to the next
closing bracket.  So of the tags that the desk takes, those with such a bracket in their label are not
recognised again once they are written out.
-/

namespace Dialogue.Editor

open Markup (Tag)

variable {raw : String} {tag : Tag}

theorem readTag_color {c : Char} {name : List Char}
    (h : Text.after? ['c', 'o', 'l', 'o', 'r', '='] raw.toList = some (c :: name)) :
    readTag raw = .ok (.color (String.ofList (c :: name))) := by
  have hne : raw ≠ "b" ∧ raw ≠ "i" ∧ raw ≠ "s" := by
    refine ⟨?_, ?_, ?_⟩ <;> (rintro rfl; cases h)
  rw [readTag, if_neg hne.1, if_neg hne.2.1, if_neg hne.2.2, h]

theorem readTag_eq_ok_iff : readTag raw = .ok tag ↔ raw.toList = tag.label ∧ tag ≠ .color "" := by
  constructor
  · fun_cases readTag raw with
    | case1 hraw =>
        rintro ⟨⟩
        exact ⟨congrArg String.toList hraw, nofun⟩
    | case2 _ hraw =>
        rintro ⟨⟩
        exact ⟨congrArg String.toList hraw, nofun⟩
    | case3 _ _ hraw =>
        rintro ⟨⟩
        exact ⟨congrArg String.toList hraw, nofun⟩
    | case4 _ _ _ c name hafter =>
        rintro ⟨⟩
        refine ⟨?_, by simp⟩
        rw [Text.after?_eq_some.1 hafter, Tag.label, String.toList_ofList]
    | case5 => rintro ⟨⟩
  · rintro ⟨hlabel, hne⟩
    cases tag with
    | bold =>
        obtain rfl : raw = "b" := String.toList_inj.1 hlabel
        rfl
    | italic =>
        obtain rfl : raw = "i" := String.toList_inj.1 hlabel
        rfl
    | strikethrough =>
        obtain rfl : raw = "s" := String.toList_inj.1 hlabel
        rfl
    | color name =>
        obtain ⟨c, cs, hname⟩ : ∃ c cs, name.toList = c :: cs := by
          refine List.exists_cons_of_ne_nil fun hnil => hne ?_
          rw [String.toList_eq_nil_iff.1 hnil]
        have hafter := Text.after?_eq_some.2 hlabel
        rw [hname] at hafter
        rw [readTag_color hafter, ← hname, String.ofList_toList]

/-- A tag that the desk takes is recognised by its opening, whatever follows it, exactly if what names
it has no closing bracket. -/
theorem recognised_iff_of_readTag (h : readTag raw = .ok tag) (rest : List Char) :
    Tag.openingAt? (tag.opening ++ rest) = some (tag, rest) ↔ ']' ∉ raw.toList := by
  obtain ⟨hlabel, hne⟩ := readTag_eq_ok_iff.1 h
  rw [Tag.openingAt?_opening_iff, Tag.isNamed_iff, hlabel]
  exact and_iff_right hne

theorem recognised_at_fuchsia :
    readTag "color=[fuchsia" = .ok (.color "[fuchsia") ∧
      Tag.openingAt? "[color=[fuchsia][/color]]".toList =
        some (.color "[fuchsia", "[/color]]".toList) := by
  have h : readTag "color=[fuchsia" = .ok (.color "[fuchsia") := rfl
  exact ⟨h, (recognised_iff_of_readTag h "[/color]]".toList).2 (by decide)⟩

/-- The desk takes a color whose name has a closing bracket.  When it is written out, the name ends at
that bracket, so a selection that was wrapped in it is read with what is left of the name, in a color of
another name. -/
theorem not_recognised_bracketed :
    readTag "color=a]b" = .ok (.color "a]b") ∧
      Tag.openingAt? (Tag.color "a]b").opening = some (.color "a", "b]".toList) ∧
      Markup.spans (Markup.wrap "Run away now" 4 8 (.color "a]b")).1 =
        [.plain "Run ".toList, .styled (.color "a") "b]away".toList, .plain " now".toList] ∧
      ¬ ∀ raw tag, readTag raw = .ok tag →
          ∀ rest, Tag.openingAt? (tag.opening ++ rest) = some (tag, rest) := by
  refine ⟨rfl, by decide, by decide +kernel, fun hall => ?_⟩
  have hread := hall "color=a]b" (.color "a]b") rfl []
  revert hread
  decide

end Dialogue.Editor
