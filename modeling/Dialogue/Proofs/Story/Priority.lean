import Dialogue.Play.Session
/-!
# The first that is open

Where one of several candidates is picked, it is the first whose gate is open.  `IsFirstOpen` says
so by where the candidate stands among the others; where a choice leads and what a node shows follow
from it.
-/

namespace Dialogue

/-- Whether of several candidates this one is the first whose gate is open, or whether there is none
because all gates are closed. -/
def IsFirstOpen {α : Type} [Gated α] (candidates : List α) (w : World) : Option α → Prop
  | some a => ∃ before behind, candidates = before ++ a :: behind ∧
      isOpen (Gated.gate a) w = true ∧ ∀ b ∈ before, isOpen (Gated.gate b) w = false
  | none => ∀ a ∈ candidates, isOpen (Gated.gate a) w = false

theorem isFirstOpen_iff {α : Type} [Gated α] {candidates : List α} {w : World}
    {picked : Option α} : IsFirstOpen candidates w picked ↔ firstOpen candidates w = picked := by
  cases picked with
  | none => simp only [IsFirstOpen, firstOpen, List.find?_eq_none, Bool.not_eq_true]
  | some a =>
      rw [firstOpen, List.find?_eq_some_iff_append, IsFirstOpen]
      simp only [Bool.not_eq_true']
      constructor
      · rintro ⟨before, behind, heq, hopen, hbefore⟩
        exact ⟨hopen, before, behind, heq, hbefore⟩
      · rintro ⟨hopen, before, behind, heq, hbefore⟩
        exact ⟨before, behind, heq, hopen, hbefore⟩

theorem exists_isFirstOpen {α : Type} [Gated α] {candidates : List α} {w : World}
    {P : Option α → Prop} :
    (∃ picked, IsFirstOpen candidates w picked ∧ P picked) ↔ P (firstOpen candidates w) := by
  simp only [isFirstOpen_iff, exists_eq_left']

def Choice.LeadsTo (c : Choice) (w : World) (target : String) : Prop :=
  ∃ picked, IsFirstOpen c.otherWays w picked ∧
    match picked with
    | some detour => target = detour.target
    | none => target = c.target

theorem Choice.leadsTo_iff {c : Choice} {w : World} {target : String} :
    c.LeadsTo w target ↔ target = c.destination w := by
  unfold LeadsTo destination
  rw [exists_isFirstOpen]
  cases firstOpen c.otherWays w <;> rfl

/-- Whether a node shows a text and an emotion: those of its first open variation, or its own if no
variation is open.  A variation whose emotion is missing or empty leaves the node's. -/
def Node.Shows (n : Node) (w : World) (text : String) (emotion : Option String) : Prop :=
  ∃ picked, IsFirstOpen n.otherTexts w picked ∧
    match picked with
    | some v => text = v.text ∧
        emotion = if v.emotion = none ∨ v.emotion = some "" then n.emotion else v.emotion
    | none => text = n.text ∧ emotion = n.emotion

theorem Node.shows_iff {n : Node} {w : World} {text : String} {emotion : Option String} :
    n.Shows w text emotion ↔ (text, emotion) = n.shown w := by
  unfold Shows shown
  rw [exists_isFirstOpen]
  cases firstOpen n.otherTexts w with
  | none => simp only [Prod.mk.injEq]
  | some v =>
      simp only [Prod.mk.injEq]
      cases hemotion : v.emotion with
      | none => simp
      | some name => by_cases hempty : name = "" <;> simp [hempty, Option.filter]

end Dialogue
