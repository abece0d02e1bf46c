import Dialogue.Proofs.Layout.Levels
import Mathlib.Algebra.Order.Field.Rat
import Mathlib.Tactic.Linarith
/-!
# Packed levels

Read over exact numbers, the cards of a level are packed as tightly as their shares of the level
allow: each stands as high up as its own share and the cards before it let it, and then the level as
a whole is moved so that it is centred on zero.  So neighbours keep the margin.  Where no card falls
short of a negative margin all cards of the level keep it, and unless the margin is negative they do
not overlap.
-/

namespace Dialogue.Layout

open Coordinate

/-! ## What is asked of the places -/

def share (config : Config ℚ) (count i : Nat) : ℚ :=
  (i - (count - 1) / 2) * config.verticalSpacing

/-- No card stands above its share, and each keeps the margin to the one before it. -/
structure Clears (config : Config ℚ) (heights ys : List ℚ) : Prop where
  length_eq : ys.length = heights.length
  share_le : ∀ (i : Nat) (y : ℚ), ys[i]? = some y → share config heights.length i ≤ y
  apart : ∀ (i : Nat) (y height next : ℚ), ys[i]? = some y → heights[i]? = some height →
    ys[i + 1]? = some next → y + height + config.nodeMargin ≤ next

/-- The first card has its share, and no card could stand higher up. -/
structure IsTight (config : Config ℚ) (heights ys : List ℚ) : Prop extends
    Clears config heights ys where
  head_eq : ys[0]? = some (share config heights.length 0)
  least : ∀ others, Clears config heights others →
    ∀ (i : Nat) (y other : ℚ), ys[i]? = some y → others[i]? = some other → y ≤ other

def IsCentred (heights ys : List ℚ) : Prop :=
  ∃ first last height, ys.head? = some first ∧ ys.getLast? = some last ∧
    heights.getLast? = some height ∧ first + (last + height) = 0

section Cards

variable {margin : ℚ} {cards : List (Card ℚ)} {a b : Card ℚ}

def Card.Keeps (margin : ℚ) (a b : Card ℚ) : Prop :=
  a.position.y + a.height + margin ≤ b.position.y

def Card.Overlaps (a b : Card ℚ) : Prop :=
  a.position.y < b.position.y + b.height ∧ b.position.y < a.position.y + a.height

instance : DecidableRel Card.Overlaps := fun _ _ => inferInstanceAs (Decidable (_ ∧ _))

theorem Card.Keeps.not_overlaps (h : a.Keeps margin b) (hmargin : 0 ≤ margin) : ¬ a.Overlaps b := by
  rintro ⟨-, hbelow⟩
  rw [Card.Keeps] at h
  linarith

theorem Card.Keeps.trans {c : Card ℚ} (hab : a.Keeps margin b) (hbc : b.Keeps margin c)
    (hb : 0 ≤ b.height + margin) : a.Keeps margin c := by
  rw [Card.Keeps] at hab hbc ⊢
  linarith

def Card.Sustains (margin : ℚ) (a b : Card ℚ) : Prop := a.Keeps margin b ∧ 0 ≤ b.height + margin

instance : Trans (Card.Sustains margin) (Card.Sustains margin) (Card.Sustains margin) where
  trans hab hbc := ⟨hab.1.trans hbc.1 hab.2, hbc.2⟩

/-- If all neighbours keep the margin and no card falls short of it, all cards keep it. -/
theorem pairwise_keeps (h : cards.IsChain (Card.Keeps margin))
    (hcards : ∀ card ∈ cards, 0 ≤ card.height + margin) : cards.Pairwise (Card.Keeps margin) := by
  have hsustains : cards.IsChain (Card.Sustains margin) :=
    h.imp_of_mem_imp fun _ b _ hb hkeeps => ⟨hkeeps, hcards b hb⟩
  exact hsustains.pairwise.imp fun hboth => hboth.1

end Cards

/-! ## Exact numbers -/

theorem stacked_cons {α : Type} [Coordinate α] (config : Config α) (count : Nat) (above : Option α)
    (i : Nat) (height : α) (heights : List α) :
    stacked config count above i (height :: heights) =
      let seed := (ofCount i - half (ofCount count - ofCount 1)) * config.verticalSpacing
      let y := above.elim seed fun least => if isBelow seed least then least else seed
      y :: stacked config count (some (y + height + config.nodeMargin)) (i + 1) heights := by
  cases above <;> rfl

instance : Coordinate ℚ where
  ofCount n := n
  half x := x / 2
  isBelow x y := x < y
  larger := max

section Packing

variable (config : Config ℚ) (count : Nat)

def put (above : Option ℚ) (seed : ℚ) : ℚ := above.elim seed (max seed)

theorem stacked_cons_eq_put (above : Option ℚ) (i : Nat) (height : ℚ) (heights : List ℚ) :
    stacked config count above i (height :: heights) =
      put above (share config count i) ::
        stacked config count (some (put above (share config count i) + height + config.nodeMargin))
          (i + 1) heights := by
  have hseed : (ofCount i - half (ofCount count - ofCount 1)) * config.verticalSpacing =
      share config count i := by
    have hone : (ofCount 1 : ℚ) = 1 := Nat.cast_one
    rw [hone]
    rfl
  have hmax : (fun least => if isBelow (share config count i) least then least
      else share config count i) = max (share config count i) := by
    funext least
    simp [max_def_lt, isBelow]
  simp only [stacked_cons, hseed, hmax]
  rfl

/-- The place of each card after the first one comes from its share and from the card before it. -/
theorem getElem?_stacked_succ (above : Option ℚ) (i k : Nat) (heights : List ℚ) {y height next : ℚ}
    (hy : (stacked config count above i heights)[k]? = some y) (hheight : heights[k]? = some height)
    (hnext : (stacked config count above i heights)[k + 1]? = some next) :
    next = max (share config count (i + k + 1)) (y + height + config.nodeMargin) := by
  induction heights generalizing above i k with
  | nil => cases hheight
  | cons first heights ih =>
      rw [stacked_cons_eq_put] at hy hnext
      rw [List.getElem?_cons_succ] at hnext
      cases k with
      | zero =>
          cases heights with
          | nil => cases hnext
          | cons second heights =>
              rw [stacked_cons_eq_put] at hnext
              cases hy
              cases hheight
              cases hnext
              rfl
      | succ k =>
          rw [List.getElem?_cons_succ] at hy hheight
          have hsame := ih _ _ k hy hheight hnext
          rwa [show i + 1 + k + 1 = i + (k + 1) + 1 by omega] at hsame

/-- The recurrence of a level: the first card has its share, and each card after it has what its own
share and the card before it ask for. -/
theorem isTight_of_recurrence {heights ys : List ℚ} (hlength : ys.length = heights.length)
    (hhead : ys[0]? = some (share config heights.length 0))
    (hnext : ∀ (i : Nat) (y height next : ℚ), ys[i]? = some y → heights[i]? = some height →
      ys[i + 1]? = some next →
        next = max (share config heights.length (i + 1)) (y + height + config.nodeMargin)) :
    IsTight config heights ys := by
  -- a card after the first one comes with the one before it
  have hbefore : ∀ {zs : List ℚ} {i : Nat} {next : ℚ}, zs.length = heights.length →
      zs[i + 1]? = some next → ∃ z height, zs[i]? = some z ∧ heights[i]? = some height := by
    intro zs i next hzs hz
    have hi : i + 1 < zs.length := (List.getElem?_eq_some_iff.1 hz).1
    exact ⟨_, _, List.getElem?_eq_getElem (by omega), List.getElem?_eq_getElem (by omega)⟩
  refine ⟨⟨hlength, fun i y hy => ?_, fun i y height next hy hheight hz => ?_⟩, hhead,
    fun others hothers i => ?_⟩
  · cases i with
    | zero =>
        rw [hhead] at hy
        exact (Option.some.inj hy).le
    | succ i =>
        obtain ⟨before, height, hbefore, hheight⟩ := hbefore hlength hy
        rw [hnext i before height y hbefore hheight hy]
        exact le_max_left _ _
  · rw [hnext i y height next hy hheight hz]
    exact le_max_right _ _
  · induction i with
    | zero =>
        intro y other hy hother
        rw [hhead] at hy
        exact (Option.some.inj hy) ▸ hothers.share_le 0 other hother
    | succ i ih =>
        intro y other hy hother
        obtain ⟨before, height, hy', hheight⟩ := hbefore hlength hy
        obtain ⟨before', _, hother', _⟩ := hbefore hothers.length_eq hother
        rw [hnext i before height y hy' hheight hy]
        have hle : before ≤ before' := ih before before' hy' hother'
        have hapart := hothers.apart i before' height other hother' hheight hother
        exact max_le (hothers.share_le (i + 1) other hother) (by linarith)

theorem isTight_stacked (height : ℚ) (heights : List ℚ) :
    IsTight config (height :: heights)
      (stacked config (height :: heights).length none 0 (height :: heights)) := by
  refine isTight_of_recurrence config (length_stacked config _ none 0 _) ?_ ?_
  · rw [stacked_cons_eq_put]
    rfl
  · intro i y h next hy hh hz
    have hsame := getElem?_stacked_succ config _ none 0 i _ hy hh hz
    rwa [Nat.zero_add] at hsame

/-- The places of a level are tight ones, but for a shift that centres them. -/
theorem packed_cons (height : ℚ) (heights : List ℚ) :
    ∃ zs offset, packed config (height :: heights) = zs.map (· - offset) ∧
      IsTight config (height :: heights) zs ∧
      IsCentred (height :: heights) (packed config (height :: heights)) := by
  generalize hall : height :: heights = all
  generalize hzs : stacked config all.length none 0 all = zs
  have htight : IsTight config all zs := by
    rw [← hzs, ← hall]
    exact isTight_stacked config height heights
  obtain ⟨first, hfirst⟩ : ∃ first, zs.head? = some first :=
    ⟨_, List.head?_eq_getElem?.trans htight.head_eq⟩
  have hne : zs ≠ [] := by
    rintro rfl
    cases hfirst
  obtain ⟨last, hlast⟩ : ∃ last, zs.getLast? = some last := ⟨_, List.getLast?_eq_some_getLast hne⟩
  obtain ⟨low, hlow⟩ : ∃ low, all.getLast? = some low := by
    rw [← hall]
    exact ⟨_, List.getLast?_eq_some_getLast (List.cons_ne_nil height heights)⟩
  have hpacked : packed config all = zs.map (· - (first + (last + low)) / 2) := by
    rw [packed, hzs, hfirst, hlast, hlow]
    rfl
  refine ⟨zs, _, hpacked, htight, first - (first + (last + low)) / 2,
    last - (first + (last + low)) / 2, low, ?_, ?_, hlow, ?_⟩
  · rw [hpacked, List.head?_map, hfirst, Option.map_some]
  · rw [hpacked, List.getLast?_map, hlast, Option.map_some]
  · ring

/-- The shift leaves the gaps as they are. -/
theorem apart_packed {heights : List ℚ} {i : Nat} {y height next : ℚ}
    (hy : (packed config heights)[i]? = some y) (hheight : heights[i]? = some height)
    (hnext : (packed config heights)[i + 1]? = some next) :
    y + height + config.nodeMargin ≤ next := by
  cases heights with
  | nil => cases hheight
  | cons first heights =>
      obtain ⟨zs, offset, hpacked, htight, -⟩ := packed_cons config first heights
      rw [hpacked, List.getElem?_map] at hy hnext
      obtain ⟨z, hz, rfl⟩ := Option.map_eq_some_iff.1 hy
      obtain ⟨z', hz', rfl⟩ := Option.map_eq_some_iff.1 hnext
      have hapart := htight.apart i z height z' hz hheight hz'
      linarith

end Packing

/-! ## The levels of a layout -/

section Placed

variable {t : Tree} {mode : Mode}

theorem flatMap_range_ite {β : Type} (as : List β) (d n : Nat) :
    ((List.range n).flatMap fun depth => if depth = d then as else []) =
      if d < n then as else [] := by
  induction n with
  | zero => rfl
  | succ n ih =>
      rw [List.range_succ, List.flatMap_append, ih, List.flatMap_singleton]
      obtain hlt | rfl | hgt := Nat.lt_trichotomy d n
      · rw [if_pos hlt, if_neg (Nat.ne_of_gt hlt), if_pos (Nat.lt_succ_of_lt hlt), List.append_nil]
      · rw [if_neg (Nat.lt_irrefl d), if_pos rfl, if_pos (Nat.lt_succ_self d), List.nil_append]
      · rw [if_neg (by omega), if_neg (by omega), if_neg (by omega), List.append_nil]

theorem filter_depth_placedNodes {α : Type} [Coordinate α] (t : Tree) (config : Config α)
    (order : List (String × Nat)) (d : Nat) :
    ((placedNodes t config order).filter fun card => card.depth = d) =
      placedLevel t config d ((order.filter fun entry => entry.2 = d).map (·.1)) := by
  have hlevel : ∀ depth, ((placedLevel t config depth
        ((order.filter fun entry => entry.2 = depth).map (·.1))).filter fun card => card.depth = d) =
      if depth = d then placedLevel t config d ((order.filter fun entry => entry.2 = d).map (·.1))
        else [] := by
    intro depth
    by_cases hdepth : depth = d
    · rw [if_pos hdepth, hdepth]
      exact List.filter_eq_self.2 fun card hcard => decide_eq_true (depth_of_mem_placedLevel hcard)
    · rw [if_neg hdepth, List.filter_eq_nil_iff]
      intro card hcard
      rw [depth_of_mem_placedLevel hcard]
      simpa using hdepth
  simp only [placedNodes, zipIdx_levels, List.flatMap_map, List.filter_flatMap, hlevel,
    flatMap_range_ite]
  split
  next => rfl
  next hdepth =>
    have hnone : (order.filter fun entry => entry.2 = d) = [] := by
      refine List.filter_eq_nil_iff.2 fun entry hentry heq => hdepth ?_
      rw [← of_decide_eq_true heq]
      exact lt_foldl_levelCount hentry 0
    rw [hnone]
    rfl

/-- Three columns side by side keep the second and the third one. -/
theorem columns_of_zip {β γ δ : Type} {as : List β} {bs : List γ} {cs : List δ}
    (has : bs.length ≤ as.length) (hcs : cs.length = bs.length) :
    (as.zip (bs.zip cs)).map (·.2.1) = bs ∧ (as.zip (bs.zip cs)).map (·.2.2) = cs := by
  have hrows : (as.zip (bs.zip cs)).map (·.2) = bs.zip cs :=
    List.map_snd_zip (by rw [List.length_zip, hcs, Nat.min_self]; exact has)
  constructor
  · calc (as.zip (bs.zip cs)).map (·.2.1)
        = ((as.zip (bs.zip cs)).map (·.2)).map (·.1) := by
          rw [List.map_map]
          rfl
      _ = bs := by rw [hrows, List.map_fst_zip hcs.ge]
  · calc (as.zip (bs.zip cs)).map (·.2.2)
        = ((as.zip (bs.zip cs)).map (·.2)).map (·.2) := by
          rw [List.map_map]
          rfl
      _ = cs := by rw [hrows, List.map_snd_zip hcs.le]

theorem ys_placedLevel {α : Type} [Coordinate α] (t : Tree) (config : Config α) (depth : Nat)
    (ids : List String) :
    (placedLevel t config depth ids).map (·.position.y) =
      packed config ((placedLevel t config depth ids).map (·.height)) := by
  rw [placedLevel]
  generalize hheights : (ids.map fun id => config.height ((t.node? id).getD default)) = heights
  have hids : heights.length ≤ ids.length := by rw [← hheights, List.length_map]
  obtain ⟨hback, hys⟩ := columns_of_zip hids (length_packed config heights)
  simp only [List.map_map]
  exact hys.trans (congrArg (packed config) hback.symm)

def level {α : Type} (l : Layout α) (depth : Nat) : List (Card α) :=
  l.nodes.filter fun card => card.depth = depth

theorem ys_level {α : Type} [Coordinate α] (t : Tree) (config : Config α) (mode : Mode)
    (depth : Nat) :
    ((Layout.of t config mode).level depth).map (·.position.y) =
      packed config (((Layout.of t config mode).level depth).map (·.height)) := by
  rw [level, Layout.of, filter_depth_placedNodes]
  exact ys_placedLevel t config depth _

theorem isChain_level (t : Tree) (config : Config ℚ) (mode : Mode) (depth : Nat) :
    ((Layout.of t config mode).level depth).IsChain (Card.Keeps config.nodeMargin) := by
  have hys := ys_level t config mode depth
  generalize (Layout.of t config mode).level depth = cards at hys ⊢
  refine List.isChain_iff_getElem.2 fun i hi => ?_
  have hy : ∀ (j : Nat) (hj : j < cards.length),
      (packed config (cards.map (·.height)))[j]? = some cards[j].position.y := by
    intro j hj
    rw [← hys, List.getElem?_map, List.getElem?_eq_getElem hj, Option.map_some]
  refine apart_packed config (hy i (by omega)) ?_ (hy (i + 1) hi)
  rw [List.getElem?_map, List.getElem?_eq_getElem, Option.map_some]

/-- Over exact numbers a level is packed as tightly as the shares of its cards allow, and centred.  So
neighbours on it keep the margin; all of its cards keep it where none falls short of a negative one;
and then they do not overlap unless the margin is negative. -/
theorem levels_packed (config : Config ℚ) :
    (∀ height heights, ∃ zs offset,
        packed config (height :: heights) = zs.map (· - offset) ∧
        IsTight config (height :: heights) zs ∧
        IsCentred (height :: heights) (packed config (height :: heights))) ∧
      ∀ (t : Tree) (mode : Mode) (depth : Nat),
        let cards := (Layout.of t config mode).level depth
        cards.map (·.position.y) = packed config (cards.map (·.height)) ∧
          cards.IsChain (Card.Keeps config.nodeMargin) ∧
          ((∀ card ∈ cards, 0 ≤ card.height + config.nodeMargin) →
            cards.Pairwise (Card.Keeps config.nodeMargin) ∧
              (0 ≤ config.nodeMargin → cards.Pairwise fun a b => ¬ a.Overlaps b)) := by
  refine ⟨packed_cons config, fun t mode depth => ?_⟩
  have hchain := isChain_level t config mode depth
  refine ⟨ys_level t config mode depth, hchain, fun hcards => ?_⟩
  have hpairs := pairwise_keeps hchain hcards
  exact ⟨hpairs, fun hmargin => hpairs.imp fun hkeeps => hkeeps.not_overlaps hmargin⟩

end Placed

def rooms : Tree :=
  (Tree.bare "rooms" "door").withNode
      ((Node.line "door" "Guide" "Which one?").withChoice (Choice.leading "l" "Left." "left")
        |>.withChoice (Choice.leading "r" "Right." "right"))
    |>.withNode (Node.line "left" "Guide" "A cellar.")
    |>.withNode (Node.line "right" "Guide" "An attic.")

theorem levels_packed_at_rooms :
    let cards := (Layout.of rooms (Config.standard : Config ℚ) .compact).level 1
    cards.map (·.position.y) = [-150, 50] ∧ (∀ card ∈ cards, 0 ≤ card.height + 50) ∧
      cards.Pairwise (Card.Keeps 50) ∧ cards.Pairwise fun a b => ¬ a.Overlaps b := by
  intro cards
  have hcards : ∀ card ∈ cards, 0 ≤ card.height + (Config.standard : Config ℚ).nodeMargin := by
    decide +kernel
  obtain ⟨hpairs, hclear⟩ := ((levels_packed .standard).2 rooms .compact 1).2.2 hcards
  exact ⟨by decide +kernel, hcards, hpairs, hclear (by decide +kernel)⟩

/-- No spacing, and a margin that pushes cards into each other. -/
def crowded : Config ℚ := { Config.standard with verticalSpacing := 0, nodeMargin := -30 }

/-- Neither card of the level falls short of the margin, and yet they overlap. -/
theorem overlaps_at_crowded_rooms :
    let cards := (Layout.of rooms crowded .firstDiscovery).level 1
    cards.map (fun card => (card.id, card.height, card.position.y)) =
        [("left", 100, -85), ("right", 100, -15)] ∧
      (∀ card ∈ cards, 0 ≤ card.height + crowded.nodeMargin) ∧
      ¬ cards.Pairwise fun a b => ¬ a.Overlaps b := by
  decide +kernel

end Dialogue.Layout
