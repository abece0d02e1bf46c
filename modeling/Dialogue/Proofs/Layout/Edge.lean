import Dialogue.Proofs.Layout.Placement
import Dialogue.Proofs.Story.Saving
/-!
# Where edges are anchored

An edge is drawn for a choice of a placed node, and leads where that choice leads.  Cards carry the id
under which a node is stored, whereas edges carry the node's own id.  So edges begin at cards if the
nodes that can be reached are stored under their own ids, and otherwise they may begin at none.
-/

namespace Dialogue

namespace Layout

def Edge.StandsFor (e : Edge) (c : Choice) : Prop :=
  e.label = c.text ∧
    match e.kind with
    | .exit => ∃ status, c.exitStatus = some status ∧ e.target = exitId status
    | .detour => c.exitStatus = none ∧ ∃ detour ∈ c.otherWays, e.target = detour.target
    | .choice => c.exitStatus = none ∧ c.otherWays = [] ∧ e.target = c.target

/-- An edge is anchored in a layout: it begins at a card, and stands for a choice of the node that is
stored under that card's id. -/
structure Edge.Anchored {α : Type} (t : Tree) (l : Layout α) (e : Edge) : Prop where
  placed : ∃ card ∈ l.nodes, card.id = e.source
  choice : ∃ n c, t.node? e.source = some n ∧ c ∈ n.choices ∧ e.StandsFor c

variable {t : Tree} {e : Edge}

theorem standsFor_of_mem_choiceEdges {isPlaced : String → Bool} {source : String} {c : Choice}
    (h : e ∈ choiceEdges isPlaced source c) : e.source = source ∧ e.StandsFor c := by
  unfold choiceEdges at h
  cases hexit : c.exitStatus with
  | some status =>
      simp only [hexit, List.mem_singleton] at h
      subst h
      exact ⟨rfl, rfl, status, hexit, rfl⟩
  | none =>
      simp only [hexit] at h
      split at h
      next hempty =>
        split at h
        next =>
          rw [List.mem_singleton] at h
          subst h
          exact ⟨rfl, rfl, hexit, List.isEmpty_iff.1 hempty, rfl⟩
        next => exact absurd h List.not_mem_nil
      next =>
        obtain ⟨target, htarget, rfl⟩ := List.mem_map.1 h
        obtain ⟨detour, hdetour, heq⟩ := List.mem_map.1 (List.mem_filter.1 htarget).1
        exact ⟨rfl, rfl, hexit, detour, hdetour, heq.symm⟩

/-- An edge is drawn for a choice of a node whose id is among those given. -/
theorem exists_mem_choiceEdges {ids : List String} (h : e ∈ drawnEdges t ids) :
    ∃ id n c, id ∈ ids ∧ t.node? id = some n ∧ c ∈ n.choices ∧
      e ∈ choiceEdges ids.contains n.id c := by
  obtain ⟨id, hid, hedge⟩ := List.mem_flatMap.1 h
  cases hn : t.node? id with
  | none =>
      rw [hn] at hedge
      exact absurd hedge List.not_mem_nil
  | some n =>
      rw [hn] at hedge
      obtain ⟨c, hc, hmem⟩ := List.mem_flatMap.1 hedge
      exact ⟨id, n, c, hid, hn, hc, hmem⟩

theorem mem_drawnEdges {ids : List String} (h : e ∈ drawnEdges t ids) :
    ∃ id n c, id ∈ ids ∧ t.node? id = some n ∧ c ∈ n.choices ∧ e.source = n.id ∧
      e.StandsFor c := by
  obtain ⟨id, n, c, hid, hn, hc, hmem⟩ := exists_mem_choiceEdges h
  obtain ⟨hsource, hstands⟩ := standsFor_of_mem_choiceEdges hmem
  exact ⟨id, n, c, hid, hn, hc, hsource, hstands⟩

section Placing

variable {α : Type} [Coordinate α]

/-- An edge is drawn for a choice of a placed node, and carries that node's own id. -/
theorem exists_card_of_mem_edges {settings : Config α} {mode : Mode}
    (h : e ∈ (Layout.of t settings mode).edges) :
    ∃ card ∈ (Layout.of t settings mode).nodes, ∃ n c, t.node? card.id = some n ∧
      c ∈ n.choices ∧ e.source = n.id ∧ e.StandsFor c := by
  obtain ⟨id, n, c, hid, hn, hc, hsource, hstands⟩ := mem_drawnEdges h
  obtain ⟨card, hcard, rfl⟩ := List.mem_map.1 hid
  exact ⟨card, hcard, n, c, hn, hc, hsource, hstands⟩

theorem edges_of (t : Tree) (settings : Config α) (mode : Mode) :
    (Layout.of t settings mode).edges = drawnEdges t (levels (order t mode)).flatten := by
  rw [← ids_placedNodes t settings]
  rfl

/-- If the nodes that can be reached are stored under their own ids, each edge of a layout begins at a
card, and stands for a choice of the node that is stored under the card's id. -/
theorem edges_anchored (h : ∀ id n, t.Reaches id → t.node? id = some n → n.id = id)
    (settings : Config α) (mode : Mode) :
    ∀ e ∈ (Layout.of t settings mode).edges, e.Anchored t (Layout.of t settings mode) := by
  intro e he
  obtain ⟨card, hcard, n, c, hn, hc, hsource, hstands⟩ := exists_card_of_mem_edges he
  have hreaches : t.Reaches card.id := mem_ids_of_iff.1 (List.mem_map_of_mem hcard)
  have hown : e.source = card.id := hsource.trans (h card.id n hreaches hn)
  exact ⟨⟨card, hcard, hown.symm⟩, n, c, hown ▸ hn, hc, hstands⟩

end Placing

/-- A gate from which one comes to a yard and to an exit.  The shed, where nobody comes, is stored
under another id than its own. -/
def gatehouse : Tree where
  name := "gatehouse"
  characters := .empty
  start := "gate"
  nodes := .ofList
    [("gate", (Node.line "gate" "Guard" "Halt!").withChoice
        ((Choice.leading "in" "Go in." "cell").withDetour "yard" (Gate.free.require "pass"))
      |>.withChoice (Choice.ending "off" "Leave." "left")),
     ("shed", (Node.line "barn" "Cat" "").withChoice (Choice.leading "out" "Out." "yard")),
     ("yard", (Node.line "yard" "Guard" "Again?").withChoice
        (Choice.leading "back" "Back." "gate"))]

theorem edges_anchored_at_gatehouse :
    (∀ id n, gatehouse.Reaches id → gatehouse.node? id = some n → n.id = id) ∧
      let map := Layout.of gatehouse (Config.standard : Config Float) .compact
      ∀ e ∈ map.edges, e.Anchored gatehouse map := by
  have hown : ∀ id ∈ reachableIds gatehouse, ∀ n ∈ (gatehouse.node? id).toList, n.id = id := by
    decide +kernel
  have h : ∀ id n, gatehouse.Reaches id → gatehouse.node? id = some n → n.id = id :=
    fun id n hid hn => hown id (mem_reachableIds_iff.2 hid) n (Option.mem_toList.2 hn)
  exact ⟨h, edges_anchored h Config.standard .compact⟩

/-- A tree whose start is stored under another id than its own, which is empty. -/
def misfiled : Tree where
  name := "misfiled"
  characters := .empty
  start := "gate"
  nodes := .ofList
    [("gate", (Node.line "" "Guard" "Halt!").withChoice (Choice.leading "in" "Go in." "yard")),
     ("yard", Node.line "yard" "Guard" "Again?")]

/-- The tree can be read from text, and the only edge of its layout begins at no card. -/
theorem not_edges_anchored_misfiled :
    Tree.ofJsonText misfiled.toJsonText = .ok misfiled ∧
      let map := Layout.of misfiled (Config.standard : Config Float) .firstDiscovery
      map.nodes.map (·.id) = ["gate", "yard"] ∧
        map.edges = [⟨"", "yard", "Go in.", .choice, false⟩] ∧
        ¬ ∀ e ∈ map.edges, e.Anchored misfiled map := by
  have hread : Tree.ofJsonText misfiled.toJsonText = .ok misfiled := by
    rw [Tree.ofJsonText, Tree.toJsonText, Json.readPlaced_writePretty Tree.isSound_shape]
    rfl
  refine ⟨hread, ?_⟩
  intro map
  have hids : map.nodes.map (·.id) = ["gate", "yard"] := by
    refine (ids_placedNodes misfiled _ _).trans ?_
    decide +kernel
  have hedges : map.edges = [⟨"", "yard", "Go in.", .choice, false⟩] := by
    refine (edges_of misfiled _ _).trans ?_
    decide +kernel
  refine ⟨hids, hedges, fun h => ?_⟩
  rw [hedges] at h
  obtain ⟨card, hcard, hid⟩ := (h _ (List.mem_singleton_self _)).placed
  have hmem := List.mem_map_of_mem (f := (·.id)) hcard
  rw [hids, hid] at hmem
  revert hmem
  decide

end Layout

end Dialogue
