import Dialogue.Proofs.Play.Step
import Dialogue.Proofs.Review.Mention
import Dialogue.Proofs.Story.Effect
/-!
# Known counters always have a value

If every counter that the tree mentions starts with a value, then no line and no offer ever shows
the stand-in for a missing value.  Writing adds counters and takes none away, so the vocabulary of
the tree stays written; and whatever text is shown, the vocabulary covers it.
-/

namespace Dialogue

theorem Counters.contains_iff {counters : Counters} {key : String} :
    counters.contains key = true ↔ ∃ value, counters.value? key = some value :=
  Option.isSome_iff_exists

theorem Counters.value?_foldl_seed (counters : Counters) (keys : List String) (value : Int64)
    (key : String) :
    (keys.foldl (fun counters key => counters.seed key value) counters).value? key =
      (counters.value? key).or (if key ∈ keys then some value else .none) := by
  induction keys generalizing counters with
  | nil => simp
  | cons first rest ih =>
      rw [List.foldl_cons, ih, value?_seed]
      by_cases h : key = first
      · subst h
        cases counters.value? key <;> simp
      · simp [h]

namespace Interpolation

/-- A text with the number of each counter in the place of its tokens.  No other word ever stands
in for a number. -/
def filled (text : String) (counters : Counters) : String :=
  String.ofList ((pieces text.toList).flatMap fun piece =>
    match piece with
    | .plain c => [c]
    | .token body => (toString (counters.get (nameOf body)).toInt).toList)

structure ShowsValues (counters : Counters) (rawText text : String) : Prop where
  written : ∀ name ∈ mentions rawText, counters.contains name = true
  text_eq : text = filled rawText counters

theorem showsValues_substitute {counters : Counters} {text : String}
    (h : ∀ name ∈ mentions text, counters.contains name = true) :
    ShowsValues counters text (substitute text counters) := by
  refine ⟨h, congrArg String.ofList (flatMap_pieces_congr (fun c => rfl) fun body hname => ?_)⟩
  obtain ⟨value, hvalue⟩ := Counters.contains_iff.1 (h (nameOf body) hname)
  simp only [Piece.shown, shown, hvalue, Counters.get, Option.getD_some]

end Interpolation

open Interpolation (ShowsValues showsValues_substitute)

namespace Session

namespace Setup

variable {setup : Setup}

/-- A counter starts with its last seed, else with zero if the tree mentions it, else unwritten. -/
theorem value?_config (h : setup.seedsKnown = true) (t : Tree) (key : String) :
    (setup.config t).counters.value? key =
      (setup.seeds.reverse.lookup key).or
        (if key ∈ (Vocabulary.of t).counters then some 0 else none) := by
  have hseeds : (Counters.ofList setup.seeds).value? key = setup.seeds.reverse.lookup key :=
    SortedMap.get?_ofList setup.seeds key
  simp only [config, h, if_true]
  rw [Counters.value?_foldl_seed, hseeds]

theorem contains_config (h : setup.seedsKnown = true) {t : Tree} {key : String}
    (hkey : key ∈ (Vocabulary.of t).counters) :
    (setup.config t).counters.contains key = true := by
  rw [Counters.contains_iff, value?_config h, if_pos hkey]
  cases setup.seeds.reverse.lookup key with
  | none => exact ⟨0, rfl⟩
  | some value => exact ⟨value, rfl⟩

end Setup

/-- All counters of the tree's vocabulary are written, and are written again by a reset. -/
structure Seeded (t : Tree) (s : Session) : Prop where
  tree_eq : s.tree = t
  config_written : ∀ key ∈ (Vocabulary.of t).counters, s.config.counters.contains key = true
  written : ∀ key ∈ (Vocabulary.of t).counters, s.world.counters.contains key = true

theorem seeded_start {t : Tree} {config : Config}
    (h : ∀ key ∈ (Vocabulary.of t).counters, config.counters.contains key = true) :
    Seeded t (start t config) := by
  refine ⟨rfl, h, ?_⟩
  rw [start, world, Snapshot.world_initial]
  exact h

theorem contains_effect {c : Choice} {w : World} {key : String}
    (h : w.counters.contains key = true) : (c.effect w).counters.contains key = true := by
  rw [Choice.effect, Adjustment.contains_foldl_apply, h, Bool.or_true]

theorem seeded_taken {t : Tree} {s s' : Session} {c : Choice} {outcome : Outcome}
    (h : Seeded t s) (htaken : Taken s c outcome s') : Seeded t s' := by
  have hwritten : ∀ key ∈ (Vocabulary.of t).counters,
      (c.effect s.world).counters.contains key = true :=
    fun key hkey => contains_effect (h.written key hkey)
  cases htaken with
  | exit hexit => exact ⟨h.tree_eq, h.config_written, hwritten⟩
  | lost hexit htarget hlost => exact ⟨h.tree_eq, h.config_written, hwritten⟩
  | advanced hexit htarget hfound => exact ⟨h.tree_eq, h.config_written, hwritten⟩

theorem contains_edit {op : Op} {w w' : World} {answer : Answer} {key : String}
    (hedit : op.edit? w = some (answer, w')) (h : w.counters.contains key = true) :
    w'.counters.contains key = true := by
  cases op with
  | apply id => cases hedit
  | choose index => cases hedit
  | setFlag flag =>
      cases hedit
      exact h
  | clearFlag flag =>
      cases hedit
      exact h
  | toggleFlag flag =>
      cases hedit
      exact h
  | setCounter other value =>
      cases hedit
      rw [Counters.contains_set, h, Bool.or_true]
  | reset => cases hedit

theorem seeded_performed {t : Tree} {s s' : Session} {op : Op} {answer : Answer}
    (h : Seeded t s) (hperformed : Performed s op answer s') : Seeded t s' := by
  cases hperformed with
  | taken hactive hpicked hopen htaken => exact seeded_taken h htaken
  | refused hop refusal => exact h
  | edited hedit =>
      exact ⟨h.tree_eq, h.config_written, fun key hkey => contains_edit hedit (h.written key hkey)⟩
  | reset =>
      rw [h.tree_eq]
      exact seeded_start h.config_written

theorem showsValues_message {t : Tree} {n : Node} {w : World} (hn : n ∈ t.nodes.values)
    (h : ∀ key ∈ (Vocabulary.of t).counters, w.counters.contains key = true) (config : Config)
    (via : Option String) :
    ShowsValues w.counters (Message.of t config n w via).rawText
      (Message.of t config n w via).text := by
  have hcovers := (Tree.covers_of_mem hn).shown w
  exact showsValues_substitute fun name hname => h name (hcovers name hname)

theorem showsValues_start {t : Tree} {config : Config}
    (h : ∀ key ∈ (Vocabulary.of t).counters, config.counters.contains key = true) :
    ∀ line ∈ (start t config).snapshot.transcript,
      ShowsValues (start t config).world.counters line.rawText line.text := by
  rw [start, world, Snapshot.world_initial]
  intro line hline
  obtain ⟨n, hn, rfl⟩ := Snapshot.exists_of_mem_transcript_initial hline
  exact showsValues_message (Tree.mem_values_of_node? hn) h config none

theorem showsValues_performed {t : Tree} {s s' : Session} {op : Op} {answer : Answer}
    (h : Seeded t s) (hperformed : Performed s op answer s') :
    ∃ lines, s'.snapshot.transcript =
        (if op = .reset then [] else s.snapshot.transcript) ++ lines ∧
      ∀ line ∈ lines, ShowsValues s'.world.counters line.rawText line.text := by
  cases hperformed with
  | @taken op c outcome s' hactive hpicked hopen htaken =>
      have hop : op ≠ .reset := by
        rintro rfl
        cases hpicked
      have hnext := seeded_taken h htaken
      rw [if_neg hop]
      cases htaken with
      | exit hexit => exact ⟨[], by simp, by simp⟩
      | lost hexit htarget hlost => exact ⟨[], by simp, by simp⟩
      | advanced hexit htarget hfound =>
          have hn := Tree.mem_values_of_node? (Tree.target?_eq_some_iff.1 hfound).2
          refine ⟨[_], rfl, fun line hline => ?_⟩
          rw [List.mem_singleton.1 hline]
          refine showsValues_message hn ?_ s.config (some c.text)
          rw [h.tree_eq]
          exact hnext.written
  | refused hop refusal =>
      rw [if_neg hop]
      exact ⟨[], by simp, by simp⟩
  | edited hedit =>
      have hop : op ≠ .reset := by
        rintro rfl
        cases hedit
      rw [if_neg hop]
      exact ⟨[], by simp, by simp⟩
  | reset =>
      rw [if_pos rfl, h.tree_eq]
      exact ⟨_, rfl, showsValues_start h.config_written⟩

theorem showsValues_offers {t : Tree} {s : Session} (h : Seeded t s) :
    ∀ offer ∈ s.offers, ShowsValues s.world.counters offer.choice.text offer.text := by
  intro offer hoffer
  obtain ⟨index, c, hc, rfl⟩ := exists_choice_of_mem_offers hoffer
  obtain ⟨n, hn, hmem⟩ := mem_choices_iff.1 hc
  have hcovers := ((Tree.covers_of_mem (Tree.mem_values_of_node? hn)).choice hmem).1
  refine showsValues_substitute fun name hname => h.written name ?_
  rw [← h.tree_eq]
  exact hcovers name hname

/-- A session in which the known counters are seeded starts with the values asked for, and shows
values only: in its first line, in every line that any operation of any run adds, and in everything
that it offers. -/
theorem seeded_session_shows_values (t : Tree) (seeds : List (String × Int64))
    (portrait : Option String) (ops : List Op) :
    let config := Setup.config { seeds, seedsKnown := true, portrait } t
    let s := ((start t config).run ops).2
    (∀ key, config.counters.value? key =
      (seeds.reverse.lookup key).or
        (if key ∈ (Vocabulary.of t).counters then some 0 else none)) ∧
      (∀ line ∈ (start t config).snapshot.transcript,
        ShowsValues (start t config).world.counters line.rawText line.text) ∧
      (∀ op, ∃ lines, (s.perform op).2.snapshot.transcript =
          (if op = .reset then [] else s.snapshot.transcript) ++ lines ∧
        ∀ line ∈ lines, ShowsValues (s.perform op).2.world.counters line.rawText line.text) ∧
      ∀ offer ∈ s.offers, ShowsValues s.world.counters offer.choice.text offer.text := by
  intro config s
  have hwritten : ∀ key ∈ (Vocabulary.of t).counters, config.counters.contains key = true :=
    fun key hkey => Setup.contains_config rfl hkey
  have hs : Seeded t s := run_keeps seeded_performed (seeded_start hwritten) ops
  exact ⟨Setup.value?_config rfl t, showsValues_start hwritten,
    fun op => showsValues_performed hs (perform_spec s op), showsValues_offers hs⟩

-- a seeded counter keeps its seed, the other one starts at zero
example :
    let t := (Tree.bare "t" "a").withNode
      (Node.line "a" "N" "Gold: \x7b$$gold\x7d, xp: \x7b$$xp\x7d")
    ((start t (Setup.config ⟨[("xp", 450)], true, none⟩ t)).snapshot.transcript.map (·.text)) =
      ["Gold: 0, xp: 450"] := by
  decide +kernel

end Session

end Dialogue
