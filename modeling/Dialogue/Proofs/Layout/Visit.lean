import Dialogue.Proofs.Layout.Discovery
/-!
# The recursive visit

A depth-first visit by recursion: a node that has been reached is passed over, any other is recorded
with a note, and then its children are visited one after the other.  What a node hands down to its
children is a parameter, so that one definition tells of depths and of paths.
-/

namespace Dialogue.Layout

variable {α β : Type} {t : Tree} {down : String → α → α}

/-! ## A bound for the recursion -/

def openPlaces (t : Tree) (reached : List (String × α)) : Nat :=
  unmetWeight t (fun id => id ∈ reached.map (·.1)) fun id => (t.children id).length

theorem openPlaces_le_of_suffix (t : Tree) {reached later : List (String × α)} (h : reached <:+ later) :
    openPlaces t later ≤ openPlaces t reached := by
  refine List.sum_le_sum fun id _ => ?_
  by_cases hid : id ∈ reached.map (·.1)
  · have hlater : id ∈ later.map (·.1) := (h.map _).subset hid
    simp [hlater]
  · simp only [hid, decide_false, Bool.false_eq_true, if_false]
    split <;> simp

theorem openPlaces_cons (t : Tree) {id : String} (note : α) {reached : List (String × α)}
    (h : id ∉ reached.map (·.1)) :
    (t.children id).length + openPlaces t ((id, note) :: reached) ≤ openPlaces t reached := by
  cases hnode : t.node? id with
  | none =>
      have hnone : t.children id = [] := by simp [Tree.children, hnode]
      have hle := openPlaces_le_of_suffix t (List.suffix_cons (id, note) reached)
      rw [hnone, List.length_nil, Nat.zero_add]
      exact hle
  | some n =>
      have hkey : id ∈ t.nodes.keys := Tree.mem_keys_of_node? hnode
      have hmeet : openPlaces t ((id, note) :: reached) + (t.children id).length =
          openPlaces t reached :=
        unmetWeight_meet (fun id => (t.children id).length) hkey (decide_eq_false h)
          fun key => by simp only [List.map_cons, List.mem_cons, Bool.decide_or]
      omega

/-! ## The visit -/

/-- Visits nodes one after the other, all with the same note.  Those recorded last come first, and
what was recorded before stays behind them. -/
def visitEach (t : Tree) (down : String → α → α) (note : α) (ids : List String)
    (reached : List (String × α)) : { later : List (String × α) // reached <:+ later } :=
  match ids with
  | [] => ⟨reached, List.suffix_rfl⟩
  | id :: rest =>
    if id ∈ reached.map (·.1) then visitEach t down note rest reached
    else
      let ⟨below, hbelow⟩ := visitEach t down (down id note) (t.children id) ((id, note) :: reached)
      let ⟨later, hlater⟩ := visitEach t down note rest below
      ⟨later, (List.suffix_cons _ _).trans (hbelow.trans hlater)⟩
termination_by ids.length + openPlaces t reached
decreasing_by
  · simp
  · rename_i hnew
    have hplaces := openPlaces_cons t note hnew
    simp only [List.length_cons]
    omega
  · have hplaces := openPlaces_le_of_suffix t
      ((List.suffix_cons (id, note) reached).trans hbelow)
    simp only [List.length_cons]
    omega

def visitAll (t : Tree) (down : String → α → α) (note : α) (ids : List String)
    (reached : List (String × α)) : List (String × α) := (visitEach t down note ids reached).1

def visit (t : Tree) (down : String → α → α) (id : String) (note : α)
    (reached : List (String × α)) : List (String × α) := visitAll t down note [id] reached

theorem suffix_visitAll (note : α) (ids : List String) (reached : List (String × α)) :
    reached <:+ visitAll t down note ids reached :=
  (visitEach t down note ids reached).2

@[simp] theorem visitAll_nil (note : α) (reached : List (String × α)) :
    visitAll t down note [] reached = reached := by
  rw [visitAll, visitEach]

theorem visitAll_cons_of_mem {id : String} {note : α} {rest : List String}
    {reached : List (String × α)} (h : id ∈ reached.map (·.1)) :
    visitAll t down note (id :: rest) reached = visitAll t down note rest reached := by
  rw [visitAll, visitEach, if_pos h, visitAll]

theorem visitAll_cons_of_notMem {id : String} {note : α} {rest : List String}
    {reached : List (String × α)} (h : id ∉ reached.map (·.1)) :
    visitAll t down note (id :: rest) reached =
      visitAll t down note rest
        (visitAll t down (down id note) (t.children id) ((id, note) :: reached)) := by
  rw [visitAll, visitEach, if_neg h]
  rfl

theorem visitAll_induction
    {motive : α → List String → List (String × α) → List (String × α) → Prop}
    (nil : ∀ note reached, motive note [] reached reached)
    (known : ∀ {note id rest reached later}, id ∈ reached.map (·.1) →
      motive note rest reached later → motive note (id :: rest) reached later)
    (new : ∀ {note id rest reached below later}, id ∉ reached.map (·.1) →
      (id, note) :: reached <:+ below →
      motive (down id note) (t.children id) ((id, note) :: reached) below →
      motive note rest below later → motive note (id :: rest) reached later)
    (note : α) (ids : List String) (reached : List (String × α)) :
    motive note ids reached (visitAll t down note ids reached) := by
  fun_induction visitEach t down note ids reached with
  | case1 note reached => simpa using nil note reached
  | case2 note reached id rest h ih =>
      rw [visitAll_cons_of_mem h]
      exact known h ih
  | case3 note reached id rest h below hbelow heq later hlater heq' ihbelow ihlater =>
      have hval : visitAll t down (down id note) (t.children id) ((id, note) :: reached) = below :=
        congrArg Subtype.val heq
      rw [visitAll_cons_of_notMem h, hval]
      rw [hval] at ihbelow
      exact new h hbelow ihbelow ihlater

theorem visitAll_cons (id : String) (note : α) (rest : List String)
    (reached : List (String × α)) :
    visitAll t down note (id :: rest) reached =
      visitAll t down note rest (visit t down id note reached) := by
  by_cases h : id ∈ reached.map (·.1)
  · rw [visit, visitAll_cons_of_mem h, visitAll_cons_of_mem h, visitAll_nil]
  · rw [visit, visitAll_cons_of_notMem h, visitAll_cons_of_notMem h, visitAll_nil]

theorem visitAll_eq_foldl (note : α) (ids : List String) (reached : List (String × α)) :
    visitAll t down note ids reached =
      ids.foldl (fun reached id => visit t down id note reached) reached := by
  induction ids generalizing reached with
  | nil => exact visitAll_nil note reached
  | cons id rest ih => rw [visitAll_cons, ih, List.foldl_cons]

theorem visit_of_mem {id : String} {note : α} {reached : List (String × α)}
    (h : id ∈ reached.map (·.1)) : visit t down id note reached = reached := by
  rw [visit, visitAll_cons_of_mem h, visitAll_nil]

theorem suffix_visit (id : String) (note : α) (reached : List (String × α)) :
    reached <:+ visit t down id note reached :=
  suffix_visitAll note [id] reached

/-- The recursion: a node that has been reached is passed over, any other is recorded, and then its
children are visited in order. -/
theorem visit_eq (t : Tree) (down : String → α → α) (id : String) (note : α)
    (reached : List (String × α)) :
    visit t down id note reached =
      if id ∈ reached.map (·.1) then reached
      else (t.children id).foldl
        (fun reached child => visit t down child (down id note) reached) ((id, note) :: reached) := by
  split
  next h => exact visit_of_mem h
  next h => rw [visit, visitAll_cons_of_notMem h, visitAll_nil, visitAll_eq_foldl]

/-- The visit of all that can be reached from the start, each node with its note, the last one
first. -/
def visitTree (t : Tree) (down : String → α → α) (note : α) : List (String × α) :=
  if t.isPlayable then visit t down t.start note [] else []

/-- The notes play no part in which nodes are visited, and in which order. -/
theorem map_visitAll {down' : String → β → β} {f : α → β}
    (hf : ∀ id note, f (down id note) = down' id (f note)) (note : α) (ids : List String)
    (reached : List (String × α)) :
    (visitAll t down note ids reached).map (Prod.map id f) =
      visitAll t down' (f note) ids (reached.map (Prod.map id f)) := by
  have hkeys : ∀ reached : List (String × α),
      (reached.map (Prod.map id f)).map (·.1) = reached.map (·.1) := fun reached => by simp
  refine visitAll_induction (motive := fun note ids reached later =>
    later.map (Prod.map id f) = visitAll t down' (f note) ids (reached.map (Prod.map id f)))
    (fun note reached => by simp) ?_ ?_ note ids reached
  · intro note id rest reached later hknown ih
    rw [ih, visitAll_cons_of_mem (by rwa [hkeys])]
  · intro note id rest reached below later hnew _ ihbelow ihlater
    rw [ihlater, ihbelow, visitAll_cons_of_notMem (by rwa [hkeys]), hf]
    rfl

theorem map_visitTree {down' : String → β → β} {f : α → β}
    (hf : ∀ id note, f (down id note) = down' id (f note)) (note : α) :
    (visitTree t down note).map (Prod.map id f) = visitTree t down' (f note) := by
  unfold visitTree
  split
  · exact map_visitAll hf note [t.start] []
  · rfl

/-! ## The walk with a stack -/

namespace Discovery

def deeper (_ : String) (depth : Nat) : Nat := depth + 1

/-- What will have been reached when all nodes that the walk has to go on with have been visited. -/
def outcome (t : Tree) (d : Discovery) : List (String × Nat) :=
  d.stack.foldl (fun reached entry => visit t deeper entry.1 entry.2 reached) d.reached

/-- Nodes that have been reached need not be put on the stack: a visit passes over them, whatever
else is reached before. -/
theorem foldl_visit_filter (t : Tree) (down : String → α → α) {reached later : List (String × α)}
    (h : reached <:+ later) (note : α) (ids : List String) :
    (ids.filter fun id => !reached.any fun entry => entry.1 = id).foldl
        (fun later id => visit t down id note later) later =
      ids.foldl (fun later id => visit t down id note later) later := by
  induction ids generalizing later with
  | nil => rfl
  | cons id rest ih =>
      cases hany : reached.any fun entry => entry.1 = id with
      | true =>
          have hknown : id ∈ reached.map (·.1) := by simpa using hany
          rw [List.filter_cons_of_neg (by simp [hany]), ih h, List.foldl_cons,
            visit_of_mem ((h.map _).subset hknown)]
      | false =>
          rw [List.filter_cons_of_pos (by simp [hany]), List.foldl_cons, List.foldl_cons,
            ih (h.trans (suffix_visit id note later))]

theorem outcome_step {d d' : Discovery} (h : step t d = some d') : outcome t d' = outcome t d := by
  obtain ⟨id, depth, stack, hstack, ⟨hreached, rfl⟩ | ⟨hreached, rfl⟩⟩ := step_cases h
  · have hknown : id ∈ d.reached.map (·.1) := hasReached_iff.1 hreached
    rw [outcome, outcome, hstack, List.foldl_cons, visit_of_mem hknown]
  · have hnew : id ∉ d.reached.map (·.1) := by
      rw [← hasReached_iff, hreached]
      simp
    rw [outcome, outcome, hstack, List.foldl_cons, takeUp, List.foldl_append, List.foldl_map,
      visit_eq, if_neg hnew]
    have hsame := foldl_visit_filter t deeper (List.suffix_refl ((id, depth) :: d.reached))
      (depth + 1) (t.children id)
    exact congrArg (List.foldl _ · stack) hsame

theorem outcome_start (t : Tree) : outcome t (start t) = visitTree t deeper 0 := by
  unfold outcome start visitTree
  split <;> rfl

/-- The walk reaches what the recursive visit reaches, in the same order and at the same depths. -/
theorem reached_finish (t : Tree) : (finish t).reached = visitTree t deeper 0 := by
  have hkept : outcome t (finish t) = outcome t (start t) :=
    iterate_keeps (P := fun d => outcome t d = outcome t (start t))
      (fun h hstep => (outcome_step hstep).trans h) rfl _
  rw [outcome, (finish_spec t).2, List.foldl_nil] at hkept
  rw [hkept, outcome_start]

end Discovery

end Dialogue.Layout
