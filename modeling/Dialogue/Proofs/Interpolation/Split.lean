import Dialogue.Proofs.Interpolation.Token
import Dialogue.Proofs.Review.Mention
import Dialogue.Proofs.Text.Search
/-!
# Literals and tokens

A text is taken apart at its tokens in one way only: from the left, no token begins inside of a literal
(`IsSplit`).  A scanner finds these literals and tokens by searching for the next opening and for the
brace that closes it, without looking at each character in turn (`isSplit_scan`).  Which counters a
text mentions and what is shown of it are both read off from them.
-/

namespace Dialogue.Interpolation

/-- A text taken apart: what stands in front of the first token, and for each token its body with what
stands behind it up to the next one. -/
structure Split where
  first : List Char
  parts : List (List Char × List Char)
  deriving DecidableEq

def BeginsToken (cs : List Char) : Prop :=
  ∃ body rest, IsBody body ∧ cs = (Piece.token body).written ++ rest

def Free (literal behind : List Char) : Prop :=
  ∀ before rest, literal = before ++ rest → rest ≠ [] → ¬ BeginsToken (rest ++ behind)

/-- The tokens are those that a text has from the left, without overlap. -/
inductive IsSplit : List Char → Split → Prop where
  | last {literal : List Char} (hfree : Free literal []) : IsSplit literal ⟨literal, []⟩
  | token {literal body text : List Char} {s : Split} (hbody : IsBody body)
      (hfree : Free literal ((Piece.token body).written ++ text)) (hrest : IsSplit text s) :
      IsSplit (literal ++ ((Piece.token body).written ++ text))
        ⟨literal, (body, s.first) :: s.parts⟩

variable {cs literal behind body : List Char} {s : Split}

theorem beginsToken_iff : BeginsToken cs ↔ token? cs ≠ none := by
  constructor
  · rintro ⟨body, rest, h⟩
    rw [token?_eq_some_iff.2 h]
    exact Option.some_ne_none _
  · intro h
    obtain ⟨⟨body, rest⟩, hsome⟩ := Option.ne_none_iff_exists'.1 h
    exact ⟨body, rest, token?_eq_some_iff.1 hsome⟩

/-- A token begins with a brace. -/
theorem free_of_notMem (h : '{' ∉ literal) : Free literal behind := by
  rintro before rest rfl hne ⟨body, more, -, hbegins⟩
  obtain ⟨c, rest, rfl⟩ := List.exists_cons_of_ne_nil hne
  obtain rfl : c = '{' := List.head_eq_of_cons_eq hbegins
  exact h (List.mem_append_right before List.mem_cons_self)

theorem free_cons_iff {c : Char} :
    Free (c :: literal) behind ↔ token? (c :: (literal ++ behind)) = none ∧ Free literal behind := by
  constructor
  · intro h
    refine ⟨?_, fun before rest hsplit => h (c :: before) rest (congrArg (c :: ·) hsplit)⟩
    by_contra htoken
    exact h [] (c :: literal) rfl (List.cons_ne_nil c literal) (beginsToken_iff.2 htoken)
  · rintro ⟨hnone, hliteral⟩ before rest hsplit hne hbegins
    cases before with
    | nil =>
        obtain rfl : c :: literal = rest := hsplit
        exact beginsToken_iff.1 hbegins hnone
    | cons b before =>
        exact hliteral before rest (List.tail_eq_of_cons_eq hsplit) hne hbegins

/-! ## The pieces of a split -/

def Split.pieces (s : Split) : List Piece :=
  s.first.map .plain ++ s.parts.flatMap fun part => .token part.1 :: part.2.map .plain

theorem pieces_append_of_free (h : Free literal behind) :
    Interpolation.pieces (literal ++ behind) =
      literal.map .plain ++ Interpolation.pieces behind := by
  induction literal with
  | nil => rfl
  | cons c literal ih =>
      obtain ⟨hnone, hliteral⟩ := free_cons_iff.1 h
      rw [List.cons_append, pieces_plain hnone, ih hliteral, List.map_cons, List.cons_append]

theorem IsSplit.pieces_eq (h : IsSplit cs s) : Interpolation.pieces cs = s.pieces := by
  induction h with
  | last hfree =>
      have hpieces := pieces_append_of_free hfree
      rw [List.append_nil, pieces_nil, List.append_nil] at hpieces
      rw [hpieces, Split.pieces, List.flatMap_nil, List.append_nil]
  | token hbody hfree hrest ih =>
      rw [pieces_append_of_free hfree, pieces_token hbody, ih]
      simp only [Split.pieces, List.flatMap_cons, List.cons_append]

def Split.ofPieces : List Piece → Split
  | [] => ⟨[], []⟩
  | .plain c :: rest => { ofPieces rest with first := c :: (ofPieces rest).first }
  | .token body :: rest => ⟨[], (body, (ofPieces rest).first) :: (ofPieces rest).parts⟩

theorem Split.ofPieces_plain_append (literal : List Char) (rest : List Piece) :
    ofPieces (literal.map .plain ++ rest) =
      ⟨literal ++ (ofPieces rest).first, (ofPieces rest).parts⟩ := by
  induction literal with
  | nil => rfl
  | cons c literal ih => rw [List.map_cons, List.cons_append, ofPieces, ih, List.cons_append]

theorem Split.ofPieces_pieces (s : Split) : ofPieces s.pieces = s := by
  have hparts : ∀ parts : List (List Char × List Char),
      ofPieces (parts.flatMap fun part => .token part.1 :: part.2.map .plain) = ⟨[], parts⟩ := by
    intro parts
    induction parts with
    | nil => rfl
    | cons part parts ih =>
        rw [List.flatMap_cons, List.cons_append, ofPieces, ofPieces_plain_append, ih,
          List.append_nil]
  rw [pieces, ofPieces_plain_append, hparts, List.append_nil]

theorem IsSplit.unique {s' : Split} (h : IsSplit cs s) (h' : IsSplit cs s') : s' = s := by
  rw [← s.ofPieces_pieces, ← h.pieces_eq, h'.pieces_eq, s'.ofPieces_pieces]

/-! ## Scanning -/

def opening : List Char := ['{', '$', '$']

/-- Searches for the next opening, and for the brace that closes it.  An opening that is closed at once
begins no token, so the search goes on behind its first character.  Where no brace is left, there is no
further token. -/
def scan (cs : List Char) : Split :=
  match _hopening : Text.splitAt? opening cs with
  | none => ⟨cs, []⟩
  | some (before, behind) =>
    match _hclosing : Text.splitAt? ['}'] behind with
    | none => ⟨cs, []⟩
    | some ([], _) =>
      let s := scan ('$' :: '$' :: behind)
      ⟨before ++ '{' :: s.first, s.parts⟩
    | some (c :: body, rest) =>
      let s := scan rest
      ⟨before, (c :: body, s.first) :: s.parts⟩
termination_by cs.length
decreasing_by
  · rw [Text.splitAt?_append _hopening]
    simp only [opening, List.length_append, List.length_cons]
    omega
  · have hbehind := Text.length_lt_of_splitAt? (List.cons_ne_nil _ _) _hopening
    have hrest := Text.length_lt_of_splitAt? (List.cons_ne_nil _ _) _hclosing
    omega

theorem BeginsToken.after? (h : BeginsToken cs) : Text.after? opening cs ≠ none := by
  obtain ⟨body, rest, -, rfl⟩ := h
  have hopening : (Piece.token body).written ++ rest = opening ++ (body ++ ['}'] ++ rest) := rfl
  rw [hopening, Text.after?_append]
  exact Option.some_ne_none _

theorem BeginsToken.closing_mem (h : BeginsToken cs) : '}' ∈ cs := by
  obtain ⟨body, rest, -, rfl⟩ := h
  simp [Piece.written]

theorem free_of_splitAt? {before : List Char}
    (h : Text.splitAt? opening cs = some (before, behind)) : Free before (opening ++ behind) :=
  fun front _ hsplit hne hbegins =>
    hbegins.after? (Text.after?_of_splitAt? h front hsplit hne)

theorem Free.append {more : List Char} (hmore : Free more (literal ++ behind))
    (h : Free literal behind) : Free (more ++ literal) behind := by
  intro before rest hsplit hne
  rcases List.append_eq_append_iff.1 hsplit with ⟨mid, rfl, hliteral⟩ | ⟨mid, hbefore, rfl⟩
  · exact h mid rest hliteral hne
  · cases mid with
    | nil => exact h [] literal rfl hne
    | cons c mid =>
        rw [List.append_assoc]
        exact hmore before (c :: mid) hbefore (List.cons_ne_nil c mid)

/-- Characters in front of a text in which no token begins belong to its first literal. -/
theorem IsSplit.append_left {more : List Char} (h : IsSplit cs s) (hfree : Free more cs) :
    IsSplit (more ++ cs) ⟨more ++ s.first, s.parts⟩ := by
  cases h with
  | last hlast =>
      refine .last (Free.append ?_ hlast)
      rwa [List.append_nil]
  | token hbody hliteral hrest =>
      rw [← List.append_assoc]
      exact .token hbody (Free.append hfree hliteral) hrest

/-- Where no brace follows the first opening, there is no token. -/
theorem free_of_closing_notMem {before : List Char}
    (h : Text.splitAt? opening cs = some (before, behind)) (hclosing : '}' ∉ behind) :
    Free cs [] := by
  have hcs : cs = before ++ (opening ++ behind) := by
    rw [Text.splitAt?_append h, List.append_assoc]
  rw [hcs]
  refine Free.append ?_ fun front rest hsplit _ hbegins => ?_
  · rw [List.append_nil]
    exact free_of_splitAt? h
  · have hmem : '}' ∈ opening ++ behind := by
      rw [hsplit, ← List.append_nil rest]
      exact List.mem_append_right front hbegins.closing_mem
    rcases List.mem_append.1 hmem with hopening | hbehind
    · revert hopening
      decide
    · exact hclosing hbehind

theorem isSplit_scan (cs : List Char) : IsSplit cs (scan cs) := by
  fun_induction scan cs with
  | case1 cs hopening =>
      refine .last fun before rest hsplit _ hbegins => ?_
      rw [List.append_nil] at hbegins
      exact hbegins.after? (Text.after?_of_splitAt?_eq_none hopening before hsplit)
  | case2 cs before behind hopening hclosing =>
      have hnot : '}' ∉ behind := Text.notMem_of_splitAt?_singleton_eq_none hclosing
      exact .last (free_of_closing_notMem hopening hnot)
  | case3 cs before behind hopening rest hclosing s ih =>
      have hbehind : behind = '}' :: rest := Text.splitAt?_append hclosing
      have hcs : cs = (before ++ ['{']) ++ ('$' :: '$' :: behind) := by
        rw [Text.splitAt?_append hopening]
        simp [opening]
      have hbefore : Free before (['{'] ++ ('$' :: '$' :: behind)) := free_of_splitAt? hopening
      have hnone : token? ('{' :: '$' :: '$' :: behind) = none := by
        rw [hbehind]
        rfl
      have hbrace : Free ['{'] ('$' :: '$' :: behind) :=
        free_cons_iff.2 ⟨hnone, free_of_notMem List.not_mem_nil⟩
      have hsplit := ih.append_left (Free.append hbefore hbrace)
      rw [hcs]
      simpa using hsplit
  | case4 cs before behind hopening c body rest hclosing s ih =>
      have hbehind : behind = (c :: body) ++ ['}'] ++ rest := Text.splitAt?_append hclosing
      have hbody : IsBody (c :: body) :=
        ⟨List.cons_ne_nil c body, Text.notMem_of_splitAt?_singleton hclosing⟩
      have hwritten : (Piece.token (c :: body)).written ++ rest = opening ++ behind := by
        rw [hbehind]
        rfl
      have hcs : cs = before ++ ((Piece.token (c :: body)).written ++ rest) := by
        rw [Text.splitAt?_append hopening, hwritten, List.append_assoc]
      have hfree : Free before ((Piece.token (c :: body)).written ++ rest) := by
        rw [hwritten]
        exact free_of_splitAt? hopening
      rw [hcs]
      exact .token hbody hfree ih

/-! ## What is read off a split -/

theorem IsSplit.written_eq (h : IsSplit cs s) :
    cs = s.first ++ s.parts.flatMap fun part => (Piece.token part.1).written ++ part.2 := by
  induction h with
  | last hfree => rw [List.flatMap_nil, List.append_nil]
  | token hbody hfree hrest ih =>
      rw [List.flatMap_cons, List.append_assoc, ← ih]

theorem IsSplit.isBody (h : IsSplit cs s) : ∀ part ∈ s.parts, IsBody part.1 := by
  induction h with
  | last hfree => exact List.forall_mem_nil _
  | token hbody hfree hrest ih => exact List.forall_mem_cons.2 ⟨hbody, ih⟩

theorem mentions_of_isSplit {text : String} (h : IsSplit text.toList s) :
    mentions text = s.parts.map fun part => nameOf part.1 := by
  calc mentions text = s.parts.flatMap fun part => [nameOf part.1] := by
        simp [mentions, h.pieces_eq, Split.pieces, List.filterMap_flatMap]
    _ = s.parts.map fun part => nameOf part.1 := List.map_eq_flatMap.symm

theorem fill_of_isSplit (h : IsSplit cs s) (counters : Counters) :
    fill counters cs =
      s.first ++ s.parts.flatMap fun part => shown counters (nameOf part.1) ++ part.2 := by
  have hplain : ∀ literal : List Char,
      (literal.map .plain).flatMap (Piece.shown counters) = literal := by
    intro literal
    rw [List.flatMap_map]
    exact List.flatMap_singleton' literal
  rw [fill, h.pieces_eq, Split.pieces, List.flatMap_append, hplain, List.flatMap_assoc]
  simp only [List.flatMap_cons, hplain]
  rfl

/-- A split accounts for a text: for the text itself, for the counters that it mentions, and for what is
shown of it. -/
structure Tokenized (text : String) (s : Split) : Prop where
  /-- The tokens are those from the left: none begins inside of a literal. -/
  isSplit : IsSplit text.toList s
  unique : ∀ s', IsSplit text.toList s' → s' = s
  toList_eq : text.toList = s.first ++ s.parts.flatMap fun part =>
    '{' :: '$' :: '$' :: (part.1 ++ '}' :: part.2)
  isBody : ∀ part ∈ s.parts, part.1 ≠ [] ∧ '}' ∉ part.1
  mentions_eq : mentions text = s.parts.map fun part => String.ofList (Text.trim part.1)
  /-- The value is written in decimal. -/
  substitute_eq : ∀ counters, (substitute text counters).toList =
    s.first ++ s.parts.flatMap fun part =>
      ((counters.value? (String.ofList (Text.trim part.1))).elim missingValue
        fun value => toString value.toInt).toList ++ part.2

/-- What is scanned accounts for the text, and what is shown depends on the counters that are mentioned
only. -/
theorem tokenized_scan (text : String) :
    Tokenized text (scan text.toList) ∧
      ∀ counters counters' : Counters,
        (∀ name ∈ mentions text, counters.value? name = counters'.value? name) →
          substitute text counters = substitute text counters' := by
  have hsplit := isSplit_scan text.toList
  refine ⟨⟨hsplit, fun s' h' => hsplit.unique h', ?_, hsplit.isBody, mentions_of_isSplit hsplit, ?_⟩,
    fun counters counters' h => substitute_congr h⟩
  · have hwritten : ∀ part : List Char × List Char, (Piece.token part.1).written ++ part.2 =
        '{' :: '$' :: '$' :: (part.1 ++ '}' :: part.2) := by
      intro part
      simp [Piece.written]
    simp only [← hwritten]
    exact hsplit.written_eq
  · intro counters
    have hshown : ∀ name, shown counters name = ((counters.value? name).elim missingValue
        fun value => toString value.toInt).toList := by
      intro name
      unfold shown
      cases counters.value? name <;> rfl
    simp only [← hshown]
    rw [substitute_eq, String.toList_ofList]
    exact fill_of_isSplit hsplit counters

-- an opening that is closed at once is none, and a name may contain an opening
example : scan "a\x7b$$\x7d\x7b$$ b\x7b$$c\x7d d".toList =
    ⟨"a\x7b$$\x7d".toList, [(" b\x7b$$c".toList, " d".toList)]⟩ := by
  decide +kernel

end Dialogue.Interpolation
