import Dialogue.Proofs.Interpolation.Split
/-!
# Filling in once

A filled text has no token left (`free_fill`), so filling it in again changes nothing.  The values that
were put in have no brace, and what was no token in the text does not become one: the brace that would
close it now stood in the text, and could have closed it before.
-/

namespace Dialogue.Interpolation

variable {c : Char} {cs rest : List Char} {counters : Counters}

/-! ## Texts without a token -/

theorem mentions_of_free {text : String} (h : Free text.toList []) : mentions text = [] :=
  mentions_of_isSplit (.last h)

theorem fill_of_free (h : Free cs []) (counters : Counters) : fill counters cs = cs := by
  rw [fill_of_isSplit (.last h) counters, List.flatMap_nil, List.append_nil]

/-! ## What a value adds -/

theorem openingBrace_notMem_shown (counters : Counters) (name : String) :
    '{' ∉ shown counters name := by
  intro hmem
  rcases of_mem_shown hmem with hdigit | hminus | hmissing
  · revert hdigit
    decide
  · revert hminus
    decide
  · revert hmissing
    decide

theorem IsInert.mem_of_mem_fill (h : IsInert c) (hmem : c ∈ fill counters cs) : c ∈ cs := by
  induction cs using text_induction with
  | nil =>
      rw [fill_nil] at hmem
      exact hmem
  | @token body rest hbody ih =>
      rw [fill_token hbody] at hmem
      rcases List.mem_append.1 hmem with hshown | hrest
      · exact absurd hshown (h.notMem_shown counters (nameOf body))
      · exact List.mem_append_right _ (ih hrest)
  | @plain d rest htoken ih =>
      rw [fill_plain htoken] at hmem
      rcases List.mem_cons.1 hmem with rfl | hrest
      · exact List.mem_cons_self
      · exact List.mem_cons_of_mem d (ih hrest)

/-- Where no token begins, none begins after what follows was filled in. -/
theorem token?_cons_fill (h : token? (c :: rest) = none) :
    token? (c :: fill counters rest) = none := by
  rw [Option.eq_none_iff_forall_ne_some]
  rintro ⟨body, more⟩ hsome
  obtain ⟨⟨hne, hclosing⟩, hbegins⟩ := token?_eq_some_iff.1 hsome
  obtain ⟨rfl, hfill⟩ := List.cons.inj hbegins
  -- the rest of the opening comes from the text, for no value begins with a dollar sign
  have hdollar : IsInert '$' := by decide
  have hdollars : ∀ d ∈ ['$', '$'], IsInert d :=
    List.forall_mem_cons.2 ⟨hdollar, List.forall_mem_singleton.2 hdollar⟩
  have hafter := after?_fill counters hdollars rest
  have hbehind : Text.after? ['$', '$'] (fill counters rest) = some (body ++ '}' :: more) :=
    Text.after?_eq_some.2 (by simpa using hfill)
  rw [hbehind] at hafter
  obtain ⟨tail, htail, hfilled⟩ := Option.map_eq_some_iff.1 hafter.symm
  obtain rfl : rest = '$' :: '$' :: tail := Text.after?_eq_some.1 htail
  -- and so does the brace that closes it
  have hinert : IsInert '}' := by decide
  have hmem : '}' ∈ tail :=
    hinert.mem_of_mem_fill (hfilled ▸ List.mem_append_right body List.mem_cons_self)
  cases hsplit : Text.splitAt? ['}'] tail with
  | none => exact Text.notMem_of_splitAt?_singleton_eq_none hsplit hmem
  | some parts =>
      obtain ⟨body', more'⟩ := parts
      have htail := Text.splitAt?_append hsplit
      cases body' with
      | nil =>
          -- the braces of an empty token stand side by side in the filled text too
          obtain ⟨b, body, rfl⟩ := List.exists_cons_of_ne_nil hne
          obtain rfl : tail = '}' :: more' := htail
          rw [fill_plain (token?_of_ne (by decide) more')] at hfilled
          exact hclosing (List.head_eq_of_cons_eq hfilled ▸ List.mem_cons_self)
      | cons b body' =>
          have hbody' : IsBody (b :: body') :=
            ⟨List.cons_ne_nil b body', Text.notMem_of_splitAt?_singleton hsplit⟩
          have htoken : token? ('{' :: '$' :: '$' :: tail) = some (b :: body', more') :=
            token?_eq_some_iff.2 ⟨hbody', by simp [Piece.written, htail]⟩
          rw [htoken] at h
          cases h

/-! ## Filled texts -/

theorem free_fill (counters : Counters) (cs : List Char) : Free (fill counters cs) [] := by
  induction cs using text_induction with
  | nil =>
      rw [fill_nil]
      exact free_of_notMem List.not_mem_nil
  | @token body rest hbody ih =>
      rw [fill_token hbody]
      exact Free.append (free_of_notMem (openingBrace_notMem_shown counters (nameOf body))) ih
  | @plain c rest htoken ih =>
      rw [fill_plain htoken]
      refine free_cons_iff.2 ⟨?_, ih⟩
      rw [List.append_nil]
      exact token?_cons_fill htoken

/-- A filled text is settled: it has no token, so it mentions no counter, and filling it in again, with
whatever values, changes nothing. -/
theorem substitute_settles (text : String) (counters : Counters) :
    Free (substitute text counters).toList [] ∧
      mentions (substitute text counters) = [] ∧
      ∀ counters', substitute (substitute text counters) counters' = substitute text counters := by
  have hfree : Free (substitute text counters).toList [] := by
    rw [substitute_eq, String.toList_ofList]
    exact free_fill counters text.toList
  refine ⟨hfree, mentions_of_free hfree, fun counters' => ?_⟩
  rw [substitute_eq (substitute text counters), fill_of_free hfree, String.ofList_toList]

-- what stands around a token does not become one when the value is put in between
example : substitute "\x7b\x7b$$gold\x7d$$gold\x7d \x7b$$\x7d" (.ofList [("gold", 12)]) =
    "\x7b12$$gold\x7d \x7b$$\x7d" := by
  decide +kernel

end Dialogue.Interpolation
