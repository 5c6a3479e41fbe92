import Mathlib.Tactic
import Componentry.Proofs.Condition.Levels
/-!
# Where a text is cut

A connective occurs in a text wherever a scan that has come there is at the top level (`Occurs`).
The search finds the first of these places (`cut_eq_some_iff`), so that a text has several parts
exactly if there is something behind some occurrence (`parts?_eq_none_iff`).

`Pieces k text heads last` says how a text is cut at all occurrences of a connective: `heads` are
what stands in front of one, and `last` is what stands behind all of them.  The parts are the
trimmed pieces, but without the last one if there is nothing in it (`partsWithin_of_pieces`).
-/

namespace Componentry.Condition

open Position

/-- A connective stands between two texts at the top level. -/
structure Occurs (k : Connective) (text before after : List Char) : Prop where
  text_eq : text = before ++ (k.operator ++ after)
  top : ({} : Position).after before = {}

variable {k k' : Connective} {text before after : List Char}

/-- A connective does not move a position. -/
lemma Position.after_operator (k : Connective) (p : Position) : p.after k.operator = p :=
  after_of_plain p fun c hc => (within_connective k c hc).1

/-- Blanks do not move a position. -/
lemma Position.after_blanks (p : Position) {cs : List Char} (h : Text.Blanks cs) : p.after cs = p :=
  after_of_plain p fun c hc => (isOperandChar_of_isBlank (h c hc)).1

lemma Occurs.suffix (h : Occurs k text before after) : after <:+ text :=
  ⟨before ++ k.operator, by rw [h.text_eq, List.append_assoc]⟩

/-- An occurrence is one in a longer text, too. -/
lemma Occurs.append (h : Occurs k text before after) (more : List Char) :
    Occurs k (text ++ more) before (after ++ more) :=
  ⟨by simp only [h.text_eq, List.append_assoc], h.top⟩

lemma Occurs.prepend (h : Occurs k text before after) {lead : List Char}
    (hlead : ({} : Position).after lead = {}) : Occurs k (lead ++ text) (lead ++ before) after :=
  ⟨by simp only [h.text_eq, List.append_assoc], by rw [after_append, hlead, h.top]⟩

/-- Behind an occurrence there may be another one. -/
lemma Occurs.behind {before' after' : List Char} (h : Occurs k text before after)
    (h' : Occurs k' after before' after') :
    Occurs k' text (before ++ (k.operator ++ before')) after' := by
  have hlead : ({} : Position).after (before ++ k.operator) = {} := by
    rw [after_append, h.top, after_operator]
  have hlater := h'.prepend hlead
  rwa [List.append_assoc, List.append_assoc, ← h.text_eq] at hlater

/-- What the search finds is an occurrence. -/
lemma occurs_of_cut (h : cutTopLevel k.operator {} text = some (before, after)) :
    Occurs k text before after := ⟨eq_of_cutTopLevel h, (of_cutTopLevel h).2⟩

/-- The search stops at the first place where the operator stands at the latest. -/
lemma exists_cut {first : Char} {operator : List Char} (hfirst : IsPlain first) {p : Position}
    (htop : p.after before = {}) :
    ∃ before' after', cutTopLevel (first :: operator) p (before ++ (first :: operator ++ after))
      = some (before', after') ∧ after.length ≤ after'.length := by
  induction before generalizing p with
  | nil =>
      have hp : p = {} := htop
      have hprefix :
          Text.stripPrefix (first :: operator) (first :: operator ++ after) = some after :=
        Text.stripPrefix_append _ _
      refine ⟨[], after, ?_, le_rfl⟩
      rw [List.nil_append, hp]
      rw [List.cons_append] at hprefix ⊢
      rw [cutTopLevel, mark?_plain hfirst]
      dsimp only
      rw [if_pos (by rfl), hprefix]
  | cons c rest ih =>
      rw [Position.after] at htop
      have hskip : ∀ {q : Position}, q.after rest = {} → ∃ before' after',
          (cutTopLevel (first :: operator) q (rest ++ (first :: operator ++ after))).map
            (fun parts => (c :: parts.1, parts.2)) = some (before', after')
            ∧ after.length ≤ after'.length := by
        intro q hq
        obtain ⟨before', after', hcut, hlength⟩ := ih hq
        exact ⟨c :: before', after', by rw [hcut]; rfl, hlength⟩
      rw [List.cons_append, cutTopLevel]
      cases hmark : p.mark? c with
      | some q =>
          rw [hmark] at htop
          exact hskip htop
      | none =>
          rw [hmark] at htop
          dsimp only
          split_ifs
          · cases hprefix : Text.stripPrefix (first :: operator)
                (c :: (rest ++ (first :: operator ++ after))) with
            | none => exact hskip htop
            | some found =>
                -- An earlier occurrence leaves more of the text.
                have hlength := congrArg List.length (Text.stripPrefix_eq_some_iff.mp hprefix)
                simp only [List.length_cons, List.length_append] at hlength
                exact ⟨[], found, rfl, by omega⟩
          · exact hskip htop

lemma exists_cut_of_occurs (h : Occurs k text before after) :
    ∃ before' after', cutTopLevel k.operator {} text = some (before', after')
      ∧ after.length ≤ after'.length := by
  rw [h.text_eq]
  exact exists_cut (isPlain_mark k) h.top

/-- **The search finds the first occurrence.** -/
theorem cut_eq_some_iff : cutTopLevel k.operator {} text = some (before, after)
    ↔ Occurs k text before after
      ∧ ∀ before' after', Occurs k text before' after' → after'.length ≤ after.length := by
  constructor
  · intro h
    refine ⟨occurs_of_cut h, fun before' after' h' => ?_⟩
    obtain ⟨first, later, hcut, hlength⟩ := exists_cut_of_occurs h'
    rw [h] at hcut
    cases hcut
    exact hlength
  · rintro ⟨h, hfirst⟩
    obtain ⟨first, later, hcut, hlength⟩ := exists_cut_of_occurs h
    have hfound := occurs_of_cut hcut
    have hsame : later.length = after.length := le_antisymm (hfirst _ _ hfound) hlength
    obtain ⟨hbefore, hafter⟩ := List.append_inj' (hfound.text_eq.symm.trans h.text_eq) (by
      simp only [List.length_append, hsame])
    rw [hcut, hbefore, List.append_cancel_left hafter]

/-- What is found in a text is found in a longer one, too. -/
lemma cut_append (h : cutTopLevel k.operator {} text = some (before, after)) (more : List Char) :
    cutTopLevel k.operator {} (text ++ more) = some (before, after ++ more) := by
  obtain ⟨hoccurs, hfirst⟩ := cut_eq_some_iff.mp h
  refine cut_eq_some_iff.mpr ⟨hoccurs.append more, fun before' after' h' => ?_⟩
  by_contra hshort
  -- What begins earlier is in the shorter text as a whole.
  have hlength := congrArg List.length hoccurs.text_eq
  have hlength' := congrArg List.length h'.text_eq
  simp only [List.length_append] at hshort hlength hlength'
  obtain ⟨rest, hrest⟩ : before' ++ k.operator <+: text :=
    List.prefix_of_prefix_length_le
      ⟨after', by rw [h'.text_eq, List.append_assoc]⟩ (List.prefix_append text more) (by
        rw [List.length_append]
        omega)
  have hearlier := hfirst before' rest ⟨by rw [← hrest, List.append_assoc], h'.top⟩
  have hsum := congrArg List.length hrest
  simp only [List.length_append] at hsum
  omega

lemma partsWithin_ne_nil (operator : List Char) (hne : text ≠ []) (fuel : Nat) :
    partsWithin operator (fuel + 1) text ≠ [] := by
  cases hcut : cutTopLevel operator {} text with
  | none => simp [partsWithin_of_eq_none hne hcut]
  | some found =>
      obtain ⟨before, after⟩ := found
      simp [partsWithin_of_cut hcut]

/-- **A text has several parts exactly if there is something behind some occurrence.** -/
theorem parts?_eq_none_iff : parts? k.sign text = none
    ↔ ∀ before after, Occurs k text before after → after = [] := by
  constructor
  · intro hnone before after h
    by_contra hne
    obtain ⟨before', after', hcut, hlength⟩ := exists_cut_of_occurs h
    have hbehind : after' ≠ [] := by
      rintro rfl
      exact hne (List.length_eq_zero_iff.mp (Nat.le_zero.mp hlength))
    have hparts := partsWithin_of_cut hcut text.length
    have htwo : 2 ≤ (partsWithin k.operator (text.length + 1) text).length := by
      obtain ⟨n, hn⟩ : ∃ n, text.length = n + 1 := Nat.exists_eq_succ_of_ne_zero (by
        simp [h.text_eq, Connective.operator])
      have hpos := List.length_pos_iff.mpr (partsWithin_ne_nil k.operator hbehind n)
      rw [hparts, hn, List.length_cons]
      omega
    rw [parts?_eq_some_iff.mpr ⟨rfl, htwo⟩] at hnone
    cases hnone
  · intro hempty
    cases hcut : cutTopLevel k.operator {} text with
    | none => exact parts?_eq_none_of_cut hcut
    | some found =>
        obtain ⟨before, after⟩ := found
        have hafter := hempty before after (occurs_of_cut hcut)
        rw [Option.eq_none_iff_forall_not_mem]
        intro parts hparts
        obtain ⟨rfl, htwo⟩ := parts?_eq_some_iff.mp hparts
        rw [partsWithin_of_cut hcut, hafter] at htwo
        cases text <;> simp [partsWithin] at htwo

/-! ### All occurrences -/

/-- A text as it is cut at all occurrences of a connective: into what stands in front of one, and
what stands behind the last. -/
inductive Pieces (k : Connective) : List Char → List (List Char) → List Char → Prop
  | last {text : List Char} (none : cutTopLevel k.operator {} text = none) : Pieces k text [] text
  | more {text before after last : List Char} {heads : List (List Char)}
      (cut : cutTopLevel k.operator {} text = some (before, after))
      (rest : Pieces k after heads last) : Pieces k text (before :: heads) last

/-- Every text is cut into pieces. -/
lemma exists_pieces (k : Connective) (text : List Char) :
    ∃ heads last, Pieces k text heads last := by
  induction hlength : text.length using Nat.strong_induction_on generalizing text with
  | _ length ih =>
  cases hcut : cutTopLevel k.operator {} text with
  | none => exact ⟨[], text, .last hcut⟩
  | some found =>
      obtain ⟨before, after⟩ := found
      have hshort := congrArg List.length (eq_of_cutTopLevel hcut)
      simp only [List.length_append, Connective.operator, List.length_cons, hlength] at hshort
      obtain ⟨heads, last, hpieces⟩ := ih after.length (by omega) after rfl
      exact ⟨before :: heads, last, .more hcut hpieces⟩

variable {heads : List (List Char)} {last : List Char}

/-- The parts that pieces make: nothing behind the last occurrence is no part. -/
def partsOf (heads : List (List Char)) (last : List Char) : List (List Char) :=
  (heads ++ if last = [] then [] else [last]).map Text.trimChars

lemma partsOf_nil (heads : List (List Char)) : partsOf heads [] = heads.map Text.trimChars := by
  rw [partsOf, if_pos rfl, List.append_nil]

lemma partsOf_of_ne (heads : List (List Char)) (hne : last ≠ []) :
    partsOf heads last = (heads ++ [last]).map Text.trimChars := by
  rw [partsOf, if_neg hne]

lemma mem_partsOf {head : List Char} (h : head ∈ heads) (last : List Char) :
    Text.trimChars head ∈ partsOf heads last :=
  List.mem_map_of_mem (List.mem_append_left _ h)

/-- **The parts are the trimmed pieces**, but nothing behind the last occurrence is no part. -/
theorem partsWithin_of_pieces (h : Pieces k text heads last) {fuel : Nat}
    (hfuel : text.length < fuel) : partsWithin k.operator fuel text = partsOf heads last := by
  induction h generalizing fuel with
  | @last text hnone =>
      obtain ⟨fuel, rfl⟩ := Nat.exists_eq_succ_of_ne_zero (Nat.ne_zero_of_lt hfuel)
      by_cases hempty : text = []
      · rw [hempty, partsOf_nil]
        rfl
      · rw [partsOf_of_ne [] hempty, partsWithin_of_eq_none hempty hnone]
        rfl
  | @more text before after last heads hcut _ ih =>
      obtain ⟨fuel, rfl⟩ := Nat.exists_eq_succ_of_ne_zero (Nat.ne_zero_of_lt hfuel)
      have hlength := congrArg List.length (eq_of_cutTopLevel hcut)
      simp only [List.length_append, Connective.operator, List.length_cons] at hlength
      rw [partsWithin_of_cut hcut, ih (by omega)]
      rfl

/-- The pieces of a text say whether it has several parts, and which. -/
theorem parts?_of_pieces (h : Pieces k text heads last) :
    parts? k.sign text
      = if 2 ≤ (partsOf heads last).length then some (partsOf heads last) else none := by
  have hparts := partsWithin_of_pieces h (Nat.lt_succ_self text.length)
  split_ifs with htwo
  · exact parts?_eq_some_iff.mpr ⟨hparts, htwo⟩
  · rw [Option.eq_none_iff_forall_not_mem]
    rintro parts hmem
    obtain ⟨rfl, hlength⟩ := parts?_eq_some_iff.mp hmem
    exact htwo (hparts ▸ hlength)

/-- No occurrence is behind the last one. -/
lemma Pieces.last_eq_none (h : Pieces k text heads last) :
    cutTopLevel k.operator {} last = none := by
  induction h with
  | last hnone => exact hnone
  | more _ _ ih => exact ih

/-- In front of what stands last, the connective occurs. -/
lemma Pieces.occurs (h : Pieces k text heads last) (hne : heads ≠ []) :
    ∃ front, Occurs k text front last := by
  induction h with
  | last => exact absurd rfl hne
  | @more text before after last heads hcut hrest ih =>
      have hfirst := occurs_of_cut hcut
      by_cases hheads : heads = []
      · subst hheads
        cases hrest
        exact ⟨before, hfirst⟩
      · obtain ⟨front, hlast⟩ := ih hheads
        exact ⟨_, hfirst.behind hlast⟩

/-- If a text ends with a connective, what stands in front of this has the same pieces, with the
last head in the last place. -/
lemma Pieces.exists_kept (h : Pieces k text heads []) (hne : heads ≠ []) :
    ∃ kept fronts final, text = kept ++ k.operator ∧ heads = fronts ++ [final]
      ∧ Pieces k kept fronts final := by
  generalize hlast : ([] : List Char) = last at h
  induction h with
  | last => exact absurd rfl hne
  | @more text before after last heads hcut hrest ih =>
      subst hlast
      have hoccurs := occurs_of_cut hcut
      by_cases hheads : heads = []
      · subst hheads
        cases hrest
        have htext : text = before ++ k.operator := by rw [hoccurs.text_eq, List.append_nil]
        refine ⟨before, [], before, htext, rfl, .last ?_⟩
        rw [Option.eq_none_iff_forall_not_mem]
        rintro ⟨first, later⟩ hfound
        -- An earlier occurrence would be found in the text.
        have hfirst := cut_append hfound k.operator
        rw [← htext, hcut] at hfirst
        simp [Connective.operator] at hfirst
      · obtain ⟨kept, fronts, final, rfl, rfl, hpieces⟩ := ih hheads rfl
        refine ⟨before ++ (k.operator ++ kept), before :: fronts, final, ?_, rfl, .more ?_ hpieces⟩
        · rw [hoccurs.text_eq, List.append_assoc, List.append_assoc]
        · obtain ⟨first, later, hfound, -⟩ := exists_cut_of_occurs ⟨rfl, hoccurs.top⟩
          have hfirst := cut_append hfound k.operator
          rw [List.append_assoc, List.append_assoc, ← hoccurs.text_eq, hcut] at hfirst
          simp only [Option.some.injEq, Prod.mk.injEq, List.append_left_inj] at hfirst
          rw [hfound, hfirst.1, hfirst.2]

end Componentry.Condition
