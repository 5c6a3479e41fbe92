import Mathlib.Tactic
import Componentry.Condition.Gate
import Componentry.Proofs.Condition.Cut
/-!
# Connectives that join nothing

A connective may have nothing in front of it, behind it or between it and the next one.  In front
and between there is then an empty part, and behind a single operand the connective stays in the
text: such a text cannot be read, since no operand ends with the mark of a connective
(`failed_of_dangles`).

Behind several operands it is different.  The parts are all there, nothing behind the last
connective is no part, and the text is read as if this connective were not in it (`read_kept`).
`standard_dangling` says both for every level of a condition: **a missing operand is an error unless
it is the last of more than two**.
-/

namespace Componentry.Condition

open Position

variable {k : Connective} {text level front last : List Char} {heads : List (List Char)}

/-! ### Texts that end with a connective -/

/-- There is nothing in a text, or it ends with the mark of a connective. -/
def Dangles (k : Connective) (text : List Char) : Prop :=
  ∀ c, text.getLast? = some c → c = k.mark

lemma Dangles.suffix {part : List Char} (h : Dangles k text) (hpart : part <:+ text) :
    Dangles k part := by
  obtain ⟨lead, rfl⟩ := hpart
  exact fun c hc => h c (by rw [List.getLast?_append, hc, Option.some_or])

/-- At the end there is no blank to be trimmed off. -/
lemma Dangles.exists_lead (h : Dangles k text) :
    ∃ lead, Text.Blanks lead ∧ lead ++ Text.trimChars text = text := by
  obtain ⟨lead, trail, hlead, htrail, htext⟩ := Text.exists_trimChars text
  have hnil : trail = [] := by
    rw [← List.getLast?_eq_none_iff, Option.eq_none_iff_forall_not_mem]
    intro c hc
    have hblank := htrail c (List.mem_of_getLast? hc)
    rw [h c (by rw [← htext, List.getLast?_append, hc, Option.some_or])] at hblank
    revert hblank
    cases k <;> decide
  exact ⟨lead, hlead, by rwa [hnil, List.append_nil] at htext⟩

lemma Dangles.trimmed (h : Dangles k text) : Dangles k (Text.trimChars text) := by
  obtain ⟨lead, -, htext⟩ := h.exists_lead
  exact h.suffix ⟨lead, htext⟩

/-- No other character can be stripped off at the end. -/
lemma Dangles.stripSuffix (h : Dangles k text) {c : Char} (hc : c ≠ k.mark) :
    Text.stripSuffix [c] text = none := by
  by_contra hsome
  obtain ⟨lead, rfl⟩ := Text.stripSuffix_isSome_iff.mp (Option.isSome_iff_ne_none.mpr hsome)
  exact hc (h c List.getLast?_concat)

lemma dangles_of_occurs (h : Occurs k text front []) : Dangles k text := by
  intro c hc
  rw [h.text_eq, List.append_nil, List.getLast?_append] at hc
  exact (Option.some.inj hc).symm

/-! ### No operand ends with a connective -/

lemma Failed.bind_right {α β γ : Type} {first : Except ConditionError α}
    {second : Except ConditionError β} (h : Failed second) (f : α → β → Except ConditionError γ) :
    Failed (first >>= fun a => second >>= f a) := by
  cases first with
  | error e => exact ⟨e, rfl⟩
  | ok a => exact h.bind (f a)

/-- **No operand ends with a sign.** -/
theorem failed_operand_of_last {c : Char} (hc : c ∈ signs) (h : text.getLast? = some c) :
    Failed (operand text) := by
  have hsigns : ∀ d ∈ signs, Text.isBlank d = false ∧ d ≠ '\'' ∧ Json.Lexeme.start? d = none
      ∧ ¬(Text.isNameChar d = true ∨ d = '.') := Text.forall_of_all (by decide)
  obtain ⟨hblank, hquote, hstart, hname⟩ := hsigns c hc
  rw [operand]
  generalize hpart : Text.trimChars text = part
  have hlast : part.getLast? = some c := hpart ▸ Text.getLast?_trimChars hblank h
  have hempty : part ≠ [] := by
    rintro rfl
    cases hlast
  have hquoted : quotedText? part = none := by
    rw [Option.eq_none_iff_forall_not_mem]
    intro inner hinner
    obtain ⟨opened, hopened, hclosed⟩ := Option.bind_eq_some_iff.mp hinner
    rw [Text.stripPrefix_eq_some_iff.mp hopened, Text.stripSuffix_eq_some_iff.mp hclosed,
      List.singleton_append, ← List.cons_append, List.getLast?_concat] at hlast
    exact hquote (Option.some.inj hlast).symm
  have hwritten : Json.ofText? (String.ofList part) = none :=
    Json.ofText?_eq_none hstart (by rwa [String.toList_ofList])
  have hpath : ¬isPath part = true := fun hpath =>
    hname (isNameChar_of_isPath hpath c (List.mem_of_getLast? hlast))
  rw [if_neg hempty, hquoted]
  dsimp only
  split_ifs
  · rw [hwritten]
    exact ⟨_, rfl⟩
  · exact ⟨_, rfl⟩

/-- Nothing is no operand, and what ends with a connective is none either. -/
lemma failed_operand (h : Dangles k text) : Failed (operand text) := by
  cases hlast : text.getLast? with
  | none =>
      rw [List.getLast?_eq_none_iff.mp hlast]
      exact ⟨_, rfl⟩
  | some c =>
      refine failed_operand_of_last ?_ hlast
      rw [h c hlast]
      cases k <;> decide

lemma dropRepeated_suffix (pattern : List Char) (fuel : Nat) (text : List Char) :
    dropRepeated pattern fuel text <:+ text := by
  induction fuel generalizing text with
  | zero => exact List.suffix_refl _
  | succ fuel ih =>
      rw [dropRepeated]
      split
      · rename_i rest hrest
        rw [Text.stripPrefix_eq_some_iff.mp hrest]
        exact (ih rest).trans (List.suffix_append pattern rest)
      · exact List.suffix_refl _

lemma failed_comparison {left right : List Char} (make : Operand → Operand → Condition)
    (h : Dangles k right) : Failed (comparison make left right) := by
  rw [comparison]
  split_ifs
  · exact ⟨_, rfl⟩
  · exact (failed_operand h.trimmed).bind_right _

lemma failed_membership {left right : List Char} (h : Dangles k right) :
    Failed (membership left right) := by
  have hargument := (h.suffix (dropRepeated_suffix includesMark right.length right)).trimmed
  rw [membership, hargument.stripSuffix (by cases k <;> decide), Option.getD_none]
  split_ifs
  · exact ⟨_, rfl⟩
  · exact (failed_operand hargument.trimmed).bind_right _

lemma cutTopLevel_suffix {operator before after : List Char} {p : Position}
    (h : cutTopLevel operator p text = some (before, after)) : after <:+ text :=
  ⟨before ++ operator, by rw [eq_of_cutTopLevel h, List.append_assoc]⟩

/-- What is simple ends with an operand. -/
lemma failed_simple (h : Dangles k text) : Failed (simple text) := by
  rw [simple]
  split
  · rename_i left right hcut
    exact failed_membership (h.suffix (cutTopLevel_suffix hcut))
  split
  · rename_i left right hcut
    exact failed_comparison _ (h.suffix (cutTopLevel_suffix hcut))
  split
  · rename_i left right hcut
    exact failed_comparison _ (h.suffix (cutTopLevel_suffix hcut))
  · exact (failed_operand h).bind _

/-- A text that is not cut into parts cannot be read if it ends with a connective. -/
theorem failed_of_dangles (h : Dangles k text)
    (hnone : ∀ k' : Connective, parts? k'.sign text = none) : Failed (read text) := by
  have hcore : Dangles k (core text) := (h.suffix (negations_suffix false text)).trimmed
  have hgroup : group? (core text) = none := by
    cases hgroup : group? (core text) with
    | none => rfl
    | some inner =>
        obtain ⟨inside, htext, -⟩ := exists_of_group? hgroup
        have hclose := hcore ')' (by rw [htext, ← List.cons_append, List.getLast?_concat])
        cases k <;> exact absurd hclose (by decide)
  refine failed_of_core hnone ?_
  rw [readCore, hgroup]
  exact failed_simple hcore

/-! ### A connective behind a single operand -/

/-- The last of several parts around `&&` ends with `||` if the text does. -/
lemma failed_of_dangling_or {parts : List (List Char)} (hor : parts? "||" text = none)
    (hand : parts? "&&" text = some parts) (h : Occurs .or text front []) : Failed (read text) := by
  obtain ⟨heads, last, hpieces⟩ := exists_pieces .and text
  obtain ⟨hparts, htwo⟩ := (parts?_eq_some_iff (k := .and)).mp hand
  rw [partsWithin_of_pieces hpieces (Nat.lt_succ_self _)] at hparts
  have hheads : heads ≠ [] := by
    rintro rfl
    rw [← hparts, partsOf] at htwo
    split_ifs at htwo <;> simp at htwo
  obtain ⟨lead, hlast⟩ := hpieces.occurs hheads
  have hne : last ≠ [] := by
    rintro rfl
    have hmark := dangles_of_occurs hlast '|' (by
      rw [h.text_eq, List.append_nil, List.getLast?_append]
      rfl)
    exact absurd hmark (by decide)
  have hdangles : Dangles .or last := (dangles_of_occurs h).suffix hlast.suffix
  have hmem : Text.trimChars last ∈ parts := by simp [← hparts, partsOf_of_ne heads hne]
  have hlooked : LookedFor .and text := by
    rintro (_ | _) hlower
    · exact hor
    · exact absurd hlower (by decide)
  refine failed_of_part hlooked hand hmem (failed_of_dangles hdangles.trimmed fun k => ?_)
  obtain ⟨blanks, hblanks, htrim⟩ := hdangles.exists_lead
  refine parts?_eq_none_iff.mpr fun before after hoccurs => ?_
  -- What occurs in the trimmed part occurs behind the last `&&` and in the text.
  have hwithin := hoccurs.prepend (after_blanks _ hblanks)
  rw [htrim] at hwithin
  cases k with
  | or => exact (parts?_eq_none_iff (k := .or)).mp hor _ _ (hlast.behind hwithin)
  | and =>
      obtain ⟨before', after', hcut, -⟩ := exists_cut_of_occurs hwithin
      rw [hpieces.last_eq_none] at hcut
      cases hcut

/-- **A connective that cuts nothing off** is left in what is read, and cannot be read. -/
theorem failed_of_dangling (hlooked : LookedFor k text) (hnone : parts? k.sign text = none)
    (h : Occurs k text front []) : Failed (read text) := by
  have hdangles := dangles_of_occurs h
  have hor : parts? "||" text = none := by
    cases k with
    | or => exact hnone
    | and => exact hlooked .or (by decide)
  cases hand : parts? "&&" text with
  | none =>
      refine failed_of_dangles hdangles fun k' => ?_
      cases k' with
      | or => exact hor
      | and => exact hand
  | some parts =>
      cases k with
      | or => exact failed_of_dangling_or hor hand h
      | and => exact absurd (hnone.symm.trans hand) (by simp)

/-! ### Missing operands -/

/-- Nothing is no condition. -/
lemma failed_nil : Failed (read []) := ⟨.danglingNegation, rfl⟩

/-- Where there are several parts, none of them may be blank. -/
lemma failed_of_blank {head : List Char} (hlooked : LookedFor k text)
    (hpieces : Pieces k text heads last) (htwo : 2 ≤ (partsOf heads last).length)
    (hhead : head ∈ heads) (hblank : Text.Blanks head) : Failed (read text) := by
  have hcut := parts?_of_pieces hpieces
  rw [if_pos htwo] at hcut
  have hmem := mem_partsOf hhead last
  rw [Text.trimChars_of_blanks hblank] at hmem
  exact failed_of_part hlooked hcut hmem failed_nil

/-- **The last connective behind several operands is dropped.** -/
theorem read_kept (hlooked : LookedFor k text) (hpieces : Pieces k text heads [])
    (htwo : 2 ≤ heads.length) (hfull : ∀ head ∈ heads, ¬Text.Blanks head) :
    ∃ kept, text = kept ++ k.operator ∧ read text = read kept := by
  obtain ⟨kept, fronts, final, rfl, rfl, hkept⟩ :=
    hpieces.exists_kept (List.ne_nil_of_length_pos (by omega))
  refine ⟨kept, rfl, ?_⟩
  have hfinal : final ≠ [] := by
    rintro rfl
    exact hfull [] (by simp) Text.Blanks.nil
  have hcut := parts?_of_pieces hpieces
  have hcutKept := parts?_of_pieces hkept
  rw [partsOf_nil, List.length_map, if_pos htwo] at hcut
  rw [partsOf_of_ne fronts hfinal, List.length_map, if_pos htwo] at hcutKept
  have hlookedKept : LookedFor k kept := fun k' hlower =>
    parts?_eq_none_iff.mpr fun before after hoccurs => by
      have hnil := parts?_eq_none_iff.mp (hlooked k' hlower) _ _ (hoccurs.append k.operator)
      simp [Connective.operator] at hnil
  rw [read_of_parts hlooked hcut, read_of_parts hlookedKept hcutKept]

/-- What cannot be read has no answer. -/
lemma standard_of_failed {text : String} (h : Failed (read (Text.trimChars text.toList)))
    (scope : Scope) : Failed (Evaluator.standard text scope) := by
  rw [Evaluator.standard]
  cases htext : ofText text with
  | error e => exact ⟨e, rfl⟩
  | ok condition =>
      obtain ⟨e, he⟩ := h
      exact absurd (he.symm.trans (of_ofText_eq_ok htext).2) (by simp)

/-- **A missing operand is an error, unless it is the last of more than two.**  On every level of a
condition, and for either connective, the text has no answer if there is a blank text in front of a
connective, or behind one that is the only one.  But a blank text behind the last of several
connectives is no operand: this connective is dropped, and the level is read as it is without it. -/
theorem standard_dangling {text : String} (hlevel : Level (Text.trimChars text.toList) level)
    (hlooked : LookedFor k level) (hpieces : Pieces k level heads last) (hjoined : heads ≠ [])
    (scope : Scope) :
    ((∃ head ∈ heads, Text.Blanks head) ∨ heads.length = 1 ∧ Text.Blanks last →
      ∃ e, Evaluator.standard text scope = .error e)
    ∧ ((∀ head ∈ heads, ¬Text.Blanks head) → 2 ≤ heads.length → Text.Blanks last →
      ∃ kept, level = kept ++ k.operator ∧ read level = read kept) := by
  obtain ⟨front, hoccurs⟩ := hpieces.occurs hjoined
  have hlast : Text.Blanks last → last = [] := Text.eq_nil_of_suffix hoccurs.suffix
    (hlevel.trimmed (Text.trimChars_trimChars text.toList))
  constructor
  · intro hmissing
    refine standard_of_failed (hlevel.failed ?_) scope
    by_cases htwo : 2 ≤ (partsOf heads last).length
    · obtain ⟨head, hhead, hblank⟩ | ⟨hone, hblank⟩ := hmissing
      · exact failed_of_blank hlooked hpieces htwo hhead hblank
      · rw [hlast hblank, partsOf_nil, List.length_map] at htwo
        omega
    · -- There is a single connective, and since nothing is behind it, it cuts nothing off.
      have hnil : last = [] := by
        by_contra hne
        have hpos := List.length_pos_iff.mpr hjoined
        rw [partsOf_of_ne heads hne, List.length_map, List.length_append] at htwo
        simp only [List.length_singleton] at htwo
        omega
      have hnone := parts?_of_pieces hpieces
      rw [if_neg htwo] at hnone
      exact failed_of_dangling hlooked hnone (hnil ▸ hoccurs)
  · intro hfull htwo hblank
    obtain rfl := hlast hblank
    exact read_kept hlooked hpieces htwo hfull

/-- A connective behind one operand, between two and behind both. -/
theorem standard_dangling_operands :
    let scope : Scope := { tree := { session := [("a", .bool true), ("b", .bool false)] } }
    (∃ e, Evaluator.standard "session.a ||" scope = .error e)
      ∧ (∃ e, Evaluator.standard "session.a || || session.b" scope = .error e)
      ∧ (∃ kept, "session.a || session.b ||".toList = kept ++ Connective.operator .or
        ∧ read "session.a || session.b ||".toList = read kept)
      ∧ Evaluator.standard "session.a || session.b ||" scope = .ok true := by
  intro scope
  have hlooked : ∀ text, LookedFor .or text := fun text k' hlower =>
    absurd hlower (Nat.not_lt_zero _)
  have hlevel : ∀ text : String, Text.trimChars text.toList = text.toList →
      Level (Text.trimChars text.toList) text.toList := by
    intro text htrimmed
    rw [htrimmed]
    exact .whole
  have hnothing : cutTopLevel Connective.or.operator {} [] = none := rfl
  have hone : Pieces .or "session.a ||".toList ["session.a ".toList] [] :=
    .more (by decide +kernel) (.last hnothing)
  have hfirst : cutTopLevel Connective.or.operator {} "session.a || || session.b".toList
      = some ("session.a ".toList, " || session.b".toList) := by decide +kernel
  have hsecond : cutTopLevel Connective.or.operator {} " || session.b".toList
      = some (" ".toList, " session.b".toList) := by decide +kernel
  have hbetween : Pieces .or "session.a || || session.b".toList
      ["session.a ".toList, " ".toList] " session.b".toList :=
    .more hfirst (.more hsecond (.last (by decide +kernel)))
  have hleft : cutTopLevel Connective.or.operator {} "session.a || session.b ||".toList
      = some ("session.a ".toList, " session.b ||".toList) := by decide +kernel
  have htwo : Pieces .or "session.a || session.b ||".toList
      ["session.a ".toList, " session.b ".toList] [] :=
    .more hleft (.more (by decide +kernel) (.last hnothing))
  refine ⟨(standard_dangling (hlevel _ (by decide +kernel)) (hlooked _) hone (by simp) scope).1
      (.inr ⟨rfl, Text.Blanks.nil⟩),
    (standard_dangling (hlevel _ (by decide +kernel)) (hlooked _) hbetween (by simp) scope).1
      (.inl ⟨" ".toList, by simp, List.all_eq_true.mp (by decide)⟩),
    (standard_dangling (hlevel _ (by decide +kernel)) (hlooked _) htwo (by simp) scope).2
      ?_ le_rfl Text.Blanks.nil, by decide +kernel⟩
  intro head hhead hblank
  have hall : ∀ head ∈ ["session.a ".toList, " session.b ".toList],
      ¬head.all Text.isBlank = true := by decide +kernel
  exact hall head hhead (List.all_eq_true.mpr hblank)

end Componentry.Condition
