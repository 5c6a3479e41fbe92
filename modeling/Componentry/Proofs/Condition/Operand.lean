import Mathlib.Tactic
import Componentry.Condition.Reader
import Componentry.Proofs.Condition.Scan
import Componentry.Proofs.Json.Spelling
/-!
# Reading written operands

A `Term` is an operand as it is written: a text in single quotes, a value written out in JSON
without escapes, or a path into the scope.  Its text is solid and flat, and outside of quotes it has
no character of a connective or of a comparison (`Term.flat`).  Such a text is read as the operand
that was written (`operand_text`), and the value of this operand is the value of the term
(`operand_value`).
-/

namespace Componentry.Condition

/-- What no operand has outside of quotes. -/
def IsOperandChar (c : Char) : Prop :=
  c ≠ '|' ∧ c ≠ '&' ∧ c ≠ '!' ∧ c ≠ '=' ∧ c ≠ '<' ∧ c ≠ '>'

instance : DecidablePred IsOperandChar := fun c =>
  inferInstanceAs (Decidable (c ≠ '|' ∧ c ≠ '&' ∧ c ≠ '!' ∧ c ≠ '=' ∧ c ≠ '<' ∧ c ≠ '>'))

/-- The characters that mean something to the scanners. -/
def reserved : List Char := ['\'', '"', '(', ')', '|', '&', '!', '=', '<', '>']

/-- The characters of connectives and comparisons. -/
def signs : List Char := ['|', '&', '!', '=', '<', '>']

/-- A class of characters without the reserved ones. -/
lemma isOperandChar_of_class {p : Char → Bool} (hp : reserved.all (fun c => !p c) = true) {c : Char}
    (h : p c = true) : IsPlain c ∧ IsOperandChar c := by
  have hne : ∀ r ∈ reserved, c ≠ r := by
    rintro r hr rfl
    have hc := List.all_eq_true.mp hp c hr
    rw [h] at hc
    cases hc
  simpa [reserved, IsPlain, IsOperandChar, and_assoc] using hne

/-! ### The spelling of JSON -/

section Json

open Componentry.Json

lemma isBlank_of_isNumeralChar {c : Char} (h : isNumeralChar c = true) :
    Text.isBlank c = false := by
  simp only [isNumeralChar, Bool.or_eq_true, beq_iff_eq] at h
  rcases h with ((((h | rfl) | rfl) | rfl) | rfl) | rfl
  · exact Text.isBlank_of_isAlphanum (by rw [Char.isAlphanum, h, Bool.or_true])
  all_goals rfl

variable {t : Token} {ts : List Token} {cs text : List Char}

lemma flat_of_spells (h : t.Spells cs) : Flat IsOperandChar cs := by
  cases h with
  | open_ object | close object => cases object <;> exact flat_of_all (by decide)
  | comma | colon | null => exact flat_of_all (by decide)
  | bool value => cases value <;> exact flat_of_all (by decide)
  | number h =>
      exact flat_of_forall fun c hc =>
        isOperandChar_of_class (by decide) (isNumeralChar_of_spells h c hc)
  | string h => exact .quoted (.inr rfl) (fun hmem => (h _ hmem).1 rfl) .nil

lemma solid_of_spells (h : t.Spells cs) : Text.Solid cs := by
  cases h with
  | open_ object | close object =>
      cases object <;> exact Text.solid_of_all (by decide) (by decide)
  | comma | colon | null => exact Text.solid_of_all (by decide) (by decide)
  | bool value => cases value <;> exact Text.solid_of_all (by decide) (by decide)
  | number h =>
      obtain ⟨c, cs, rfl, -⟩ := head_of_spells h
      exact Text.solid_of_forall (List.cons_ne_nil c cs) fun c hc =>
        isBlank_of_isNumeralChar (isNumeralChar_of_spells h c hc)
  | string h => exact Text.solid_between rfl rfl _

lemma flat_of_spelling (h : Spelling ts text) : Flat IsOperandChar text := by
  induction h with
  | last ht => exact flat_of_spells ht
  | more ht hgap _ ih =>
      exact (flat_of_spells ht).append
        ((flat_of_forall fun c hc => isOperandChar_of_class (by decide) (hgap c hc)).append ih)

lemma solid_of_spelling (h : Spelling ts text) : Text.Solid text := by
  induction h with
  | last ht => exact solid_of_spells ht
  | @more t cs gap text ts ht _ _ ih =>
      rw [← List.append_assoc]
      exact (solid_of_spells ht).append ih gap

lemma isWrittenOut_of_head {c : Char}
    (h : c = '[' ∨ c = '{' ∨ c = '"' ∨ c = '-' ∨ c.isDigit = true) (cs : List Char) :
    isWrittenOut (c :: cs) = true ∧ quotedText? (c :: cs) = none := by
  constructor
  · rcases h with rfl | rfl | rfl | rfl | h
    · rfl
    · rfl
    · rfl
    · rfl
    · simp [isWrittenOut, h]
  · have hne : '\'' ≠ c := by
      rintro rfl
      rcases h with h | h | h | h | h <;> cases h
    rw [quotedText?, Text.stripPrefix_of_head_ne hne]
    rfl

/-- The text of a value starts like one. -/
lemma isWrittenOut_of_spelling {w : Written} (h : Spelling w.tokens text) :
    isWrittenOut text = true ∧ quotedText? text = none := by
  cases w with
  | null =>
      obtain ⟨cs, more, ht, rfl, hmore⟩ := head_of_spelling h
      cases ht
      rw [hmore rfl]
      exact ⟨rfl, rfl⟩
  | bool value =>
      obtain ⟨cs, more, ht, rfl, hmore⟩ := head_of_spelling h
      cases ht
      rw [hmore rfl]
      cases value <;> exact ⟨rfl, rfl⟩
  | number n =>
      obtain ⟨cs, more, ht, rfl, -⟩ := head_of_spelling h
      cases ht with
      | number hn =>
          obtain ⟨c, cs, rfl, hc⟩ := head_of_spells hn
          exact isWrittenOut_of_head (.inr (.inr (.inr hc))) _
  | string content =>
      obtain ⟨cs, more, ht, rfl, -⟩ := head_of_spelling h
      cases ht
      exact isWrittenOut_of_head (.inr (.inr (.inl rfl))) _
  | array items =>
      rcases items with _ | ⟨v, items⟩ <;>
        · obtain ⟨cs, more, ht, rfl, -⟩ := head_of_spelling h
          cases ht
          exact isWrittenOut_of_head (.inl rfl) _
  | object members =>
      rcases members with _ | ⟨v, members⟩ <;>
        · obtain ⟨cs, more, ht, rfl, -⟩ := head_of_spelling h
          cases ht
          exact isWrittenOut_of_head (.inr (.inl rfl)) _

end Json

/-! ### Terms -/

/-- A segment of a path. -/
structure Segment where
  chars : List Char
  ne_nil : chars ≠ []
  isName : ∀ c ∈ chars, Text.isNameChar c = true

/-- An operand as it is written. -/
inductive Term where
  /-- A text in single quotes. -/
  | quoted (content : List Char) (h : '\'' ∉ content)
  /-- A value that is written out, with at most a hundred levels. -/
  | written (w : Json.Written) (text : List Char) (value : Json)
      (hspelling : Json.Spelling w.tokens text) (hvalue : w.toJson? 100 = some value)
  /-- A path into the scope. -/
  | path (root : String) (hroot : root ∈ Scope.roots) (first : Segment) (rest : List Segment)

namespace Term

/-- The text of a term. -/
def text : Term → List Char
  | quoted content _ => '\'' :: (content ++ ['\''])
  | written _ text _ _ _ => text
  | path root _ first rest =>
    Text.joinWith '.' root.toList ((first :: rest).map Segment.chars)

/-- The value of a term. -/
def value (scope : Scope) : Term → Json
  | quoted content _ => .string (String.ofList content)
  | written _ _ value _ _ => value
  | path root _ first rest =>
    (scope.atPath? (root :: (first :: rest).map fun s => String.ofList s.chars)).getD .null

/-- The text of a term contains no parenthesis. -/
def Quiet (t : Term) : Prop := ∀ c ∈ t.text, c ≠ '(' ∧ c ≠ ')'

/-- What a term is read as. -/
def operand : Term → Operand
  | quoted content _ => .literal (.string (String.ofList content))
  | written _ _ value _ _ => .literal value
  | path root _ first rest =>
    .path (String.ofList (Text.joinWith '.' root.toList ((first :: rest).map Segment.chars)))

lemma isBlank_of_isNameChar {c : Char} (h : Text.isNameChar c = true) :
    Text.isBlank c = false := by
  simp only [Text.isNameChar, Bool.or_eq_true, beq_iff_eq] at h
  rcases h with (h | rfl) | rfl
  · exact Text.isBlank_of_isAlphanum h
  all_goals rfl

lemma isNameChar_of_root {root : String} (h : root ∈ Scope.roots) :
    ∀ c ∈ root.toList, Text.isNameChar c = true := by
  have hall : ∀ root ∈ Scope.roots, root.toList.all Text.isNameChar = true := by decide
  exact List.all_eq_true.mp (hall root h)

/-- What a path is made of. -/
lemma path_chars {root : String} (hroot : root ∈ Scope.roots) (segments : List Segment) :
    ∀ c ∈ Text.joinWith '.' root.toList (segments.map Segment.chars),
      Text.isNameChar c = true ∨ c = '.' := by
  intro c hc
  rcases List.mem_append.mp hc with hc | hc
  · exact .inl (isNameChar_of_root hroot c hc)
  · obtain ⟨piece, hpiece, hc⟩ := List.mem_flatMap.mp hc
    obtain ⟨segment, -, rfl⟩ := List.mem_map.mp hpiece
    rcases List.mem_cons.mp hc with rfl | hc
    · exact .inr rfl
    · exact .inl (segment.isName c hc)

lemma root_ne_nil {root : String} (h : root ∈ Scope.roots) : root.toList ≠ [] := by
  revert root
  decide

lemma path_ne_nil {root : String} (hroot : root ∈ Scope.roots) (segments : List (List Char)) :
    Text.joinWith '.' root.toList segments ≠ [] :=
  fun h => root_ne_nil hroot (List.append_eq_nil_iff.mp h).1

/-- **The text of a term** has no connective and no comparison outside of quotes. -/
theorem flat (t : Term) : Flat IsOperandChar t.text := by
  cases t with
  | quoted content h => exact .quoted (.inl rfl) h .nil
  | written w text value hspelling hvalue => exact flat_of_spelling hspelling
  | path root hroot first rest =>
      refine flat_of_forall fun c hc => ?_
      rcases path_chars hroot (first :: rest) c hc with h | rfl
      · exact isOperandChar_of_class (by decide) h
      · decide

lemma solid (t : Term) : Text.Solid t.text := by
  cases t with
  | quoted content h => exact Text.solid_between rfl rfl content
  | written w text value hspelling hvalue => exact solid_of_spelling hspelling
  | path root hroot first rest =>
      refine Text.solid_of_forall (path_ne_nil hroot _) fun c hc => ?_
      rcases path_chars hroot (first :: rest) c hc with h | rfl
      · exact isBlank_of_isNameChar h
      · rfl

lemma point_not_mem {cs : List Char} (h : ∀ c ∈ cs, Text.isNameChar c = true) : '.' ∉ cs :=
  fun hmem => absurd (h '.' hmem) (by decide)

/-- A path is cut into its segments. -/
lemma splitOn_path {root : String} (hroot : root ∈ Scope.roots) (segments : List Segment) :
    Text.splitOn '.' (Text.joinWith '.' root.toList (segments.map Segment.chars))
      = root.toList :: segments.map Segment.chars := by
  refine Text.splitOn_joinWith (point_not_mem (isNameChar_of_root hroot)) fun piece hpiece => ?_
  obtain ⟨segment, -, rfl⟩ := List.mem_map.mp hpiece
  exact point_not_mem segment.isName

lemma isPath_path {root : String} (hroot : root ∈ Scope.roots) (first : Segment)
    (rest : List Segment) :
    isPath (Text.joinWith '.' root.toList ((first :: rest).map Segment.chars)) = true := by
  have hblank : (Text.joinWith '.' root.toList ((first :: rest).map Segment.chars)).any Text.isBlank
      = false := by
    rw [List.any_eq_false]
    intro c hc
    rcases path_chars hroot (first :: rest) c hc with h | rfl
    · simp [isBlank_of_isNameChar h]
    · decide
  have hname : ∀ segment : Segment, (segment.chars ≠ [] &&
      segment.chars.all Text.isNameChar) = true := by
    intro segment
    rw [Bool.and_eq_true, decide_eq_true_eq, List.all_eq_true]
    exact ⟨segment.ne_nil, segment.isName⟩
  rw [isPath, hblank, splitOn_path hroot, List.map_cons]
  simp only [String.ofList_toList, hroot, decide_true, Bool.not_false, Bool.true_and]
  rw [← List.map_cons (f := Segment.chars), List.all_map, List.all_eq_true]
  exact fun segment _ => hname segment

/-- A path starts like no value that is written out. -/
lemma isWrittenOut_path {root : String} (hroot : root ∈ Scope.roots)
    (segments : List (List Char)) :
    isWrittenOut (Text.joinWith '.' root.toList segments) = false ∧
      quotedText? (Text.joinWith '.' root.toList segments) = none := by
  simp only [Scope.roots, List.mem_cons, List.not_mem_nil, or_false] at hroot
  rcases hroot with rfl | rfl | rfl | rfl | rfl <;> exact ⟨rfl, rfl⟩

/-- **A written term is read**, with any blanks around it. -/
theorem operand_around (t : Term) {lead trail : List Char} (hlead : Text.Blanks lead)
    (htrail : Text.Blanks trail) : Condition.operand (lead ++ t.text ++ trail) = .ok t.operand := by
  rw [Condition.operand, Text.trimChars_around t.solid hlead htrail, if_neg t.solid.ne_nil]
  cases t with
  | quoted content h =>
      have hinner : quotedText? ('\'' :: (content ++ ['\''])) = some content :=
        Text.stripSuffix_append ['\''] content
      rw [text, hinner]
      rfl
  | written w text value hspelling hvalue =>
      obtain ⟨hout, hquoted⟩ := isWrittenOut_of_spelling hspelling
      rw [Term.text, hquoted]
      dsimp only
      rw [if_pos hout, Json.ofText?_of_spelling hspelling (by decide) hvalue]
      rfl
  | path root hroot first rest =>
      obtain ⟨hout, hquoted⟩ := isWrittenOut_path hroot ((first :: rest).map Segment.chars)
      rw [Term.text, hquoted]
      dsimp only
      rw [if_neg (by rw [hout]; decide), if_pos (isPath_path hroot first rest)]
      rfl

/-- **The operand of a term has the value of the term.** -/
theorem operand_value (t : Term) (scope : Scope) : t.operand.value scope = t.value scope := by
  cases t with
  | quoted content h | written w text value hspelling hvalue => rfl
  | path root hroot first rest =>
      show (scope.lookup? (String.ofList (Text.joinWith '.' root.toList _))).getD .null = _
      have htrim {cs : List Char} (hne : cs ≠ []) (h : ∀ c ∈ cs, Text.isNameChar c = true) :
          Text.trimChars cs = cs :=
        Text.trimChars_of_solid
          (Text.solid_of_forall hne fun c hc => isBlank_of_isNameChar (h c hc))
      have hsegments : ((first :: rest).map Segment.chars).map Text.trimChars
          = (first :: rest).map Segment.chars := by
        rw [List.map_map]
        exact List.map_congr_left fun s _ => htrim s.ne_nil s.isName
      rw [Scope.lookup?, Text.dottedPath, String.toList_ofList, splitOn_path hroot,
        List.map_cons (l := (first :: rest).map Segment.chars), hsegments, List.map_cons,
        htrim (root_ne_nil hroot) (isNameChar_of_root hroot), String.ofList_toList, List.map_map]
      rfl

end Term

/-! ### Paths and their characters -/

/-- Nothing but names and periods is in a path. -/
lemma isNameChar_of_isPath {text : List Char} (h : isPath text = true) :
    ∀ c ∈ text, Text.isNameChar c = true ∨ c = '.' := by
  intro c hc
  obtain rfl | ⟨piece, hpiece, hc⟩ := Text.mem_splitOn '.' hc
  · exact .inr rfl
  rw [isPath, Bool.and_eq_true] at h
  obtain ⟨-, h⟩ := h
  split at h
  · rename_i root segment rest hpieces
    rw [Bool.and_eq_true, decide_eq_true_eq, List.all_eq_true] at h
    rw [hpieces] at hpiece
    left
    obtain rfl | hpiece := List.mem_cons.mp hpiece
    · exact Term.isNameChar_of_root h.1 c (by rwa [String.toList_ofList])
    · have hname := h.2 piece hpiece
      rw [Bool.and_eq_true, List.all_eq_true] at hname
      exact hname.2 c hc
  · cases h

end Componentry.Condition
