import Mathlib.Tactic
import Componentry.Proofs.Condition.Levels
/-!
# Groups around a whole condition

A text whose quotes and parentheses are matched is nested (`nested_of_isBalanced`), so that no
operator is found in it once it stands in parentheses.  What is read instead is the group, if there
is one: the reader looks whether the parentheses inside are matched, and does so without regard to
quotes.

`standard_grouped` says what comes of it: parentheses around a condition change nothing, and with
an exclamation mark in front they negate it, unless a parenthesis in a quoted text misleads the
reader, which then takes the whole group for an operand.
-/

namespace Componentry.Condition

open Position

/-! ### Balanced texts are nested -/

/-- Where everything is matched a quoted text has an end. -/
lemma exists_unquote {quote : Char} (hquote : IsQuote quote) {depth : Nat} {rest : List Char}
    (h : isBalanced (inside quote depth) rest = true) : ∃ inner tail,
      rest = inner ++ quote :: tail ∧ quote ∉ inner ∧ isBalanced (at_ depth) tail = true := by
  by_cases hmem : quote ∈ rest
  · obtain ⟨inner, tail, rfl, hinner⟩ := List.eq_append_cons_of_mem hmem
    rw [isBalanced_inside hquote hinner] at h
    exact ⟨inner, tail, rfl, hinner, h⟩
  · exfalso
    induction rest with
    | nil =>
        rw [isBalanced, isTop_inside hquote] at h
        cases h
    | cons c rest ih =>
        have hc : c ≠ quote := fun e => hmem (e ▸ List.mem_cons_self)
        rw [isBalanced, if_neg (by simp [quoted_inside hquote]), mark?_inside hquote hc,
          Option.getD_none] at h
        exact ih h fun hrest => hmem (List.mem_cons_of_mem c hrest)

/-- Where everything is matched, a text is nested up to the parenthesis that closes the innermost
open one, or to its end if none is open. -/
lemma nested_or_closes {cs : List Char} {depth : Nat} (h : isBalanced (at_ depth) cs = true) :
    (depth = 0 ∧ Nested (fun _ => True) cs) ∨ ∃ outer inner tail, depth = outer + 1
      ∧ cs = inner ++ ')' :: tail ∧ Nested (fun _ => True) inner
      ∧ isBalanced (at_ outer) tail = true := by
  induction hlength : cs.length using Nat.strong_induction_on generalizing cs depth with
  | _ length ih =>
  cases cs with
  | nil =>
      rw [isBalanced, isTop_at] at h
      exact .inl ⟨by simpa using h, .nil⟩
  | cons c rest =>
      have hrest : rest.length < length := by
        rw [← hlength]
        exact Nat.lt_succ_self _
      by_cases hquote : IsQuote c
      · rw [isBalanced_quote hquote] at h
        obtain ⟨quoted, tail, rfl, hquoted, htail⟩ := exists_unquote hquote h
        have hshort : tail.length < length := by
          rw [List.length_append, List.length_cons] at hrest
          omega
        obtain ⟨hzero, hnested⟩ | ⟨outer, inner, tail, hdepth, rfl, hinner, hclosed⟩ :=
          ih _ hshort htail rfl
        · exact .inl ⟨hzero, .quoted hquote hquoted hnested⟩
        · exact .inr ⟨outer, c :: (quoted ++ c :: inner), tail, hdepth, by simp,
            .quoted hquote hquoted hinner, hclosed⟩
      by_cases hopen : c = '('
      · subst hopen
        rw [isBalanced, if_neg (by simp), mark?_open, Option.getD_some] at h
        obtain ⟨hzero, -⟩ | ⟨outer, inner, tail, hdepth, rfl, hinner, hclosed⟩ := ih _ hrest h rfl
        · cases hzero
        · cases hdepth
          have hshort : tail.length < length := by
            rw [List.length_append, List.length_cons] at hrest
            omega
          obtain ⟨hzero, hnested⟩ | ⟨outer, later, tail, hdepth, rfl, hlater, hclosed⟩ :=
            ih _ hshort hclosed rfl
          · exact .inl ⟨hzero, .group hinner hnested⟩
          · exact .inr ⟨outer, '(' :: (inner ++ ')' :: later), tail, hdepth, by simp,
              .group hinner hlater, hclosed⟩
      by_cases hclose : c = ')'
      · subst hclose
        cases depth with
        | zero => simp [isBalanced, at_, quoted] at h
        | succ outer =>
            rw [isBalanced, if_neg (by simp [at_]), mark?_close, Option.getD_some] at h
            exact .inr ⟨outer, [], rest, rfl, rfl, .nil, h⟩
      · have hplain : IsPlain c :=
          ⟨fun e => hquote (.inl e), fun e => hquote (.inr e), hopen, hclose⟩
        rw [isBalanced, if_neg (by simp [hclose]), mark?_plain hplain, Option.getD_none] at h
        obtain ⟨hzero, hnested⟩ | ⟨outer, inner, tail, hdepth, rfl, hinner, hclosed⟩ :=
          ih _ hrest h rfl
        · exact .inl ⟨hzero, .plain hplain trivial hnested⟩
        · exact .inr ⟨outer, c :: inner, tail, hdepth, rfl, .plain hplain trivial hinner, hclosed⟩

/-- **A text whose quotes and parentheses are matched is nested.** -/
theorem nested_of_isBalanced {cs : List Char} (h : isBalanced {} cs = true) :
    Nested (fun _ => True) cs := by
  have hstart : isBalanced (at_ 0) cs = true := h
  obtain ⟨-, hnested⟩ | ⟨outer, -, -, hdepth, -⟩ := nested_or_closes hstart
  · exact hnested
  · cases hdepth

/-! ### A text in parentheses -/

/-- A text in parentheses. -/
def enclosed (inner : List Char) : List Char := '(' :: (inner ++ [')'])

lemma solid_enclosed (inner : List Char) : Text.Solid (enclosed inner) :=
  Text.solid_between rfl rfl inner

variable {inner : List Char}

lemma nested_enclosed {ok : Char → Prop} (h : Nested (fun _ => True) inner) :
    Nested ok (enclosed inner) := .group h .nil

/-- No operator is found in a text in parentheses. -/
lemma moves_enclosed (h : Nested (fun _ => True) inner) (first : Char)
    (operator tail : List Char) :
    Moves (first :: operator) (at_ 0) (at_ 0) (enclosed inner) tail := by
  have hnested : Nested (fun _ => False) (enclosed inner) := nested_enclosed h
  exact hnested.moves operator 0 (fun _ _ hc => hc.elim) tail

/-- Only an operator that begins with an exclamation mark and a parenthesis could be found in the
negation of a text in parentheses. -/
lemma cutTopLevel_negated (h : Nested (fun _ => True) inner) {first : Char} {operator : List Char}
    (hfirst : first ≠ '!' ∨ operator.head?.any (· ≠ '(')) :
    cutTopLevel (first :: operator) {} ('!' :: enclosed inner) = none := by
  have hskip : Text.stripPrefix (first :: operator) ('!' :: (enclosed inner ++ [])) = none := by
    rw [Text.stripPrefix]
    split_ifs with hmark
    · obtain hne | hne := hfirst
      · exact absurd hmark hne
      · cases operator with
        | nil => cases hne
        | cons c operator => exact Text.stripPrefix_of_head_ne (by simpa using hne) _ _
    · rfl
  have hmark : Moves (first :: operator) (at_ 0) (at_ 0) ['!'] (enclosed inner ++ []) :=
    .skipped (mark?_plain (by decide) _) hskip
  exact cutTopLevel_eq_none (hmark.trans (moves_enclosed h first operator []))

/-- The parentheses around a text are taken off if those inside are matched, quotes or not. -/
lemma group?_enclosed (inner : List Char) : group? (enclosed inner)
    = if closesAll 0 inner then some (Text.trimChars inner) else none := by
  have hopen : Text.stripPrefix ['('] (enclosed inner) = some (inner ++ [')']) := rfl
  rw [group?, hopen, Option.bind_eq_bind, Option.bind_some, Text.stripSuffix_append,
    Option.bind_some]

/-- A text in parentheses is no operand. -/
lemma operand_enclosed (inner : List Char) : operand (enclosed inner)
    = .error (.unsupportedOperand (String.ofList (enclosed inner))) := by
  have hsolid := solid_enclosed inner
  have hquoted : quotedText? (enclosed inner) = none := rfl
  have hwritten : isWrittenOut (enclosed inner) = false := by
    simp [isWrittenOut, enclosed]
  have hpath : ¬isPath (enclosed inner) = true := fun h =>
    absurd (isNameChar_of_isPath h '(' List.mem_cons_self) (by decide)
  rw [operand, Text.trimChars_of_solid hsolid, if_neg hsolid.ne_nil, hquoted]
  dsimp only
  rw [hwritten, if_neg (by simp), if_neg hpath]

lemma simple_enclosed (h : Nested (fun _ => True) inner) : simple (enclosed inner)
    = .error (.unsupportedOperand (String.ofList (enclosed inner))) := by
  have hnone : ∀ first operator, cutTopLevel (first :: operator) {} (enclosed inner) = none :=
    fun first operator => cutTopLevel_eq_none (moves_enclosed h first operator [])
  have hmark : includesMark = '.' :: "includes(".toList := rfl
  rw [simple, hmark, hnone, hnone, hnone, operand_enclosed]
  rfl

/-! ### Groups around a whole condition -/

/-- What a text in parentheses is read as, with a negation in front or without. -/
lemma read_enclosed (h : Nested (fun _ => True) inner) {text : List Char} {odd : Bool}
    (hnone : ∀ k : Connective, parts? k.sign text = none)
    (hneg : negations false text = (odd, enclosed inner)) :
    read text = if closesAll 0 inner then
        (read (Text.trimChars inner)).map fun part => if odd then not part else part
      else .error (.unsupportedOperand (String.ofList (enclosed inner))) := by
  have hsolid := solid_enclosed inner
  have hcore : core text = enclosed inner := by
    rw [core, hneg]
    exact Text.trimChars_of_solid hsolid
  rw [read_of_core hnone, readCore, hcore, if_neg hsolid.ne_nil, hneg, group?_enclosed]
  by_cases hcloses : closesAll 0 inner = true
  · rw [if_pos hcloses, if_pos hcloses]
  · rw [if_neg hcloses, if_neg hcloses, simple_enclosed h]
    rfl

/-- The operators that the reader looks for at the top level. -/
def operators : List String := ["||", "&&", "===", "!==", ">=", "<=", ">", "<"]

/-- None of the operators begins with an exclamation mark and a parenthesis. -/
lemma cutTopLevel_operators {text : List Char} (h : ∀ first rest,
      (first ≠ '!' ∨ rest.head?.any (· ≠ '(')) → cutTopLevel (first :: rest) {} text = none) :
    ∀ operator ∈ operators, cutTopLevel operator.toList {} text = none := by
  intro operator hmem
  simp only [operators, List.mem_cons, List.not_mem_nil, or_false] at hmem
  rcases hmem with rfl | rfl | rfl | rfl | rfl | rfl | rfl | rfl <;> exact h _ _ (by decide)

/-- A nested text is read, unless one of the refused operators is found in it. -/
lemma ofText_eq_read {text : String} (hsolid : Text.Solid text.toList) {ok : Char → Prop}
    (hnested : Nested ok text.toList)
    (hnone : ∀ operator ∈ operators, cutTopLevel operator.toList {} text.toList = none) :
    ofText text = read text.toList := by
  have hstrict : hasAnyTopLevel ["===", "!=="] text.toList = false :=
    hasAnyTopLevel_eq_false fun operator hmem => hnone operator (by
      simp only [operators, List.mem_cons, List.not_mem_nil, or_false] at hmem ⊢
      tauto)
  have hother : hasAnyTopLevel [">=", "<=", ">", "<"] text.toList = false :=
    hasAnyTopLevel_eq_false fun operator hmem => hnone operator (by
      simp only [operators, List.mem_cons, List.not_mem_nil, or_false] at hmem ⊢
      tauto)
  rw [ofText, Text.trimChars_of_solid hsolid, if_neg hsolid.ne_nil, hnested.isBalanced, hstrict,
    hother]
  rfl

/-- A readable text is nested, with the blanks around it. -/
lemma nested_of_ofText {text : String} {condition : Condition} (h : ofText text = .ok condition) :
    Nested (fun _ => True) text.toList := by
  obtain ⟨lead, trail, hlead, htrail, htext⟩ := Text.exists_trimChars text.toList
  rw [← htext]
  have hblanks : ∀ {cs : List Char}, Text.Blanks cs → Nested (fun _ => True) cs := fun hcs =>
    (flat_of_blanks hcs).nested.mono fun _ _ => trivial
  have htrimmed := nested_of_isBalanced (of_ofText_eq_ok h).1
  exact ((hblanks hlead).append htrimmed).append (hblanks htrail)

/-- What the evaluator answers to a text that is a readable one in parentheses, behind negations or
not. -/
lemma standard_enclosed {text whole : String} {condition : Condition} {odd : Bool}
    (htext : ofText text = .ok condition) (hsolid : Text.Solid whole.toList)
    (hnested : Nested (fun _ => True) whole.toList)
    (hnone : ∀ operator ∈ operators, cutTopLevel operator.toList {} whole.toList = none)
    (hneg : negations false whole.toList = (odd, enclosed text.toList)) (scope : Scope) :
    Evaluator.standard whole scope
      = if closesAll 0 text.toList then .ok (odd ^^ condition.holds scope)
        else .error (.unsupportedOperand ("(" ++ text ++ ")")) := by
  have hparts : ∀ k : Connective, parts? k.sign whole.toList = none := fun k =>
    parts?_eq_none_of_cut (by
      rw [← k.sign_toList]
      exact hnone k.sign (by cases k <;> simp [Connective.sign, operators]))
  have hquote : String.ofList (enclosed text.toList) = "(" ++ text ++ ")" := by
    rw [← String.toList_inj, String.toList_ofList]
    simp [enclosed]
  rw [Evaluator.standard, ofText_eq_read hsolid hnested hnone,
    read_enclosed (nested_of_ofText htext) hparts hneg, (of_ofText_eq_ok htext).2, hquote]
  by_cases hcloses : closesAll 0 text.toList = true
  · rw [if_pos hcloses, if_pos hcloses]
    cases odd
    · rw [Bool.false_xor]
      rfl
    · rw [Bool.true_xor]
      rfl
  · rw [if_neg hcloses, if_neg hcloses]
    rfl

/-- **Parentheses around a whole condition change nothing**, and with an exclamation mark in front
they negate it, if the parentheses of its text are matched without regard to quotes, too.  If they
are not, the text in parentheses is taken for an operand and refused. -/
theorem standard_grouped {text : String} {scope : Scope} {v : Bool}
    (h : Evaluator.standard text scope = .ok v) :
    (Evaluator.standard ("(" ++ text ++ ")") scope = if closesAll 0 text.toList then .ok v
        else .error (.unsupportedOperand ("(" ++ text ++ ")")))
      ∧ Evaluator.standard ("!(" ++ text ++ ")") scope = if closesAll 0 text.toList then .ok (!v)
        else .error (.unsupportedOperand ("(" ++ text ++ ")")) := by
  have hok : ∃ condition, ofText text = .ok condition ∧ condition.holds scope = v := by
    rw [Evaluator.standard] at h
    cases htext : ofText text with
    | error e =>
        rw [htext] at h
        cases h
    | ok condition =>
        rw [htext] at h
        exact ⟨condition, rfl, Except.ok.inj h⟩
  obtain ⟨condition, htext, rfl⟩ := hok
  have hinner := nested_of_ofText htext
  have hsolid := solid_enclosed text.toList
  have hgroup : ("(" ++ text ++ ")").toList = enclosed text.toList := by simp [enclosed]
  have hnegation : ("!(" ++ text ++ ")").toList = '!' :: enclosed text.toList := by
    simp [enclosed]
  constructor
  · have hanswer := @standard_enclosed text ("(" ++ text ++ ")") condition false htext
    rw [hgroup] at hanswer
    rw [hanswer hsolid (nested_enclosed hinner)
      (cutTopLevel_operators fun first rest _ =>
        cutTopLevel_eq_none (moves_enclosed hinner first rest []))
      (negations_of_head hsolid (by simp [enclosed]) false), Bool.false_xor]
  · have hanswer := @standard_enclosed text ("!(" ++ text ++ ")") condition true htext
    have hneg : negations false ('!' :: enclosed text.toList) = (true, enclosed text.toList) := by
      rw [negations, if_pos rfl, if_neg (by simp [enclosed])]
      exact negations_of_head hsolid (by simp [enclosed]) true
    rw [hnegation] at hanswer
    rw [hanswer (Text.solid_between rfl rfl ('(' :: text.toList))
      (.plain (by decide) trivial (nested_enclosed hinner))
      (cutTopLevel_operators fun _ _ hfirst => cutTopLevel_negated hinner hfirst) hneg,
      Bool.true_xor]

/-- A condition on a closing parenthesis in quotes, and one on two parentheses. -/
theorem standard_grouped_parenthesis :
    let scope : Scope := { tree := { session := [("role", .string "editor")] } }
    Evaluator.standard "session.role != ')'" scope = .ok true
      ∧ Evaluator.standard "(session.role != ')')" scope
        = .error (.unsupportedOperand "(session.role != ')')")
      ∧ Evaluator.standard "!(session.role != ')')" scope
        = .error (.unsupportedOperand "(session.role != ')')")
      ∧ Evaluator.standard "(session.role != '()')" scope = .ok true
      ∧ Evaluator.standard "!(session.role != '()')" scope = .ok false := by
  intro scope
  have hone : Evaluator.standard "session.role != ')'" scope = .ok true := by decide +kernel
  have htwo : Evaluator.standard "session.role != '()'" scope = .ok true := by decide +kernel
  obtain ⟨hgroup, hnegation⟩ := standard_grouped hone
  obtain ⟨hgroup', hnegation'⟩ := standard_grouped htwo
  exact ⟨hone, hgroup, hnegation, hgroup', hnegation'⟩

end Componentry.Condition
