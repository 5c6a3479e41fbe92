import Mathlib.Tactic
import Componentry.Proofs.Condition.Dangling
/-!
# What stands outside of quotes

Whether a place in a text is outside of quotes depends on the quotes in front of it, and not on the
parentheses (`unquoted_append`).  So an operator that is `Outside` of quotes in a text is outside of
quotes in the piece of the text that it stands in, however the text is cut: at the connectives, at
the parentheses of a group, and at the mark of a test for an item.  The signs of a comparison share
characters with some of the operators, but where these overlap one of the operands begins or ends
with a sign, and there are no such operands (`outside_operands`).

`exists_isOperand` follows an operator down to an operand: **unless the whole text cannot be read,
some operand of it has the operator outside of quotes**.
-/

namespace Componentry.Condition

open Position

variable {operator text level : List Char}

/-! ### Quotes -/

/-- Behind a text a scan is outside of quotes. -/
def Unquoted (text : List Char) : Prop := (({} : Position).after text).quoted = false

lemma Position.singleQuoted_mark (p : Position) (c : Char) : ((p.mark? c).getD p).singleQuoted
    = if c = '\'' && !p.doubleQuoted then !p.singleQuoted else p.singleQuoted := by
  rw [mark?]
  split_ifs <;> rfl

lemma Position.doubleQuoted_mark (p : Position) (c : Char) : ((p.mark? c).getD p).doubleQuoted
    = if c = '"' && !p.singleQuoted then !p.doubleQuoted else p.doubleQuoted := by
  rw [mark?]
  by_cases hc : c = '\''
  · subst hc
    split_ifs <;> first | rfl | contradiction
  · split_ifs <;> simp_all

/-- The quotes around a place do not depend on the parentheses. -/
lemma Position.quoted_after {p q : Position} (hsingle : p.singleQuoted = q.singleQuoted)
    (hdouble : p.doubleQuoted = q.doubleQuoted) (cs : List Char) :
    (p.after cs).quoted = (q.after cs).quoted := by
  induction cs generalizing p q with
  | nil => rw [after, after, quoted, quoted, hsingle, hdouble]
  | cons c rest ih =>
      refine ih ?_ ?_
      · rw [singleQuoted_mark, singleQuoted_mark, hsingle, hdouble]
      · rw [doubleQuoted_mark, doubleQuoted_mark, hsingle, hdouble]

/-- What is in front of a place that is outside of quotes does not matter behind it. -/
lemma unquoted_append {cs : List Char} (h : Unquoted cs) (more : List Char) :
    Unquoted (cs ++ more) ↔ Unquoted more := by
  rw [Unquoted, quoted, Bool.or_eq_false_iff] at h
  rw [Unquoted, after_append, quoted_after (q := {}) h.1 h.2]
  rfl

lemma unquoted_of_top {cs : List Char} (h : ({} : Position).after cs = {}) : Unquoted cs := by
  rw [Unquoted, h]
  rfl

/-- A text without quotes does not lead into any. -/
lemma unquoted_of_forall {cs : List Char} (h : ∀ c ∈ cs, ¬IsQuote c) : Unquoted cs := by
  induction cs with
  | nil => rfl
  | cons c rest ih =>
      have hc := h c List.mem_cons_self
      rw [IsQuote, not_or] at hc
      have hfirst : Unquoted [c] := by
        rw [Unquoted, after, after, quoted, singleQuoted_mark, doubleQuoted_mark]
        simp [hc.1, hc.2]
      exact (unquoted_append hfirst rest).mpr (ih fun d hd => h d (List.mem_cons_of_mem c hd))

/-! ### Where operators stand -/

/-- The operators that look like comparisons but are none. -/
def unsupported : List (List Char) :=
  [['<'], ['>'], ['<', '='], ['>', '='], ['=', '=', '='], ['!', '=', '=']]

/-- An operator stands somewhere in a text, and the position of a scan that has come there is
`fine`. -/
def Stands (fine : Position → Prop) (operator text : List Char) : Prop :=
  ∃ before after, text = before ++ (operator ++ after) ∧ fine (({} : Position).after before)

/-- An operator stands in a text outside of quotes and parentheses. -/
abbrev AtTop (operator text : List Char) : Prop := Stands (· = {}) operator text

/-- An operator stands in a text outside of quotes. -/
abbrev Outside (operator text : List Char) : Prop := Stands (·.quoted = false) operator text

/-- The unsupported operators are made of the signs of comparisons. -/
lemma mem_of_unsupported (h : operator ∈ unsupported) :
    operator ≠ [] ∧ ∀ c ∈ operator, c ∈ ['!', '=', '<', '>'] := by
  have hall : ∀ operator ∈ unsupported, operator ≠ []
      ∧ operator.all (fun c => decide (c ∈ ['!', '=', '<', '>'])) = true := by decide
  exact (hall operator h).imp_right Text.forall_of_all

lemma mem_signs_of_unsupported (h : operator ∈ unsupported) : ∀ c ∈ operator, c ∈ signs := by
  have hall : ∀ c ∈ ['!', '=', '<', '>'], c ∈ signs := Text.forall_of_all (by decide)
  exact fun c hc => hall c ((mem_of_unsupported h).2 c hc)

/-- Two texts that have no character in common do not overlap: what stands behind the one is there
without it, too. -/
lemma exists_behind {before after lead : List Char} (hop : operator ≠ [])
    (hapart : ∀ c ∈ operator, c ∉ lead) (h : lead ++ text = before ++ (operator ++ after)) :
    ∃ front, before = lead ++ front ∧ text = front ++ (operator ++ after) := by
  obtain ⟨front, hbefore, htext⟩ | ⟨between, hlead, htext⟩ := List.append_eq_append_iff.mp h
  · exact ⟨front, hbefore, htext⟩
  · cases between with
    | nil => exact ⟨[], by simpa using hlead.symm, by simpa using htext.symm⟩
    | cons c between =>
        obtain ⟨d, rest, rfl⟩ := List.exists_cons_of_ne_nil hop
        obtain rfl : d = c := (List.cons.inj htext).1
        exact absurd (by simp [hlead]) (hapart d List.mem_cons_self)

/-- What stands in front of a text that has no character in common with it is there without this
text, too. -/
lemma exists_ahead {before after trail : List Char} (hapart : ∀ c ∈ operator, c ∉ trail)
    (h : text ++ trail = before ++ (operator ++ after)) (hop : operator ≠ []) :
    ∃ rest, text = before ++ (operator ++ rest) := by
  rw [← List.append_assoc] at h
  obtain ⟨between, hlead, htrail⟩ | ⟨rest, htext, -⟩ := List.append_eq_append_iff.mp h
  · rcases List.eq_nil_or_concat between with rfl | ⟨between, c, rfl⟩
    · exact ⟨[], by rw [List.append_nil, hlead, List.append_nil]⟩
    · obtain ⟨front, d, rfl⟩ := List.eq_nil_or_concat operator |>.resolve_left hop
      rw [List.concat_eq_append, List.concat_eq_append, ← List.append_assoc, ← List.append_assoc]
        at hlead
      obtain ⟨-, hcd⟩ := List.append_inj' hlead rfl
      obtain rfl : d = c := by simpa using hcd
      exact absurd (by simp [htrail]) (hapart d (by simp))
  · exact ⟨rest, by rw [htext, List.append_assoc]⟩

/-- An operator stands in front of a separator or behind it, or begins inside of one of the two and
ends inside of the other. -/
lemma split_cases {before after left separator right : List Char}
    (h : left ++ (separator ++ right) = before ++ (operator ++ after)) :
    (∃ rest, left = before ++ (operator ++ rest))
      ∨ (∃ front, before = left ++ (separator ++ front) ∧ right = front ++ (operator ++ after))
      ∨ (∃ first rest, rest ≠ [] ∧ operator = first ++ rest ∧ left = before ++ first
        ∧ separator ++ right = rest ++ after)
      ∨ ∃ first rest, rest ≠ [] ∧ separator = first ++ rest ∧ before = left ++ first
        ∧ operator ++ after = rest ++ right := by
  obtain ⟨front, hbefore, hright⟩ | ⟨between, hleft, hright⟩ := List.append_eq_append_iff.mp h
  · obtain ⟨later, hfront, hright⟩ | ⟨rest, hseparator', hright⟩ :=
      List.append_eq_append_iff.mp hright
    · exact .inr (.inl ⟨later, by rw [hbefore, hfront], hright⟩)
    · by_cases hrest : rest = []
      · subst hrest
        exact .inr (.inl ⟨[], by rw [hbefore, hseparator']; simp, by simpa using hright.symm⟩)
      · exact .inr (.inr (.inr ⟨front, rest, hrest, hseparator', hbefore, hright⟩))
  · obtain ⟨later, hbetween, hright⟩ | ⟨rest, hoperator, hright⟩ :=
      List.append_eq_append_iff.mp hright
    · exact .inl ⟨later, by rw [hleft, hbetween]⟩
    · by_cases hrest : rest = []
      · subst hrest
        exact .inl ⟨[], by rw [hleft, hoperator]; simp⟩
      · exact .inr (.inr (.inl ⟨between, rest, hrest, hoperator, hleft, hright⟩))

/-- Blanks around a text do not count. -/
lemma Stands.trimmed {fine : Position → Prop} (hop : operator ∈ unsupported)
    (h : Stands fine operator text) : Stands fine operator (Text.trimChars text) := by
  obtain ⟨hne, hsigns⟩ := mem_of_unsupported hop
  have hapart : ∀ {blanks : List Char}, Text.Blanks blanks → ∀ c ∈ operator, c ∉ blanks := by
    intro blanks hblanks c hc hmem
    have hall : ∀ d ∈ ['!', '=', '<', '>'], Text.isBlank d = false :=
      Text.forall_of_all (by decide)
    exact absurd (hblanks c hmem) (by simp [hall c (hsigns c hc)])
  obtain ⟨lead, trail, hlead, htrail, htext⟩ := Text.exists_trimChars text
  obtain ⟨before, after, heq, hfine⟩ := h
  rw [← htext, List.append_assoc] at heq
  obtain ⟨front, rfl, hrest⟩ := exists_behind hne (hapart hlead) heq
  obtain ⟨rest, htrimmed⟩ := exists_ahead (hapart htrail) hrest hne
  exact ⟨front, rest, htrimmed, by rwa [after_append, after_blanks _ hlead] at hfine⟩

/-- Behind what shares no character with it, an operator is outside of quotes as it is without
that. -/
lemma Outside.behind {lead : List Char} (hop : operator ∈ unsupported)
    (hapart : ∀ c ∈ ['!', '=', '<', '>'], c ∉ lead) (hlead : Unquoted lead)
    (h : Outside operator (lead ++ text)) : Outside operator text := by
  obtain ⟨hne, hsigns⟩ := mem_of_unsupported hop
  obtain ⟨before, after, htext, hunquoted⟩ := h
  obtain ⟨front, rfl, hrest⟩ := exists_behind hne (fun c hc => hapart c (hsigns c hc)) htext
  exact ⟨front, after, hrest, (unquoted_append hlead front).mp hunquoted⟩

/-- In front of what shares no character with it, an operator is outside of quotes as it is without
that. -/
lemma Outside.ahead {trail : List Char} (hop : operator ∈ unsupported)
    (hapart : ∀ c ∈ ['!', '=', '<', '>'], c ∉ trail) (h : Outside operator (text ++ trail)) :
    Outside operator text := by
  obtain ⟨hne, hsigns⟩ := mem_of_unsupported hop
  obtain ⟨before, after, htext, hunquoted⟩ := h
  obtain ⟨rest, hfront⟩ := exists_ahead (fun c hc => hapart c (hsigns c hc)) htext hne
  exact ⟨before, rest, hfront, hunquoted⟩

/-- An operator that shares no character with a separator stands on one side of it. -/
lemma Outside.split {left separator right : List Char} (hop : operator ∈ unsupported)
    (hapart : ∀ c ∈ ['!', '=', '<', '>'], c ∉ separator) (hne : separator ≠ [])
    (hseparator : Unquoted (left ++ separator))
    (h : Outside operator (left ++ (separator ++ right))) :
    Outside operator left ∨ Outside operator right := by
  obtain ⟨hop', hsigns⟩ := mem_of_unsupported hop
  have hapart' : ∀ c ∈ operator, c ∉ separator := fun c hc => hapart c (hsigns c hc)
  obtain ⟨before, after, htext, hunquoted⟩ := h
  obtain ⟨rest, hleft⟩ | ⟨front, rfl, hright⟩ | ⟨first, rest, hrest, rfl, -, hoverlap⟩
    | ⟨first, rest, hrest, rfl, -, hoverlap⟩ := split_cases htext
  · exact .inl ⟨before, rest, hleft, hunquoted⟩
  · rw [← List.append_assoc] at hunquoted
    exact .inr ⟨front, after, hright, (unquoted_append hseparator front).mp hunquoted⟩
  · obtain ⟨c, rest, rfl⟩ := List.exists_cons_of_ne_nil hrest
    obtain ⟨d, separator, rfl⟩ := List.exists_cons_of_ne_nil hne
    obtain rfl : d = c := (List.cons.inj hoverlap).1
    exact absurd List.mem_cons_self (hapart' d (by simp))
  · obtain ⟨c, rest, rfl⟩ := List.exists_cons_of_ne_nil hrest
    obtain ⟨d, operator, rfl⟩ := List.exists_cons_of_ne_nil hop'
    obtain rfl : d = c := (List.cons.inj hoverlap).1
    exact absurd (by simp) (hapart' d List.mem_cons_self)

/-! ### Parts and groups -/

variable {k : Connective} {heads : List (List Char)} {last : List Char}

/-- What stands in a text stands in one of its pieces. -/
lemma outside_pieces (hop : operator ∈ unsupported) (hpieces : Pieces k text heads last)
    (h : Outside operator text) :
    (∃ head ∈ heads, Outside operator head) ∨ Outside operator last := by
  induction hpieces with
  | last => exact .inr h
  | @more text before after last heads hcut _ ih =>
      obtain ⟨htext, htop⟩ := occurs_of_cut hcut
      have hapart : ∀ c ∈ ['!', '=', '<', '>'], c ∉ k.operator :=
        Text.forall_of_all (by cases k <;> decide)
      have hunquoted : Unquoted (before ++ k.operator) := by
        rw [Unquoted, after_append, htop, after_operator]
        rfl
      rw [htext] at h
      obtain hbefore | hafter := h.split hop hapart (List.cons_ne_nil _ _) hunquoted
      · exact .inl ⟨before, List.mem_cons_self, hbefore⟩
      · exact (ih hafter).imp_left fun ⟨head, hmem, hhead⟩ =>
          ⟨head, List.mem_cons_of_mem before hmem, hhead⟩

lemma outside_part (hop : operator ∈ unsupported) {parts : List (List Char)}
    (hcut : parts? k.sign text = some parts) (h : Outside operator text) :
    ∃ part ∈ parts, Outside operator part := by
  obtain ⟨heads, last, hpieces⟩ := exists_pieces k text
  have hparts := parts?_of_pieces hpieces
  rw [hcut] at hparts
  split_ifs at hparts
  obtain rfl := Option.some.inj hparts
  obtain ⟨head, hmem, hhead⟩ | hlast := outside_pieces hop hpieces h
  · exact ⟨_, mem_partsOf hmem last, hhead.trimmed hop⟩
  · have hne : last ≠ [] := by
      rintro rfl
      obtain ⟨before, after, hnil, -⟩ := hlast
      simp [(mem_of_unsupported hop).1] at hnil
    rw [partsOf_of_ne heads hne]
    exact ⟨_, List.mem_map_of_mem (by simp), hlast.trimmed hop⟩

/-- Negations are taken off in front of an operator. -/
lemma outside_negations (hop : operator ∈ unsupported) (odd : Bool) (h : Outside operator text) :
    Outside operator (negations odd text).2 := by
  induction text generalizing odd with
  | nil => exact h
  | cons c rest ih =>
      have hskip : ¬IsQuote c → (∀ more after, operator = c :: more → rest ≠ more ++ after) →
          Outside operator rest := by
        intro hquote hfirst
        obtain ⟨before, after, htext, hunquoted⟩ := h
        cases before with
        | nil =>
            obtain ⟨d, more, rfl⟩ := List.exists_cons_of_ne_nil (mem_of_unsupported hop).1
            obtain ⟨rfl, hrest⟩ := List.cons.inj htext
            exact absurd hrest (hfirst more after rfl)
        | cons d before =>
            obtain ⟨rfl, hrest⟩ := List.cons.inj htext
            have hmark : Unquoted [c] := unquoted_of_forall (by simpa using hquote)
            exact ⟨before, after, hrest, (unquoted_append hmark before).mp hunquoted⟩
      rw [negations]
      split_ifs with hmark hequals hblank
      · exact h
      · subst hmark
        refine ih _ (hskip (by unfold IsQuote; decide) ?_)
        rintro more after rfl rfl
        obtain rfl : more = ['=', '='] := by simpa [unsupported] using hop
        exact hequals rfl
      · refine ih _ (hskip ?_ ?_)
        · rintro (rfl | rfl) <;> exact absurd hblank (by decide)
        · rintro more after rfl -
          have hsign := (mem_of_unsupported hop).2 c List.mem_cons_self
          have hall : ∀ d ∈ ['!', '=', '<', '>'], ¬Text.isBlank d = true :=
            Text.forall_of_all (by decide)
          exact hall c hsign hblank
      · exact h

lemma outside_core (hop : operator ∈ unsupported) (h : Outside operator text) :
    Outside operator (core text) := (outside_negations hop false h).trimmed hop

lemma outside_group (hop : operator ∈ unsupported) {inner : List Char}
    (hgroup : group? text = some inner) (h : Outside operator text) : Outside operator inner := by
  obtain ⟨inside, rfl, rfl⟩ := exists_of_group? hgroup
  have hwhole : Outside operator (['('] ++ (inside ++ [')'])) := h
  have hopened := hwhole.behind hop (Text.forall_of_all (by decide))
    (unquoted_of_forall (by simp [IsQuote]))
  exact (hopened.ahead hop (Text.forall_of_all (by decide))).trimmed hop

/-! ### Operands -/

/-- The text of the item in a test for one, given the text behind its mark. -/
def argument (right : List Char) : List Char :=
  let argument := Text.trimChars (dropRepeated includesMark right.length right)
  (Text.stripSuffix [')'] argument).getD argument

/-- The texts of the operands in a comparison, in a test for an item, or of a single one. -/
def operands (text : List Char) : List (List Char) :=
  match cutTopLevel includesMark {} text with
  | some (left, right) => [left, argument right]
  | none =>
    match cutTopLevel ['!', '='] {} text with
    | some (left, right) => [left, right]
    | none =>
      match cutTopLevel ['=', '='] {} text with
      | some (left, right) => [left, right]
      | none => [text]

/-- Blanks around an operand do not count. -/
lemma operand_trimChars (text : List Char) : operand (Text.trimChars text) = operand text := by
  rw [operand, operand, Text.trimChars_trimChars]

lemma failed_comparison_of_operand (make : Operand → Operand → Condition) {left right : List Char}
    {part : List Char} (hmem : part ∈ [left, right]) (h : Failed (operand part)) :
    Failed (comparison make left right) := by
  rw [comparison, operand_trimChars, operand_trimChars]
  split_ifs
  · exact ⟨_, rfl⟩
  · rcases List.mem_pair.mp hmem with rfl | rfl
    · exact h.bind _
    · exact h.bind_right _

/-- What is simple cannot be read if one of its operands cannot be read. -/
lemma failed_simple_of_operand {part : List Char} (hmem : part ∈ operands text)
    (h : Failed (operand part)) : Failed (simple text) := by
  rw [operands] at hmem
  rw [simple]
  split <;> rename_i hcut <;> rw [hcut] at hmem
  · rename_i left right
    have hargument : membership left right
        = if Text.trimChars (argument right) = [] then .error .missingArgument
          else do
            return includes (← operand left) (← operand (Text.trimChars (argument right))) := rfl
    rw [hargument, operand_trimChars]
    split_ifs
    · exact ⟨_, rfl⟩
    · rcases List.mem_pair.mp hmem with rfl | rfl
      · exact h.bind _
      · exact h.bind_right _
  split <;> rename_i hcut <;> rw [hcut] at hmem
  · exact failed_comparison_of_operand _ hmem h
  split <;> rename_i hcut <;> rw [hcut] at hmem
  · exact failed_comparison_of_operand _ hmem h
  · obtain rfl := List.mem_singleton.mp hmem
    exact h.bind _

/-- No operand begins with a sign. -/
lemma failed_operand_of_first {c : Char} (hc : c ∈ signs) (h : text.head? = some c) :
    Failed (operand text) := by
  have hsigns : ∀ d ∈ signs, Text.isBlank d = false ∧ '\'' ≠ d
      ∧ ¬(Text.isNameChar d = true ∨ d = '.') := Text.forall_of_all (by decide)
  obtain ⟨hblank, hquote, hname⟩ := hsigns c hc
  rw [operand]
  generalize hpart : Text.trimChars text = part
  have hhead : part.head? = some c := hpart ▸ Text.head?_trimChars hblank h
  obtain ⟨rest, rfl⟩ := List.head?_eq_some_iff.mp hhead
  have hquoted : quotedText? (c :: rest) = none := by
    rw [quotedText?, Text.stripPrefix_of_head_ne hquote]
    rfl
  have hwritten : isWrittenOut (c :: rest) = false := by
    simp only [signs, List.mem_cons, List.not_mem_nil, or_false] at hc
    rcases hc with rfl | rfl | rfl | rfl | rfl | rfl <;> simp [isWrittenOut]
  have hpath : ¬isPath (c :: rest) = true := fun hpath =>
    hname (isNameChar_of_isPath hpath c List.mem_cons_self)
  rw [if_neg (List.cons_ne_nil c rest), hquoted]
  dsimp only
  rw [hwritten, if_neg Bool.false_ne_true, if_neg hpath]
  exact ⟨_, rfl⟩

/-! ### Operators in operands -/

lemma unquoted_includesMark : Unquoted includesMark := rfl

lemma outside_dropRepeated (hop : operator ∈ unsupported) (fuel : Nat)
    (h : Outside operator text) : Outside operator (dropRepeated includesMark fuel text) := by
  induction fuel generalizing text with
  | zero => exact h
  | succ fuel ih =>
      rw [dropRepeated]
      split
      · rename_i rest hrest
        rw [Text.stripPrefix_eq_some_iff.mp hrest] at h
        exact ih (Outside.behind hop (Text.forall_of_all (by decide)) unquoted_includesMark h)
      · exact h

lemma outside_argument (hop : operator ∈ unsupported) {right : List Char}
    (h : Outside operator right) : Outside operator (argument right) := by
  have hdropped := (outside_dropRepeated hop right.length h).trimmed hop
  rw [argument]
  cases hclosed : Text.stripSuffix [')']
      (Text.trimChars (dropRepeated includesMark right.length right)) with
  | none => exact hdropped
  | some inner =>
      rw [Text.stripSuffix_eq_some_iff.mp hclosed] at hdropped
      exact Outside.ahead hop (Text.forall_of_all (by decide)) hdropped

/-- Where an operator goes on behind the sign of a comparison, an equals sign is next. -/
lemma head?_of_overlap (hop : operator ∈ unsupported) {first : Char}
    (hfirst : first = '!' ∨ first = '=') {sign right after : List Char}
    (hsign : sign = [first, '='] ∨ sign = ['=']) (h : operator ++ after = sign ++ right) :
    right.head? = some '=' := by
  simp only [unsupported, List.mem_cons, List.not_mem_nil, or_false] at hop
  rcases hop with rfl | rfl | rfl | rfl | rfl | rfl <;> rcases hfirst with rfl | rfl <;>
    rcases hsign with rfl | rfl <;> simp at h <;> simp [← h]

/-- Around the sign of a comparison there is an operand that cannot be read, or the operator stands
in one of the two. -/
lemma outside_comparison (hop : operator ∈ unsupported) {first : Char}
    (hfirst : first = '!' ∨ first = '=') {left right : List Char}
    (hcut : cutTopLevel [first, '='] {} text = some (left, right))
    (h : Outside operator text) :
    ∃ part ∈ [left, right], Failed (operand part) ∨ Outside operator part := by
  obtain ⟨rfl, htop⟩ := of_cutTopLevel hcut
  have hbegins : right.head? = some '=' →
      ∃ part ∈ [left, right], Failed (operand part) ∨ Outside operator part := fun hhead =>
    ⟨right, by simp, .inl (failed_operand_of_first (by decide) hhead)⟩
  obtain ⟨before, after, htext, hunquoted⟩ := h
  obtain ⟨rest, hleft⟩ | ⟨front, rfl, hright⟩ | ⟨begun, rest, -, hoperator, hleft, hoverlap⟩
    | ⟨begun, rest, hrest, hsign, -, hoverlap⟩ := split_cases htext
  · exact ⟨left, by simp, .inr ⟨before, rest, hleft, hunquoted⟩⟩
  · have hsign : Unquoted [first, '='] := by rcases hfirst with rfl | rfl <;> rfl
    have hfront := (unquoted_append (unquoted_of_top htop) _).mp hunquoted
    exact ⟨right, by simp, .inr ⟨front, after, hright, (unquoted_append hsign front).mp hfront⟩⟩
  · cases hlast : begun.getLast? with
    | none =>
        rw [List.getLast?_eq_none_iff.mp hlast, List.nil_append] at hoperator
        rw [← hoperator] at hoverlap
        exact hbegins (head?_of_overlap hop hfirst (.inl rfl) hoverlap.symm)
    | some c =>
        have hsign := mem_signs_of_unsupported hop c
        refine ⟨left, by simp, .inl (failed_operand_of_last (hsign ?_) ?_)⟩
        · rw [hoperator]
          exact List.mem_append_left rest (List.mem_of_getLast? hlast)
        · rw [hleft, List.getLast?_append, hlast, Option.some_or]
  · refine hbegins (head?_of_overlap hop hfirst ?_ hoverlap)
    cases begun with
    | nil => exact .inl hsign.symm
    | cons c begun =>
        obtain ⟨-, hlast⟩ := List.cons.inj hsign
        cases begun with
        | nil => exact .inr hlast.symm
        | cons d begun => simp [hrest] at hlast

/-- What stands in a simple text stands in one of its operands, unless one of them cannot be
read. -/
theorem outside_operands (hop : operator ∈ unsupported) (h : Outside operator text) :
    ∃ part ∈ operands text, Failed (operand part) ∨ Outside operator part := by
  rw [operands]
  split
  · rename_i left right hcut
    obtain ⟨rfl, htop⟩ := of_cutTopLevel hcut
    have hunquoted : Unquoted (left ++ includesMark) :=
      (unquoted_append (unquoted_of_top htop) _).mpr unquoted_includesMark
    obtain hleft | hright :=
      Outside.split hop (Text.forall_of_all (by decide)) (by decide) hunquoted h
    · exact ⟨left, by simp, .inr hleft⟩
    · exact ⟨argument right, by simp, .inr (outside_argument hop hright)⟩
  split
  · rename_i hcut
    exact outside_comparison hop (.inl rfl) hcut h
  split
  · rename_i hcut
    exact outside_comparison hop (.inr rfl) hcut h
  · exact ⟨text, by simp, .inr h⟩

/-- A text that is read as an operand when another one is read. -/
inductive IsOperand (text : List Char) : List Char → Prop
  | intro {level part : List Char} (below : Level text level)
      (simple : ∀ k : Connective, parts? k.sign level = none) (single : group? (core level) = none)
      (mem : part ∈ operands (core level)) : IsOperand text (Text.trimChars part)

/-- An operand that cannot be read is wrong with the whole text. -/
lemma IsOperand.failed {part : List Char} (h : IsOperand text part)
    (hpart : Failed (operand part)) : Failed (read text) := by
  obtain ⟨hbelow, hnone, hsingle, hmem⟩ := h
  rw [operand_trimChars] at hpart
  refine hbelow.failed (failed_of_core hnone ?_)
  rw [readCore, hsingle]
  exact failed_simple_of_operand hmem hpart

/-- An operator is followed down through the levels of a text, each of which is shorter. -/
lemma exists_isOperand_below (hop : operator ∈ unsupported) (hlevel : Level text level)
    (h : Outside operator level) :
    ∃ part, IsOperand text part ∧ (Failed (operand part) ∨ Outside operator part) := by
  induction hlength : level.length using Nat.strong_induction_on generalizing level with
  | _ length ih =>
  subst hlength
  have hjoined : ∀ k : Connective, LookedFor k level → ∀ parts, parts? k.sign level = some parts →
      ∃ part, IsOperand text part ∧ (Failed (operand part) ∨ Outside operator part) := by
    intro k hlooked parts hcut
    obtain ⟨part, hmem, hpart⟩ := outside_part hop hcut h
    exact ih _ (length_lt_of_parts? hcut hmem) (.part hlevel hlooked hcut hmem) hpart rfl
  have hlooked : LookedFor .or level := fun k hlower => absurd hlower (Nat.not_lt_zero _)
  cases hor : parts? Connective.or.sign level with
  | some parts => exact hjoined .or hlooked parts hor
  | none =>
      have hlooked' : LookedFor .and level := by
        rintro (_ | _) hlower
        · exact hor
        · exact absurd hlower (by decide)
      cases hand : parts? Connective.and.sign level with
      | some parts => exact hjoined .and hlooked' parts hand
      | none =>
          have hnone : ∀ k : Connective, parts? k.sign level = none := by
            rintro (_ | _)
            · exact hor
            · exact hand
          have hcore := outside_core hop h
          cases hgroup : group? (core level) with
          | some inner =>
              have hshort : inner.length < level.length :=
                (length_lt_of_group? hgroup).trans_le
                  ((Text.length_trimChars_le _).trans (negations_suffix false level).length_le)
              exact ih _ hshort (.group hlevel hnone hgroup) (outside_group hop hgroup hcore) rfl
          | none =>
              obtain ⟨part, hmem, hpart⟩ := outside_operands hop hcore
              refine ⟨_, .intro hlevel hnone hgroup hmem, ?_⟩
              rw [operand_trimChars]
              exact hpart.imp_right fun h => h.trimmed hop

/-- **An operator outside of quotes comes down to an operand**, unless the text cannot be read. -/
theorem exists_isOperand (hop : operator ∈ unsupported) (h : Outside operator text) :
    Failed (read text) ∨ ∃ part, IsOperand text part ∧ Outside operator part := by
  obtain ⟨part, hpart, hfailed | houtside⟩ := exists_isOperand_below hop .whole h
  · exact .inl (hpart.failed hfailed)
  · exact .inr ⟨part, hpart, houtside⟩

end Componentry.Condition
