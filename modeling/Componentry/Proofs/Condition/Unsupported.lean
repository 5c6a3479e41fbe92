import Mathlib.Tactic
import Componentry.Proofs.Condition.Grouping
import Componentry.Proofs.Condition.Outside
/-!
# Operators that are no comparisons

The reader looks for the operators that it does not support at the top level of the whole text only
(`failed_of_atTop`).  Below that it depends on the operands, which have no signs outside of quotes:
this holds for paths, for texts in quotes and for values that are written out.

But the reader of operands and the scanners do not agree on where quotes end.  An operand that
begins and ends with a single quote is one text for the reader, also if there are more of these
quotes in it, and in a string that is written out a double quote may be escaped, which the scanners
do not know.  A sign in such an operand is `Veiled`: for the scanners it is outside of quotes, and
the operand is read nevertheless (`operand_ok_iff`).

`standard_unsupported` is the result for whole texts: **an unsupported operator outside of quotes is
an error at the top level, and below it, unless it is veiled in its operand**.  In parentheses, two
texts in single quotes with such an operator between them are one text (`standard_enclosed_texts`).
-/

namespace Componentry.Condition

open Position

/-! ### Inside of quotes -/

/-- A scan stays inside of quotes until the quote comes that ends them. -/
lemma Position.after_inside {quote : Char} (hquote : IsQuote quote) {cs : List Char}
    (h : quote ∉ cs) (depth : Nat) : (inside quote depth).after cs = inside quote depth := by
  induction cs with
  | nil => rfl
  | cons c rest ih =>
      have hc : c ≠ quote := fun e => h (e ▸ List.mem_cons_self)
      rw [after, mark?_inside hquote hc, Option.getD_none]
      exact ih fun hmem => h (List.mem_cons_of_mem c hmem)

/-- What stands outside of quotes stands behind a text that does not end them. -/
lemma exists_behind_quoted {quote : Char} (hquote : IsQuote quote)
    {lead rest before after : List Char} (hlead : quote ∉ lead)
    (h : lead ++ rest = before ++ after)
    (hunquoted : ((inside quote 0).after before).quoted = false) :
    ∃ front, rest = front ++ after ∧ ((inside quote 0).after front).quoted = false := by
  obtain ⟨front, rfl, hrest⟩ | ⟨between, rfl, hrest⟩ := List.append_eq_append_iff.mp h
  · rw [after_append, after_inside hquote hlead] at hunquoted
    exact ⟨front, hrest, hunquoted⟩
  · rw [after_inside hquote fun hmem => hlead (List.mem_append_left between hmem),
      quoted_inside hquote] at hunquoted
    cases hunquoted

/-- A plain character is passed over to what stands behind it. -/
lemma exists_behind_plain {c d : Char} (hplain : IsPlain d) (hne : d ≠ c)
    {rest before after : List Char} (h : d :: rest = before ++ c :: after)
    (hunquoted : ((at_ 0).after before).quoted = false) :
    ∃ front, rest = front ++ c :: after ∧ ((at_ 0).after front).quoted = false := by
  cases before with
  | nil => exact absurd (List.cons.inj h).1 hne
  | cons e front =>
      obtain ⟨rfl, hrest⟩ := List.cons.inj h
      rw [Position.after, mark?_plain hplain, Option.getD_none] at hunquoted
      exact ⟨front, hrest, hunquoted⟩

section Strings

open Json Json.Lexeme

/-- Where the scanners are while values that are written out are split into tokens. -/
def Position.of : Lexeme → Position
  | .string _ _ => inside '"' 0
  | .between | .word _ | .numeral _ => at_ 0

/-- The scanners are inside of quotes when a string has begun, and outside otherwise. -/
lemma Position.of_start? {c : Char} {begun : List Token} {lexeme : Lexeme}
    (h : start? c = some (begun, lexeme)) : ((at_ 0).mark? c).getD (at_ 0) = of lexeme := by
  have hplain : IsPlain c → ((at_ 0).mark? c).getD (at_ 0) = at_ 0 := fun hc => by
    rw [mark?_plain hc, Option.getD_none]
  simp only [start?] at h
  split_ifs at h with hspace halpha hnumeral
  · cases h
    exact hplain (isOperandChar_of_class (p := isSpace) (by decide) hspace).1
  · cases h
    exact hplain (isOperandChar_of_class (p := Char.isAlpha) (by decide) halpha).1
  · cases h
    exact hplain (isOperandChar_of_class (p := isNumeralChar) (by decide) hnumeral).1
  · split at h <;> cases h <;> rfl

lemma Position.of_push (high : Option Nat) (content : Option (List Char)) (c : Char) :
    of (push high content c) = inside '"' 0 := by
  cases high <;> rfl

lemma Position.of_pushUnit (high : Option Nat) (content : Option (List Char)) (unit : Nat) :
    of (pushUnit high content unit) = inside '"' 0 := by
  simp only [pushUnit]
  split_ifs
  · cases high <;> rfl
  · cases high <;> rfl
  · exact of_push high content _

/-- A quote is no hexadecimal digit. -/
lemma not_mem_of_hexUnit? {a b c d : Char} {unit : Nat} (h : hexUnit? a b c d = some unit) :
    '"' ∉ [a, b, c, d] := by
  have hquote : hexValue? '"' = none := by rfl
  intro hmem
  simp only [List.mem_cons, List.not_mem_nil, or_false] at hmem
  rcases hmem with rfl | rfl | rfl | rfl <;> simp [hexUnit?, hquote] at h

/-- **Where no double quote is escaped, the scanners do not come upon a sign** outside of quotes in
what has tokens. -/
theorem tokens?_eq_none_of_outside {c : Char} (hc : start? c = none) {lexeme : Lexeme}
    {text before after : List Char} (htext : text = before ++ c :: after)
    (hescape : ¬['\\', '"'] <:+: text) (h : ((Position.of lexeme).after before).quoted = false) :
    tokens? lexeme text = none := by
  have hword : c.isAlpha = false ∧ isNumeralChar c = false := by
    simp only [start?] at hc
    split_ifs at hc with _ halpha hnumeral
    exact ⟨by simpa using halpha, by simpa using hnumeral⟩
  have hshorter : ∀ (lead : List Char) {rest : List Char}, ¬['\\', '"'] <:+: lead ++ rest →
      ¬['\\', '"'] <:+: rest :=
    fun _ _ hnot hrest => hnot (hrest.trans (List.suffix_append _ _).isInfix)
  fun_induction tokens? lexeme text generalizing before with
  | case1 => simp at htext
  | case2 high content rest ih =>
      cases before with
      | nil => cases h
      | cons d before =>
          obtain ⟨rfl, hrest⟩ := List.cons.inj htext
          rw [ih hrest (hshorter ['"'] hescape) h]
          rfl
  | case3 high content a b c' d rest unit hunit ih =>
      have hlead : '"' ∉ ['\\', 'u', a, b, c', d] := by
        simpa using not_mem_of_hexUnit? hunit
      obtain ⟨front, hrest, hfront⟩ := exists_behind_quoted (.inr rfl) hlead htext h
      exact ih hrest (hshorter ['\\', 'u', a, b, c', d] hescape)
        (by rwa [of_pushUnit])
  | case5 high content c' rest _ d _ ih =>
      have hlead : '"' ∉ ['\\', c'] := by
        have hne : '"' ≠ c' := by
          rintro rfl
          exact hescape ⟨[], rest, rfl⟩
        simpa using hne
      obtain ⟨front, hrest, hfront⟩ := exists_behind_quoted (.inr rfl) hlead htext h
      exact ih hrest (hshorter ['\\', c'] hescape) (by rwa [of_push])
  | case8 high content c' rest hquote _ _ _ ih =>
      have hlead : '"' ∉ [c'] := by simpa [eq_comm] using hquote
      obtain ⟨front, hrest, hfront⟩ := exists_behind_quoted (.inr rfl) hlead htext h
      exact ih hrest (hshorter [c'] hescape) (by rwa [of_push])
  | case9 letters c' rest halpha ih =>
      have hplain : IsPlain c' :=
        (isOperandChar_of_class (p := Char.isAlpha) (by decide) halpha).1
      have hne : c' ≠ c := by
        rintro rfl
        simp [halpha] at hword
      obtain ⟨front, hrest, hfront⟩ := exists_behind_plain hplain hne htext h
      exact ih hrest (hshorter [c'] hescape) hfront
  | case11 chars c' rest hnumeral ih =>
      have hplain : IsPlain c' :=
        (isOperandChar_of_class (p := isNumeralChar) (by decide) hnumeral).1
      have hne : c' ≠ c := by
        rintro rfl
        simp [hnumeral] at hword
      obtain ⟨front, hrest, hfront⟩ := exists_behind_plain hplain hne htext h
      exact ih hrest (hshorter [c'] hescape) hfront
  | case10 _ c' rest _ ih | case12 _ c' rest _ ih | case13 c' rest ih =>
      cases before with
      | nil =>
          obtain ⟨rfl, -⟩ := List.cons.inj htext
          simp [hc]
      | cons d before =>
          obtain ⟨rfl, hrest⟩ := List.cons.inj htext
          cases hstart : start? c' with
          | none => simp
          | some started =>
              obtain ⟨begun, lexeme⟩ := started
              rw [of, Position.after, of_start? hstart] at h
              simp [ih lexeme hrest (hshorter [c'] hescape) h]
  | case4 | case6 | case7 => rfl

end Strings

/-! ### Operands with signs -/

/-- An operand in which the reader and the scanners do not agree on where quotes end. -/
inductive Veiled : List Char → Prop
  /-- The single quotes around the whole operand are not the only ones. -/
  | quoted {inner : List Char} (mem : '\'' ∈ inner) : Veiled ('\'' :: (inner ++ ['\'']))
  /-- In a value that is written out a double quote is escaped. -/
  | written {text : List Char} {value : Json} (start : isWrittenOut text = true)
      (value : Json.ofText? (String.ofList text) = some value) (escape : ['\\', '"'] <:+: text) :
      Veiled text

variable {operator text part : List Char}

lemma Stands.first {fine : Position → Prop} {c : Char} {more : List Char}
    (h : Stands fine (c :: more) text) : Stands fine [c] text := by
  obtain ⟨before, after, htext, hfine⟩ := h
  exact ⟨before, more ++ after, by simp [htext], hfine⟩

/-- A sign in single quotes is not outside of quotes. -/
lemma not_outside_quoted {c : Char} (hc : c ≠ '\'') {inner : List Char} (hinner : '\'' ∉ inner) :
    ¬Outside [c] ('\'' :: (inner ++ ['\''])) := by
  rintro ⟨before, after, htext, hunquoted⟩
  cases before with
  | nil => exact hc (List.cons.inj htext).1.symm
  | cons d before =>
      obtain ⟨rfl, htail⟩ := List.cons.inj htext
      obtain ⟨front, hrest, -⟩ :=
        exists_behind_quoted (.inl rfl : IsQuote '\'') hinner htail hunquoted
      cases front with
      | nil => exact hc (List.cons.inj hrest).1.symm
      | cons e front => simp at hrest

lemma quotedText?_eq_some_iff {inner : List Char} :
    quotedText? text = some inner ↔ text = '\'' :: (inner ++ ['\'']) := by
  rw [quotedText?]
  constructor
  · intro h
    obtain ⟨opened, hopened, hclosed⟩ := Option.bind_eq_some_iff.mp h
    rw [Text.stripPrefix_eq_some_iff.mp hopened, Text.stripSuffix_eq_some_iff.mp hclosed]
    rfl
  · rintro rfl
    exact Text.stripSuffix_append ['\''] inner

/-- What is written out and has a sign outside of quotes has an escaped double quote. -/
lemma escape_of_outside {c : Char} (hc : Json.Lexeme.start? c = none) {value : Json}
    (hvalue : Json.ofText? (String.ofList part) = some value) (h : Outside [c] part) :
    ['\\', '"'] <:+: part := by
  by_contra hescape
  obtain ⟨before, after, htext, hunquoted⟩ := h
  rw [Json.ofText?, Json.Written.ofText?, String.toList_ofList,
    @tokens?_eq_none_of_outside c hc .between _ _ _ htext hescape hunquoted] at hvalue
  cases hvalue

/-- **An operand with a sign outside of quotes is read if it is veiled**, and only then. -/
theorem operand_ok_iff (hop : operator ∈ unsupported) (htrimmed : Text.trimChars part = part)
    (houtside : Outside operator part) : (∃ read, operand part = .ok read) ↔ Veiled part := by
  have hsigns : ∀ d ∈ signs, d ≠ '\'' ∧ Json.Lexeme.start? d = none
      ∧ ¬(Text.isNameChar d = true ∨ d = '.') := Text.forall_of_all (by decide)
  have hall := mem_signs_of_unsupported hop
  obtain ⟨c, more, rfl⟩ := List.exists_cons_of_ne_nil (mem_of_unsupported hop).1
  obtain ⟨hquote, hstart, hname⟩ := hsigns c (hall c List.mem_cons_self)
  have h : Outside [c] part := houtside.first
  have hmem : c ∈ part := by
    obtain ⟨before, after, rfl, -⟩ := h
    simp
  rw [operand, htrimmed, if_neg (List.ne_nil_of_mem hmem)]
  constructor
  · rintro ⟨read, hread⟩
    cases hquoted : quotedText? part with
    | some inner =>
        obtain rfl := quotedText?_eq_some_iff.mp hquoted
        by_contra hveiled
        exact not_outside_quoted hquote (fun hmem => hveiled (.quoted hmem)) h
    | none =>
        rw [hquoted] at hread
        dsimp only at hread
        split_ifs at hread with hwritten hpath
        · cases hvalue : Json.ofText? (String.ofList part) with
          | none => simp [hvalue] at hread
          | some value => exact .written hwritten hvalue (escape_of_outside hstart hvalue h)
        · exact absurd (isNameChar_of_isPath hpath c hmem) hname
  · rintro (hinner | ⟨hwritten, hvalue, -⟩)
    · rw [quotedText?_eq_some_iff.mpr rfl]
      exact ⟨_, rfl⟩
    · cases quotedText? part with
      | some inner => exact ⟨_, rfl⟩
      | none =>
          dsimp only
          rw [if_pos hwritten, hvalue]
          exact ⟨_, rfl⟩

/-! ### Whole texts -/

/-- An unsupported operator at the top level is found before anything is read. -/
lemma failed_of_atTop (hop : operator ∈ unsupported) {text : String}
    (h : AtTop operator text.toList) : Failed (ofText text) := by
  have hfound : (cutTopLevel operator {} (Text.trimChars text.toList)).isSome = true := by
    obtain ⟨before, after, htext, htop⟩ := h.trimmed hop
    obtain ⟨first, rest, rfl⟩ := List.exists_cons_of_ne_nil (mem_of_unsupported hop).1
    have hplain : ∀ c ∈ ['!', '=', '<', '>'], IsPlain c := Text.forall_of_all (by decide)
    obtain ⟨_, _, hcut, -⟩ : ∃ front back, cutTopLevel (first :: rest) {}
        (before ++ (first :: rest ++ after)) = some (front, back) ∧ after.length ≤ back.length :=
      exists_cut (hplain first ((mem_of_unsupported hop).2 first List.mem_cons_self)) htop
    rw [htext, hcut]
    rfl
  have hany : ∀ (sign : String) {operators : List String}, sign.toList = operator →
      sign ∈ operators → hasAnyTopLevel operators (Text.trimChars text.toList) = true := by
    rintro sign operators rfl hmem
    exact List.any_eq_true.mpr ⟨sign, hmem, hfound⟩
  rw [ofText]
  split_ifs with hempty hbalanced hstrict hother
  · exact ⟨_, rfl⟩
  · exact ⟨_, rfl⟩
  · exact ⟨_, rfl⟩
  · exact ⟨_, rfl⟩
  · exfalso
    simp only [unsupported, List.mem_cons, List.not_mem_nil, or_false] at hop
    rcases hop with rfl | rfl | rfl | rfl | rfl | rfl
    · exact hother (hany "<" rfl (by decide))
    · exact hother (hany ">" rfl (by decide))
    · exact hother (hany "<=" rfl (by decide))
    · exact hother (hany ">=" rfl (by decide))
    · exact hstrict (hany "===" rfl (by decide))
    · exact hstrict (hany "!==" rfl (by decide))

lemma IsOperand.trimmed (h : IsOperand text part) : Text.trimChars part = part := by
  cases h
  exact Text.trimChars_trimChars _

/-- An unsupported operator outside of quotes is in no operand but a veiled one. -/
lemma failed_or_veiled (hop : operator ∈ unsupported) (h : Outside operator text) :
    Failed (read text)
      ∨ ∃ part, IsOperand text part ∧ Outside operator part ∧ Veiled part := by
  obtain hfailed | ⟨part, hpart, houtside⟩ := exists_isOperand hop h
  · exact .inl hfailed
  cases hread : operand part with
  | error e => exact .inl (hpart.failed ⟨e, hread⟩)
  | ok value =>
      have hveiled := (operand_ok_iff hop hpart.trimmed houtside).mp ⟨value, hread⟩
      exact .inr ⟨part, hpart, houtside, hveiled⟩

/-! ### Two texts with an operator between them -/

/-- What begins and ends with a single quote is one text, if it is not cut anywhere. -/
lemma read_quoted {inner : List Char}
    (hflat : Flat (fun c => c ∉ ['|', '&', '!', '=']) ('\'' :: (inner ++ ['\'']))) :
    read ('\'' :: (inner ++ ['\'']))
      = .ok (.truthy (.literal (.string (String.ofList inner)))) := by
  have hsolid : Text.Solid ('\'' :: (inner ++ ['\''])) := Text.solid_between rfl rfl inner
  have hnone : ∀ {first : Char} (rest : List Char), first ∈ ['|', '&', '!', '='] →
      cutTopLevel (first :: rest) {} ('\'' :: (inner ++ ['\''])) = none := by
    intro first rest hfirst
    refine cutTopLevel_eq_none (hflat.nested.moves rest 0 (fun _ c hc => ?_) [])
    rintro rfl
    exact hc hfirst
  have hparts : ∀ k : Connective, parts? k.sign ('\'' :: (inner ++ ['\''])) = none := fun k =>
    parts?_eq_none_of_cut (hnone [k.mark] (by cases k <;> decide))
  have hneg : negations false ('\'' :: (inner ++ ['\'']))
      = (false, '\'' :: (inner ++ ['\''])) := negations_of_head hsolid (by simp) false
  have hcore : core ('\'' :: (inner ++ ['\''])) = '\'' :: (inner ++ ['\'']) := by
    rw [core, hneg, Text.trimChars_of_solid hsolid]
  have hoperand : operand ('\'' :: (inner ++ ['\'']))
      = .ok (.literal (.string (String.ofList inner))) := by
    rw [operand, Text.trimChars_of_solid hsolid, if_neg hsolid.ne_nil,
      quotedText?_eq_some_iff.mpr rfl]
  rw [read_of_core hparts, hcore, if_neg hsolid.ne_nil, readCore, hcore,
    group?_eq_none (by decide), hneg]
  dsimp only
  rw [simple, cutTopLevel_includesMark hflat]
  dsimp only
  rw [hnone ['='] (by decide), hnone ['='] (by decide)]
  dsimp only
  rw [hoperand]
  rfl

/-- A text with a quote in it is true. -/
lemma isTruthy_of_quote {s : String} (h : '\'' ∈ s.toList) : Json.isTruthy (.string s) = true := by
  have hfalse : Text.equalIgnoringCase (Text.trim s) "false" = false := by
    rw [Text.equalIgnoringCase, decide_eq_false_iff_not, Text.trim, String.toList_ofList]
    intro heq
    have hmem : '\'' ∈ (Text.trimChars s.toList).map Char.toLower :=
      List.mem_map.mpr ⟨'\'', Text.mem_trimChars rfl h, rfl⟩
    rw [heq] at hmem
    revert hmem
    decide
  have hliteral : Vocabulary.boolLiteral? s ≠ some false := by
    simp only [Vocabulary.boolLiteral?, hfalse, Bool.false_eq_true, if_false]
    split_ifs <;> simp
  have hne : s ≠ "" := by
    rintro rfl
    cases h
  simp [Json.isTruthy, hne, hliteral]

/-- Two texts in single quotes, with a sign between them. -/
def juxtaposed (c : Char) (left right : List Char) : List Char :=
  '\'' :: (left ++ ['\'', ' ', c, ' ', '\''] ++ right ++ ['\''])

/-- **In parentheses, two texts with an operator between them are one text**, which is true. -/
lemma standard_enclosed_texts {c : Char} (hc : c = '<' ∨ c = '>') {left right : List Char}
    (hleft : ∀ d ∈ left, d ≠ '\'' ∧ d ≠ '(' ∧ d ≠ ')')
    (hright : ∀ d ∈ right, d ≠ '\'' ∧ d ≠ '(' ∧ d ≠ ')') (scope : Scope) :
    Evaluator.standard (String.ofList (enclosed (juxtaposed c left right))) scope = .ok true := by
  have hsign : IsPlain c ∧ c ∉ ['|', '&', '!', '='] := by rcases hc with rfl | rfl <;> decide
  have hflat : Flat (fun d => d ∉ ['|', '&', '!', '=']) (juxtaposed c left right) := by
    have hquoted : ∀ {cs more : List Char}, (∀ d ∈ cs, d ≠ '\'' ∧ d ≠ '(' ∧ d ≠ ')') →
        Flat (fun d => d ∉ ['|', '&', '!', '=']) more →
        Flat (fun d => d ∉ ['|', '&', '!', '=']) ('\'' :: (cs ++ '\'' :: more)) :=
      fun hcs hmore => .quoted (.inl rfl) (fun hmem => (hcs _ hmem).1 rfl) hmore
    have hbetween := hquoted hleft (.plain (by decide : IsPlain ' ') (by decide)
      (.plain hsign.1 hsign.2 (.plain (by decide : IsPlain ' ') (by decide) (hquoted hright .nil))))
    simpa [juxtaposed] using hbetween
  have heven : closesAll 0 (juxtaposed c left right) = true := by
    refine (Even.of_forall fun d hd => ?_).closesAll_eq
    simp only [juxtaposed, List.mem_cons, List.mem_append, List.not_mem_nil, or_false] at hd
    have hne : c ≠ '(' ∧ c ≠ ')' := hsign.1.2.2
    rcases hd with rfl | (((hd | rfl | rfl | rfl | rfl | rfl) | hd) | rfl)
    · decide
    · exact (hleft d hd).2
    · decide
    · decide
    · exact hne
    · decide
    · decide
    · exact (hright d hd).2
    · decide
  have hnested : Nested (fun _ => True) (juxtaposed c left right) :=
    hflat.nested.mono fun _ _ => trivial
  have hwhole : Nested (fun _ => True) (enclosed (juxtaposed c left right)) :=
    nested_enclosed hnested
  have hsolid := solid_enclosed (juxtaposed c left right)
  have hnone := cutTopLevel_operators fun first rest _ =>
    cutTopLevel_eq_none (moves_enclosed hnested first rest [])
  have hread := @ofText_eq_read (String.ofList (enclosed (juxtaposed c left right)))
  rw [String.toList_ofList] at hread
  have hparts : ∀ k : Connective, parts? k.sign (enclosed (juxtaposed c left right)) = none :=
    fun k => parts?_eq_none_of_cut (cutTopLevel_eq_none (moves_enclosed hnested k.mark [k.mark] []))
  have htrimmed : Text.trimChars (juxtaposed c left right) = juxtaposed c left right :=
    Text.trimChars_of_solid (Text.solid_between rfl rfl _)
  rw [Evaluator.standard, hread hsolid hwhole hnone,
    read_enclosed hnested hparts (negations_of_head hsolid (by simp [enclosed]) false),
    if_pos heven, htrimmed, juxtaposed, read_quoted hflat]
  have htruthy : Json.isTruthy
      (.string (String.ofList (left ++ ['\'', ' ', c, ' ', '\''] ++ right))) = true :=
    isTruthy_of_quote (by simp)
  exact congrArg Except.ok htruthy

/-- **Where unsupported operators are errors.**

* At the top level they are, in every text.
* Outside of quotes anywhere they are, too, unless the operator stands in an operand of the text in
  which it is veiled.
* Veiled operands are read, as one text or one value, and no other operands with such an operator
  outside of quotes.
* So two texts in parentheses with such an operator between them are true, whatever they are. -/
theorem standard_unsupported (hop : operator ∈ unsupported) (text : String) (scope : Scope) :
    (AtTop operator text.toList → ∃ e, Evaluator.standard text scope = .error e)
      ∧ (Outside operator text.toList → (∃ e, Evaluator.standard text scope = .error e)
        ∨ ∃ part, IsOperand (Text.trimChars text.toList) part ∧ Outside operator part
          ∧ Veiled part)
      ∧ (∀ part, Text.trimChars part = part → Outside operator part →
        ((∃ read, operand part = .ok read) ↔ Veiled part))
      ∧ ∀ (c : Char) (left right : List Char), operator = [c] →
        (∀ d ∈ left ++ right, d ≠ '\'' ∧ d ≠ '(' ∧ d ≠ ')') →
        Evaluator.standard (String.ofList (enclosed (juxtaposed c left right))) scope
          = .ok true := by
  refine ⟨fun h => (failed_of_atTop hop h).bind _, fun h => ?_,
    fun part htrimmed h => operand_ok_iff hop htrimmed h, ?_⟩
  · exact (failed_or_veiled hop (h.trimmed hop)).imp_left fun hfailed =>
      standard_of_failed hfailed scope
  · rintro c left right rfl htexts
    have hc : c = '<' ∨ c = '>' := by simpa [unsupported] using hop
    exact standard_enclosed_texts hc (fun d hd => htexts d (List.mem_append_left right hd))
      (fun d hd => htexts d (List.mem_append_right left hd)) scope

/-- Two letters are not compared with `<`, but in parentheses they are taken for one text. -/
theorem standard_unsupported_letters :
    let letters := juxtaposed '<' ['a'] ['b']
    let scope : Scope := { tree := {} }
    AtTop ['<'] "'a' < 'b'".toList ∧ (∃ e, Evaluator.standard "'a' < 'b'" scope = .error e)
      ∧ Outside ['<'] "('a' < 'b')".toList
      ∧ (∃ part, IsOperand (Text.trimChars "('a' < 'b')".toList) part ∧ Outside ['<'] part
        ∧ Veiled part)
      ∧ Outside ['<'] letters ∧ Veiled letters ∧ (∃ read, operand letters = .ok read)
      ∧ Evaluator.standard "('a' < 'b')" scope = .ok true := by
  intro letters scope
  have htop : AtTop ['<'] "'a' < 'b'".toList := ⟨"'a' ".toList, " 'b'".toList, rfl, rfl⟩
  have houtside : Outside ['<'] "('a' < 'b')".toList := ⟨"('a' ".toList, " 'b')".toList, rfl, rfl⟩
  have hletters : Outside ['<'] letters := ⟨"'a' ".toList, " 'b'".toList, rfl, rfl⟩
  have hveiled : Veiled letters := .quoted (by decide)
  have hop : ['<'] ∈ unsupported := by decide
  obtain ⟨htopLevel, -⟩ := standard_unsupported hop "'a' < 'b'" scope
  obtain ⟨-, hbelow, hoperand, hjuxtaposed⟩ :=
    standard_unsupported hop "('a' < 'b')" scope
  have htrue : Evaluator.standard "('a' < 'b')" scope = .ok true :=
    hjuxtaposed '<' ['a'] ['b'] rfl (Text.forall_of_all (by decide))
  refine ⟨htop, htopLevel htop, houtside, (hbelow houtside).resolve_left ?_, hletters, hveiled,
    (hoperand letters (by decide) hletters).mpr hveiled, htrue⟩
  rintro ⟨e, herror⟩
  rw [htrue] at herror
  cases herror

end Componentry.Condition
