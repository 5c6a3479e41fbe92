import Mathlib.Tactic
import Componentry.Condition.Reader
import Componentry.Proofs.Text
/-!
# How the scanners pass over a text

The reader of conditions has no tokens.  It scans the text again for every operator, and all it
knows about a character is whether it stands in quotes and how many parentheses are open.

`Nested ok cs` says that a text is put together from plain characters, quoted texts and groups in
parentheses, and that its plain characters outside of groups satisfy `ok`; a `Flat` text has no
groups.  A scan passes over such a text and is where it was before: `Nested.isBalanced_eq` for the
check that everything is matched, and `Nested.moves` for the search of an operator that cannot begin
with an `ok` character.  `Moves op p q cs tail` is what the search does on the way through `cs`, and
such ways may be put together (`Moves.trans`).  The mark of a test for an item begins with a period,
which numbers and paths have as well; `Flat.moves_includesMark` deals with that.
-/

namespace Componentry.Condition

/-- Neither a quote nor a parenthesis. -/
def IsPlain (c : Char) : Prop := c ≠ '\'' ∧ c ≠ '"' ∧ c ≠ '(' ∧ c ≠ ')'

instance : DecidablePred IsPlain := fun c =>
  inferInstanceAs (Decidable (c ≠ '\'' ∧ c ≠ '"' ∧ c ≠ '(' ∧ c ≠ ')'))

/-- A quote of either kind. -/
def IsQuote (c : Char) : Prop := c = '\'' ∨ c = '"'

/-- A text of plain characters and quoted texts. -/
inductive Flat (ok : Char → Prop) : List Char → Prop
  | nil : Flat ok []
  | plain {c : Char} {cs : List Char} (hc : IsPlain c) (hok : ok c) (h : Flat ok cs) :
      Flat ok (c :: cs)
  | quoted {quote : Char} {inner cs : List Char} (hquote : IsQuote quote) (hinner : quote ∉ inner)
      (h : Flat ok cs) : Flat ok (quote :: (inner ++ quote :: cs))

/-- A text of plain characters, quoted texts and groups. -/
inductive Nested : (Char → Prop) → List Char → Prop
  | nil {ok : Char → Prop} : Nested ok []
  | plain {ok : Char → Prop} {c : Char} {cs : List Char} (hc : IsPlain c) (hok : ok c)
      (h : Nested ok cs) : Nested ok (c :: cs)
  | quoted {ok : Char → Prop} {quote : Char} {inner cs : List Char} (hquote : IsQuote quote)
      (hinner : quote ∉ inner) (h : Nested ok cs) : Nested ok (quote :: (inner ++ quote :: cs))
  | group {ok : Char → Prop} {inner cs : List Char} (hinner : Nested (fun _ => True) inner)
      (h : Nested ok cs) : Nested ok ('(' :: (inner ++ ')' :: cs))

section Texts

variable {ok ok' : Char → Prop} {cs more : List Char}

lemma Flat.append (h : Flat ok cs) (h' : Flat ok more) : Flat ok (cs ++ more) := by
  induction h with
  | nil => exact h'
  | plain hc hok _ ih => exact .plain hc hok ih
  | quoted hquote hinner _ ih =>
      rw [List.cons_append, List.append_assoc, List.cons_append]
      exact .quoted hquote hinner ih

lemma Flat.nested (h : Flat ok cs) : Nested ok cs := by
  induction h with
  | nil => exact .nil
  | plain hc hok _ ih => exact .plain hc hok ih
  | quoted hquote hinner _ ih => exact .quoted hquote hinner ih

lemma Flat.mono (h : Flat ok cs) (himp : ∀ c, ok c → ok' c) : Flat ok' cs := by
  induction h with
  | nil => exact .nil
  | plain hc hok _ ih => exact .plain hc (himp _ hok) ih
  | quoted hquote hinner _ ih => exact .quoted hquote hinner ih

lemma flat_of_forall (h : ∀ c ∈ cs, IsPlain c ∧ ok c) : Flat ok cs := by
  induction cs with
  | nil => exact .nil
  | cons c cs ih =>
      have hc := h c List.mem_cons_self
      exact .plain hc.1 hc.2 (ih fun c' hc' => h c' (List.mem_cons_of_mem c hc'))

lemma flat_of_all [DecidablePred ok] (h : cs.all (fun c => decide (IsPlain c ∧ ok c)) = true) :
    Flat ok cs :=
  flat_of_forall (Text.forall_of_all h)

lemma Nested.append (h : Nested ok cs) (h' : Nested ok more) : Nested ok (cs ++ more) := by
  induction h with
  | nil => exact h'
  | plain hc hok _ ih => exact .plain hc hok (ih h')
  | quoted hquote hinner _ ih =>
      rw [List.cons_append, List.append_assoc, List.cons_append]
      exact .quoted hquote hinner (ih h')
  | group hinner _ _ ih =>
      rw [List.cons_append, List.append_assoc, List.cons_append]
      exact .group hinner (ih h')

lemma Nested.mono (h : Nested ok cs) (himp : ∀ c, ok c → ok' c) : Nested ok' cs := by
  induction h with
  | nil => exact .nil
  | plain hc hok _ ih => exact .plain hc (himp _ hok) (ih himp)
  | quoted hquote hinner _ ih => exact .quoted hquote hinner (ih himp)
  | group hinner _ _ ih => exact .group hinner (ih himp)

end Texts

/-! ### Marks -/

namespace Position

/-- The position outside of quotes at a depth. -/
def at_ (depth : Nat) : Position := { depth }

/-- The position inside of quotes at a depth. -/
def inside (quote : Char) (depth : Nat) : Position :=
  { singleQuoted := quote = '\'', doubleQuoted := quote = '"', depth }

variable {c quote : Char}

lemma mark?_plain (h : IsPlain c) (p : Position) : p.mark? c = none := by
  obtain ⟨h1, h2, h3, h4⟩ := h
  simp [mark?, h1, h2, h3, h4]

lemma mark?_quote (h : IsQuote quote) (depth : Nat) :
    (at_ depth).mark? quote = some (inside quote depth) := by
  rcases h with rfl | rfl <;> rfl

lemma mark?_inside (h : IsQuote quote) (hne : c ≠ quote) (depth : Nat) :
    (inside quote depth).mark? c = none := by
  rcases h with rfl | rfl <;> simp [mark?, inside, quoted, hne]

lemma mark?_unquote (h : IsQuote quote) (depth : Nat) :
    (inside quote depth).mark? quote = some (at_ depth) := by
  rcases h with rfl | rfl <;> rfl

lemma mark?_open (depth : Nat) : (at_ depth).mark? '(' = some (at_ (depth + 1)) := rfl

lemma mark?_close (depth : Nat) : (at_ (depth + 1)).mark? ')' = some (at_ depth) := rfl

lemma isTop_at (depth : Nat) : (at_ depth).isTop = (depth == 0) := by
  simp [isTop, quoted, at_]

lemma isTop_inside (h : IsQuote quote) (depth : Nat) : (inside quote depth).isTop = false := by
  rcases h with rfl | rfl <;> simp [isTop, quoted, inside]

lemma quoted_inside (h : IsQuote quote) (depth : Nat) : (inside quote depth).quoted = true := by
  rcases h with rfl | rfl <;> simp [quoted, inside]

end Position

open Position

/-! ### Matched quotes and parentheses -/

lemma isBalanced_inside {quote : Char} (hquote : IsQuote quote) {inner : List Char}
    (hinner : quote ∉ inner) (depth : Nat) (tail : List Char) :
    isBalanced (inside quote depth) (inner ++ quote :: tail) = isBalanced (at_ depth) tail := by
  induction inner with
  | nil =>
      rw [List.nil_append, isBalanced, if_neg (by simp [quoted_inside hquote]),
        mark?_unquote hquote, Option.getD_some]
  | cons c inner ih =>
      have hc : c ≠ quote := fun e => hinner (e ▸ List.mem_cons_self)
      rw [List.cons_append, isBalanced, if_neg (by simp [quoted_inside hquote]),
        mark?_inside hquote hc, Option.getD_none]
      exact ih fun hmem => hinner (List.mem_cons_of_mem c hmem)

lemma isBalanced_quote {quote : Char} (hquote : IsQuote quote) (depth : Nat) (rest : List Char) :
    isBalanced (at_ depth) (quote :: rest) = isBalanced (inside quote depth) rest := by
  have hne : quote ≠ ')' := by rcases hquote with rfl | rfl <;> decide
  rw [isBalanced, if_neg (by simp [hne]), mark?_quote hquote, Option.getD_some]

/-- **The check of a whole text passes over a nested text.** -/
theorem Nested.isBalanced_eq {ok : Char → Prop} {cs : List Char} (h : Nested ok cs) (depth : Nat)
    (tail : List Char) : isBalanced (at_ depth) (cs ++ tail) = isBalanced (at_ depth) tail := by
  induction h generalizing depth tail with
  | nil => rfl
  | @plain ok c cs hc _ _ ih =>
      rw [List.cons_append, isBalanced, if_neg (by simp [hc.2.2.2]), mark?_plain hc,
        Option.getD_none, ih]
  | @quoted ok quote inner cs hquote hinner _ ih =>
      rw [List.cons_append, List.append_assoc, List.cons_append, isBalanced_quote hquote,
        isBalanced_inside hquote hinner, ih]
  | @group ok inner cs _ _ ihinner ih =>
      rw [List.cons_append, List.append_assoc, List.cons_append, isBalanced, if_neg (by simp),
        mark?_open, Option.getD_some, ihinner, isBalanced, if_neg (by simp [at_]), mark?_close,
        Option.getD_some, ih]

lemma Nested.isBalanced {ok : Char → Prop} {cs : List Char} (h : Nested ok cs) :
    isBalanced {} cs = true := by
  have hall := h.isBalanced_eq 0 []
  rw [List.append_nil] at hall
  exact hall

/-! ### The search for an operator -/

/-- On its way through a text the search for an operator finds nothing and comes from one position
to another. -/
def Moves (operator : List Char) (p q : Position) (cs tail : List Char) : Prop :=
  cutTopLevel operator p (cs ++ tail)
    = (cutTopLevel operator q tail).map fun parts => (cs ++ parts.1, parts.2)

namespace Moves

variable {operator cs more tail : List Char} {p q r : Position} {c : Char}

lemma nil : Moves operator p p [] tail := by
  simp [Moves]

/-- Ways through a text may be put together. -/
lemma trans (h : Moves operator p q cs (more ++ tail)) (h' : Moves operator q r more tail) :
    Moves operator p r (cs ++ more) tail := by
  rw [Moves] at h h' ⊢
  rw [List.append_assoc, h, h', Option.map_map]
  congr 1
  funext parts
  simp

lemma marked (h : p.mark? c = some q) : Moves operator p q [c] tail := by
  rw [Moves, List.singleton_append, cutTopLevel, h]
  rfl

lemma hidden (h : p.mark? c = none) (htop : p.isTop = false) : Moves operator p p [c] tail := by
  rw [Moves, List.singleton_append, cutTopLevel, h]
  simp [htop]

lemma skipped (h : p.mark? c = none) (hop : Text.stripPrefix operator (c :: tail) = none) :
    Moves operator p p [c] tail := by
  rw [Moves, List.singleton_append, cutTopLevel, h]
  simp [hop]

lemma inside {quote : Char} (hquote : IsQuote quote) {inner : List Char} (hinner : quote ∉ inner)
    (depth : Nat) : Moves operator (inside quote depth) (inside quote depth) inner tail := by
  induction inner with
  | nil => exact nil
  | cons c inner ih =>
      have hc : c ≠ quote := fun e => hinner (e ▸ List.mem_cons_self)
      rw [← List.singleton_append]
      exact (hidden (mark?_inside hquote hc depth) (isTop_inside hquote depth)).trans
        (ih fun hmem => hinner (List.mem_cons_of_mem c hmem))

lemma quotes {quote : Char} (hquote : IsQuote quote) {inner : List Char} (hinner : quote ∉ inner)
    (depth : Nat) : Moves operator (at_ depth) (at_ depth) (quote :: (inner ++ [quote])) tail := by
  rw [← List.singleton_append]
  exact (marked (mark?_quote hquote depth)).trans
    ((inside hquote hinner depth).trans (marked (mark?_unquote hquote depth)))

end Moves

/-- **The search for an operator passes over a nested text** whose plain characters do not begin the
operator.  Inside of parentheses any characters may stand. -/
theorem Nested.moves {ok : Char → Prop} {cs : List Char} (h : Nested ok cs) {first : Char}
    (operator : List Char) (depth : Nat) (hok : depth = 0 → ∀ c, ok c → first ≠ c)
    (tail : List Char) : Moves (first :: operator) (at_ depth) (at_ depth) cs tail := by
  induction h generalizing depth tail with
  | nil => exact .nil
  | @plain ok c cs hc hokc _ ih =>
      show Moves (first :: operator) _ _ ([c] ++ cs) tail
      refine Moves.trans ?_ (ih depth hok tail)
      by_cases hd : depth = 0
      · exact .skipped (mark?_plain hc _) (Text.stripPrefix_of_head_ne (hok hd c hokc) _ _)
      · exact .hidden (mark?_plain hc _) (by rw [isTop_at]; simpa using hd)
  | @quoted ok quote inner cs hquote hinner _ ih =>
      have hsplit : quote :: (inner ++ quote :: cs) = (quote :: (inner ++ [quote])) ++ cs := by simp
      rw [hsplit]
      exact (Moves.quotes hquote hinner depth).trans (ih depth hok tail)
  | @group ok inner cs _ _ ihinner ih =>
      have hsplit : '(' :: (inner ++ ')' :: cs) = ['('] ++ (inner ++ ([')'] ++ cs)) := by simp
      rw [hsplit]
      refine (Moves.marked (mark?_open depth)).trans ?_
      refine (ihinner (depth + 1) (fun hd => absurd hd (Nat.succ_ne_zero depth)) _).trans ?_
      exact (Moves.marked (mark?_close depth)).trans (ih depth hok tail)

/-- What a search finds when it comes to an operator. -/
lemma cutTopLevel_of_moves {first : Char} {operator cs tail : List Char} (hfirst : IsPlain first)
    (h : Moves (first :: operator) (at_ 0) (at_ 0) cs (first :: operator ++ tail)) :
    cutTopLevel (first :: operator) {} (cs ++ (first :: operator ++ tail)) = some (cs, tail) := by
  have hfound : cutTopLevel (first :: operator) (at_ 0) (first :: operator ++ tail)
      = some ([], tail) := by
    rw [List.cons_append, cutTopLevel, mark?_plain hfirst]
    dsimp only
    rw [if_pos (by rfl), ← List.cons_append, Text.stripPrefix_append]
  have h0 : ({} : Position) = at_ 0 := rfl
  rw [h0, h, hfound]
  simp

/-- What a search finds when it comes to the end. -/
lemma cutTopLevel_eq_none {operator cs : List Char} (h : Moves operator (at_ 0) (at_ 0) cs []) :
    cutTopLevel operator {} cs = none := by
  have h0 : ({} : Position) = at_ 0 := rfl
  have hcs : cutTopLevel operator (at_ 0) (cs ++ []) = none := by
    rw [h, cutTopLevel]
    rfl
  rwa [List.append_nil, ← h0] at hcs

/-! ### The mark of a test for an item -/

/-- What neither goes on with a letter nor with a parenthesis. -/
def Stops (tail : List Char) : Prop :=
  ∀ c, tail.head? = some c → c ≠ '(' ∧ c.isAlpha = false

lemma stripPrefix_of_stops {tail : List Char} (htail : Stops tail) {first : Char}
    (hfirst : first = '(' ∨ first.isAlpha = true) (pattern : List Char) :
    Text.stripPrefix (first :: pattern) tail = none := by
  cases tail with
  | nil => rfl
  | cons c tail =>
      obtain ⟨hopen, halpha⟩ := htail c rfl
      apply Text.stripPrefix_of_head_ne
      rintro rfl
      rcases hfirst with h | h
      · exact hopen h
      · rw [halpha] at h
        cases h

/-- A flat text has no parenthesis, so that letters in front of one are not found in it. -/
lemma Flat.stripPrefix_letters {ok : Char → Prop} {cs tail : List Char} (h : Flat ok cs)
    (htail : Stops tail) {letters : List Char}
    (hletters : ∀ c ∈ letters, IsPlain c ∧ c.isAlpha = true) :
    Text.stripPrefix (letters ++ ['(']) (cs ++ tail) = none := by
  induction letters generalizing cs with
  | nil =>
      cases h with
      | nil => exact stripPrefix_of_stops htail (.inl rfl) []
      | plain hc _ _ => exact Text.stripPrefix_of_head_ne hc.2.2.1.symm _ _
      | @quoted quote inner cs hquote _ _ =>
          have hne : '(' ≠ quote := by rcases hquote with rfl | rfl <;> decide
          exact Text.stripPrefix_of_head_ne hne _ _
  | cons letter letters ih =>
      have hletter := hletters letter List.mem_cons_self
      cases h with
      | nil => exact stripPrefix_of_stops htail (.inr hletter.2) _
      | @plain c cs _ _ h =>
          rw [List.cons_append, List.cons_append, Text.stripPrefix]
          split_ifs with he
          · exact ih h fun other hother => hletters other (List.mem_cons_of_mem letter hother)
          · rfl
      | @quoted quote inner cs hquote _ _ =>
          have hne : letter ≠ quote := by
            rcases hquote with rfl | rfl
            · exact hletter.1.1
            · exact hletter.1.2.1
          exact Text.stripPrefix_of_head_ne hne _ _

/-- The mark does not stand at the beginning of a flat text. -/
lemma Flat.stripPrefix_includesMark {ok : Char → Prop} {c : Char} {cs tail : List Char}
    (h : Flat ok (c :: cs)) (htail : Stops tail) :
    Text.stripPrefix includesMark (c :: cs ++ tail) = none := by
  have hmark : includesMark = '.' :: ("includes".toList ++ ['(']) := rfl
  rw [hmark]
  cases h with
  | plain _ _ h =>
      rw [List.cons_append, Text.stripPrefix]
      split_ifs
      · exact h.stripPrefix_letters htail (Text.forall_of_all (by decide))
      · rfl
  | quoted hquote _ _ =>
      have hne : '.' ≠ c := by rcases hquote with rfl | rfl <;> decide
      exact Text.stripPrefix_of_head_ne hne _ _

/-- **The search for the mark passes over a flat text** that does not go on with a letter or a
parenthesis. -/
theorem Flat.moves_includesMark {ok : Char → Prop} {cs tail : List Char} (h : Flat ok cs)
    (htail : Stops tail) : Moves includesMark (at_ 0) (at_ 0) cs tail := by
  induction h with
  | nil => exact .nil
  | @plain c cs hc hok h ih =>
      rw [← List.singleton_append]
      exact Moves.trans
        (.skipped (mark?_plain hc _) ((Flat.plain hc hok h).stripPrefix_includesMark htail)) ih
  | @quoted quote inner cs hquote hinner _ ih =>
      have hsplit : quote :: (inner ++ quote :: cs) = (quote :: (inner ++ [quote])) ++ cs := by simp
      rw [hsplit]
      exact (Moves.quotes hquote hinner 0).trans ih

/-! ### Parentheses regardless of quotes -/

/-- A text whose parentheses are matched, quotes or not. -/
def Even (cs : List Char) : Prop :=
  ∀ depth tail, closesAll depth (cs ++ tail) = closesAll depth tail

namespace Even

variable {cs more : List Char}

lemma append (h : Even cs) (h' : Even more) : Even (cs ++ more) := by
  intro depth tail
  rw [List.append_assoc, h, h']

lemma of_forall (h : ∀ c ∈ cs, c ≠ '(' ∧ c ≠ ')') : Even cs := by
  intro depth tail
  induction cs with
  | nil => rfl
  | cons c cs ih =>
      obtain ⟨hopen, hclose⟩ := h c List.mem_cons_self
      rw [List.cons_append, closesAll]
      · exact ih fun c' hc' => h c' (List.mem_cons_of_mem c hc')
      · exact hopen
      · exact hclose

lemma group (h : Even cs) : Even ('(' :: (cs ++ [')'])) := by
  intro depth tail
  rw [List.cons_append, List.append_assoc, closesAll, h]
  rfl

lemma closesAll_eq (h : Even cs) : closesAll 0 cs = true := by
  have h0 := h 0 []
  rwa [List.append_nil] at h0

end Even

/-- The inside of a pair of parentheses around a whole text. -/
lemma group?_of_even {cs : List Char} (h : Even cs) :
    group? ('(' :: (cs ++ [')'])) = some (Text.trimChars cs) := by
  have hopen : Text.stripPrefix ['('] ('(' :: (cs ++ [')'])) = some (cs ++ [')']) := rfl
  rw [group?, hopen, Option.bind_eq_bind, Option.bind_some, Text.stripSuffix_append,
    Option.bind_some, if_pos h.closesAll_eq]

/-- A text that starts with anything else is no group. -/
lemma group?_eq_none {c : Char} (h : c ≠ '(') (cs : List Char) : group? (c :: cs) = none := by
  rw [group?, Text.stripPrefix_of_head_ne h.symm]
  rfl

end Componentry.Condition
