import Mathlib.Tactic
import Componentry.Proofs.Text
import Componentry.Template
/-!
# What shortcodes are replaced by

A text that holds shortcodes is laid out in `Slot`s, each of them plain text and a shortcode behind
it, and a tail in which no shortcode is closed.  The scan finds this layout again (`pieces_before`,
`pieces_inside`).  What a shortcode yields is put in its place and is not looked at any more
(`render_slots`): whatever brackets are in it, it is data.

A text that is nothing but one shortcode (`Whole`) stands for the value itself.  Inside of other
values every text is replaced on its own (`Replaced`).  `expand_replaced` puts this together.

There are thus two ways to the end of a shortcode: the brackets at the end of the text, and the
first closing brackets behind the opening ones.  `render_whole` says where they differ: if the
argument ends with a bracket, the scan takes this bracket for one of the closing ones.
-/

namespace Componentry.Template

variable {catalog : Catalog} {scope : Scope}

/-! ### Shortcodes -/

/-- What the text between the brackets of a shortcode yields: no value if its type is unknown, and
otherwise what the shortcode of this type makes of the argument in the scope, if anything. -/
inductive Yields (catalog : Catalog) (scope : Scope) (inner : List Char) : Option Json → Prop
  | unknown {e : RegistryError}
      (h : catalog.resolveShortcode (Text.headAndTail (String.ofList inner)).1 = .error e) :
      Yields catalog scope inner none
  | known {shortcode : Shortcode}
      (h : catalog.resolveShortcode (Text.headAndTail (String.ofList inner)).1 = .ok shortcode) :
      Yields catalog scope inner (shortcode (Text.headAndTail (String.ofList inner)).2 scope)

/-- The text that stands in another text for what a shortcode yields.  Nothing and null have
none. -/
def written : Option Json → List Char
  | none | some .null => []
  | some (.string s) => s.toList
  | some v => v.compact.toList

/-- Every shortcode yields one thing. -/
lemma yields_iff {inner : List Char} {yielded : Option Json} :
    Yields catalog scope inner yielded ↔ yielded = evaluate? catalog scope inner := by
  rw [evaluate?]
  constructor
  · rintro (h | h) <;> dsimp only <;> rw [h]
  · rintro rfl
    dsimp only
    cases h : catalog.resolveShortcode (Text.headAndTail (String.ofList inner)).1 with
    | error e => exact .unknown h
    | ok shortcode => exact .known h

lemma render_shortcode (catalog : Catalog) (scope : Scope) (inner : List Char) :
    Piece.render catalog scope (.shortcode inner) = written (evaluate? catalog scope inner) := by
  rw [Piece.render]
  rcases evaluate? catalog scope inner with _ | v
  · rfl
  · cases v <;> rfl

/-! ### Brackets -/

/-- A text without a doubled bracket that does not end with the bracket either, so that a doubled
one behind it is found where it stands. -/
structure Clear (bracket : Char) (text : List Char) : Prop where
  free : ¬[bracket, bracket] <:+: text
  last : text.getLast? ≠ some bracket

namespace Clear

variable {bracket c : Char} {text : List Char}

lemma tail (h : Clear bracket (c :: text)) : Clear bracket text where
  free hdoubled := h.free (List.infix_cons hdoubled)
  last := by
    cases text with
    | nil => simp
    | cons d text =>
        have hlast := h.last
        rwa [List.getLast?_cons_cons] at hlast

/-- No doubled bracket begins in a clear text. -/
lemma not_doubled (h : Clear bracket (c :: text)) (behind more : List Char) (hc : c = bracket)
    (hmore : text ++ bracket :: bracket :: behind = bracket :: more) : False := by
  subst hc
  cases text with
  | nil => exact h.last rfl
  | cons d text =>
      obtain ⟨rfl, -⟩ := List.cons.inj hmore
      exact h.free ⟨[], text, rfl⟩

end Clear

/-! ### The layout of a text -/

/-- Plain text and the shortcode behind it. -/
structure Slot where
  before : List Char
  inner : List Char
  before_clear : Clear '[' before
  inner_clear : Clear ']' inner

/-- The text of a slot. -/
def Slot.text (slot : Slot) : List Char :=
  slot.before ++ '[' :: '[' :: (slot.inner ++ [']', ']'])

/-- A text in which no shortcode is closed: behind opening brackets there are no closing ones. -/
def Unclosed (text : List Char) : Prop :=
  ∀ before after, text = before ++ '[' :: '[' :: after → ¬[']', ']'] <:+: after

/-- There is no shortcode in a text without opening brackets. -/
lemma unclosed_of_free {text : List Char} (h : ¬['[', '['] <:+: text) : Unclosed text := by
  rintro before after rfl
  exact absurd ⟨before, after, by simp⟩ h

/-- Opening brackets that are never closed hold no shortcode, nor does what is behind them. -/
lemma unclosed_append {before rest : List Char} (hbefore : ¬['[', '['] <:+: before)
    (hrest : ¬[']', ']'] <:+: rest) : Unclosed (before ++ '[' :: '[' :: rest) := by
  have hopen : ∀ {cs : List Char}, [']', ']'] <:+: '[' :: cs → [']', ']'] <:+: cs := by
    intro cs h
    obtain ⟨more, hmore⟩ | h := List.infix_cons_iff.mp h
    · cases hmore
    · exact h
  rintro front after htext hclosing
  obtain ⟨between, rfl, hbetween⟩ | ⟨between, rfl, hbetween⟩ :=
    List.append_eq_append_iff.mp htext
  · -- What is found is behind the plain text.
    refine hrest (hopen (hopen ?_))
    rw [hbetween]
    exact hclosing.trans ⟨between ++ ['[', '['], [], by simp⟩
  · -- The first bracket that is found may be the last one of the plain text, but no earlier one.
    rcases between with _ | ⟨c, _ | ⟨d, between⟩⟩
    · obtain rfl : after = rest := by simpa [eq_comm] using hbetween
      exact hrest hclosing
    · obtain ⟨-, rfl⟩ : c = '[' ∧ after = '[' :: rest := by simpa [eq_comm] using hbetween
      exact hrest (hopen hclosing)
    · obtain ⟨rfl, rfl, -⟩ : '[' = c ∧ '[' = d ∧ _ := by simpa using hbetween
      exact hbefore ⟨front, between, by simp⟩

lemma Unclosed.tail {c : Char} {text : List Char} (h : Unclosed (c :: text)) : Unclosed text :=
  fun before after htext => h (c :: before) after (by rw [htext, List.cons_append])

/-! ### What the scan finds -/

/-- The scan passes over plain text, up to the opening brackets. -/
lemma pieces_before {before : List Char} (h : Clear '[' before) (rest : List Char) :
    pieces .outside (before ++ '[' :: '[' :: rest)
      = before.map (fun c => .verbatim [c]) ++ pieces (.inside []) rest := by
  induction before with
  | nil => rfl
  | cons c before ih =>
      rw [List.cons_append, pieces.eq_2 _ _ (h.not_doubled rest), ih h.tail]
      rfl

/-- Between the brackets everything is read, up to the closing ones. -/
lemma pieces_inside {inner : List Char} (h : Clear ']' inner) (read rest : List Char) :
    pieces (.inside read) (inner ++ ']' :: ']' :: rest)
      = .shortcode (read.reverse ++ inner) :: pieces .outside rest := by
  induction inner generalizing read with
  | nil =>
      rw [List.append_nil]
      rfl
  | cons c inner ih =>
      rw [List.cons_append, pieces.eq_5 _ _ _ (h.not_doubled rest), ih h.tail, List.reverse_cons,
        List.append_assoc, List.singleton_append]

/-- Without closing brackets the rest of the text is kept, with the opening ones. -/
lemma pieces_unclosed {text : List Char} (h : ¬[']', ']'] <:+: text) (read : List Char) :
    pieces (.inside read) text = [.verbatim ('[' :: '[' :: (read.reverse ++ text))] := by
  induction text generalizing read with
  | nil => rw [List.append_nil, pieces]
  | cons c text ih =>
      have hclose : ∀ more, c = ']' → text = ']' :: more → False := by
        rintro more rfl rfl
        exact h ⟨[], more, rfl⟩
      have hrest : ¬[']', ']'] <:+: text := fun hclosing => h (List.infix_cons hclosing)
      rw [pieces.eq_5 _ _ _ hclose, ih hrest, List.reverse_cons, List.append_assoc,
        List.singleton_append]

/-- **Where no shortcode is closed, the text stays as it is.** -/
lemma render_unclosed {text : List Char} (h : Unclosed text) :
    render catalog scope text = String.ofList text := by
  rw [render]
  induction text with
  | nil => rfl
  | cons c text ih =>
      by_cases hopen : ∃ rest, c = '[' ∧ text = '[' :: rest
      · obtain ⟨rest, rfl, rfl⟩ := hopen
        rw [pieces, pieces_unclosed (h [] rest rfl)]
        simp [Piece.render]
      · rw [pieces.eq_2 _ _ fun more hc hmore => hopen ⟨more, hc, hmore⟩, List.flatMap_cons,
          String.ofList_append, ih h.tail, Piece.render, ← String.ofList_append,
          List.singleton_append]

/-- **A slot is replaced by its plain text and by what its shortcode yields.** -/
lemma render_slot (slot : Slot) (rest : List Char) :
    render catalog scope (slot.text ++ rest)
      = String.ofList (slot.before ++ written (evaluate? catalog scope slot.inner))
          ++ render catalog scope rest := by
  have htext : slot.text ++ rest
      = slot.before ++ '[' :: '[' :: (slot.inner ++ ']' :: ']' :: rest) := by
    simp [Slot.text]
  have hplain : (slot.before.map fun c => Piece.verbatim [c]).flatMap
      (Piece.render catalog scope) = slot.before := by
    rw [List.flatMap_map]
    exact List.flatMap_singleton' slot.before
  rw [render, htext, pieces_before slot.before_clear, pieces_inside slot.inner_clear,
    List.flatMap_append, hplain, List.flatMap_cons, List.reverse_nil, List.nil_append,
    render_shortcode, ← List.append_assoc, String.ofList_append]
  rfl

/-- **All slots are replaced, and what is put in their places is not looked at any more.** -/
theorem render_slots (slots : List Slot) {tail : List Char} (h : Unclosed tail) :
    render catalog scope (slots.flatMap Slot.text ++ tail)
      = String.ofList (slots.flatMap (fun slot =>
          slot.before ++ written (evaluate? catalog scope slot.inner)) ++ tail) := by
  induction slots with
  | nil => exact render_unclosed h
  | cons slot slots ih =>
      rw [List.flatMap_cons, List.append_assoc, render_slot, ih, ← String.ofList_append,
        List.flatMap_cons, List.append_assoc _ _ tail]

/-! ### Whole shortcodes -/

/-- A text that, blanks around it aside, is one shortcode and nothing else. -/
structure Whole (text inner : List Char) : Prop where
  trimmed : Text.trimChars text = '[' :: '[' :: (inner ++ [']', ']'])
  opening : ¬['[', '['] <:+: inner
  closing : ¬[']', ']'] <:+: inner

lemma whole?_eq_some_iff {text inner : List Char} :
    whole? text = some inner ↔ Whole text inner := by
  have hfree : ∀ {cs : List Char},
      (Text.contains ['[', '['] cs || Text.contains [']', ']'] cs) = true
        ↔ ['[', '['] <:+: cs ∨ [']', ']'] <:+: cs := by
    intro cs
    rw [Bool.or_eq_true, Text.contains_iff, Text.contains_iff]
  constructor
  · intro h
    obtain ⟨opened, hopened, h⟩ := Option.bind_eq_some_iff.mp h
    obtain ⟨closed, hclosed, h⟩ := Option.bind_eq_some_iff.mp h
    split_ifs at h with hbrackets
    cases h
    rw [hfree, not_or] at hbrackets
    refine ⟨?_, hbrackets.1, hbrackets.2⟩
    rw [Text.stripPrefix_eq_some_iff.mp hopened, Text.stripSuffix_eq_some_iff.mp hclosed]
    rfl
  · rintro ⟨htrimmed, hopening, hclosing⟩
    have hopened : Text.stripPrefix ['[', '['] ('[' :: '[' :: (inner ++ [']', ']']))
        = some (inner ++ [']', ']']) := rfl
    rw [whole?, htrimmed, hopened, Option.bind_eq_bind, Option.bind_some, Text.stripSuffix_append,
      Option.bind_some, if_neg (hfree.not.mpr (not_or.mpr ⟨hopening, hclosing⟩))]

lemma expandText_whole {text : String} {inner : List Char} (h : Whole text.toList inner) :
    expandText catalog scope text = (evaluate? catalog scope inner).getD (.string "") := by
  rw [expandText, whole?_eq_some_iff.mpr h]

lemma expandText_of_not_whole {text : String} (h : ∀ inner, ¬Whole text.toList inner) :
    expandText catalog scope text = .string (render catalog scope text.toList) := by
  have hnone : whole? text.toList = none :=
    Option.eq_none_iff_forall_not_mem.mpr fun inner hinner => h inner (whole?_eq_some_iff.mp hinner)
  rw [expandText, hnone]

/-! ### Values -/

/-- A value, and the same value with its texts replaced.  Everything else is in its place. -/
inductive Replaced (f : String → Json) : Json → Json → Prop
  | text (s : String) : Replaced f (.string s) (f s)
  | null : Replaced f .null .null
  | bool (b : Bool) : Replaced f (.bool b) (.bool b)
  | number (n : Number) : Replaced f (.number n) (.number n)
  | array {items items' : List Json} (h : List.Forall₂ (Replaced f) items items') :
      Replaced f (.array items) (.array items')
  | object {members members' : List (String × Json)}
      (keys : members'.map Prod.fst = members.map Prod.fst)
      (values : List.Forall₂ (Replaced f) (members.map Prod.snd) (members'.map Prod.snd)) :
      Replaced f (.object members) (.object members')

lemma keys_expandMembers (catalog : Catalog) (scope : Scope) (members : List (String × Json)) :
    (expandMembers catalog scope members).map Prod.fst = members.map Prod.fst := by
  induction members with
  | nil => rfl
  | cons member members ih => exact congrArg (member.1 :: ·) ih

mutual

/-- Every text inside a value is replaced. -/
lemma replaced_expand (catalog : Catalog) (scope : Scope) :
    ∀ v : Json, Replaced (expandText catalog scope) v (expand catalog scope v)
  | .null => .null
  | .bool b => .bool b
  | .number n => .number n
  | .string s => .text s
  | .array items => .array (replaced_expandItems catalog scope items)
  | .object members => .object (keys_expandMembers catalog scope members)
      (replaced_expandMembers catalog scope members)

lemma replaced_expandItems (catalog : Catalog) (scope : Scope) : ∀ items : List Json,
    List.Forall₂ (Replaced (expandText catalog scope)) items (expandItems catalog scope items)
  | [] => .nil
  | v :: items => .cons (replaced_expand catalog scope v) (replaced_expandItems catalog scope items)

lemma replaced_expandMembers (catalog : Catalog) (scope : Scope) :
    ∀ members : List (String × Json), List.Forall₂ (Replaced (expandText catalog scope))
      (members.map Prod.snd) ((expandMembers catalog scope members).map Prod.snd)
  | [] => .nil
  | (_, v) :: members =>
    .cons (replaced_expand catalog scope v) (replaced_expandMembers catalog scope members)

end

/-- **Every shortcode is replaced once, and what it yields is not looked at again.**

* In a text that is laid out in slots and a tail, each shortcode is replaced by the text of what it
  yields, whatever that is, and all the rest stays as it is.
* A text that is a whole shortcode becomes what this yields, or the empty text.
* Inside of a value every text is replaced on its own, and nothing else is different. -/
theorem expand_replaced (catalog : Catalog) (scope : Scope) :
    (∀ (slots : List Slot) (tail : List Char) (text : String), Unclosed tail →
        text.toList = slots.flatMap Slot.text ++ tail → (∀ inner, ¬Whole text.toList inner) →
        ∃ yielded : Slot → Option Json,
          (∀ slot ∈ slots, Yields catalog scope slot.inner (yielded slot))
            ∧ expandText catalog scope text = .string (String.ofList
              (slots.flatMap (fun slot => slot.before ++ written (yielded slot)) ++ tail)))
      ∧ (∀ (text : String) (inner : List Char), Whole text.toList inner →
        ∃ yielded, Yields catalog scope inner yielded
          ∧ expandText catalog scope text = yielded.getD (.string ""))
      ∧ ∀ v, Replaced (expandText catalog scope) v (expand catalog scope v) := by
  refine ⟨fun slots tail text htail htext hwhole => ?_, fun text inner h => ?_,
    replaced_expand catalog scope⟩
  · refine ⟨fun slot => evaluate? catalog scope slot.inner, fun _ _ => yields_iff.mpr rfl, ?_⟩
    rw [expandText_of_not_whole hwhole, htext, render_slots slots htail]
  · exact ⟨_, yields_iff.mpr rfl, expandText_whole h⟩

/-- An application with a name that looks like a shortcode. -/
def shop : Scope where
  tree := { app := [("name", .string "[[app:count]]"), ("count", .number (.int 3))] }

/-- The catalog of the built-in components. -/
def shopCatalog : Catalog := (Catalog.withBuiltins {}).toOption.getD ⟨.empty .overwrite⟩

/-- A name with brackets in it is data, an unknown type leaves nothing, and what is not closed is
kept.  Between blanks a shortcode stands for its value, which stays a number. -/
theorem expand_replaced_shop :
    let name : Slot :=
      ⟨"a ".toList, "app:name".toList, ⟨by decide, by decide⟩, ⟨by decide, by decide⟩⟩
    let day : Slot :=
      ⟨" b".toList, "weather:day".toList, ⟨by decide, by decide⟩, ⟨by decide, by decide⟩⟩
    let tail := " ]] [[app:count]".toList
    let text := "a [[app:name]] b[[weather:day]] ]] [[app:count]"
    (Unclosed tail ∧ text.toList = [name, day].flatMap Slot.text ++ tail
        ∧ (∀ inner, ¬Whole text.toList inner)
        ∧ (∃ yielded : Slot → Option Json,
          (∀ slot ∈ [name, day], Yields shopCatalog shop slot.inner (yielded slot))
            ∧ expandText shopCatalog shop text = .string (String.ofList
              ([name, day].flatMap (fun slot => slot.before ++ written (yielded slot)) ++ tail)))
        ∧ expandText shopCatalog shop text = .string "a [[app:count]] b ]] [[app:count]")
      ∧ Whole " [[app:count]] ".toList "app:count".toList
        ∧ (∃ yielded, Yields shopCatalog shop "app:count".toList yielded
          ∧ expandText shopCatalog shop " [[app:count]] " = yielded.getD (.string ""))
        ∧ expandText shopCatalog shop " [[app:count]] " = .number (.int 3) := by
  intro name day tail text
  obtain ⟨hembedded, hwhole, -⟩ := expand_replaced shopCatalog shop
  have htail : Unclosed tail :=
    @unclosed_append " ]] ".toList "app:count]".toList (by decide) (by decide)
  have htext : text.toList = [name, day].flatMap Slot.text ++ tail := by decide
  have hnone : ∀ inner, ¬Whole text.toList inner := by
    intro inner h
    have hsome := whole?_eq_some_iff.mpr h
    have hn : whole? text.toList = none := by decide +kernel
    rw [hn] at hsome
    cases hsome
  have hcount : Whole " [[app:count]] ".toList "app:count".toList :=
    whole?_eq_some_iff.mp (by decide +kernel)
  exact ⟨⟨htail, htext, hnone, hembedded _ _ _ htail htext hnone, by decide +kernel⟩, hcount,
    hwhole _ _ hcount, by decide +kernel⟩

/-! ### The two ways to the end of a shortcode -/

lemma unclosed_nil : Unclosed [] := unclosed_of_free (by decide)

/-- The argument of a whole shortcode does not end with two brackets. -/
lemma Whole.front_clear {text front : List Char} (h : Whole text (front ++ [']'])) :
    Clear ']' front where
  free hdoubled := h.closing (hdoubled.trans (List.prefix_append front [']']).isInfix)
  last hlast := by
    obtain ⟨rest, rfl⟩ := List.getLast?_eq_some_iff.mp hlast
    exact h.closing ⟨rest, [], by simp⟩

/-- The scan of a text that begins with a shortcode. -/
lemma render_first {inner : List Char} (h : Clear ']' inner) {tail : List Char}
    (htail : Unclosed tail) :
    render catalog scope ('[' :: '[' :: (inner ++ [']', ']']) ++ tail)
      = String.ofList (written (evaluate? catalog scope inner) ++ tail) := by
  have hslot := @render_slots catalog scope [⟨[], inner, ⟨by decide, by decide⟩, h⟩] tail htail
  simpa [Slot.text] using hslot

/-- **A whole shortcode is replaced by the scan as it is by its value**, unless its argument ends
with a bracket.  The scan then ends the shortcode one bracket earlier and leaves the last one
behind. -/
theorem render_whole {text : String} {inner : List Char} (h : Whole text.toList inner) :
    (inner.getLast? ≠ some ']' → render catalog scope (Text.trimChars text.toList)
        = String.ofList (written (some (expandText catalog scope text))))
      ∧ ∀ front, inner = front ++ [']'] → ∃ yielded, Yields catalog scope front yielded
        ∧ render catalog scope (Text.trimChars text.toList)
          = String.ofList (written yielded ++ [']']) := by
  constructor
  · intro hlast
    have hvalue : written (some ((evaluate? catalog scope inner).getD (.string "")))
        = written (evaluate? catalog scope inner) := by
      cases evaluate? catalog scope inner <;> rfl
    have hscan := @render_first catalog scope inner ⟨h.closing, hlast⟩ [] unclosed_nil
    rw [List.append_nil, List.append_nil] at hscan
    rw [h.trimmed, hscan, expandText_whole h, hvalue]
  · rintro front rfl
    have htail : Unclosed [']'] := unclosed_of_free (by decide)
    refine ⟨_, yields_iff.mpr rfl, ?_⟩
    rw [h.trimmed, ← render_first h.front_clear htail]
    simp

/-- With one bracket more, the scan finds the name and the value is empty. -/
theorem render_whole_bracket :
    Whole "[[app:count]]".toList "app:count".toList
      ∧ render shopCatalog shop (Text.trimChars "[[app:count]]".toList)
        = String.ofList (written (some (expandText shopCatalog shop "[[app:count]]")))
      ∧ Whole "[[app:count]]]".toList "app:count]".toList
      ∧ (∃ yielded, Yields shopCatalog shop "app:count".toList yielded
        ∧ render shopCatalog shop (Text.trimChars "[[app:count]]]".toList)
          = String.ofList (written yielded ++ [']']))
      ∧ render shopCatalog shop (Text.trimChars "[[app:count]]]".toList) = "3]"
      ∧ expandText shopCatalog shop "[[app:count]]]" = .string "" := by
  have hcount : Whole "[[app:count]]".toList "app:count".toList :=
    whole?_eq_some_iff.mp (by decide +kernel)
  have hbracket : Whole "[[app:count]]]".toList "app:count]".toList :=
    whole?_eq_some_iff.mp (by decide +kernel)
  exact ⟨hcount, (render_whole hcount).1 (by decide), hbracket,
    (render_whole hbracket).2 _ rfl, by decide +kernel, by decide +kernel⟩

end Componentry.Template
