import Mathlib.Tactic
import Componentry.Text.Blank
import Componentry.Text.Cut
/-!
# Trimming and cutting written texts

A text is `Solid` if it is not empty and neither starts nor ends with a blank.  Trimming gives a
solid text back from any blanks around it (`trimChars_around`).  The other lemmas say that a prefix,
a suffix, a pattern and a separator are found where they have been written
(`stripPrefix_eq_some_iff`, `stripSuffix_isSome_iff`, `contains_iff`, `splitOn_joinWith`), and that
the pieces on both sides of a separator are the pieces of the text (`splitOn_append_separator`).
-/

namespace Componentry.Text

/-- A check of all characters of a text. -/
lemma forall_of_all {p : Char → Prop} [DecidablePred p] {cs : List Char}
    (h : cs.all (fun c => decide (p c)) = true) : ∀ c ∈ cs, p c :=
  fun c hc => of_decide_eq_true (List.all_eq_true.mp h c hc)

/-- A text of blanks only. -/
def Blanks (cs : List Char) : Prop := ∀ c ∈ cs, isBlank c = true

lemma Blanks.nil : Blanks [] := fun _ h => absurd h List.not_mem_nil

/-- A text is blanks and a body that does not start with a blank. -/
lemma exists_blanks_append (r : List Char) :
    ∃ blanks body, r = blanks ++ body ∧ Blanks blanks ∧ ∀ c ∈ body.head?, isBlank c = false := by
  refine ⟨r.takeWhile isBlank, r.dropWhile isBlank, List.takeWhile_append_dropWhile.symm,
    List.all_eq_true.mp List.all_takeWhile, fun c hc => ?_⟩
  have := List.head?_dropWhile_not isBlank r
  rw [hc] at this
  simpa using this

/-- A text that neither starts nor ends with a blank, and is not empty. -/
structure Solid (cs : List Char) : Prop where
  first : ∃ c, cs.head? = some c ∧ isBlank c = false
  last : ∃ c, cs.getLast? = some c ∧ isBlank c = false

lemma Solid.ne_nil {cs : List Char} (h : Solid cs) : cs ≠ [] := by
  rintro rfl
  obtain ⟨c, hc, _⟩ := h.first
  simp at hc

/-- A solid text may go on with any text that ends solidly. -/
lemma Solid.append {cs more : List Char} (h : Solid cs) (h' : Solid more) (between : List Char) :
    Solid (cs ++ between ++ more) where
  first := by
    obtain ⟨c, hc, hblank⟩ := h.first
    refine ⟨c, ?_, hblank⟩
    rw [List.append_assoc, List.head?_append, hc, Option.some_or]
  last := by
    obtain ⟨c, hc, hblank⟩ := h'.last
    refine ⟨c, ?_, hblank⟩
    rw [List.getLast?_append, hc, Option.some_or]

/-- A text is solid between two characters that are not blank. -/
lemma solid_between {first last : Char} (hf : isBlank first = false) (hl : isBlank last = false)
    (inner : List Char) : Solid (first :: (inner ++ [last])) where
  first := ⟨first, rfl, hf⟩
  last := ⟨last, by rw [← List.cons_append, List.getLast?_concat], hl⟩

lemma solid_of_forall {cs : List Char} (hne : cs ≠ []) (h : ∀ c ∈ cs, isBlank c = false) :
    Solid cs where
  first := ⟨cs.head hne, List.head?_eq_some_head hne, h _ (List.head_mem hne)⟩
  last := ⟨cs.getLast hne, List.getLast?_eq_some_getLast hne, h _ (List.getLast_mem hne)⟩

lemma solid_of_all {cs : List Char} (hne : cs ≠ [])
    (h : cs.all (fun c => decide (isBlank c = false)) = true) : Solid cs :=
  solid_of_forall hne (forall_of_all h)

lemma dropWhile_of_head {cs : List Char} (h : ∃ c, cs.head? = some c ∧ isBlank c = false) :
    cs.dropWhile isBlank = cs := by
  obtain ⟨c, hc, hblank⟩ := h
  cases cs with
  | nil => simp at hc
  | cons first rest =>
      rw [List.head?_cons, Option.some.injEq] at hc
      rw [List.dropWhile_cons_of_neg (by simp [hc, hblank])]

/-- **Trimming takes the blanks around a solid text away**, and nothing else. -/
theorem trimChars_around {lead cs trail : List Char} (h : Solid cs) (hlead : Blanks lead)
    (htrail : Blanks trail) : trimChars (lead ++ cs ++ trail) = cs := by
  have hstart : trimStart (lead ++ cs ++ trail) = cs ++ trail := by
    rw [trimStart, List.append_assoc, List.dropWhile_append_of_pos hlead]
    apply dropWhile_of_head
    obtain ⟨c, hc, hblank⟩ := h.first
    exact ⟨c, by rw [List.head?_append, hc, Option.some_or], hblank⟩
  rw [trimChars, hstart, trimEnd, List.reverse_append,
    List.dropWhile_append_of_pos fun c hc => htrail c (List.mem_reverse.mp hc),
    dropWhile_of_head, List.reverse_reverse]
  obtain ⟨c, hc, hblank⟩ := h.last
  exact ⟨c, by rw [List.head?_reverse, hc], hblank⟩

lemma trimChars_of_solid {cs : List Char} (h : Solid cs) : trimChars cs = cs := by
  have ht := trimChars_around h Blanks.nil Blanks.nil
  rwa [List.nil_append, List.append_nil] at ht

/-- Blanks are all that is trimmed off. -/
lemma exists_trimChars (cs : List Char) :
    ∃ lead trail, Blanks lead ∧ Blanks trail ∧ lead ++ trimChars cs ++ trail = cs := by
  refine ⟨cs.takeWhile isBlank, ((trimStart cs).reverse.takeWhile isBlank).reverse,
    List.all_eq_true.mp List.all_takeWhile,
    fun c hc => List.all_eq_true.mp List.all_takeWhile c (List.mem_reverse.mp hc), ?_⟩
  have hend : trimChars cs ++ ((trimStart cs).reverse.takeWhile isBlank).reverse
      = trimStart cs := by
    rw [trimChars, trimEnd, ← List.reverse_append, List.takeWhile_append_dropWhile,
      List.reverse_reverse]
  rw [List.append_assoc, hend, trimStart, List.takeWhile_append_dropWhile]

/-- A text is solid once it is trimmed, unless nothing is left. -/
lemma solid_trimChars {cs : List Char} (h : trimChars cs ≠ []) : Solid (trimChars cs) := by
  have hhead : ∀ {ds : List Char} {c : Char}, (ds.dropWhile isBlank).head? = some c →
      isBlank c = false := by
    intro ds c hc
    have hnot := List.head?_dropWhile_not isBlank ds
    rw [hc] at hnot
    simpa using hnot
  constructor
  · obtain ⟨c, hc⟩ := Option.isSome_iff_exists.mp (List.isSome_head?.mpr h)
    obtain ⟨rest, hrest⟩ : trimChars cs <+: trimStart cs := by
      rw [trimChars, trimEnd, ← List.reverse_suffix, List.reverse_reverse]
      exact List.dropWhile_suffix _
    refine ⟨c, hc, @hhead cs c ?_⟩
    rw [← trimStart, ← hrest, List.head?_append, hc, Option.some_or]
  · obtain ⟨c, hc⟩ := Option.isSome_iff_exists.mp (List.getLast?_isSome.mpr h)
    refine ⟨c, hc, @hhead (trimStart cs).reverse c ?_⟩
    rw [trimChars, trimEnd, List.getLast?_reverse] at hc
    exact hc

lemma trimChars_of_blanks {cs : List Char} (h : Blanks cs) : trimChars cs = [] := by
  have hstart : trimStart (cs ++ []) = [] := List.dropWhile_append_of_pos h
  rw [List.append_nil] at hstart
  rw [trimChars, hstart]
  rfl

lemma length_trimChars_le (cs : List Char) : (trimChars cs).length ≤ cs.length := by
  obtain ⟨lead, trail, -, -, htext⟩ := exists_trimChars cs
  rw [← congrArg List.length htext, List.length_append, List.length_append]
  omega

@[simp] lemma trimChars_trimChars (cs : List Char) : trimChars (trimChars cs) = trimChars cs := by
  by_cases h : trimChars cs = []
  · rw [h]
    rfl
  · exact trimChars_of_solid (solid_trimChars h)

/-- What is not blank is not trimmed off. -/
lemma mem_trimChars {cs : List Char} {c : Char} (hc : isBlank c = false) (h : c ∈ cs) :
    c ∈ trimChars cs := by
  obtain ⟨lead, trail, hlead, htrail, htext⟩ := exists_trimChars cs
  rw [← htext, List.mem_append, List.mem_append] at h
  rcases h with (h | h) | h
  · exact absurd (hlead c h) (by simp [hc])
  · exact h
  · exact absurd (htrail c h) (by simp [hc])

/-- What is not blank at the beginning of a text stays there. -/
lemma head?_trimChars {cs : List Char} {c : Char} (hc : isBlank c = false)
    (h : cs.head? = some c) : (trimChars cs).head? = some c := by
  obtain ⟨lead, trail, hlead, htrail, htext⟩ := exists_trimChars cs
  rw [← htext, List.append_assoc] at h
  cases lead with
  | cons d lead =>
      cases h
      exact absurd (hlead c List.mem_cons_self) (by simp [hc])
  | nil =>
      rw [List.nil_append, List.head?_append] at h
      cases hhead : (trimChars cs).head? with
      | some d => simpa [hhead] using h
      | none =>
          rw [hhead, Option.none_or] at h
          exact absurd (htrail c (List.mem_of_mem_head? h)) (by simp [hc])

/-- What is not blank at the end of a text stays there. -/
lemma getLast?_trimChars {cs : List Char} {c : Char} (hc : isBlank c = false)
    (h : cs.getLast? = some c) : (trimChars cs).getLast? = some c := by
  obtain ⟨lead, trail, hlead, htrail, htext⟩ := exists_trimChars cs
  rw [← htext, List.getLast?_append] at h
  cases hlast : trail.getLast? with
  | some d =>
      rw [hlast, Option.some_or] at h
      cases h
      exact absurd (htrail c (List.mem_of_getLast? hlast)) (by simp [hc])
  | none =>
      rw [hlast, Option.none_or, List.getLast?_append] at h
      cases htrimmed : (trimChars cs).getLast? with
      | some d => simpa [htrimmed] using h
      | none =>
          rw [htrimmed, Option.none_or] at h
          exact absurd (hlead c (List.mem_of_getLast? h)) (by simp [hc])

/-- At the end of a trimmed text there is nothing that is blank. -/
lemma eq_nil_of_suffix {cs part : List Char} (hpart : part <:+ cs) (htrimmed : trimChars cs = cs)
    (hblanks : Blanks part) : part = [] := by
  by_contra hne
  obtain ⟨c, hc⟩ := Option.isSome_iff_exists.mp (List.getLast?_isSome.mpr hne)
  obtain ⟨lead, rfl⟩ := hpart
  have hsolid : Solid (trimChars (lead ++ part)) := solid_trimChars (by simp [htrimmed, hne])
  rw [htrimmed] at hsolid
  obtain ⟨d, hd, hsolid⟩ := hsolid.last
  rw [List.getLast?_append, hc, Option.some_or] at hd
  cases hd
  rw [hblanks c (List.mem_of_getLast? hc)] at hsolid
  cases hsolid

lemma isBlank_of_graphic {c : Char} (hlow : 0x20 < c.toNat) (hhigh : c.toNat < 0x80) :
    isBlank c = false := by
  simp [isBlank, blankRanges]
  omega

lemma isBlank_of_isAlphanum {c : Char} (h : c.isAlphanum = true) : isBlank c = false := by
  have hval : c.val.toNat = c.toNat := rfl
  delta Char.isAlphanum Char.isAlpha Char.isUpper Char.isLower Char.isDigit at h
  simp only [Bool.or_eq_true, Bool.and_eq_true, decide_eq_true_eq, UInt32.le_iff_toNat_le,
    ge_iff_le, Char.reduceVal, UInt32.reduceToNat] at h
  exact isBlank_of_graphic (by omega) (by omega)

/-! ### Prefixes and suffixes -/

@[simp] lemma stripPrefix_append (pattern text : List Char) :
    stripPrefix pattern (pattern ++ text) = some text := by
  induction pattern with
  | nil => rfl
  | cons p pattern ih => rw [List.cons_append, stripPrefix, if_pos rfl, ih]

/-- A text whose first character is not that of a pattern does not start with the pattern. -/
lemma stripPrefix_of_head_ne {p c : Char} (h : p ≠ c) (pattern text : List Char) :
    stripPrefix (p :: pattern) (c :: text) = none := by
  rw [stripPrefix, if_neg h]

lemma stripSuffix_append (pattern text : List Char) :
    stripSuffix pattern (text ++ pattern) = some text := by
  rw [stripSuffix, List.reverse_append, stripPrefix_append, Option.map_some, List.reverse_reverse]

/-- What a prefix is taken off starts with it. -/
lemma stripPrefix_eq_some_iff {pattern text rest : List Char} :
    stripPrefix pattern text = some rest ↔ text = pattern ++ rest := by
  constructor
  · intro h
    induction pattern generalizing text with
    | nil => exact Option.some.inj h
    | cons p pattern ih =>
        cases text with
        | nil => simp [stripPrefix] at h
        | cons c text =>
            rw [stripPrefix] at h
            split_ifs at h with hc
            rw [← hc, ih h, List.cons_append]
  · rintro rfl
    exact stripPrefix_append pattern rest

/-- A prefix can be taken off exactly the texts that start with it. -/
lemma stripPrefix_isSome_iff {pattern text : List Char} :
    (stripPrefix pattern text).isSome ↔ pattern <+: text := by
  rw [Option.isSome_iff_exists]
  exact exists_congr fun rest => stripPrefix_eq_some_iff.trans eq_comm

/-- What a suffix is taken off ends with it. -/
lemma stripSuffix_eq_some_iff {pattern text rest : List Char} :
    stripSuffix pattern text = some rest ↔ text = rest ++ pattern := by
  rw [stripSuffix, Option.map_eq_some_iff]
  constructor
  · rintro ⟨reversed, h, rfl⟩
    rw [← List.reverse_inj, stripPrefix_eq_some_iff.mp h, List.reverse_append,
      List.reverse_reverse]
  · rintro rfl
    exact ⟨rest.reverse, by rw [List.reverse_append, stripPrefix_append], rest.reverse_reverse⟩

/-- A suffix can be taken off exactly the texts that end with it. -/
lemma stripSuffix_isSome_iff {pattern text : List Char} :
    (stripSuffix pattern text).isSome ↔ pattern <:+ text := by
  rw [stripSuffix, Option.isSome_map, stripPrefix_isSome_iff, List.reverse_prefix]

/-! ### Occurrences -/

/-- **A pattern is found exactly where it occurs.** -/
lemma contains_iff {pattern text : List Char} :
    contains pattern text = true ↔ pattern <:+: text := by
  induction text with
  | nil =>
      rw [contains, cut, Option.isSome_map, stripPrefix_isSome_iff, List.infix_nil,
        List.prefix_nil]
  | cons c text ih =>
      rw [List.infix_cons_iff, ← ih, ← stripPrefix_isSome_iff, contains, cut]
      cases stripPrefix pattern (c :: text) with
      | none => simp [contains]
      | some rest => simp

/-! ### Separators -/

lemma splitOn_of_not_mem {separator : Char} {piece : List Char} (h : separator ∉ piece) :
    splitOn separator piece = [piece] := by
  induction piece with
  | nil => rfl
  | cons c piece ih =>
      have hc : c ≠ separator := fun e => h (e ▸ List.mem_cons_self)
      rw [splitOn, if_neg hc, ih fun hmem => h (List.mem_cons_of_mem c hmem)]

lemma splitOn_ne_nil (separator : Char) (text : List Char) : splitOn separator text ≠ [] := by
  cases text with
  | nil => simp [splitOn]
  | cons c rest =>
      rw [splitOn]
      split_ifs
      · simp
      · split <;> simp

/-- The pieces on both sides of a separator. -/
lemma splitOn_append_separator (separator : Char) (text more : List Char) :
    splitOn separator (text ++ separator :: more)
      = splitOn separator text ++ splitOn separator more := by
  induction text with
  | nil => simp [splitOn]
  | cons c rest ih =>
      simp only [List.cons_append, splitOn, ih]
      split_ifs with hc
      · rfl
      · obtain ⟨piece, pieces, hpieces⟩ :=
          List.exists_cons_of_ne_nil (splitOn_ne_nil separator rest)
        rw [hpieces]
        rfl

lemma splitOn_cons_separator {separator : Char} {piece : List Char} (h : separator ∉ piece)
    (text : List Char) :
    splitOn separator (piece ++ separator :: text) = piece :: splitOn separator text := by
  rw [splitOn_append_separator, splitOn_of_not_mem h, List.singleton_append]

/-- Every character of a text is in one of its pieces or a separator. -/
lemma mem_splitOn (separator : Char) {c : Char} {text : List Char} (h : c ∈ text) :
    c = separator ∨ ∃ piece ∈ splitOn separator text, c ∈ piece := by
  induction text with
  | nil => cases h
  | cons d rest ih =>
      rw [splitOn]
      split_ifs with hd
      · obtain rfl | h := List.mem_cons.mp h
        · exact .inl hd
        · exact (ih h).imp_right fun ⟨piece, hpiece, hc⟩ =>
            ⟨piece, List.mem_cons_of_mem [] hpiece, hc⟩
      · split
        · rename_i hnone
          obtain rfl | h := List.mem_cons.mp h
          · exact .inr ⟨[c], List.mem_singleton_self _, List.mem_singleton_self c⟩
          · obtain hsep | ⟨piece, hpiece, -⟩ := ih h
            · exact .inl hsep
            · rw [hnone] at hpiece
              cases hpiece
        · rename_i first others hpieces
          obtain rfl | h := List.mem_cons.mp h
          · exact .inr ⟨c :: first, List.mem_cons_self, List.mem_cons_self⟩
          · rw [hpieces] at ih
            refine (ih h).imp_right fun ⟨piece, hpiece, hc⟩ => ?_
            obtain rfl | hpiece := List.mem_cons.mp hpiece
            · exact ⟨d :: piece, List.mem_cons_self, List.mem_cons_of_mem d hc⟩
            · exact ⟨piece, List.mem_cons_of_mem _ hpiece, hc⟩

/-- A text is cut at its first separator in one way only. -/
lemma append_separator_inj {separator : Char} {piece other text more : List Char}
    (hpiece : separator ∉ piece) (hother : separator ∉ other)
    (h : piece ++ separator :: text = other ++ separator :: more) :
    piece = other ∧ text = more := by
  have hpieces := congrArg (splitOn separator) h
  rw [splitOn_cons_separator hpiece, splitOn_cons_separator hother] at hpieces
  obtain ⟨rfl, -⟩ := List.cons.inj hpieces
  exact ⟨rfl, (List.cons.inj (List.append_cancel_left h)).2⟩

/-- The first piece and the other pieces behind separators. -/
def joinWith (separator : Char) (first : List Char) (rest : List (List Char)) : List Char :=
  first ++ rest.flatMap (separator :: ·)

/-- **A text that is put together from pieces** is cut into these pieces. -/
theorem splitOn_joinWith {separator : Char} {first : List Char} {rest : List (List Char)}
    (hfirst : separator ∉ first) (hrest : ∀ piece ∈ rest, separator ∉ piece) :
    splitOn separator (joinWith separator first rest) = first :: rest := by
  induction rest generalizing first with
  | nil => rw [joinWith, List.flatMap_nil, List.append_nil, splitOn_of_not_mem hfirst]
  | cons piece rest ih =>
      have hpieces := ih (hrest piece List.mem_cons_self) fun other hother =>
        hrest other (List.mem_cons_of_mem piece hother)
      rw [joinWith, List.flatMap_cons, List.cons_append, splitOn_cons_separator hfirst, ← hpieces]
      rfl

end Componentry.Text
