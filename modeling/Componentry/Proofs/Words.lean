import Mathlib
import Componentry.Proofs.Text
import Componentry.Text.Words
/-!
# Names in camel case

Words may be written with underscores or hyphens between them (`Spells`), and all the spellings of
the same words have the same upper camel case, since the separators are not part of it
(`Spells.camelChars_eq`).

To read camel case again is another matter, for there the case of the letters alone tells where a
word begins.  A capital is read as the beginning of a word behind a lower case letter, and behind a
capital if a lower case letter follows; where all capitals are, the text is `Legible`.  This is what
it takes for upper camel case to stay as it is when it is put into upper camel case again
(`camelChars_eq_self_iff`), and words that begin with two letters are always legible
(`legible_camelChars`).
-/

namespace Componentry.Text

/-- The characters of a text in upper camel case. -/
def camelChars (text : List Char) : List Char := (words text).flatMap capitalize

/-! ### Spellings -/

/-- A word of letters and digits. -/
def IsWord (word : List Char) : Prop := word ≠ [] ∧ word.all isAsciiAlphanumeric

instance (word : List Char) : Decidable (IsWord word) := inferInstanceAs (Decidable (_ ∧ _))

lemma IsWord.solid {word : List Char} (h : IsWord word) : Solid word :=
  solid_of_forall h.1 fun c hc => isBlank_of_isAlphanum (List.all_eq_true.mp h.2 c hc)

lemma IsWord.all_isNameChar {word : List Char} (h : IsWord word) : word.all isNameChar := by
  refine List.all_eq_true.mpr fun c hc => ?_
  have hletter : c.isAlphanum := List.all_eq_true.mp h.2 c hc
  rw [isNameChar, hletter, Bool.true_or, Bool.true_or]

/-- The ways to write words with an underscore or a hyphen between each two. -/
inductive Spells : List (List Char) → List Char → Prop
  | last {word : List Char} (hword : IsWord word) : Spells [word] word
  | cons {word : List Char} {rest : List (List Char)} {separator : Char} {text : List Char}
      (hword : IsWord word) (hseparator : separator = '_' ∨ separator = '-')
      (hrest : Spells rest text) : Spells (word :: rest) (word ++ separator :: text)

lemma runs_go_append {word : List Char} (h : word.all isAsciiAlphanumeric) (run rest : List Char) :
    runs.go run (word ++ rest) = runs.go (word.reverse ++ run) rest := by
  induction word generalizing run with
  | nil => rfl
  | cons c word ih =>
      rw [List.all_cons, Bool.and_eq_true] at h
      rw [List.cons_append, runs.go, if_pos h.1, ih h.2]
      simp

namespace Spells

variable {ws : List (List Char)} {text other : List Char}

/-- The runs of letters and digits are the words that are spelled. -/
lemma runs_eq (h : Spells ws text) : runs text = ws := by
  induction h with
  | @last word hword =>
      rw [runs, ← List.append_nil word, runs_go_append hword.2, runs.go,
        if_neg (by simpa using hword.1)]
      simp
  | @cons word rest separator text hword hseparator _ ih =>
      have hout : ¬ isAsciiAlphanumeric separator = true := by
        rcases hseparator with rfl | rfl <;> decide
      rw [runs, runs_go_append hword.2, runs.go, if_neg hout, if_neg (by simpa using hword.1),
        show runs.go [] text = rest from ih]
      simp

/-- All spellings of the same words are the same in upper camel case. -/
lemma camelChars_eq (h : Spells ws text) (h' : Spells ws other) : camelChars text = camelChars other := by
  rw [camelChars, camelChars, words, words, h.runs_eq, h'.runs_eq]

lemma solid (h : Spells ws text) : Solid text := by
  induction h with
  | last hword => exact hword.solid
  | cons hword _ _ ih => simpa using hword.solid.append ih [_]

lemma words_ne_nil (h : Spells ws text) : ws ≠ [] := by
  cases h <;> simp

lemma all_isNameChar (h : Spells ws text) : text.all isNameChar := by
  induction h with
  | last hword => exact hword.all_isNameChar
  | cons hword hseparator _ ih =>
      rw [List.all_append, List.all_cons, ih, hword.all_isNameChar]
      rcases hseparator with rfl | rfl <;> decide

lemma isWord_of_mem (h : Spells ws text) : ∀ word ∈ ws, IsWord word := by
  induction h with
  | last hword => simpa using hword
  | cons hword _ _ ih => exact List.forall_mem_cons.mpr ⟨hword, ih⟩

end Spells

/-! ### Words of a run -/

/-- The words of a run are cut out of it. -/
lemma flatten_wordsFrom (front : LetterCase) (word : List Char) {text : List Char} (h : text ≠ []) :
    (wordsFrom front word text).flatten = word.reverse ++ text := by
  fun_induction wordsFrom front word text with
  | case1 => exact absurd rfl h
  | case2 => simp
  | case3 front word c next rest _ ih => simp [ih]
  | case4 front word c next rest _ _ ih => simp [ih]
  | case5 front word c next rest _ _ ih => simp [ih]

lemma flatten_wordsFrom_fresh (run : List Char) : (wordsFrom .fresh [] run).flatten = run := by
  by_cases hrun : run = []
  · rw [hrun, wordsFrom, List.flatten_nil]
  · exact flatten_wordsFrom .fresh [] hrun

lemma flatten_words (text : List Char) : (words text).flatten = (runs text).flatten := by
  rw [words]
  induction runs text with
  | nil => rfl
  | cons run rest ih =>
      rw [List.flatMap_cons, List.flatten_append, ih, flatten_wordsFrom_fresh, List.flatten_cons]

lemma length_capitalize (word : List Char) : (capitalize word).length = word.length := by
  cases word <;> simp [capitalize]

/-- Capitalised words are the words themselves only if each of them is. -/
lemma flatMap_capitalize_eq_flatten_iff (ws : List (List Char)) :
    ws.flatMap capitalize = ws.flatten ↔ ∀ word ∈ ws, capitalize word = word := by
  induction ws with
  | nil => simp
  | cons word rest ih =>
      rw [List.flatMap_cons, List.flatten_cons, List.forall_mem_cons, ← ih]
      exact ⟨fun h => List.append_inj h (length_capitalize word), fun h => by rw [h.1, h.2]⟩

/-- A word that has its only capital in front, if any, and no lower case letter there. -/
lemma capitalize_append_singleton (front : List Char) (c : Char) :
    capitalize (front ++ [c]) = front ++ [c]
      ↔ capitalize front = front ∧ if front = [] then ¬ c.isLower else ¬ c.isUpper := by
  have hupper : c.toUpper = c ↔ ¬ c.isLower :=
    ⟨fun h => by rw [← h]; simp, Char.toUpper_eq_of_not_isLower⟩
  have hlower : c.toLower = c ↔ ¬ c.isUpper :=
    ⟨fun h => by rw [← h]; simp, Char.toLower_eq_of_not_isUpper⟩
  cases front with
  | nil => simpa [capitalize] using hupper
  | cons first rest => simp [capitalize, hlower, and_assoc]

/-! ### Legible texts -/

/-- Whether every capital is read as the beginning of a word: the last letter in front of it, digits
aside, is lower case, or it is a capital too and a lower case letter follows. -/
def LegibleBehind (front : LetterCase) : List Char → Prop
  | [] => True
  | c :: rest =>
    (c.isUpper → front = .lower ∨ front = .upper ∧ rest.head?.any Char.isLower)
      ∧ LegibleBehind (front.after c) rest

/-- Whether every capital but the first character is read as the beginning of a word. -/
def Legible : List Char → Prop
  | [] => True
  | c :: rest => LegibleBehind (LetterCase.fresh.after c) rest

instance decidableLegibleBehind : ∀ front text, Decidable (LegibleBehind front text)
  | _, [] => inferInstanceAs (Decidable True)
  | front, c :: rest =>
    have := decidableLegibleBehind (front.after c) rest
    inferInstanceAs (Decidable (_ ∧ _))

instance : DecidablePred Legible
  | [] => inferInstanceAs (Decidable True)
  | c :: rest => inferInstanceAs (Decidable (LegibleBehind (LetterCase.fresh.after c) rest))

lemma after_of_isUpper {c : Char} (h : c.isUpper) (front : LetterCase) : front.after c = .upper := by
  rw [LetterCase.after, if_neg (Char.not_isLower_of_isUpper h), if_pos h]

lemma after_of_isLower {c : Char} (h : c.isLower) (front : LetterCase) : front.after c = .lower := by
  rw [LetterCase.after, if_pos h]

/-- The words of a run are capitalised just if the run is legible.  A word that is under way stands
for what was read of it: there is a letter in it, unless only digits have been read at all. -/
lemma forall_wordsFrom_iff (front : LetterCase) (word : List Char) (c : Char) (rest : List Char)
    (hfresh : word = [] → front ≠ .upper) (hlower : word ≠ [] → front = .lower → ¬ c.isUpper) :
    (∀ w ∈ wordsFrom front word (c :: rest), capitalize w = w)
      ↔ capitalize word.reverse = word.reverse
        ∧ (if word = [] then ¬ c.isLower
          else c.isUpper → front = .upper ∧ rest.head?.any Char.isLower)
        ∧ LegibleBehind (front.after c) rest := by
  generalize htext : c :: rest = text
  fun_induction wordsFrom front word text generalizing c rest with
  | case1 => simp at htext
  | case2 front word d =>
      obtain ⟨rfl, rfl⟩ := List.cons.inj htext
      simp only [List.forall_mem_singleton, List.reverse_cons, capitalize_append_singleton,
        List.reverse_eq_nil_iff, LegibleBehind, and_true, List.head?_nil, Option.any_none]
      simp
  | case3 front word d next rest' hcut ih =>
      -- A word ends with `c`: what is next begins one, whatever is in front.
      obtain ⟨rfl, rfl⟩ := List.cons.inj htext
      simp only [Bool.and_eq_true, decide_eq_true_eq] at hcut
      obtain ⟨hafter, hnext⟩ := hcut
      have hnot := Char.not_isLower_of_isUpper hnext
      rw [List.forall_mem_cons, ih next rest' (by simp) (by simp) rfl, List.reverse_cons,
        capitalize_append_singleton, LegibleBehind, hafter, after_of_isUpper hnext,
        after_of_isUpper hnext]
      simp [capitalize, hnot, and_assoc]
  | case4 front word d next rest' _ hcut ih =>
      -- A word begins with `c`, the last of several capitals.
      obtain ⟨rfl, rfl⟩ := List.cons.inj htext
      simp only [Bool.and_eq_true, decide_eq_true_eq] at hcut
      obtain ⟨⟨hfront, hupper⟩, hnext⟩ := hcut
      have hword : word ≠ [] := fun hnil => hfresh hnil hfront
      have hnot := Char.not_isUpper_of_isLower hnext
      rw [List.forall_mem_cons, ih next rest' (by simp) (by simp) rfl, LegibleBehind,
        after_of_isLower hnext, after_of_isLower hnext]
      simp [capitalize, hword, hfront, hnext, hnot, Char.toUpper_eq_of_not_isLower
        (Char.not_isLower_of_isUpper hupper)]
  | case5 front word d next rest' hcut hcut' ih =>
      -- The word goes on, so that `c` may be a capital only if the word begins with it.
      obtain ⟨rfl, rfl⟩ := List.cons.inj htext
      simp only [Bool.and_eq_true, decide_eq_true_eq, not_and] at hcut hcut'
      rw [ih next rest' (by simp) (fun _ hafter => hcut hafter) rfl, List.reverse_cons,
        capitalize_append_singleton, LegibleBehind]
      have hinside : (c.isUpper → front = .upper ∧ next.isLower) ↔ ¬ c.isUpper :=
        ⟨fun h hupper => hcut' ⟨(h hupper).1, hupper⟩ (h hupper).2,
          fun h hupper => absurd hupper h⟩
      have hbehind : (next.isUpper → front.after c = .lower
            ∨ front.after c = .upper ∧ rest'.head?.any Char.isLower)
          ↔ (next.isUpper → front.after c = .upper ∧ rest'.head?.any Char.isLower) :=
        forall_congr' fun hupper => or_iff_right fun hafter => hcut hafter hupper
      simp only [List.reverse_eq_nil_iff, reduceCtorEq, if_false, List.head?_cons, Option.any_some,
        hinside, hbehind, and_assoc]

/-- **Upper camel case stays as it is just if it is legible.** -/
theorem camelChars_eq_self_iff {c : Char} {rest : List Char} (hword : IsWord (c :: rest))
    (hfirst : ¬ c.isLower) : camelChars (c :: rest) = c :: rest ↔ Legible (c :: rest) := by
  have hwords : words (c :: rest) = wordsFrom .fresh [] (c :: rest) := by
    rw [words, (Spells.last hword).runs_eq, List.flatMap_singleton]
  calc camelChars (c :: rest) = c :: rest
      ↔ (wordsFrom .fresh [] (c :: rest)).flatMap capitalize
          = (wordsFrom .fresh [] (c :: rest)).flatten := by
        rw [camelChars, hwords, flatten_wordsFrom_fresh]
    _ ↔ ∀ word ∈ wordsFrom .fresh [] (c :: rest), capitalize word = word :=
        flatMap_capitalize_eq_flatten_iff _
    _ ↔ Legible (c :: rest) := by
        rw [forall_wordsFrom_iff .fresh [] c rest (by simp) (by simp)]
        simp [capitalize, hfirst, Legible]

/-! ### Camel case of spelled words -/

lemma isAlphanum_toUpper {c : Char} (h : c.isAlphanum) : c.toUpper.isAlphanum := by
  by_cases hlower : c.isLower
  · simp [Char.isAlphanum, Char.isAlpha, hlower]
  · rwa [Char.toUpper_eq_of_not_isLower hlower]

lemma isAlphanum_toLower {c : Char} (h : c.isAlphanum) : c.toLower.isAlphanum := by
  by_cases hupper : c.isUpper
  · simp [Char.isAlphanum, Char.isAlpha, hupper]
  · rwa [Char.toLower_eq_of_not_isUpper hupper]

lemma all_capitalize {word : List Char} (h : word.all isAsciiAlphanumeric) :
    (capitalize word).all isAsciiAlphanumeric := by
  cases word with
  | nil => rfl
  | cons c rest =>
      simp only [List.all_eq_true, isAsciiAlphanumeric, List.forall_mem_cons] at h
      simp only [capitalize, List.all_eq_true, isAsciiAlphanumeric, List.forall_mem_cons,
        List.forall_mem_map]
      exact ⟨isAlphanum_toUpper h.1, fun d hd => isAlphanum_toLower (h.2 d hd)⟩

/-- No capitalised word begins with a lower case letter, and so neither does what is made of some. -/
lemma head?_flatMap_capitalize (ws : List (List Char)) {c : Char}
    (h : (ws.flatMap capitalize).head? = some c) : ¬ c.isLower := by
  induction ws with
  | nil => simp at h
  | cons word rest ih =>
      cases word with
      | nil => exact ih h
      | cons d word =>
          obtain rfl : d.toUpper = c := by simpa [capitalize] using h
          simp

section Spelled

variable {ws : List (List Char)} {text : List Char}

lemma Spells.all_of_mem_words (h : Spells ws text) : ∀ word ∈ words text,
    word.all isAsciiAlphanumeric := by
  refine fun word hword => List.all_eq_true.mpr fun c hc => ?_
  have hmem := List.mem_flatten_of_mem hword hc
  rw [flatten_words, h.runs_eq] at hmem
  obtain ⟨run, hrun, hc⟩ := List.mem_flatten.mp hmem
  exact List.all_eq_true.mp (h.isWord_of_mem run hrun).2 c hc

lemma Spells.camelChars_ne_nil (h : Spells ws text) : camelChars text ≠ [] := by
  intro hnil
  have hempty : ∀ word ∈ words text, word = [] := fun word hword => by
    rw [← List.length_eq_zero_iff, ← length_capitalize, List.flatMap_eq_nil_iff.mp hnil word hword,
      List.length_nil]
  rw [← List.flatten_eq_nil_iff, flatten_words, h.runs_eq, List.flatten_eq_nil_iff] at hempty
  obtain ⟨run, hrun⟩ := List.exists_mem_of_ne_nil ws h.words_ne_nil
  exact (h.isWord_of_mem run hrun).1 (hempty run hrun)

/-- What is made of spelled words is one word, and it does not begin with a lower case letter. -/
lemma Spells.exists_camelChars (h : Spells ws text) :
    ∃ c rest, camelChars text = c :: rest ∧ IsWord (c :: rest) ∧ ¬ c.isLower := by
  have hall : (camelChars text).all isAsciiAlphanumeric := by
    rw [camelChars, List.all_flatMap]
    exact List.all_eq_true.mpr fun word hword => all_capitalize (h.all_of_mem_words word hword)
  obtain ⟨c, rest, hcamel⟩ := List.exists_cons_of_ne_nil h.camelChars_ne_nil
  refine ⟨c, rest, hcamel, hcamel ▸ ⟨h.camelChars_ne_nil, hall⟩, head?_flatMap_capitalize (words text) ?_⟩
  rw [← camelChars, hcamel, List.head?_cons]

/-- **The camel case of spelled words stays as it is just if it is legible.** -/
theorem Spells.camelChars_camelChars_iff (h : Spells ws text) :
    camelChars (camelChars text) = camelChars text ↔ Legible (camelChars text) := by
  obtain ⟨c, rest, hcamel, hword, hfirst⟩ := h.exists_camelChars
  rw [hcamel]
  exact camelChars_eq_self_iff hword hfirst

end Spelled

/-- Whether a word begins with two letters. -/
def IsLong : List Char → Prop
  | c :: d :: _ => c.isAlpha ∧ d.isAlpha
  | _ => False

instance : DecidablePred IsLong
  | [] | [_] => inferInstanceAs (Decidable False)
  | _ :: _ :: _ => inferInstanceAs (Decidable (_ ∧ _))

/-- Behind a lower case letter characters without a capital change nothing. -/
lemma legibleBehind_append {tail : List Char} (htail : ∀ c ∈ tail, ¬ c.isUpper)
    (rest : List Char) : LegibleBehind .lower (tail ++ rest) ↔ LegibleBehind .lower rest := by
  induction tail with
  | nil => rfl
  | cons c tail ih =>
      rw [List.forall_mem_cons] at htail
      have hafter : LetterCase.lower.after c = .lower := by
        rw [LetterCase.after, if_neg htail.1, ite_self]
      rw [List.cons_append, LegibleBehind, hafter, ih htail.2]
      simp [htail.1]

/-- Behind the capital of a capitalised word that begins with two letters it goes on as behind a
lower case letter. -/
lemma exists_capitalize_eq {word : List Char} (h : IsLong word) :
    ∃ c tail, capitalize word = c :: tail ∧ ∀ front rest,
      LegibleBehind (LetterCase.after front c) (tail ++ rest) ↔ LegibleBehind .lower rest := by
  match word, h with
  | c :: d :: tail, ⟨_, hd⟩ =>
      refine ⟨c.toUpper, d.toLower :: tail.map Char.toLower, rfl, fun front rest => ?_⟩
      have hlower : d.toLower.isLower := by simpa using hd
      rw [List.cons_append, LegibleBehind, after_of_isLower hlower,
        legibleBehind_append (List.forall_mem_map.mpr fun c _ => by simp)]
      simp

lemma legibleBehind_flatMap_capitalize {ws : List (List Char)} (h : ∀ word ∈ ws, IsLong word) :
    LegibleBehind .lower (ws.flatMap capitalize) := by
  induction ws with
  | nil => trivial
  | cons word rest ih =>
      rw [List.forall_mem_cons] at h
      obtain ⟨c, tail, hcapital, hlegible⟩ := exists_capitalize_eq h.1
      rw [List.flatMap_cons, hcapital, List.cons_append]
      exact ⟨fun _ => .inl rfl, (hlegible _ _).mpr (ih h.2)⟩

/-- **Words that begin with two letters are legible.** -/
theorem legible_camelChars (text : List Char) (h : ∀ word ∈ words text, IsLong word) :
    Legible (camelChars text) := by
  rw [camelChars]
  cases hwords : words text with
  | nil => trivial
  | cons word rest =>
      rw [hwords, List.forall_mem_cons] at h
      obtain ⟨c, tail, hcapital, hlegible⟩ := exists_capitalize_eq h.1
      rw [List.flatMap_cons, hcapital, List.cons_append]
      exact (hlegible _ _).mpr (legibleBehind_flatMap_capitalize h.2)

end Componentry.Text
