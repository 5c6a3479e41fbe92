import Mathlib.Tactic
import Componentry.Proofs.Text
import Componentry.Redaction
/-!
# Words and runs of characters

A recogniser looks for a word and counts runs of characters behind it.  `behindWord_eq_some_iff` says
what it is to find a word; a word that is not found in one piece may still go on into the next
(`behindWord_append`), but not into one that starts with a character of another kind
(`behindWord_append_eq`).  How far a run goes over the end of a piece is said by
`countWhile_append_of_all` and `countWhile_append_cons`.
-/

namespace Componentry.Redaction

open Text

/-! ### Characters -/

/-- Only letters have another case. -/
lemma toLower_of_isBlank {c : Char} (h : isBlank c = true) : c.toLower = c := by
  refine dif_neg fun hupper => ?_
  have halphanum : c.isAlphanum = true := by
    delta Char.isAlphanum Char.isAlpha Char.isUpper
    simp only [Bool.or_eq_true, decide_eq_true_eq]
    exact .inl (.inl hupper)
  rw [isBlank_of_isAlphanum halphanum] at h
  cases h

lemma foldCase_of_isBlank {c : Char} (h : isBlank c = true) : foldCase c = c := by
  have hne : ∀ d : Char, isBlank d = false → c ≠ d := by
    rintro d hd rfl
    rw [h] at hd
    cases hd
  rw [foldCase, if_neg (hne _ (by decide)), if_neg (hne _ (by decide)), toLower_of_isBlank h]

lemma isBlank_of_letter {c : Char} (h : c.toLower.isAlpha = true) : isBlank c = false := by
  by_contra hblank
  rw [Bool.not_eq_false] at hblank
  rw [toLower_of_isBlank hblank] at h
  rw [isBlank_of_isAlphanum (by rw [Char.isAlphanum, h, Bool.true_or])] at hblank
  cases hblank

/-- The letters of ASCII fold to lower case. -/
lemma foldCase_of_toLower {c : Char} (h : c.toLower.isAlpha = true) : foldCase c = c.toLower := by
  have hne : ∀ d : Char, d.toLower.isAlpha = false → c ≠ d := by
    rintro d hd rfl
    rw [h] at hd
    cases hd
  rw [foldCase, if_neg (hne _ (by decide)), if_neg (hne _ (by decide))]

/-! ### Words -/

lemma behindWord_eq_some_iff {word text rest : List Char} :
    behindWord word text = some rest ↔ ∃ w, text = w ++ rest ∧ w.map foldCase = word := by
  induction word generalizing text with
  | nil => simp [behindWord, eq_comm]
  | cons letter word ih =>
      cases text with
      | nil => simp [behindWord]
      | cons c text =>
          rw [behindWord]
          split_ifs with hletter
          · rw [ih]
            constructor
            · rintro ⟨w, rfl, rfl⟩
              exact ⟨c :: w, rfl, by rw [List.map_cons, hletter]⟩
            · rintro ⟨_ | ⟨d, w⟩, htext, hmap⟩
              · cases hmap
              · rw [List.cons_append, List.cons.injEq] at htext
                rw [List.map_cons, List.cons.injEq] at hmap
                exact ⟨w, htext.2, hmap.2⟩
          · simp only [false_iff]
            rintro ⟨_ | ⟨d, w⟩, htext, hmap⟩
            · cases hmap
            · rw [List.cons_append, List.cons.injEq] at htext
              rw [List.map_cons, List.cons.injEq] at hmap
              exact hletter (htext.1 ▸ hmap.1)

/-- A word that starts in one piece and does not end there takes the first character of the next. -/
lemma behindWord_append {word b t rest : List Char} (h : behindWord word (b ++ t) = some rest) :
    (∃ r, behindWord word b = some r ∧ rest = r ++ t)
      ∨ ∃ c a, t = c :: (a ++ rest) ∧ (b ++ c :: a).map foldCase = word := by
  obtain ⟨w, htext, hword⟩ := behindWord_eq_some_iff.mp h
  obtain ⟨a, rfl, rfl⟩ | ⟨r, rfl, rfl⟩ := List.append_eq_append_iff.mp htext
  · cases a with
    | nil =>
        rw [List.append_nil] at hword
        exact .inl ⟨[], behindWord_eq_some_iff.mpr ⟨b, by simp, hword⟩, rfl⟩
    | cons c a => exact .inr ⟨c, a, rfl, hword⟩
  · exact .inl ⟨r, behindWord_eq_some_iff.mpr ⟨w, rfl, hword⟩, rfl⟩

lemma behindWord_append_of_some {word b r : List Char} (h : behindWord word b = some r)
    (t : List Char) : behindWord word (b ++ t) = some (r ++ t) := by
  obtain ⟨w, rfl, hword⟩ := behindWord_eq_some_iff.mp h
  exact behindWord_eq_some_iff.mpr ⟨w, List.append_assoc w r t, hword⟩

/-- No word goes on into a piece whose first character does not belong to it. -/
lemma behindWord_append_eq {word b t : List Char} {c : Char} (hc : foldCase c ∉ word) :
    behindWord word (b ++ c :: t) = (behindWord word b).map (· ++ c :: t) := by
  cases hb : behindWord word b with
  | some r => rw [behindWord_append_of_some hb, Option.map_some]
  | none =>
      rw [Option.map_none, Option.eq_none_iff_forall_ne_some]
      intro rest hrest
      obtain ⟨r, hr, -⟩ | ⟨d, a, ht, hword⟩ := behindWord_append hrest
      · rw [hb] at hr
        cases hr
      · obtain ⟨rfl, -⟩ := List.cons.inj ht
        exact hc (hword ▸ List.mem_map_of_mem (by simp))

/-- A word of which a character is missing is not found in a piece in front of a blank. -/
lemma behindWord_of_missing {word b q : List Char} {z : Char} (hz : z ∈ word)
    (hb : ∀ c ∈ b, foldCase c ≠ z) (hword : ∀ c ∈ word, isBlank c = false)
    (hq : ∀ c ∈ q.head?, isBlank c = true) : behindWord word (b ++ q) = none := by
  rw [Option.eq_none_iff_forall_ne_some]
  intro rest hrest
  obtain ⟨r, hr, -⟩ | ⟨c, a, rfl, rfl⟩ := behindWord_append hrest
  · obtain ⟨w, rfl, rfl⟩ := behindWord_eq_some_iff.mp hr
    obtain ⟨c, hc, hcz⟩ := List.mem_map.mp hz
    exact hb c (List.mem_append_left r hc) hcz
  · have hblank := hq c rfl
    have hfold := hword (foldCase c) (List.mem_map_of_mem (by simp))
    rw [foldCase_of_isBlank hblank, hblank] at hfold
    cases hfold

/-- Letters, as the names of secrets are made of. -/
def Letters (name : List Char) : Prop := ∀ c ∈ name, c.toLower.isAlpha = true

lemma Letters.foldCase_ne {name : List Char} (h : Letters name) {z : Char}
    (hz : z.isAlpha = false) : ∀ c ∈ name, foldCase c ≠ z := by
  rintro c hc rfl
  rw [foldCase_of_toLower (h c hc), h c hc] at hz
  cases hz

lemma Letters.notMem {name : List Char} (h : Letters name) {z : Char}
    (hz : z.toLower.isAlpha = false) : z ∉ name := by
  intro hmem
  rw [h z hmem] at hz
  cases hz

/-- What is left of an assignment does not start with a blank. -/
lemma Letters.head_append {name k : List Char} (h : Letters name) (hk : k ⊆ name) (t : List Char) :
    ∀ c ∈ (k ++ '=' :: t).head?, isBlank c = false := by
  intro c hc
  cases k with
  | nil =>
      obtain rfl : '=' = c := by simpa using hc
      decide
  | cons d k =>
      obtain rfl : d = c := by simpa using hc
      exact isBlank_of_letter (h d (hk List.mem_cons_self))

/-- A word without an equals sign that goes on into an assignment ends within the name. -/
lemma exists_of_crossing {name t rest a : List Char} {c : Char}
    (h : name ++ '=' :: t = c :: (a ++ rest)) (hequals : '=' ∉ c :: a) :
    ∃ k, name = c :: (a ++ k) ∧ rest = k ++ '=' :: t := by
  rw [← List.cons_append] at h
  obtain ⟨x, hx, hrest⟩ | ⟨k, hk, rfl⟩ := List.append_eq_append_iff.mp h
  · cases x with
    | nil => exact ⟨[], by rw [List.append_nil, hx, List.append_nil], hrest.symm⟩
    | cons d x =>
        obtain rfl := (List.cons.inj hrest).1
        exact absurd (by rw [hx]; simp) hequals
  · exact ⟨k, hk, rfl⟩

/-- A word without blanks is not found at a blank. -/
lemma behindWord_of_isBlank {word : List Char} (hne : word ≠ [])
    (hword : ∀ c ∈ word, isBlank c = false) {c : Char} (hc : isBlank c = true)
    (rest : List Char) : behindWord word (c :: rest) = none := by
  obtain ⟨letter, word, rfl⟩ := List.exists_cons_of_ne_nil hne
  rw [behindWord, if_neg]
  rintro rfl
  have hletter := hword _ List.mem_cons_self
  rw [foldCase_of_isBlank hc, hc] at hletter
  cases hletter

/-! ### Runs of characters -/

lemma countWhile_append_of_all {p : Char → Bool} {a : List Char} (h : ∀ c ∈ a, p c = true)
    (t : List Char) : countWhile p (a ++ t) = a.length + countWhile p t := by
  rw [countWhile, List.takeWhile_append_of_pos h, List.length_append, countWhile]

/-- A run ends in front of a character of another kind. -/
lemma countWhile_append_cons {p : Char → Bool} {c : Char} (hc : p c = false) (a t : List Char) :
    countWhile p (a ++ c :: t) = countWhile p a := by
  induction a with
  | nil => rw [List.nil_append, countWhile, List.takeWhile_cons_of_neg (by simp [hc]), countWhile,
      List.takeWhile_nil]
  | cons d a ih =>
      rw [List.cons_append, countWhile, countWhile]
      by_cases hd : p d = true
      · rw [List.takeWhile_cons_of_pos hd, List.takeWhile_cons_of_pos hd, List.length_cons,
          List.length_cons]
        exact congrArg (· + 1) ih
      · rw [List.takeWhile_cons_of_neg hd, List.takeWhile_cons_of_neg hd]

lemma countWhile_cons_of_neg {p : Char → Bool} {c : Char} (hc : p c = false) (t : List Char) :
    countWhile p (c :: t) = 0 :=
  countWhile_append_cons hc [] t

lemma countWhile_le (p : Char → Bool) (text : List Char) : countWhile p text ≤ text.length :=
  (List.takeWhile_prefix p).length_le

lemma length_trimEnd_le (text : List Char) : (trimEnd text).length ≤ text.length := by
  rw [trimEnd, List.length_reverse]
  exact (List.dropWhile_suffix isBlank).length_le.trans_eq List.length_reverse

end Componentry.Redaction
