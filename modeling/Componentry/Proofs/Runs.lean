import Mathlib.Tactic
import Componentry.Proofs.Words
/-!
# Runs of letters and digits

The runs of a text are its longest stretches of letters and digits (`HasRuns`), whatever stands
between them, in front of them and behind them.  Every text has runs, and only one sequence of them
(`hasRuns_iff`).  Blanks around a text are no part of any run, so trimming leaves the runs as they
are (`runs_trimChars`).

What a text is in upper camel case depends on its runs only, and it is made of the letters and digits
of the text, in their order and up to case (`map_toLower_camelChars`).  So nothing is left just if the
text has no letter and no digit (`camelChars_eq_nil_iff`).
-/

namespace Componentry.Text

/-- The runs of letters and digits of a text, in order.  A run reaches as far as it can: what stands
behind it is no letter and no digit. -/
inductive HasRuns : List (List Char) → List Char → Prop
  | nil : HasRuns [] []
  | skip {rs : List (List Char)} {text : List Char} {c : Char} (hc : ¬ isAsciiAlphanumeric c)
      (hrest : HasRuns rs text) : HasRuns rs (c :: text)
  | run {rs : List (List Char)} {text word : List Char} (hword : IsWord word)
      (hend : ∀ c ∈ text.head?, ¬ isAsciiAlphanumeric c) (hrest : HasRuns rs text) :
      HasRuns (word :: rs) (word ++ text)

variable {rs : List (List Char)} {text : List Char}

/-- A text has one sequence of runs at most. -/
lemma HasRuns.runs_eq (h : HasRuns rs text) : runs text = rs := by
  induction h with
  | nil => rfl
  | skip hc _ ih => rw [runs, runs.go, if_neg hc, if_pos rfl, ← runs, ih]
  | @run rs text word hword hend hrest ih =>
      have hne : word.reverse ≠ [] := by simpa using hword.1
      rw [runs, runs_go_append hword.2, List.append_nil]
      cases text with
      | nil =>
          obtain rfl : [] = rs := ih
          rw [runs.go, if_neg hne, List.reverse_reverse]
      | cons c rest =>
          have hc := hend c rfl
          rw [runs, runs.go, if_neg hc, if_pos rfl] at ih
          rw [runs.go, if_neg hc, if_neg hne, List.reverse_reverse, ih]

/-- What has been read of a run goes on with the letters and digits that come next. -/
lemma hasRuns_go {front : List Char} (hfront : front.all isAsciiAlphanumeric) (text : List Char) :
    HasRuns (runs.go front text) (front.reverse ++ text) := by
  have hword : ∀ {front : List Char}, front.all isAsciiAlphanumeric → front ≠ [] →
      IsWord front.reverse := fun hall hne => ⟨by simpa using hne, by simpa using hall⟩
  induction text generalizing front with
  | nil =>
      rw [runs.go]
      split_ifs with hnil
      · rw [hnil]
        exact .nil
      · exact .run (hword hfront hnil) (by simp) .nil
  | cons c rest ih =>
      rw [runs.go]
      split_ifs with hc hnil
      · have hnext := @ih (c :: front) (by simp [hc, hfront])
        rwa [List.reverse_cons, List.append_assoc, List.singleton_append] at hnext
      · rw [hnil]
        exact .skip hc (@ih [] rfl)
      · exact .run (hword hfront hnil) (by simpa using hc) (.skip hc (@ih [] rfl))

/-- **Every text has its runs, and no others.** -/
theorem hasRuns_iff : HasRuns rs text ↔ runs text = rs :=
  ⟨HasRuns.runs_eq, fun h => h ▸ @hasRuns_go [] rfl text⟩

/-! ### What is no part of a run -/

lemma HasRuns.append_left (h : HasRuns rs text) {gap : List Char}
    (hgap : ∀ c ∈ gap, ¬ isAsciiAlphanumeric c) : HasRuns rs (gap ++ text) := by
  induction gap with
  | nil => exact h
  | cons c gap ih =>
      rw [List.forall_mem_cons] at hgap
      exact .skip hgap.1 (ih hgap.2)

lemma HasRuns.append_right (h : HasRuns rs text) {gap : List Char}
    (hgap : ∀ c ∈ gap, ¬ isAsciiAlphanumeric c) : HasRuns rs (text ++ gap) := by
  induction h with
  | nil => simpa using HasRuns.nil.append_left hgap
  | skip hc _ ih => exact .skip hc ih
  | @run rs text word hword hend _ ih =>
      rw [List.append_assoc]
      refine .run hword (fun c hc => ?_) ih
      rw [List.head?_append, Option.mem_def, Option.or_eq_some_iff] at hc
      obtain hc | ⟨-, hc⟩ := hc
      · exact hend c hc
      · exact hgap c (List.mem_of_mem_head? hc)

/-- Trimming leaves the runs as they are. -/
lemma runs_trimChars (text : List Char) : runs (trimChars text) = runs text := by
  obtain ⟨lead, trail, hlead, htrail, htext⟩ := exists_trimChars text
  have hout : ∀ {gap : List Char}, Blanks gap → ∀ c ∈ gap, ¬ isAsciiAlphanumeric c :=
    fun hgap c hc hletter => by
      have hnot := isBlank_of_isAlphanum hletter
      rw [hgap c hc] at hnot
      cases hnot
  have hinner : HasRuns (runs (trimChars text)) (trimChars text) := hasRuns_iff.mpr rfl
  have hruns := (hinner.append_left (hout hlead)).append_right (hout htrail)
  rw [htext] at hruns
  exact hruns.runs_eq.symm

/-- The runs together are the letters and digits of a text. -/
lemma HasRuns.flatten_eq (h : HasRuns rs text) : rs.flatten = text.filter isAsciiAlphanumeric := by
  induction h with
  | nil => rfl
  | skip hc _ ih => rw [List.filter_cons_of_neg hc, ih]
  | run hword _ _ ih =>
      rw [List.flatten_cons, List.filter_append, ih,
        List.filter_eq_self.mpr (List.all_eq_true.mp hword.2)]

/-! ### Camel case -/

/-- Texts with the same runs are the same in upper camel case. -/
lemma camelChars_eq_of_runs {other : List Char} (h : runs text = runs other) :
    camelChars text = camelChars other := by
  rw [camelChars, camelChars, words, words, h]

lemma map_toLower_capitalize (word : List Char) :
    (capitalize word).map Char.toLower = word.map Char.toLower := by
  cases word <;> simp [capitalize]

/-- **Upper camel case keeps the letters and digits** of a text in their order, up to case, and
nothing else. -/
theorem map_toLower_camelChars (text : List Char) :
    (camelChars text).map Char.toLower
      = (text.filter isAsciiAlphanumeric).map Char.toLower := by
  have hwords : ∀ ws : List (List Char),
      (ws.flatMap capitalize).map Char.toLower = ws.flatten.map Char.toLower := by
    intro ws
    induction ws with
    | nil => rfl
    | cons word rest ih =>
        rw [List.flatMap_cons, List.map_append, ih, map_toLower_capitalize, List.flatten_cons,
          List.map_append]
  calc (camelChars text).map Char.toLower
      = (words text).flatten.map Char.toLower := hwords (words text)
    _ = (runs text).flatten.map Char.toLower := by rw [flatten_words]
    _ = (text.filter isAsciiAlphanumeric).map Char.toLower := by
        rw [(hasRuns_iff.mpr rfl : HasRuns (runs text) text).flatten_eq]

/-- Nothing is left of a text without letters and digits, and of no other. -/
lemma camelChars_eq_nil_iff : camelChars text = [] ↔ ∀ c ∈ text, ¬ isAsciiAlphanumeric c := by
  rw [← List.map_eq_nil_iff (f := Char.toLower), map_toLower_camelChars, List.map_eq_nil_iff,
    List.filter_eq_nil_iff]

end Componentry.Text
