import Mathlib.Tactic
import Componentry.Proofs.Redaction.Scan
import Componentry.Proofs.Redaction.Words
/-!
# Texts with marks in them

A recogniser leaves a text in which some pieces have given way to the mark (`Marked`).  Such a piece
is not empty and has no blanks, and where a letter comes behind it a word may begin there anyway; so
the mark opens no place for a match that was not there before.  A recogniser is `Steady` if it finds
nothing within the mark, and nothing at a character that is kept where it has found nothing before.
What is clear for a steady recogniser is then still clear once it is marked (`Steady.clear`).

`Replaced` is the run of a recogniser over a text, match by match.
-/

namespace Componentry.Redaction

open Text

variable {find : Recogniser}

/-! ### Texts in which nothing is found -/

/-- Nothing is found anywhere in a text. -/
def Clear (find : Recogniser) (before : Option Char) : List Char → Prop
  | [] => True
  | c :: rest => find before (c :: rest) = none ∧ Clear find (some c) rest

lemma Clear.replaceFrom_eq {before : Option Char} {text : List Char}
    (h : Clear find before text) : replaceFrom find before 0 text = text := by
  induction text generalizing before with
  | nil => rfl
  | cons c rest ih => rw [replaceFrom_cons_of_none h.1, ih h.2]

lemma Clear.replaceAll_eq {text : List Char} (h : Clear find none text) :
    replaceAll find text = text :=
  h.replaceFrom_eq

/-- A piece within which nothing is found, in front of a clear text. -/
lemma Clear.append {u t : List Char}
    (hu : ∀ before b, b ≠ [] → b <:+ u → find before (b ++ t) = none) {before : Option Char}
    (h : Clear find (behind before u) t) : Clear find before (u ++ t) := by
  induction u generalizing before with
  | nil => exact h
  | cons c u ih =>
      rw [behind_cons] at h
      exact ⟨hu before (c :: u) (by simp) List.suffix_rfl,
        ih (fun before b hb hsuffix => hu before b hb (hsuffix.trans (List.suffix_cons c u))) h⟩

lemma Clear.of_append {before : Option Char} {u t : List Char} (h : Clear find before (u ++ t)) :
    Clear find (behind before u) t := by
  induction u generalizing before with
  | nil => exact h
  | cons c u ih =>
      rw [behind_cons]
      exact ih h.2

/-! ### The run of a recogniser -/

/-- The run of a recogniser over a text, match by match. -/
inductive Replaced (find : Recogniser) : Option Char → List Char → List Char → Prop
  | done (before : Option Char) : Replaced find before [] []
  | pass {before : Option Char} {c : Char} {rest rest' : List Char}
      (absent : find before (c :: rest) = none) (go : Replaced find (some c) rest rest') :
      Replaced find before (c :: rest) (c :: rest')
  | hit {before : Option Char} {kept secret rest rest' : List Char}
      (found : find before (kept ++ secret ++ rest) = some ⟨kept.length, secret.length⟩)
      (go : Replaced find (behind before (kept ++ secret)) rest rest') :
      Replaced find before (kept ++ secret ++ rest) (kept ++ mark ++ rest')

/-- A match as the pieces of the text that it is about. -/
lemma exists_pieces (hfind : Sober find) {before : Option Char} {text : List Char}
    {finding : Finding} (h : find before text = some finding) :
    ∃ kept secret rest, text = kept ++ secret ++ rest ∧ kept ≠ []
      ∧ finding = ⟨kept.length, secret.length⟩ := by
  have hpos := hfind.kept before text finding h
  have hbound := hfind.bound before text finding h
  obtain ⟨kept, secret⟩ := finding
  dsimp only at hpos hbound
  refine ⟨text.take kept, (text.drop kept).take secret, (text.drop kept).drop secret, ?_, ?_, ?_⟩
  · rw [List.append_assoc, List.take_append_drop, List.take_append_drop]
  · rw [← List.length_pos_iff, List.length_take]
    omega
  · rw [List.length_take_of_le (by omega), List.length_take_of_le (by rw [List.length_drop]; omega)]

lemma replaced_replaceFrom (hfind : Sober find) (before : Option Char) (text : List Char) :
    Replaced find before text (replaceFrom find before 0 text) := by
  induction hlength : text.length using Nat.strong_induction_on generalizing before text with
  | _ n ih =>
    cases text with
    | nil => exact .done before
    | cons c rest =>
        cases hfound : find before (c :: rest) with
        | none =>
            rw [replaceFrom_cons_of_none hfound]
            exact .pass hfound (ih rest.length (by rw [← hlength]; simp) _ rest rfl)
        | some finding =>
            obtain ⟨kept, secret, rest', htext, hne, rfl⟩ := exists_pieces hfind hfound
            rw [htext] at hfound hlength ⊢
            rw [replaceFrom_of_match hfound (by simp [hne])]
            refine .hit hfound (ih rest'.length ?_ _ rest' rfl)
            have hpos := List.length_pos_of_ne_nil hne
            simp only [List.length_append] at hlength
            omega

/-! ### Marks -/

/-- What the mark may stand for in front of a text: it is not empty and has no blanks, and where a
letter comes behind it a word may begin there. -/
structure Hideable (secret t : List Char) : Prop where
  ne_nil : secret ≠ []
  notBlank : ∀ c ∈ secret, isBlank c = false
  boundary : ∀ c ∈ t.head?, (foldCase c).isAlpha = true → atBoundary secret.getLast? = true

/-- A text of which some pieces have given way to the mark. -/
inductive Marked : List Char → List Char → Prop
  | nil : Marked [] []
  | keep (c : Char) {t t' : List Char} (go : Marked t t') : Marked (c :: t) (c :: t')
  | hide {secret t t' : List Char} (hidden : Hideable secret t) (go : Marked t t') :
      Marked (secret ++ t) (mark ++ t')

namespace Marked

variable {t t' : List Char}

lemma refl (t : List Char) : Marked t t := by
  induction t with
  | nil => exact .nil
  | cons c t ih => exact .keep c ih

lemma append_left (h : Marked t t') (u : List Char) : Marked (u ++ t) (u ++ t') := by
  induction u with
  | nil => exact h
  | cons c u ih => exact .keep c ih

/-- A text starts as it did, or with a mark in place of a character that is not blank. -/
lemma head_cases (h : Marked t t') :
    t'.head? = t.head? ∨ t'.head? = some '[' ∧ ∃ c, t.head? = some c ∧ isBlank c = false := by
  cases h with
  | nil | keep => exact .inl rfl
  | @hide secret t t' hidden _ =>
      obtain ⟨c, secret, rfl⟩ := List.exists_cons_of_ne_nil hidden.ne_nil
      exact .inr ⟨rfl, c, rfl, hidden.notBlank c List.mem_cons_self⟩

/-- A word that is found has been there, since the mark belongs to no word. -/
lemma behindWord (h : Marked t t') {word r' : List Char} (hword : '[' ∉ word)
    (hfound : Redaction.behindWord word t' = some r') :
    ∃ r, Redaction.behindWord word t = some r ∧ Marked r r' := by
  induction word generalizing t t' with
  | nil =>
      cases hfound
      exact ⟨t, rfl, h⟩
  | cons letter word ih =>
      cases h with
      | nil => cases hfound
      | keep c h =>
          rw [Redaction.behindWord] at hfound ⊢
          split_ifs at hfound ⊢ with hletter
          exact ih h (fun hmem => hword (List.mem_cons_of_mem letter hmem)) hfound
      | hide =>
          have hbracket : foldCase '[' = letter := by
            by_contra hne
            rw [show mark = '[' :: "REDACTED]".toList from rfl, List.cons_append,
              Redaction.behindWord, if_neg hne] at hfound
            cases hfound
          rw [show foldCase '[' = '[' by decide] at hbracket
          exact absurd List.mem_cons_self (hbracket ▸ hword)

/-- Blanks have been there. -/
lemma blanks {blanks body' : List Char} (h : Marked t (blanks ++ body'))
    (hblanks : Blanks blanks) : ∃ body, t = blanks ++ body ∧ Marked body body' := by
  induction blanks generalizing t with
  | nil => exact ⟨t, rfl, h⟩
  | cons d blanks ih =>
      have hd := hblanks d List.mem_cons_self
      generalize htext : d :: blanks ++ body' = text at h
      cases h with
      | nil => cases htext
      | keep c h =>
          obtain ⟨rfl, rfl⟩ := List.cons.inj htext
          obtain ⟨body, rfl, hbody⟩ := ih h fun e he => hblanks e (List.mem_cons_of_mem _ he)
          exact ⟨body, rfl, hbody⟩
      | hide =>
          obtain ⟨rfl, -⟩ := List.cons.inj htext
          exact absurd hd (by decide)

/-- A text that is set apart stays so. -/
lemma apart (h : Marked t t') (ht : Apart t) : Apart t' := by
  obtain hsame | ⟨-, c, hc, hblank⟩ := h.head_cases
  · rwa [Apart, hsame]
  · rw [ht c hc] at hblank
    cases hblank

end Marked

/-- A run marks a text if its matches hide pieces as they must be. -/
lemma Replaced.marked {before : Option Char} {t t' : List Char} (h : Replaced find before t t')
    (hfind : ∀ before kept secret rest,
      find before (kept ++ secret ++ rest) = some ⟨kept.length, secret.length⟩ →
      Hideable secret rest) : Marked t t' := by
  induction h with
  | done before => exact .nil
  | pass _ _ ih => exact .keep _ ih
  | hit hfound _ ih =>
      rw [List.append_assoc, List.append_assoc]
      exact (Marked.hide (hfind _ _ _ _ hfound) ih).append_left _

/-! ### Blanks behind a word -/

/-- Whether a text starts with blanks, and with a character of a given kind behind them. -/
def Leads (p : Char → Bool) (text : List Char) : Prop :=
  ∃ blanks c body, text = blanks ++ c :: body ∧ Blanks blanks ∧ blanks ≠ []
    ∧ isBlank c = false ∧ p c = true

/-- What a text leads to has been there, if any character that is not blank is of the kind that the
mark is of. -/
lemma Marked.leads {t t' : List Char} (h : Marked t t') {p : Char → Bool}
    (hp : p '[' = true → ∀ c, isBlank c = false → p c = true) (hleads : Leads p t') :
    Leads p t := by
  obtain ⟨blanks, c, body', rfl, hblanks, hne, hc, hpc⟩ := hleads
  obtain ⟨body, rfl, hbody⟩ := h.blanks hblanks
  obtain hsame | ⟨hbracket, d, hd, hblank⟩ := hbody.head_cases
  · obtain ⟨rest, rfl⟩ := List.head?_eq_some_iff.mp hsame.symm
    exact ⟨blanks, c, rest, rfl, hblanks, hne, hc, hpc⟩
  · obtain ⟨rest, rfl⟩ := List.head?_eq_some_iff.mp hd
    obtain rfl := Option.some.inj hbracket
    exact ⟨blanks, d, rest, rfl, hblanks, hne, hblank, hp hpc d hblank⟩

/-- What a text of blanks and something else leads to. -/
lemma leads_append {p : Char → Bool} {blanks body : List Char} (hblanks : Blanks blanks)
    (hbody : ∀ c ∈ body.head?, isBlank c = false) :
    Leads p (blanks ++ body) ↔ blanks ≠ [] ∧ ∃ c ∈ body.head?, p c = true := by
  constructor
  · rintro ⟨blanks', c, rest, htext, hblanks', hne, hc, hpc⟩
    have hsame : ∀ {u v : List Char}, Blanks u → (∀ c ∈ v.head?, isBlank c = false) →
        (u ++ v).takeWhile isBlank = u := by
      intro u v hu hv
      rw [List.takeWhile_append_of_pos hu]
      cases v with
      | nil => simp
      | cons d v => rw [List.takeWhile_cons_of_neg (by simp [hv d rfl]), List.append_nil]
    have hfirst := hsame hblanks' (v := c :: rest) (by rintro d ⟨⟩; exact hc)
    rw [← htext, hsame hblanks hbody] at hfirst
    subst hfirst
    exact ⟨hne, c, by rw [List.append_cancel_left htext]; rfl, hpc⟩
  · rintro ⟨hne, c, hc, hpc⟩
    obtain ⟨rest, rfl⟩ := List.head?_eq_some_iff.mp hc
    exact ⟨blanks, c, rest, rfl, hblanks, hne, hbody c hc, hpc⟩

/-- Behind a word in a text of this word and blanks there are only blanks. -/
lemma blanks_of_suffix {word w blanks b r : List Char} (hword : w.map foldCase = word)
    (hblanks : Blanks blanks) (hb : b <:+ w ++ blanks) (hfound : behindWord word b = some r) :
    Blanks r := by
  obtain ⟨w', rfl, hword'⟩ := behindWord_eq_some_iff.mp hfound
  have hlength : w'.length = w.length := by
    rw [← List.length_map (f := foldCase), hword', ← hword, List.length_map]
  have hle := hb.length_le
  simp only [List.length_append] at hle
  have hr : r <:+ blanks := List.suffix_of_suffix_length_le
    ((List.suffix_append w' r).trans hb) (List.suffix_append w blanks) (by omega)
  exact fun c hc => hblanks c (hr.subset hc)

/-! ### Steady recognisers -/

/-- Nothing is found within the mark, nor at a character that stays where nothing has been found
before, as long as no new place for a word comes up in front of it. -/
structure Steady (find : Recogniser) : Prop where
  mark : ∀ before b t, b ≠ [] → b <:+ mark → find before (b ++ t) = none
  keep : ∀ {before before' c t t'}, Marked t t' →
    ((foldCase c).isAlpha = true → atBoundary before' = true → atBoundary before = true) →
    find before (c :: t) = none → find before' (c :: t') = none

lemma behind_mark (before : Option Char) : behind before mark = some ']' := by
  rw [show mark = "[REDACTED".toList ++ [']'] from rfl, behind_concat]

lemma behind_append_of_ne_nil {secret : List Char} (h : secret ≠ []) (before : Option Char)
    (kept : List Char) : behind before (kept ++ secret) = secret.getLast? := by
  obtain ⟨front, last, rfl⟩ := (List.eq_nil_or_concat secret).resolve_left h
  rw [List.concat_eq_append, ← List.append_assoc, behind_concat, List.getLast?_concat]

/-- **A clear text is clear once it is marked.** -/
lemma Steady.clear (hfind : Steady find) {t t' : List Char} (h : Marked t t')
    {before before' : Option Char}
    (hbefore : ∀ c ∈ t.head?, (foldCase c).isAlpha = true → atBoundary before' = true →
      atBoundary before = true)
    (hclear : Clear find before t) : Clear find before' t' := by
  induction h generalizing before before' with
  | nil => trivial
  | keep c h ih =>
      exact ⟨hfind.keep h (hbefore c rfl) hclear.1, ih (fun _ _ _ hsame => hsame) hclear.2⟩
  | hide hidden _ ih =>
      refine Clear.append (fun before b hb hsuffix => hfind.mark before b _ hb hsuffix)
        (ih (fun c hc halpha _ => ?_) hclear.of_append)
      have hlast := behind_append_of_ne_nil hidden.ne_nil before []
      rw [List.nil_append] at hlast
      rw [hlast]
      exact hidden.boundary c hc halpha

end Componentry.Redaction
