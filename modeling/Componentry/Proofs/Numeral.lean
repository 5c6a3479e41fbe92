import Mathlib.Tactic
import Componentry.Number.Numeral
/-!
# Reading written numerals

`Numeral.Spells n cs` is the grammar of numerals: a sign, digits without leading zeros, and perhaps
a fraction and an exponent.  A text of this grammar is read as its numeral (`ofChars?_of_spells`).
-/

namespace Componentry.Numeral

/-- Digits as they are written; there is at least one. -/
def Digits (ds : List Nat) (cs : List Char) : Prop :=
  ds ≠ [] ∧ List.Forall₂ (fun d c => digit? c = some d) ds cs

/-- How the part behind the point is written. -/
inductive FractionSpells : Option (List Nat) → List Char → Prop
  | none : FractionSpells none []
  | some {ds : List Nat} {cs : List Char} (h : Digits ds cs) : FractionSpells (some ds) ('.' :: cs)

/-- How the exponent is written. -/
inductive ExponentSpells : Option Int → List Char → Prop
  | none : ExponentSpells none []
  | unsigned {mark : Char} {ds : List Nat} {cs : List Char} (hmark : mark = 'e' ∨ mark = 'E')
      (h : Digits ds cs) : ExponentSpells (some (valueOf ds)) (mark :: cs)
  | plus {mark : Char} {ds : List Nat} {cs : List Char} (hmark : mark = 'e' ∨ mark = 'E')
      (h : Digits ds cs) : ExponentSpells (some (valueOf ds)) (mark :: '+' :: cs)
  | minus {mark : Char} {ds : List Nat} {cs : List Char} (hmark : mark = 'e' ∨ mark = 'E')
      (h : Digits ds cs) : ExponentSpells (some (-valueOf ds)) (mark :: '-' :: cs)

/-- How the sign is written. -/
def signText (negative : Bool) : List Char := if negative then ['-'] else []

/-- How a numeral is written: without leading zeros, and with digits on both sides of a point. -/
inductive Spells : Numeral → List Char → Prop
  | intro {negative : Bool} {whole : List Nat} {fraction : Option (List Nat)}
      {exponent : Option Int} {wholeText fractionText exponentText : List Char}
      (hwhole : Digits whole wholeText) (hzero : whole.length = 1 ∨ whole.head? ≠ some 0)
      (hfraction : FractionSpells fraction fractionText)
      (hexponent : ExponentSpells exponent exponentText) :
      Spells ⟨negative, whole, fraction, exponent⟩
        (signText negative ++ (wholeText ++ (fractionText ++ exponentText)))

/-- Digits that stand in front of this text end there. -/
def DigitsEnd (cs : List Char) : Prop := ∀ c, cs.head? = some c → digit? c = none

lemma spanDigits_of_digitsEnd {cs : List Char} (h : DigitsEnd cs) : spanDigits cs = ([], cs) := by
  cases cs with
  | nil => rfl
  | cons c cs => rw [spanDigits, h c rfl]

lemma spanDigits_written {ds : List Nat} {cs rest : List Char}
    (h : List.Forall₂ (fun d c => digit? c = some d) ds cs) (hrest : DigitsEnd rest) :
    spanDigits (cs ++ rest) = (ds, rest) := by
  induction h with
  | nil => exact spanDigits_of_digitsEnd hrest
  | cons hd _ ih => rw [List.cons_append, spanDigits, hd, ih]

lemma Digits.eq_cons {ds : List Nat} {cs : List Char} (h : Digits ds cs) :
    ∃ d ds' c cs', ds = d :: ds' ∧ cs = c :: cs' ∧ digit? c = some d ∧
      List.Forall₂ (fun d c => digit? c = some d) ds' cs' := by
  obtain ⟨hne, hall⟩ := h
  cases hall with
  | nil => exact absurd rfl hne
  | cons hd htail => exact ⟨_, _, _, _, rfl, rfl, hd, htail⟩

lemma ExponentSpells.digitsEnd {exponent : Option Int} {cs : List Char}
    (h : ExponentSpells exponent cs) : DigitsEnd cs := by
  intro c hc
  cases h with
  | none => cases hc
  | unsigned hmark _ | plus hmark _ | minus hmark _ =>
      cases hc
      rcases hmark with rfl | rfl <;> rfl

lemma FractionSpells.digitsEnd {fraction : Option (List Nat)} {cs more : List Char}
    (h : FractionSpells fraction cs) (hmore : DigitsEnd more) : DigitsEnd (cs ++ more) := by
  cases h with
  | none => exact hmore
  | some _ =>
      intro c hc
      cases hc
      rfl

lemma digit?_ne {c : Char} {d : Nat} (h : digit? c = some d) {other : Char}
    (hother : digit? other = none) : c ≠ other := by
  rintro rfl
  rw [h] at hother
  cases hother

/-- The exponent of a text that has one at its end. -/
lemma exponent?_of_spells {exponent : Option Int} {cs : List Char}
    (h : ExponentSpells exponent cs) : exponent? cs = some (exponent, []) := by
  have hend : DigitsEnd [] := by
    intro c hc
    cases hc
  have hspan {ds : List Nat} {digits : List Char} (h : Digits ds digits) :
      spanDigits digits = (ds, []) := by
    have hw := spanDigits_written h.2 hend
    rwa [List.append_nil] at hw
  cases h with
  | none => rfl
  | @unsigned mark ds cs hmark h =>
      obtain ⟨d, ds', c, cs', rfl, rfl, hd, -⟩ := h.eq_cons
      have hminus : c ≠ '-' := digit?_ne hd rfl
      have hplus : c ≠ '+' := digit?_ne hd rfl
      simp [exponent?, hmark, hminus, hplus, hspan h]
  | @plus mark ds cs hmark h =>
      obtain ⟨d, ds', c, cs', rfl, rfl, hd, -⟩ := h.eq_cons
      rw [exponent?, if_pos hmark]
      dsimp only
      rw [hspan h]
      rfl
  | @minus mark ds cs hmark h =>
      obtain ⟨d, ds', c, cs', rfl, rfl, hd, -⟩ := h.eq_cons
      rw [exponent?, if_pos hmark]
      dsimp only
      rw [hspan h]
      rfl

/-- **A written numeral is read.** -/
theorem ofChars?_of_spells {n : Numeral} {cs : List Char} (h : n.Spells cs) :
    ofChars? cs = some n := by
  cases h with
  | @intro negative whole fraction exponent wholeText fractionText exponentText hwhole hzero
      hfraction hexponent =>
      have hspan := spanDigits_written hwhole.2 (hfraction.digitsEnd hexponent.digitsEnd)
      have hread := exponent?_of_spells hexponent
      obtain ⟨d, ds, c, cs, rfl, rfl, hd, -⟩ := hwhole.eq_cons
      have hminus : c ≠ '-' := digit?_ne hd rfl
      have hleading : ds = [] ∨ d ≠ 0 := by simpa using hzero
      cases hfraction with
      | none =>
          have hpoint : ∀ cs', exponentText ≠ '.' :: cs' := by
            rintro cs' rfl
            rcases hexponent with _ | ⟨h | h, _⟩ | ⟨h | h, _⟩ | ⟨h | h, _⟩ <;> cases h
          simp only [List.cons_append, List.nil_append] at hspan
          cases negative <;> simp [ofChars?, signText, hminus, hspan, hleading, hread]
      | @some fractionDigits fractionText hdigits =>
          have hspan' := spanDigits_written hdigits.2 hexponent.digitsEnd
          obtain ⟨d', ds', c', cs', rfl, rfl, -, -⟩ := hdigits.eq_cons
          simp only [List.cons_append] at hspan hspan'
          cases negative <;> simp [ofChars?, signText, hminus, hspan, hleading, hspan', hread]

end Componentry.Numeral
