import Mathlib.Tactic
import Componentry.Proofs.Condition.Operand
/-!
# The syntax of conditions

An `Expr` is a condition as one has it in mind, with the blanks that stand around its signs: parts
joined by connectives, negations, groups, comparisons, tests for an item and single operands.
Several parts with the same connective between them are joined one after the other.

* `Expr.denote`: what an expression means in a scope;
* `Expr.grouped`: a group around every part that binds less tightly than what it is a part of;
* `Expr.print`: the text of an expression, with these groups;
* `Expr.Safe`: inside of groups no operand contains a parenthesis.

Where all groups are in place, the expression `Fits`.  The text of such an expression is solid and
nested, and its connectives stand outside of groups only where its level says so (`Expr.nested`).
-/

namespace Componentry.Condition

/-- Blanks that mean nothing. -/
abbrev Spaces : Type := { cs : List Char // Text.Blanks cs }

/-- The blanks before and behind a sign, or inside of parentheses. -/
structure Gap where
  before : Spaces
  after : Spaces

namespace Gap

/-- No blanks at all. -/
def empty : Gap := ⟨⟨[], Text.Blanks.nil⟩, ⟨[], Text.Blanks.nil⟩⟩

/-- A sign with its blanks. -/
def around (gap : Gap) (sign : List Char) : List Char :=
  gap.before.val ++ (sign ++ gap.after.val)

/-- A text with its blanks in parentheses. -/
def enclosing (gap : Gap) (text : List Char) : List Char :=
  '(' :: (gap.before.val ++ text ++ gap.after.val ++ [')'])

end Gap

/-- What joins parts. -/
inductive Connective where
  | or
  | and
  deriving DecidableEq

namespace Connective

/-- The character that a connective is written with, twice. -/
def mark : Connective → Char
  | or => '|'
  | and => '&'

def operator (k : Connective) : List Char := [k.mark, k.mark]

/-- How tightly a connective binds. -/
def level : Connective → Nat
  | or => 0
  | and => 1

def combine : Connective → Bool → Bool → Bool
  | or => Bool.or
  | and => Bool.and

lemma level_lt (k : Connective) : k.level < 2 := by
  cases k <;> decide

end Connective

/-- What compares two operands. -/
inductive Comparison where
  | equal
  | unequal
  deriving DecidableEq

namespace Comparison

def operator : Comparison → List Char
  | equal => ['=', '=']
  | unequal => ['!', '=']

def holds (v w : Json) : Comparison → Bool
  | equal => v.agrees w
  | unequal => !v.agrees w

end Comparison

/-- An expression with the blanks in it. -/
inductive Expr where
  | join (connective : Connective) (left : Expr) (gap : Gap) (right : Expr)
  | not (gap : Spaces) (part : Expr)
  | group (gap : Gap) (inner : Expr)
  | compare (comparison : Comparison) (left : Term) (gap : Gap) (right : Term)
  | includes (container : Term) (gap : Gap) (item : Term)
  | truthy (term : Term)

namespace Expr

/-- What an expression means. -/
def denote (scope : Scope) : Expr → Bool
  | join k left _ right => k.combine (left.denote scope) (right.denote scope)
  | not _ part => !part.denote scope
  | group _ inner => inner.denote scope
  | compare comparison left _ right => comparison.holds (left.value scope) (right.value scope)
  | includes container _ item => (container.value scope).includesItem (item.value scope)
  | truthy term => (term.value scope).isTruthy

/-- The text of an expression as it stands. -/
def text : Expr → List Char
  | join k left gap right => left.text ++ gap.around k.operator ++ right.text
  | not gap part => '!' :: (gap.val ++ part.text)
  | group gap inner => gap.enclosing inner.text
  | compare comparison left gap right =>
    left.text ++ gap.around comparison.operator ++ right.text
  | includes container gap item =>
    container.text ++ ".includes".toList ++ gap.enclosing item.text
  | truthy term => term.text

/-! ### Groups -/

/-- How tightly an expression is held together. -/
def level : Expr → Nat
  | join k _ _ _ => k.level
  | _ => 2

/-- Every part binds as tightly as what it is a part of. -/
def Fits : Expr → Prop
  | join k left _ right =>
    k.level ≤ left.level ∧ k.level ≤ right.level ∧ left.Fits ∧ right.Fits
  | not _ part => 2 ≤ part.level ∧ part.Fits
  | group _ inner => inner.Fits
  | _ => True

/-- The expression, in a group if it binds less tightly than it has to. -/
def held (bound : Nat) (e : Expr) : Expr :=
  if bound ≤ e.level then e else group .empty e

/-- The expression with all the groups that it needs. -/
def grouped : Expr → Expr
  | join k left gap right => join k (left.grouped.held k.level) gap (right.grouped.held k.level)
  | not gap part => not gap (part.grouped.held 2)
  | group gap inner => group gap inner.grouped
  | e => e

/-- The text of an expression with all the groups that it needs. -/
def print (e : Expr) : List Char := e.grouped.text

lemma level_held {bound : Nat} (hbound : bound ≤ 2) (e : Expr) :
    bound ≤ (e.held bound).level := by
  rw [held]
  split_ifs with h
  · exact h
  · exact hbound

lemma Fits.held {e : Expr} (h : e.Fits) (bound : Nat) : (e.held bound).Fits := by
  rw [Expr.held]
  split_ifs
  · exact h
  · exact h

lemma denote_held (scope : Scope) (bound : Nat) (e : Expr) :
    (e.held bound).denote scope = e.denote scope := by
  rw [held]
  split_ifs <;> rfl

/-- All the groups that are needed are there. -/
theorem fits_grouped (e : Expr) : e.grouped.Fits := by
  induction e with
  | join k left gap right ihl ihr =>
      exact ⟨level_held k.level_lt.le _, level_held k.level_lt.le _,
        ihl.held k.level, ihr.held k.level⟩
  | not gap part ih => exact ⟨level_held le_rfl _, ih.held 2⟩
  | group gap inner ih => exact ih
  | compare comparison left gap right => trivial
  | includes container gap item => trivial
  | truthy term => trivial

/-- Groups do not change what an expression means. -/
theorem denote_grouped (scope : Scope) (e : Expr) : e.grouped.denote scope = e.denote scope := by
  induction e with
  | join k left gap right ihl ihr =>
      show k.combine _ _ = k.combine _ _
      rw [denote_held, denote_held, ihl, ihr]
  | not gap part ih =>
      show (!_) = !_
      rw [denote_held, ih]
  | group gap inner ih => exact ih
  | compare comparison left gap right => rfl
  | includes container gap item => rfl
  | truthy term => rfl

/-! ### Parentheses in operands -/

/-- No operand contains a parenthesis. -/
def Quiet : Expr → Prop
  | join _ left _ right => left.Quiet ∧ right.Quiet
  | not _ part => part.Quiet
  | group _ inner => inner.Quiet
  | compare _ left _ right => left.Quiet ∧ right.Quiet
  | includes container _ item => container.Quiet ∧ item.Quiet
  | truthy term => term.Quiet

/-- Inside of groups no operand contains a parenthesis. -/
def Safe : Expr → Prop
  | join _ left _ right => left.Safe ∧ right.Safe
  | not _ part => part.Safe
  | group _ inner => inner.Quiet
  | _ => True

lemma Quiet.safe {e : Expr} (h : e.Quiet) : e.Safe := by
  induction e with
  | join k left gap right ihl ihr => exact ⟨ihl h.1, ihr h.2⟩
  | not gap part ih => exact ih h
  | group gap inner ih => exact h
  | compare comparison left gap right => trivial
  | includes container gap item => trivial
  | truthy term => trivial

end Expr

/-! ### The characters of a text -/

/-- What stands outside of groups in an expression of a level: no connective that binds less
tightly, and no comparison of another kind. -/
def Within (level : Nat) (c : Char) : Prop :=
  c ≠ '<' ∧ c ≠ '>' ∧ ∀ k : Connective, k.level < level → c ≠ k.mark

lemma within_of_ne {c : Char} (h : c ≠ '<' ∧ c ≠ '>' ∧ c ≠ '|' ∧ c ≠ '&') (level : Nat) :
    Within level c := by
  obtain ⟨hlt, hgt, hor, hand⟩ := h
  refine ⟨hlt, hgt, fun k _ => ?_⟩
  cases k
  · exact hor
  · exact hand

lemma IsOperandChar.within {c : Char} (h : IsOperandChar c) (level : Nat) : Within level c := by
  obtain ⟨hor, hand, -, -, hlt, hgt⟩ := h
  exact within_of_ne ⟨hlt, hgt, hor, hand⟩ level

lemma Within.mono {level level' : Nat} (hle : level ≤ level') {c : Char} (h : Within level' c) :
    Within level c :=
  ⟨h.1, h.2.1, fun k hk => h.2.2 k (hk.trans_le hle)⟩

/-- The characters of a connective stand outside of groups where it does. -/
lemma within_connective (k : Connective) : ∀ c ∈ k.operator, IsPlain c ∧ Within k.level c := by
  have hmark : IsPlain k.mark ∧ Within k.level k.mark := by
    refine ⟨?_, ?_, ?_, fun k' hk' => ?_⟩
    · cases k <;> decide
    · cases k <;> decide
    · cases k <;> decide
    · cases k <;> cases k' <;> revert hk' <;> decide
  intro c hc
  simp only [Connective.operator, List.mem_cons, List.not_mem_nil, or_false, or_self] at hc
  exact hc ▸ hmark

/-- The characters of a comparison may stand everywhere. -/
lemma within_comparison (comparison : Comparison) (level : Nat) :
    ∀ c ∈ comparison.operator, IsPlain c ∧ Within level c := by
  have hplain : ∀ c ∈ comparison.operator,
      IsPlain c ∧ c ≠ '<' ∧ c ≠ '>' ∧ c ≠ '|' ∧ c ≠ '&' := by
    cases comparison <;> exact Text.forall_of_all (by decide)
  exact fun c hc => ⟨(hplain c hc).1, within_of_ne (hplain c hc).2 level⟩

lemma isOperandChar_of_isBlank {c : Char} (h : Text.isBlank c = true) :
    IsPlain c ∧ IsOperandChar c :=
  isOperandChar_of_class (by decide) h

lemma even_of_blanks {cs : List Char} (h : Text.Blanks cs) : Even cs :=
  .of_forall fun c hc => (isOperandChar_of_isBlank (h c hc)).1.2.2

lemma flat_of_blanks {cs : List Char} (h : Text.Blanks cs) : Flat IsOperandChar cs :=
  flat_of_forall fun c hc => isOperandChar_of_isBlank (h c hc)

namespace Gap

variable {ok : Char → Prop} (gap : Gap)

lemma flat_around (hblank : ∀ c, IsOperandChar c → ok c) {sign : List Char}
    (hsign : ∀ c ∈ sign, IsPlain c ∧ ok c) : Flat ok (gap.around sign) := by
  have hspaces (spaces : Spaces) : Flat ok spaces.val := flat_of_forall fun c hc =>
    have hc := isOperandChar_of_isBlank (spaces.property c hc)
    ⟨hc.1, hblank c hc.2⟩
  exact (hspaces gap.before).append ((flat_of_forall hsign).append (hspaces gap.after))

lemma nested_enclosing {text : List Char} (h : Nested ok text) (ok' : Char → Prop) :
    Nested ok' (gap.enclosing text) := by
  have hspaces (spaces : Spaces) : Nested (fun _ => True) spaces.val :=
    (flat_of_blanks spaces.property).nested.mono fun _ _ => trivial
  refine .group (((hspaces gap.before).append ?_).append (hspaces gap.after)) .nil
  exact h.mono fun _ _ => trivial

lemma even_around {ok : Char → Prop} {sign : List Char} (hsign : ∀ c ∈ sign, IsPlain c ∧ ok c) :
    Even (gap.around sign) := by
  have hparens : Even sign := .of_forall fun c hc => (hsign c hc).1.2.2
  exact (even_of_blanks gap.before.property).append
    (hparens.append (even_of_blanks gap.after.property))

lemma solid_enclosing (text : List Char) : Text.Solid (gap.enclosing text) :=
  Text.solid_between rfl rfl _

lemma even_enclosing {text : List Char} (h : Even text) : Even (gap.enclosing text) := by
  have hspaces (spaces : Spaces) : Even spaces.val := .of_forall fun c hc =>
    (isOperandChar_of_isBlank (spaces.property c hc)).1.2.2
  exact (((hspaces gap.before).append h).append (hspaces gap.after)).group

end Gap

namespace Expr

/-- **The text of an expression is nested**, and outside of groups there are no connectives that
bind less tightly than the expression. -/
theorem nested {e : Expr} (h : e.Fits) : Nested (Within e.level) e.text := by
  induction e with
  | join k left gap right ihl ihr =>
      obtain ⟨hl, hr, hfl, hfr⟩ := h
      have hgap :=
        (gap.flat_around (fun c hc => hc.within k.level) (within_connective k)).nested
      exact (((ihl hfl).mono fun c hc => hc.mono hl).append hgap).append
        ((ihr hfr).mono fun c hc => hc.mono hr)
  | not gap part ih =>
      have hgap := (flat_of_blanks gap.property).nested.mono fun c hc => hc.within 2
      exact .plain (by decide) (within_of_ne (by decide) 2)
        (hgap.append ((ih h.2).mono fun c hc => hc.mono h.1))
  | group gap inner ih => exact gap.nested_enclosing (ih h) _
  | compare comparison left gap right =>
      have hterm (t : Term) := t.flat.nested.mono fun c hc => hc.within 2
      have hgap :=
        (gap.flat_around (fun c hc => hc.within 2) (within_comparison comparison 2)).nested
      exact ((hterm left).append hgap).append (hterm right)
  | includes container gap item =>
      have hterm (t : Term) := t.flat.nested.mono fun c hc => hc.within 2
      have hmark : Nested IsOperandChar ".includes".toList := (flat_of_all (by decide)).nested
      exact ((hterm container).append (hmark.mono fun c hc => hc.within 2)).append
        (gap.nested_enclosing item.flat.nested _)
  | truthy term => exact term.flat.nested.mono fun c hc => hc.within 2

theorem solid (e : Expr) : Text.Solid e.text := by
  induction e with
  | join k left gap right ihl ihr => exact ihl.append ihr _
  | not gap part ih =>
      have hmark : Text.Solid ['!'] := Text.solid_of_all (by decide) (by decide)
      exact hmark.append ih gap.val
  | group gap inner ih => exact gap.solid_enclosing _
  | compare comparison left gap right => exact left.solid.append right.solid _
  | includes container gap item => exact container.solid.append (gap.solid_enclosing _) _
  | truthy term => exact term.solid

/-- The parentheses of an expression without parentheses in its operands are matched even if
quotes are not regarded. -/
theorem Quiet.even {e : Expr} (h : e.Quiet) : Even e.text := by
  induction e with
  | join k left gap right ihl ihr =>
      exact ((ihl h.1).append (gap.even_around (within_connective k))).append (ihr h.2)
  | not gap part ih =>
      have hmark : Even ['!'] := .of_forall (Text.forall_of_all (by decide))
      exact hmark.append ((even_of_blanks gap.property).append (ih h))
  | group gap inner ih => exact gap.even_enclosing (ih h)
  | compare comparison left gap right =>
      have hgap := gap.even_around (within_comparison comparison 2)
      exact ((Even.of_forall h.1).append hgap).append (.of_forall h.2)
  | includes container gap item =>
      have hmark : Even ".includes".toList := .of_forall (Text.forall_of_all (by decide))
      exact ((Even.of_forall h.1).append hmark).append (gap.even_enclosing (.of_forall h.2))
  | truthy term => exact .of_forall h

end Expr

end Componentry.Condition
