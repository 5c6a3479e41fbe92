import Mathlib.Tactic
import Componentry.Condition.Gate
import Componentry.Proofs.Condition.Parts
/-!
# Printed expressions are read as they are meant

The reader of conditions cuts a text at its connectives, takes negations and groups off, and tells
comparisons, tests for an item and single operands apart.  Every one of these steps scans the text
again, and every scan finds the place that is meant:

* `Expr.moves_strict`: nothing in the text of an expression looks like a strict comparison;
* `partsWithin_of_joined`: a text is cut at the connectives that join its parts;
* `negations_text`: all negations in front are taken off;
* `simple_compare`, `simple_includes`, `simple_truthy`: single operands and what they are in.

`node_reads` puts them together by induction on the length of the text, and `standard_print` is the
main result: **the evaluator answers a printed expression by what the expression means**.
-/

namespace Componentry.Condition

open Position

variable {scope : Scope}

/-! ### The beginning of a text -/

lemma Flat.head {ok : Char → Prop} {cs : List Char} (h : Flat ok cs) (hne : cs ≠ []) :
    ∃ c rest, cs = c :: rest ∧ (IsPlain c ∧ ok c ∨ IsQuote c) := by
  cases h with
  | nil => exact absurd rfl hne
  | plain hc hok _ => exact ⟨_, _, rfl, .inl ⟨hc, hok⟩⟩
  | quoted hquote _ _ => exact ⟨_, _, rfl, .inr hquote⟩

/-- No term begins with a sign or a parenthesis. -/
lemma Term.head?_append_ne (t : Term) (more : List Char) {sign : Char}
    (hsign : sign = '(' ∨ sign = '!' ∨ sign = '=') : (t.text ++ more).head? ≠ some sign := by
  obtain ⟨c, rest, htext, hhead⟩ := t.flat.head t.solid.ne_nil
  rw [htext]
  rintro h
  cases h
  rcases hhead with ⟨hplain, hok⟩ | rfl | rfl
  · rcases hsign with rfl | rfl | rfl
    · exact hplain.2.2.1 rfl
    · exact hok.2.2.1 rfl
    · exact hok.2.2.2.1 rfl
  · revert hsign
    decide
  · revert hsign
    decide

/-- No expression begins with an equals sign. -/
lemma Expr.head?_append_ne (e : Expr) (more : List Char) : (e.text ++ more).head? ≠ some '=' := by
  induction e generalizing more with
  | join k left gap right ihl _ =>
      rw [text, List.append_assoc, List.append_assoc]
      exact ihl _
  | not gap part _ => exact fun h => by cases h
  | group gap inner _ => exact fun h => by cases h
  | compare comparison left gap right =>
      rw [text, List.append_assoc, List.append_assoc]
      exact left.head?_append_ne _ (.inr (.inr rfl))
  | includes container gap item =>
      rw [text, List.append_assoc, List.append_assoc]
      exact container.head?_append_ne _ (.inr (.inr rfl))
  | truthy term => exact term.head?_append_ne more (.inr (.inr rfl))

/-- Behind blanks a text begins with a blank or as it does without them. -/
lemma head?_blanks_append_ne {lead : List Char} (hlead : Text.Blanks lead) {sign : Char}
    (hsign : Text.isBlank sign = false) {text : List Char} (h : text.head? ≠ some sign) :
    (lead ++ text).head? ≠ some sign := by
  cases lead with
  | nil => exact h
  | cons c lead =>
      intro hc
      cases hc
      rw [hlead sign List.mem_cons_self] at hsign
      cases hsign

lemma stripPrefix_of_head?_ne {p : Char} {text : List Char} (h : text.head? ≠ some p)
    (pattern : List Char) : Text.stripPrefix (p :: pattern) text = none := by
  cases text with
  | nil => rfl
  | cons c text =>
      refine Text.stripPrefix_of_head_ne ?_ pattern text
      rintro rfl
      exact h rfl

/-! ### Operators that are none -/

/-- A strict comparison is not found at a single one of its characters. -/
lemma stripPrefix_strict {first c : Char} {rest : List Char} (h : rest.head? ≠ some '=') :
    Text.stripPrefix [first, '=', '='] (c :: rest) = none := by
  rw [Text.stripPrefix]
  split_ifs
  · exact stripPrefix_of_head?_ne h ['=']
  · rfl

lemma moves_strict_operator {first : Char} (comparison : Comparison) {tail : List Char}
    (h : tail.head? ≠ some '=') :
    Moves [first, '=', '='] (at_ 0) (at_ 0) comparison.operator tail := by
  have hlast : Moves [first, '=', '='] (at_ 0) (at_ 0) ['='] tail :=
    .skipped (mark?_plain (by decide) _) (stripPrefix_strict h)
  have hstep (c : Char) (hc : IsPlain c) :
      Moves [first, '=', '='] (at_ 0) (at_ 0) [c, '='] tail := by
    refine Moves.trans (.skipped (mark?_plain hc _) ?_) hlast
    rw [List.singleton_append, Text.stripPrefix]
    split_ifs
    · rw [Text.stripPrefix, if_pos rfl]
      exact stripPrefix_of_head?_ne h []
    · rfl
  cases comparison
  · exact hstep '=' (by decide)
  · exact hstep '!' (by decide)

/-- **Nothing in the text of an expression looks like a strict comparison.** -/
theorem Expr.moves_strict {first : Char} (hfirst : first = '=' ∨ first = '!') {e : Expr}
    (hfits : e.Fits) {tail : List Char} (h : tail.head? ≠ some '=') :
    Moves [first, '=', '='] (at_ 0) (at_ 0) e.text tail := by
  have hpass {cs : List Char} (hcs : Nested (fun c => c ≠ '=' ∧ c ≠ '!') cs) (tail : List Char) :
      Moves [first, '=', '='] (at_ 0) (at_ 0) cs tail := by
    refine hcs.moves ['=', '='] 0 (fun _ c hc => ?_) tail
    rcases hfirst with rfl | rfl
    · exact hc.1.symm
    · exact hc.2.symm
  have hterm (t : Term) (tail : List Char) : Moves [first, '=', '='] (at_ 0) (at_ 0) t.text tail :=
    hpass (t.flat.nested.mono fun c hc => ⟨hc.2.2.2.1, hc.2.2.1⟩) tail
  have hblanks {cs : List Char} (hcs : Text.Blanks cs) (tail : List Char) :
      Moves [first, '=', '='] (at_ 0) (at_ 0) cs tail :=
    hpass ((flat_of_blanks hcs).nested.mono fun c hc => ⟨hc.2.2.2.1, hc.2.2.1⟩) tail
  induction e generalizing tail with
  | join k left gap right ihl ihr =>
      obtain ⟨-, -, hfl, hfr⟩ := hfits
      have hmark : ∀ c ∈ k.operator, IsPlain c ∧ c ≠ '=' ∧ c ≠ '!' := by
        cases k <;> exact Text.forall_of_all (by decide)
      have hgap := (gap.flat_around (fun c hc => ⟨hc.2.2.2.1, hc.2.2.1⟩) hmark).nested
      have hnext : (gap.around k.operator ++ (right.text ++ tail)).head? ≠ some '=' := by
        rw [Gap.around, List.append_assoc]
        refine head?_blanks_append_ne gap.before.property rfl ?_
        cases k <;> exact fun hc => by cases hc
      have hleft := (ihl hfl hnext).trans (hpass hgap (right.text ++ tail))
      exact hleft.trans (ihr hfr h)
  | not gap part ih =>
      have hnext : (gap.val ++ part.text ++ tail).head? ≠ some '=' := by
        rw [List.append_assoc]
        exact head?_blanks_append_ne gap.property rfl (part.head?_append_ne tail)
      have hmark : Moves [first, '=', '='] (at_ 0) (at_ 0) ['!'] (gap.val ++ part.text ++ tail) :=
        .skipped (mark?_plain (by decide) _) (stripPrefix_strict hnext)
      exact hmark.trans ((hblanks gap.property _).trans (ih hfits.2 h))
  | group gap inner ih => exact hpass (gap.nested_enclosing (nested (e := inner) hfits) _) tail
  | compare comparison left gap right =>
      have hnext : (gap.after.val ++ (right.text ++ tail)).head? ≠ some '=' :=
        head?_blanks_append_ne gap.after.property rfl ((truthy right).head?_append_ne tail)
      have hgap := (hblanks gap.before.property _).trans
        ((moves_strict_operator comparison hnext).trans (hblanks gap.after.property _))
      exact ((hterm left _).trans hgap).trans (hterm right tail)
  | includes container gap item =>
      have hmark : Nested (fun c => c ≠ '=' ∧ c ≠ '!') ".includes".toList :=
        (flat_of_all (by decide)).nested
      exact ((hterm container _).trans (hpass hmark _)).trans
        (hpass (gap.nested_enclosing item.flat.nested _) tail)
  | truthy term => exact hterm term tail

/-! ### Comparisons, tests for an item and single operands -/

lemma Term.operand_text (t : Term) : Condition.operand t.text = .ok t.operand := by
  have h := t.operand_around Text.Blanks.nil Text.Blanks.nil
  rwa [List.nil_append, List.append_nil] at h

/-- A flat text is no test for an item. -/
lemma cutTopLevel_includesMark {ok : Char → Prop} {text : List Char} (h : Flat ok text) :
    cutTopLevel includesMark {} text = none :=
  cutTopLevel_eq_none (h.moves_includesMark fun c hc => by cases hc)

/-- The characters in front of a comparison do not begin one. -/
lemma moves_comparison {text : List Char} (h : Flat IsOperandChar text) {first : Char}
    (hfirst : first = '=' ∨ first = '!') (operator tail : List Char) :
    Moves (first :: operator) (at_ 0) (at_ 0) text tail := by
  refine h.nested.moves operator 0 (fun _ c hc => ?_) tail
  rcases hfirst with rfl | rfl
  · exact hc.2.2.2.1.symm
  · exact hc.2.2.1.symm

lemma comparison_terms (make : Operand → Operand → Condition) (left : Term) (gap : Gap)
    (right : Term) :
    comparison make (left.text ++ gap.before.val) (gap.after.val ++ right.text)
      = .ok (make left.operand right.operand) := by
  have hleft : Text.trimChars (left.text ++ gap.before.val) = left.text :=
    Text.trimChars_around left.solid Text.Blanks.nil gap.before.property
  have hright : Text.trimChars (gap.after.val ++ right.text) = right.text := by
    have h := Text.trimChars_around right.solid gap.after.property Text.Blanks.nil
    rwa [List.append_nil] at h
  have hne : ¬(left.text = [] ∨ right.text = []) := by
    rintro (h | h)
    · exact left.solid.ne_nil h
    · exact right.solid.ne_nil h
  rw [comparison, hleft, hright, if_neg hne, left.operand_text, right.operand_text]
  rfl

/-- **A comparison is cut at its sign.** -/
theorem simple_compare (comparison : Comparison) (left : Term) (gap : Gap) (right : Term) :
    simple (Expr.compare comparison left gap right).text
      = .ok (match comparison with
        | .equal => .agree left.operand right.operand
        | .unequal => .differ left.operand right.operand) := by
  have hbefore : Flat IsOperandChar (left.text ++ gap.before.val) :=
    left.flat.append (flat_of_blanks gap.before.property)
  have hafter : Flat IsOperandChar (gap.after.val ++ right.text) :=
    (flat_of_blanks gap.after.property).append right.flat
  have htext : (Expr.compare comparison left gap right).text
      = left.text ++ gap.before.val ++ (comparison.operator ++ (gap.after.val ++ right.text)) := by
    simp only [Expr.text, Gap.around, List.append_assoc]
  have hflat {ok : Char → Prop} (himp : ∀ c, IsOperandChar c → ok c)
      (hsign : ∀ c ∈ comparison.operator, IsPlain c ∧ ok c) :
      Flat ok (left.text ++ gap.before.val
        ++ (comparison.operator ++ (gap.after.val ++ right.text))) :=
    (hbefore.mono himp).append ((flat_of_forall hsign).append (hafter.mono himp))
  rw [simple, htext, cutTopLevel_includesMark
    (hflat (fun c hc => hc.within 2) (within_comparison comparison 2))]
  cases comparison with
  | unequal =>
      have hcut := cutTopLevel_of_moves (by decide)
        (moves_comparison hbefore (.inr rfl) ['='] (['!', '='] ++ (gap.after.val ++ right.text)))
      rw [Comparison.operator, hcut]
      exact comparison_terms .differ left gap right
  | equal =>
      have hcut := cutTopLevel_of_moves (by decide)
        (moves_comparison hbefore (.inl rfl) ['='] (['=', '='] ++ (gap.after.val ++ right.text)))
      have hnone : cutTopLevel ['!', '='] {}
          (left.text ++ gap.before.val ++ (['=', '='] ++ (gap.after.val ++ right.text)))
            = none := by
        have hmark := hflat (fun c hc => hc.2.2.1.symm) (Text.forall_of_all (by decide))
        exact cutTopLevel_eq_none (hmark.nested.moves ['='] 0 (fun _ _ hc => hc) [])
      rw [Comparison.operator, hnone, hcut]
      exact comparison_terms .agree left gap right

/-- **A single operand is read as such.** -/
theorem simple_truthy (term : Term) :
    simple (Expr.truthy term).text = .ok (.truthy term.operand) := by
  have hnone {first : Char} (hfirst : first = '=' ∨ first = '!') :
      cutTopLevel [first, '='] {} term.text = none :=
    cutTopLevel_eq_none (moves_comparison term.flat hfirst ['='] [])
  rw [Expr.text, simple, cutTopLevel_includesMark term.flat]
  dsimp only
  rw [hnone (.inr rfl), hnone (.inl rfl)]
  dsimp only
  rw [term.operand_text]
  rfl

lemma dropRepeated_of_eq_none {pattern text : List Char}
    (h : Text.stripPrefix pattern text = none) (fuel : Nat) :
    dropRepeated pattern fuel text = text := by
  cases fuel with
  | zero => rfl
  | succ fuel => rw [dropRepeated, h]

/-- **A test for an item is cut at its mark.** -/
theorem simple_includes (container : Term) (gap : Gap) (item : Term) :
    simple (Expr.includes container gap item).text
      = .ok (.includes container.operand item.operand) := by
  have hitem : Text.Solid (item.text ++ gap.after.val ++ [')']) :=
    item.solid.append (Text.solid_of_all (by decide) (by decide)) gap.after.val
  have htext : (Expr.includes container gap item).text = container.text
      ++ (includesMark ++ (gap.before.val ++ (item.text ++ gap.after.val ++ [')']))) := by
    simp only [Expr.text, Gap.enclosing, List.append_assoc]
    rfl
  have hcut : cutTopLevel includesMark {} (Expr.includes container gap item).text
      = some (container.text, gap.before.val ++ (item.text ++ gap.after.val ++ [')'])) := by
    rw [htext]
    refine cutTopLevel_of_moves (by decide) (container.flat.moves_includesMark ?_)
    rintro c hc
    cases hc
    decide
  have hrepeated : Text.stripPrefix includesMark
      (gap.before.val ++ (item.text ++ gap.after.val ++ [')'])) = none := by
    have hflat : Flat IsOperandChar (gap.before.val ++ (item.text ++ gap.after.val)) :=
      (flat_of_blanks gap.before.property).append
        (item.flat.append (flat_of_blanks gap.after.property))
    have hne : gap.before.val ++ (item.text ++ gap.after.val) ≠ [] := by
      simp [item.solid.ne_nil]
    rw [← List.append_assoc]
    obtain ⟨c, cs, hcs⟩ := List.exists_cons_of_ne_nil hne
    rw [hcs] at hflat ⊢
    refine hflat.stripPrefix_includesMark ?_
    rintro c hc
    cases hc
    decide
  have hargument : Text.trimChars (gap.before.val ++ (item.text ++ gap.after.val ++ [')']))
      = item.text ++ gap.after.val ++ [')'] := by
    have h := Text.trimChars_around hitem gap.before.property Text.Blanks.nil
    rwa [List.append_nil] at h
  have hinner : Text.trimChars (item.text ++ gap.after.val) = item.text :=
    Text.trimChars_around item.solid Text.Blanks.nil gap.after.property
  rw [simple, hcut]
  dsimp only
  rw [membership, dropRepeated_of_eq_none hrepeated, hargument, Text.stripSuffix_append,
    Option.getD_some, hinner, if_neg item.solid.ne_nil, container.operand_text, item.operand_text]
  rfl

/-! ### Negations -/

lemma negations_blanks {lead : List Char} (hlead : Text.Blanks lead) (odd : Bool)
    (text : List Char) : negations odd (lead ++ text) = negations odd text := by
  induction lead with
  | nil => rfl
  | cons c lead ih =>
      have hblank := hlead c List.mem_cons_self
      have hne : c ≠ '!' := by
        rintro rfl
        revert hblank
        decide
      rw [List.cons_append, negations, if_neg hne, if_pos hblank]
      exact ih fun c' hc' => hlead c' (List.mem_cons_of_mem c hc')

/-- Without a negation in front nothing is taken off. -/
lemma negations_of_head {text : List Char} (hsolid : Text.Solid text)
    (hhead : text.head? ≠ some '!') (odd : Bool) : negations odd text = (odd, text) := by
  obtain ⟨c, hc, hblank⟩ := hsolid.first
  cases text with
  | nil => cases hc
  | cons c' rest =>
      cases hc
      have hne : c ≠ '!' := by
        rintro rfl
        exact hhead rfl
      rw [negations, if_neg hne, if_neg (by rw [hblank]; decide)]

namespace Expr

/-- What stands behind all negations in front of an expression, and whether their number is odd. -/
def core : Expr → Bool × Expr
  | not _ part => (!part.core.1, part.core.2)
  | e => (false, e)

lemma core_length (e : Expr) : e.core.2.text.length ≤ e.text.length := by
  induction e with
  | not gap part ih =>
      have hlength : (not gap part).text.length = gap.val.length + part.text.length + 1 := by
        rw [text, List.length_cons, List.length_append]
      exact ih.trans (by omega)
  | _ => exact le_rfl

lemma denote_core (scope : Scope) (e : Expr) :
    e.denote scope = (e.core.1 ^^ e.core.2.denote scope) := by
  induction e with
  | not gap part ih =>
      rw [denote, ih, core, Bool.not_xor]
  | _ => exact (Bool.false_xor _).symm

/-- **All negations in front are taken off**, and none is left. -/
theorem negations_text {e : Expr} (hlevel : 2 ≤ e.level) (hfits : e.Fits) (hsafe : e.Safe) :
    2 ≤ e.core.2.level ∧ e.core.2.Fits ∧ e.core.2.Safe ∧ e.core.2.text.head? ≠ some '!' ∧
      ∀ odd, negations odd e.text = ((odd ^^ e.core.1), e.core.2.text) := by
  have hstay {d : Expr} (hd : d.text.head? ≠ some '!') (odd : Bool) :
      negations odd d.text = ((odd ^^ false), d.text) := by
    rw [Bool.xor_false]
    exact negations_of_head d.solid hd odd
  have hterm (t : Term) (more : List Char) : (t.text ++ more).head? ≠ some '!' :=
    t.head?_append_ne more (.inr (.inl rfl))
  induction e with
  | join k left gap right => exact absurd hlevel (Nat.not_le.mpr k.level_lt)
  | not gap part ih =>
      obtain ⟨hcore, hcfits, hcsafe, hhead, hpart⟩ := ih hfits.1 hfits.2 hsafe
      refine ⟨hcore, hcfits, hcsafe, hhead, fun odd => ?_⟩
      have hnext : (gap.val ++ part.text).head? ≠ some '=' := by
        refine head?_blanks_append_ne gap.property rfl ?_
        have h := part.head?_append_ne []
        rwa [List.append_nil] at h
      calc negations odd (not gap part).text
          = negations (!odd) (gap.val ++ part.text) := by
            rw [text, negations, if_pos rfl, if_neg hnext]
        _ = ((!odd ^^ part.core.1), part.core.2.text) := by
            rw [negations_blanks gap.property, hpart]
        _ = ((odd ^^ (not gap part).core.1), (not gap part).core.2.text) := by
            rw [core, Bool.not_xor, Bool.xor_not]
  | group gap inner =>
      have hhead : (group gap inner).text.head? ≠ some '!' := fun h => by cases h
      exact ⟨hlevel, hfits, hsafe, hhead, hstay hhead⟩
  | compare comparison left gap right =>
      have hhead : (compare comparison left gap right).text.head? ≠ some '!' := by
        rw [text, List.append_assoc]
        exact hterm left _
      exact ⟨hlevel, hfits, hsafe, hhead, hstay hhead⟩
  | includes container gap item =>
      have hhead : (includes container gap item).text.head? ≠ some '!' := by
        rw [text, List.append_assoc]
        exact hterm container _
      exact ⟨hlevel, hfits, hsafe, hhead, hstay hhead⟩
  | truthy term =>
      have hhead : (truthy term).text.head? ≠ some '!' := by
        have h := hterm term []
        rwa [List.append_nil] at h
      exact ⟨hlevel, hfits, hsafe, hhead, hstay hhead⟩

end Expr

/-! ### The whole reader -/

/-- The reader gives a condition that holds where the expression does. -/
def Reads (fuel : Nat) (e : Expr) : Prop :=
  ∃ condition, node fuel e.text = .ok condition ∧
    ∀ scope, condition.holds scope = e.denote scope

/-- The condition on several parts that a connective stands for. -/
def Connective.condition : Connective → List Condition → Condition
  | .or => .any
  | .and => .all

lemma Connective.holds_condition (k : Connective) (scope : Scope) (parts : List Condition) :
    (k.condition parts).holds scope = k.overall (parts.map (holds scope)) := by
  cases k with
  | or =>
      show anyHolds scope parts = (parts.map (holds scope)).any id
      rw [anyHolds_eq_any, List.any_map, Function.id_comp]
  | and =>
      show allHold scope parts = (parts.map (holds scope)).all id
      rw [allHold_eq_all, List.all_map, Function.id_comp]

/-- Several parts are read one after the other. -/
lemma mapM_reads {fuel : Nat} {parts : List Expr} (h : ∀ d ∈ parts, Reads fuel d) :
    ∃ conditions, (parts.map Expr.text).mapM (node fuel) = .ok conditions ∧
      ∀ scope, conditions.map (holds scope) = parts.map (Expr.denote scope) := by
  induction parts with
  | nil => exact ⟨[], rfl, fun _ => rfl⟩
  | cons d parts ih =>
      obtain ⟨condition, hread, hholds⟩ := h d List.mem_cons_self
      obtain ⟨conditions, hreads, hall⟩ := ih fun d' hd' => h d' (List.mem_cons_of_mem d hd')
      refine ⟨condition :: conditions, ?_, fun scope => ?_⟩
      · rw [List.map_cons, List.mapM_cons, hread, hreads]
        rfl
      · rw [List.map_cons, List.map_cons, hholds, hall]

lemma node_of_parts {k : Connective} {text : List Char} {parts : List (List Char)}
    (hlower : ∀ k' : Connective, k'.level < k.level → parts? k'.sign text = none)
    (h : parts? k.sign text = some parts) (fuel : Nat) :
    node (fuel + 1) text = do return k.condition (← parts.mapM (node fuel)) := by
  cases k with
  | or =>
      rw [Connective.sign] at h
      rw [node, h]
      rfl
  | and =>
      have hor : parts? "||" text = none := hlower .or (by decide)
      rw [Connective.sign] at h
      rw [node, hor, h]
      rfl

/-- Where no connective is found, the reader looks behind the negations. -/
lemma node_of_core {text inner : List Char} {odd : Bool}
    (hnone : ∀ k : Connective, parts? k.sign text = none)
    (hneg : negations false text = (odd, inner)) (hinner : Text.Solid inner) {fuel : Nat}
    {condition : Condition}
    (h : (match group? inner with
      | some grouped => node fuel grouped
      | none => simple inner) = .ok condition) :
    node (fuel + 1) text = .ok (if odd then .not condition else condition) := by
  have hor : parts? "||" text = none := hnone .or
  have hand : parts? "&&" text = none := hnone .and
  rw [node, hor, hand]
  dsimp only
  rw [hneg]
  dsimp only
  rw [Text.trimChars_of_solid hinner, if_neg hinner.ne_nil]
  cases hgroup : group? inner with
  | some grouped =>
      have hread : node fuel grouped = .ok condition := by rwa [hgroup] at h
      dsimp only
      rw [hread]
      rfl
  | none =>
      have hread : simple inner = .ok condition := by rwa [hgroup] at h
      dsimp only
      rw [hread]
      rfl

lemma group?_of_head?_ne {text : List Char} (h : text.head? ≠ some '(') : group? text = none := by
  cases text with
  | nil => rfl
  | cons c rest =>
      refine group?_eq_none ?_ rest
      rintro rfl
      exact h rfl

/-- The parentheses around an expression are taken off. -/
lemma group?_text (gap : Gap) {inner : Expr} (h : inner.Quiet) :
    group? (Expr.group gap inner).text = some inner.text := by
  have heven : Even (gap.before.val ++ inner.text ++ gap.after.val) :=
    ((even_of_blanks gap.before.property).append h.even).append
      (even_of_blanks gap.after.property)
  rw [Expr.text, Gap.enclosing, group?_of_even heven,
    Text.trimChars_around inner.solid gap.before.property gap.after.property]

/-- An expression without a negation in front that nothing joins is read, if what is inside of a
group is. -/
lemma core_reads {fuel : Nat} {e : Expr}
    (ih : ∀ gap inner, e = .group gap inner → Reads fuel inner) (hlevel : 2 ≤ e.level)
    (hsafe : e.Safe) (hhead : e.text.head? ≠ some '!') :
    ∃ condition, (match group? e.text with
      | some grouped => node fuel grouped
      | none => simple e.text) = .ok condition ∧
        ∀ scope, condition.holds scope = e.denote scope := by
  have hterm (t : Term) (more : List Char) : group? (t.text ++ more) = none :=
    group?_of_head?_ne (t.head?_append_ne more (.inl rfl))
  cases e with
  | join k left gap right => exact absurd hlevel (Nat.not_le.mpr k.level_lt)
  | not gap part => exact absurd rfl hhead
  | group gap inner =>
      obtain ⟨condition, hread, hholds⟩ := ih gap inner rfl
      exact ⟨condition, by rw [group?_text gap hsafe]; exact hread, hholds⟩
  | compare comparison left gap right =>
      have hgroup : group? (Expr.compare comparison left gap right).text = none := by
        rw [Expr.text, List.append_assoc]
        exact hterm left _
      rw [hgroup]
      refine ⟨_, simple_compare comparison left gap right, fun scope => ?_⟩
      cases comparison <;>
        simp only [holds, Term.operand_value, Expr.denote, Comparison.holds]
  | includes container gap item =>
      have hgroup : group? (Expr.includes container gap item).text = none := by
        rw [Expr.text, List.append_assoc]
        exact hterm container _
      rw [hgroup]
      refine ⟨_, simple_includes container gap item, fun scope => ?_⟩
      simp only [holds, Term.operand_value, Expr.denote]
  | truthy term =>
      have hgroup : group? (Expr.truthy term).text = none := by
        have h := hterm term []
        rwa [List.append_nil] at h
      rw [hgroup]
      refine ⟨_, simple_truthy term, fun scope => ?_⟩
      simp only [holds, Term.operand_value, Expr.denote]

/-- An expression that no connective joins is read, if what is inside of its groups is. -/
lemma tight_reads {fuel : Nat} {e : Expr} (hfuel : e.text.length < fuel + 1)
    (hlevel : 2 ≤ e.level) (hfits : e.Fits) (hsafe : e.Safe)
    (ih : ∀ {d : Expr}, d.text.length < fuel → d.Fits → d.Safe → Reads fuel d) :
    Reads (fuel + 1) e := by
  obtain ⟨hcore, hcfits, hcsafe, hhead, hneg⟩ := Expr.negations_text hlevel hfits hsafe
  have hnone (k : Connective) : parts? k.sign e.text = none :=
    Expr.parts?_eq_none hfits hsafe (k.level_lt.trans_le hlevel)
  have hinner : ∀ gap inner, e.core.2 = .group gap inner → Reads fuel inner := by
    intro gap inner hgroup
    have hlength : (Expr.group gap inner).text.length ≤ e.text.length :=
      hgroup ▸ e.core_length
    rw [hgroup] at hcfits hcsafe
    refine ih ?_ hcfits (Expr.Quiet.safe hcsafe)
    simp only [Expr.text, Gap.enclosing, List.length_cons, List.length_append] at hlength
    omega
  obtain ⟨condition, hread, hholds⟩ := core_reads hinner hcore hcsafe hhead
  refine ⟨_, node_of_core hnone (hneg false) e.core.2.solid hread, fun scope => ?_⟩
  rw [Expr.denote_core, ← hholds, Bool.false_xor]
  cases e.core.1
  · exact (Bool.false_xor _).symm
  · exact (Bool.true_xor _).symm

/-- A joined expression is read, if its parts are. -/
lemma join_reads {fuel : Nat} {k : Connective} {left right : Expr} {gap : Gap}
    (hfuel : (Expr.join k left gap right).text.length < fuel + 1)
    (hfits : (Expr.join k left gap right).Fits) (hsafe : (Expr.join k left gap right).Safe)
    (ih : ∀ {d : Expr}, d.text.length < fuel → d.Fits → d.Safe → Reads fuel d) :
    Reads (fuel + 1) (.join k left gap right) := by
  obtain ⟨hl, hr, hfl, hfr⟩ := id hfits
  have hlength : left.text.length + right.text.length + 2 ≤ fuel := by
    simp only [Expr.text, Gap.around, Connective.operator, List.length_append,
      List.length_cons] at hfuel
    omega
  have hread : ∀ d ∈ left.parts k ++ right.parts k, Reads fuel d := by
    intro d hd
    rcases List.mem_append.mp hd with hd | hd
    · obtain ⟨hdfits, hdsafe, -, hdlength⟩ := Expr.of_mem_parts hfl hsafe.1 hl hd
      exact ih (by omega) hdfits hdsafe
    · obtain ⟨hdfits, hdsafe, -, hdlength⟩ := Expr.of_mem_parts hfr hsafe.2 hr hd
      exact ih (by omega) hdfits hdsafe
  obtain ⟨conditions, hreads, hholds⟩ := mapM_reads hread
  have hlower (k' : Connective) (hk' : k'.level < k.level) :
      parts? k'.sign (Expr.join k left gap right).text = none :=
    Expr.parts?_eq_none hfits hsafe hk'
  refine ⟨k.condition conditions, ?_, fun scope => ?_⟩
  · rw [node_of_parts hlower (Expr.parts?_join hfits hsafe), hreads]
    rfl
  · rw [k.holds_condition, hholds, ← Expr.denote_parts scope k, Expr.parts, if_pos rfl]

/-- **Every printed expression is read**, if there is fuel for its text. -/
theorem node_reads (fuel : Nat) {e : Expr} (hfuel : e.text.length < fuel) (hfits : e.Fits)
    (hsafe : e.Safe) : Reads fuel e := by
  -- parts and the insides of groups are shorter than the text, so that the fuel is enough
  induction fuel generalizing e with
  | zero => exact absurd hfuel (Nat.not_lt_zero _)
  | succ fuel ih =>
      cases e with
      | join k left gap right => exact join_reads hfuel hfits hsafe ih
      | _ => exact tight_reads hfuel le_rfl hfits hsafe ih

/-- The operators that are looked for before anything is read are not found. -/
lemma hasAnyTopLevel_eq_false {operators : List String} {text : List Char}
    (h : ∀ operator ∈ operators, cutTopLevel operator.toList {} text = none) :
    hasAnyTopLevel operators text = false := by
  rw [hasAnyTopLevel, List.any_eq_false]
  intro operator hoperator
  rw [hasTopLevel, h operator hoperator]
  decide

lemma Expr.no_strict (e : Expr) (hfits : e.Fits) :
    hasAnyTopLevel ["===", "!=="] e.text = false := by
  have hnone {first : Char} (hfirst : first = '=' ∨ first = '!') :
      cutTopLevel [first, '=', '='] {} e.text = none :=
    cutTopLevel_eq_none (moves_strict hfirst hfits fun h => by cases h)
  refine hasAnyTopLevel_eq_false ?_
  rintro operator (_ | ⟨_, _ | ⟨_, h⟩⟩)
  · exact hnone (.inl rfl)
  · exact hnone (.inr rfl)
  · cases h

lemma Expr.no_other (e : Expr) (hfits : e.Fits) :
    hasAnyTopLevel [">=", "<=", ">", "<"] e.text = false := by
  have hnone {first : Char} (hfirst : first = '<' ∨ first = '>') (operator : List Char) :
      cutTopLevel (first :: operator) {} e.text = none := by
    refine cutTopLevel_eq_none ((nested hfits).moves operator 0 (fun _ c hc => ?_) [])
    rcases hfirst with rfl | rfl
    · exact hc.1.symm
    · exact hc.2.1.symm
  refine hasAnyTopLevel_eq_false ?_
  rintro operator (_ | ⟨_, _ | ⟨_, _ | ⟨_, _ | ⟨_, h⟩⟩⟩⟩)
  · exact hnone (.inr rfl) ['=']
  · exact hnone (.inl rfl) ['=']
  · exact hnone (.inr rfl) []
  · exact hnone (.inl rfl) []
  · cases h

/-- **Nothing is refused before a printed expression is read**, and blanks around it do not
count. -/
theorem ofText_eq_node {e : Expr} (hfits : e.Fits) {lead trail : List Char}
    (hlead : Text.Blanks lead) (htrail : Text.Blanks trail) :
    ofText (String.ofList (lead ++ e.text ++ trail)) = node (e.text.length + 1) e.text := by
  have hnested := Expr.nested hfits
  have htrim : Text.trimChars (String.ofList (lead ++ e.text ++ trail)).toList = e.text := by
    rw [String.toList_ofList]
    exact Text.trimChars_around e.solid hlead htrail
  rw [ofText, htrim, if_neg e.solid.ne_nil, hnested.isBalanced, e.no_strict hfits,
    e.no_other hfits]
  rfl

/-- **The evaluator answers a printed expression by what the expression means**, with any blanks
around it.  Inside of groups no operand may contain a parenthesis. -/
theorem standard_print (e : Expr) (scope : Scope) {lead trail : List Char}
    (hlead : Text.Blanks lead) (htrail : Text.Blanks trail) (hsafe : e.grouped.Safe) :
    Evaluator.standard (String.ofList (lead ++ e.print ++ trail)) scope
      = .ok (e.denote scope) := by
  obtain ⟨condition, hread, hholds⟩ :=
    node_reads (e.print.length + 1) (Nat.lt_succ_self _) e.fits_grouped hsafe
  have hcondition : Condition.ofText (String.ofList (lead ++ e.print ++ trail)) = .ok condition :=
    (ofText_eq_node e.fits_grouped hlead htrail).trans hread
  calc Evaluator.standard (String.ofList (lead ++ e.print ++ trail)) scope
      = .ok (condition.holds scope) := by rw [Evaluator.standard, hcondition]; rfl
    _ = .ok (e.denote scope) := by rw [hholds, Expr.denote_grouped]

/-- One of the numbers and texts `[1, "("]` is 1, and the stock is neither 2 nor none. -/
def stocked : Expr :=
  .join .and (.includes list .empty (.quoted ['1'] (by decide))) spaced
    (.not blank
      (.join .or (.compare .equal stock spaced (.quoted ['2'] (by decide))) .empty
        (.compare .equal stock .empty (.quoted "none".toList (by decide)))))
where
  blank : Spaces := ⟨[' '], List.all_eq_true.mp rfl⟩
  spaced : Gap := ⟨blank, blank⟩
  stock : Term := .path "app" (by decide) ⟨"stock".toList, by decide, List.all_eq_true.mp rfl⟩ []
  one : Numeral.Spells ⟨false, [1], none, none⟩ ['1'] :=
    @Numeral.Spells.intro false [1] none none ['1'] [] [] ⟨by decide, .cons (by decide) .nil⟩
      (.inl rfl) .none .none
  list : Term :=
    .written (.array [.number ⟨false, [1], none, none⟩, .string (some "(")])
      ['[', '1', ',', ' ', '"', '(', '"', ']'] (.array [.number (.int 1), .string "("])
      (@Json.Spelling.more _ ['['] [] _ _ (.open_ false) (List.all_eq_true.mp rfl)
        (@Json.Spelling.more _ ['1'] [] _ _ (.number one) (List.all_eq_true.mp rfl)
          (@Json.Spelling.more _ [','] [' '] _ _ .comma (List.all_eq_true.mp rfl)
            (@Json.Spelling.more _ ['"', '(', '"'] [] _ _
              (@Json.Token.Spells.string ['('] (Text.forall_of_all (by decide)))
              (List.all_eq_true.mp rfl) (.last (.close false))))))
      (by decide)

/-- The group around the disjunction is printed, and the evaluator finds its way. -/
theorem standard_print_stocked :
    let scope : Scope := { tree := { app := [("stock", .number (.int 3))] } }
    stocked.grouped.Safe ∧ Evaluator.standard
      " [1, \"(\"].includes('1') && ! (app.stock == '2'||app.stock=='none')" scope = .ok true := by
  intro scope
  have hstock : stocked.stock.Quiet := Text.forall_of_all (by decide)
  have hsafe : stocked.grouped.Safe :=
    ⟨trivial, ⟨hstock, Text.forall_of_all (by decide)⟩, hstock, Text.forall_of_all (by decide)⟩
  have hprint := @standard_print stocked scope [' '] [] (List.all_eq_true.mp rfl)
    Text.Blanks.nil hsafe
  have hdenote : stocked.denote scope = true := by decide +kernel
  rw [hdenote] at hprint
  exact ⟨hsafe, hprint⟩

end Componentry.Condition
