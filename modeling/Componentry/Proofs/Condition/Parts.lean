import Mathlib.Tactic
import Componentry.Proofs.Condition.Syntax
/-!
# The parts that a connective joins

The reader cuts a text at every connective outside of quotes and groups.  `Joined k parts text` says
that a text is put together from parts with `k` between them, with any blanks.  If none of the parts
has the connective outside of groups, cutting gives the parts back (`partsWithin_of_joined`).

The parts of an expression (`Expr.parts`) are joined in its text, they bind more tightly than the
connective, and they decide what the expression means (`Expr.denote_parts`).  So the reader takes an
expression apart as it was put together: `parts?_join` and `parts?_eq_none`.
-/

namespace Componentry.Condition

/-! ### Cutting a text -/

/-- A text in which parts are joined by a connective. -/
inductive Joined (k : Connective) : List (List Char) → List Char → Prop
  | last (part : List Char) : Joined k [part] part
  | more (part : List Char) (gap : Gap) {parts : List (List Char)} {rest : List Char}
      (h : Joined k parts rest) : Joined k (part :: parts) (part ++ gap.around k.operator ++ rest)

lemma Joined.append {k : Connective} {parts parts' : List (List Char)} {text text' : List Char}
    (h : Joined k parts text) (gap : Gap) (h' : Joined k parts' text') :
    Joined k (parts ++ parts') (text ++ gap.around k.operator ++ text') := by
  induction h with
  | last part => exact .more part gap h'
  | more part gap' _ ih =>
      have hmore := ih.more part gap'
      simpa only [List.append_assoc, List.cons_append] using hmore

/-- What the reader expects of a part: it is trimmed, and the connective does not occur in it. -/
structure IsPart (k : Connective) (part : List Char) : Prop where
  solid : Text.Solid part
  nested : Nested (fun c => k.mark ≠ c) part

lemma isPlain_mark (k : Connective) : IsPlain k.mark := by
  cases k <;> decide

lemma nested_of_blanks (k : Connective) {lead : List Char} (hlead : Text.Blanks lead) :
    Nested (fun c => k.mark ≠ c) lead := by
  refine (flat_of_blanks hlead).nested.mono fun c hc => ?_
  cases k
  · exact hc.1.symm
  · exact hc.2.1.symm

lemma partsWithin_of_cut {operator text before after : List Char}
    (h : cutTopLevel operator {} text = some (before, after)) (fuel : Nat) :
    partsWithin operator (fuel + 1) text
      = Text.trimChars before :: partsWithin operator fuel after := by
  cases text with
  | nil => cases h
  | cons c text => rw [partsWithin, h]; exact List.cons_ne_nil c text

lemma partsWithin_of_eq_none {operator text : List Char} (hne : text ≠ [])
    (h : cutTopLevel operator {} text = none) (fuel : Nat) :
    partsWithin operator (fuel + 1) text = [Text.trimChars text] := by
  cases text with
  | nil => exact absurd rfl hne
  | cons c text => rw [partsWithin, h]; exact hne

/-- **A text is cut at the connectives that join its parts.** -/
theorem partsWithin_of_joined {k : Connective} {parts : List (List Char)} {text : List Char}
    (h : Joined k parts text) (hparts : ∀ part ∈ parts, IsPart k part) {lead : List Char}
    (hlead : Text.Blanks lead) {fuel : Nat} (hfuel : (lead ++ text).length < fuel) :
    partsWithin k.operator fuel (lead ++ text) = parts := by
  induction h generalizing lead fuel with
  | last part =>
      have hpart := hparts part List.mem_cons_self
      obtain ⟨fuel, rfl⟩ := Nat.exists_eq_succ_of_ne_zero (Nat.ne_zero_of_lt hfuel)
      have hcut : cutTopLevel k.operator {} (lead ++ part) = none :=
        cutTopLevel_eq_none
          (((nested_of_blanks k hlead).append hpart.nested).moves [k.mark] 0 (fun _ _ hc => hc) [])
      have htrim := Text.trimChars_around hpart.solid hlead Text.Blanks.nil
      rw [List.append_nil] at htrim
      have hne : lead ++ part ≠ [] := List.append_ne_nil_of_right_ne_nil lead hpart.solid.ne_nil
      rw [partsWithin_of_eq_none hne hcut, htrim]
  | @more part gap parts rest h ih =>
      have hpart := hparts part List.mem_cons_self
      obtain ⟨fuel, rfl⟩ := Nat.exists_eq_succ_of_ne_zero (Nat.ne_zero_of_lt hfuel)
      have hbefore : Nested (fun c => k.mark ≠ c) (lead ++ part ++ gap.before.val) :=
        ((nested_of_blanks k hlead).append hpart.nested).append
          (nested_of_blanks k gap.before.property)
      have hcut : cutTopLevel k.operator {}
          (lead ++ part ++ gap.before.val ++ (k.operator ++ (gap.after.val ++ rest)))
            = some (lead ++ part ++ gap.before.val, gap.after.val ++ rest) :=
        cutTopLevel_of_moves (isPlain_mark k) (hbefore.moves [k.mark] 0 (fun _ _ hc => hc) _)
      have htext : lead ++ (part ++ gap.around k.operator ++ rest)
          = lead ++ part ++ gap.before.val ++ (k.operator ++ (gap.after.val ++ rest)) := by
        simp only [Gap.around, List.append_assoc]
      have hrest : (gap.after.val ++ rest).length < fuel := by
        rw [htext] at hfuel
        simp only [List.length_append, Connective.operator, List.length_cons] at hfuel ⊢
        omega
      rw [htext, partsWithin_of_cut hcut,
        Text.trimChars_around hpart.solid hlead gap.before.property,
        ih (fun part' hpart' => hparts part' (List.mem_cons_of_mem part hpart')) gap.after.property
          hrest]

/-! ### The parts of an expression -/

namespace Connective

/-- The name of a connective in the reader. -/
def sign : Connective → String
  | or => "||"
  | and => "&&"

/-- What a connective makes of the answers of several parts. -/
def overall : Connective → List Bool → Bool
  | or => fun answers => answers.any id
  | and => fun answers => answers.all id

lemma level_injective : Function.Injective level := by
  intro k k' h
  cases k <;> cases k' <;> first | rfl | cases h

lemma sign_toList (k : Connective) : k.sign.toList = k.operator := by
  cases k <;> rfl

lemma overall_append (k : Connective) (answers more : List Bool) :
    k.overall (answers ++ more) = k.combine (k.overall answers) (k.overall more) := by
  cases k
  · exact List.any_append
  · exact List.all_append

lemma overall_singleton (k : Connective) (answer : Bool) : k.overall [answer] = answer := by
  cases k
  · exact Bool.or_false answer
  · exact Bool.and_true answer

end Connective

namespace Expr

variable {k : Connective} {e d : Expr}

/-- The parts of an expression that a connective joins. -/
def parts (k : Connective) : Expr → List Expr
  | join k' left gap right =>
    if k' = k then left.parts k ++ right.parts k else [join k' left gap right]
  | e => [e]

lemma parts_ne_nil (k : Connective) (e : Expr) : e.parts k ≠ [] := by
  induction e with
  | join k' left gap right ihl ihr =>
      rw [parts]
      split_ifs
      · exact List.append_ne_nil_of_left_ne_nil ihl _
      · exact List.cons_ne_nil _ _
  | _ => exact List.cons_ne_nil _ _

/-- The parts are what the connective joins in the text. -/
lemma joined_parts (k : Connective) (e : Expr) : Joined k ((e.parts k).map text) e.text := by
  induction e with
  | join k' left gap right ihl ihr =>
      rw [parts]
      split_ifs with h
      · subst h
        rw [List.map_append]
        exact ihl.append gap ihr
      · exact .last _
  | _ => exact .last _

/-- What an expression means is decided by its parts. -/
lemma denote_parts (scope : Scope) (k : Connective) (e : Expr) :
    k.overall ((e.parts k).map (denote scope)) = e.denote scope := by
  induction e with
  | join k' left gap right ihl ihr =>
      rw [parts]
      split_ifs with h
      · subst h
        rw [List.map_append, Connective.overall_append, ihl, ihr]
        rfl
      · exact k.overall_singleton _
  | _ => exact k.overall_singleton _

/-- A part binds more tightly than the connective that joins it to the others. -/
lemma of_mem_parts (hfits : e.Fits) (hsafe : e.Safe) (hlevel : k.level ≤ e.level)
    (hd : d ∈ e.parts k) :
    d.Fits ∧ d.Safe ∧ k.level < d.level ∧ d.text.length ≤ e.text.length := by
  induction e with
  | join k' left gap right ihl ihr =>
      obtain ⟨hl, hr, hfl, hfr⟩ := hfits
      rw [parts] at hd
      split_ifs at hd with h
      · subst h
        have hlength : (join k' left gap right).text.length
            = left.text.length + (gap.around k'.operator).length + right.text.length := by
          rw [text, List.length_append, List.length_append]
        rcases List.mem_append.mp hd with hd | hd
        · obtain ⟨h1, h2, h3, h4⟩ := ihl hfl hsafe.1 hl hd
          exact ⟨h1, h2, h3, by omega⟩
        · obtain ⟨h1, h2, h3, h4⟩ := ihr hfr hsafe.2 hr hd
          exact ⟨h1, h2, h3, by omega⟩
      · rw [List.mem_singleton.mp hd]
        refine ⟨⟨hl, hr, hfl, hfr⟩, hsafe, ?_, le_rfl⟩
        exact lt_of_le_of_ne hlevel fun heq => h (Connective.level_injective heq.symm)
  | _ =>
      rw [List.mem_singleton.mp hd]
      exact ⟨hfits, hsafe, k.level_lt, le_rfl⟩

/-- The text of an expression is cut into its parts. -/
lemma partsWithin_text (hfits : e.Fits) (hsafe : e.Safe) (hlevel : k.level ≤ e.level) :
    partsWithin k.operator (e.text.length + 1) e.text = (e.parts k).map text := by
  refine partsWithin_of_joined (joined_parts k e) (fun part hpart => ?_) Text.Blanks.nil
    (Nat.lt_succ_self _)
  obtain ⟨d, hd, rfl⟩ := List.mem_map.mp hpart
  obtain ⟨hdfits, -, hdlevel, -⟩ := of_mem_parts hfits hsafe hlevel hd
  exact ⟨d.solid, (nested hdfits).mono fun c hc => (hc.2.2 k hdlevel).symm⟩

/-- **Joined expressions are taken apart.** -/
theorem parts?_join {left right : Expr} {gap : Gap} (hfits : (join k left gap right).Fits)
    (hsafe : (join k left gap right).Safe) :
    parts? k.sign (join k left gap right).text
      = some ((left.parts k ++ right.parts k).map text) := by
  have hparts := partsWithin_text hfits hsafe le_rfl
  rw [parts, if_pos rfl] at hparts
  rw [parts?, Connective.sign_toList, hparts]
  obtain ⟨d, ds, hleft⟩ := List.exists_cons_of_ne_nil (parts_ne_nil k left)
  obtain ⟨d', ds', hright⟩ := List.exists_cons_of_ne_nil (parts_ne_nil k right)
  rw [hleft, hright]
  cases ds <;> rfl

/-- An expression that binds more tightly is not taken apart. -/
theorem parts?_eq_none (hfits : e.Fits) (hsafe : e.Safe) (hlevel : k.level < e.level) :
    parts? k.sign e.text = none := by
  have hparts : e.parts k = [e] := by
    cases e with
    | join k' left gap right =>
        rw [parts, if_neg]
        rintro rfl
        exact lt_irrefl _ hlevel
    | _ => rfl
  rw [parts?, Connective.sign_toList, partsWithin_text hfits hsafe hlevel.le, hparts]
  rfl

end Expr

end Componentry.Condition
