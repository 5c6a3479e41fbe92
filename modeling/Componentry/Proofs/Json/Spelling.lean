import Mathlib.Tactic
import Componentry.Json.Reader
import Componentry.Proofs.Numeral
/-!
# Reading written values

A written value may be spelled in many ways: between its tokens any spaces may stand.
`Token.Spells t cs` says how a single token is written, without escapes in strings, and
`Spelling ts cs` how tokens follow each other.

* `tokens?_of_spelling`: the tokens of a spelled text are found again;
* `value?_tokens`: the tokens of a written value are assembled to this value;
* `ofText?_of_spelling`: **spelled values are read**, if they do not nest too deep;
* `ofText?_eq_none`: a text that ends with a character that begins no token is not read.
-/

namespace Componentry.Json

open Lexeme

/-! ### Tokens -/

namespace Token

/-- How a token is written, without escapes in strings. -/
inductive Spells : Token → List Char → Prop
  | open_ (object : Bool) : Spells (.open_ object) [if object then '{' else '[']
  | close (object : Bool) : Spells (.close object) [if object then '}' else ']']
  | comma : Spells .comma [',']
  | colon : Spells .colon [':']
  | null : Spells .null "null".toList
  | bool (value : Bool) : Spells (.bool value) (if value then "true".toList else "false".toList)
  | number {n : Numeral} {cs : List Char} (h : n.Spells cs) : Spells (.number n) cs
  | string {cs : List Char} (h : ∀ c ∈ cs, c ≠ '"' ∧ c ≠ '\\' ∧ 0x20 ≤ c.toNat) :
      Spells (.string (some (String.ofList cs))) ('"' :: (cs ++ ['"']))

/-- Words and numerals end only where something else begins. -/
def IsBare : Token → Prop
  | .null | .bool _ | .number _ => True
  | _ => False

/-- Brackets, commas and colons. -/
def IsSign : Token → Prop
  | .open_ _ | .close _ | .comma | .colon => True
  | _ => False

end Token

/-- Words and numerals that stand in front of this text end there. -/
def Apart (cs : List Char) : Prop :=
  ∀ c, cs.head? = some c → c.isAlpha = false ∧ isNumeralChar c = false

/-- How tokens follow each other: between them there may be spaces. -/
inductive Spelling : List Token → List Char → Prop
  | last {t : Token} {cs : List Char} (ht : t.Spells cs) : Spelling [t] cs
  | more {t : Token} {cs gap text : List Char} {ts : List Token} (ht : t.Spells cs)
      (hgap : ∀ c ∈ gap, isSpace c = true) (h : Spelling ts text) :
      Spelling (t :: ts) (cs ++ (gap ++ text))

/-- Behind words and numerals there are only signs, so that tokens do not run into one another. -/
abbrev Separated (ts : List Token) : Prop :=
  ts.IsChain fun t next => t.IsBare → next.IsSign

/-- A spelled text begins with its first token, and a single token is the whole text. -/
lemma head_of_spelling {t : Token} {ts : List Token} {text : List Char}
    (h : Spelling (t :: ts) text) :
    ∃ cs more, t.Spells cs ∧ text = cs ++ more ∧ (ts = [] → more = []) := by
  cases h with
  | last ht => exact ⟨text, [], ht, (List.append_nil text).symm, fun _ => rfl⟩
  | more ht _ h =>
      refine ⟨_, _, ht, rfl, ?_⟩
      rintro rfl
      cases h

/-- What begins with a space or with a sign keeps words and numerals apart. -/
lemma apart_of_isSign {t : Token} {ts : List Token} {gap text : List Char}
    (hgap : ∀ c ∈ gap, isSpace c = true) (ht : t.IsSign) (h : Spelling (t :: ts) text) :
    Apart (gap ++ text) := by
  intro c hc
  cases gap with
  | cons c' gap =>
      cases hc
      have hspace := hgap c List.mem_cons_self
      simp only [isSpace, Bool.or_eq_true, beq_iff_eq] at hspace
      rcases hspace with ((rfl | rfl) | rfl) | rfl <;> decide
  | nil =>
      obtain ⟨cs, more, hcs, rfl, -⟩ := head_of_spelling h
      cases hcs with
      | open_ object | close object =>
          cases object <;>
            · cases hc
              decide
      | comma | colon =>
          cases hc
          decide
      | null | bool | number | string => exact absurd ht id

attribute [local simp] tokens?

/-- A character that is a token. -/
lemma tokens?_sign {c : Char} {t : Token} (hc : start? c = some ([t], .between))
    (rest : List Char) : tokens? .between ([c] ++ rest) = (tokens? .between rest).map (t :: ·) := by
  rw [List.singleton_append, tokens?, hc]
  cases h : tokens? .between rest <;> simp [h]

/-- A character that begins a longer token. -/
lemma tokens?_begin {c : Char} {lexeme : Lexeme} (hc : start? c = some ([], lexeme))
    (rest : List Char) : tokens? .between (c :: rest) = tokens? lexeme rest := by
  rw [tokens?, hc]
  cases h : tokens? lexeme rest <;> simp [h]

lemma tokens?_skip {gap : List Char} (hgap : ∀ c ∈ gap, isSpace c = true) (text : List Char) :
    tokens? .between (gap ++ text) = tokens? .between text := by
  induction gap with
  | nil => rfl
  | cons c gap ih =>
      have hc : start? c = some ([], .between) := by
        simp [start?, hgap c List.mem_cons_self]
      rw [List.cons_append, tokens?_begin hc]
      exact ih fun c' hc' => hgap c' (List.mem_cons_of_mem c hc')

lemma tokens?_letters {cs : List Char} (hcs : ∀ c ∈ cs, c.isAlpha = true)
    (letters rest : List Char) :
    tokens? (.word letters) (cs ++ rest) = tokens? (.word (cs.reverse ++ letters)) rest := by
  induction cs generalizing letters with
  | nil => rfl
  | cons c cs ih =>
      rw [List.cons_append, tokens?, if_pos (hcs c List.mem_cons_self),
        ih fun c' hc' => hcs c' (List.mem_cons_of_mem c hc')]
      simp

/-- A whole word. -/
lemma tokens?_word {c : Char} {cs : List Char} (hstart : start? c = some ([], .word [c]))
    (hcs : ∀ c' ∈ cs, c'.isAlpha = true) {t : Token}
    (ht : wordToken? (cs.reverse ++ [c]) = some t) {rest : List Char} (hrest : Apart rest) :
    tokens? .between (c :: cs ++ rest) = (tokens? .between rest).map (t :: ·) := by
  rw [List.cons_append, tokens?_begin hstart, tokens?_letters hcs]
  cases rest with
  | nil => simp [finish?, ht]
  | cons next rest =>
      have hnext := (hrest next rfl).1
      rw [tokens?, if_neg (by simp [hnext]), finish?, ht, tokens?]
      cases start? next with
      | none => rfl
      | some begun => cases h : tokens? begun.2 rest <;> simp [h]

/-- The inside of a string up to its end. -/
lemma tokens?_string {cs : List Char} (hcs : ∀ c ∈ cs, c ≠ '"' ∧ c ≠ '\\' ∧ 0x20 ≤ c.toNat)
    (content rest : List Char) :
    tokens? (.string none (some content)) (cs ++ '"' :: rest)
      = (tokens? .between rest).map
        (.string (some (String.ofList (content.reverse ++ cs))) :: ·) := by
  induction cs generalizing content with
  | nil => simp [closeString]
  | cons c cs ih =>
      obtain ⟨hquote, hslash, hcontrol⟩ := hcs c List.mem_cons_self
      have hstep : tokens? (.string none (some content)) (c :: (cs ++ '"' :: rest))
          = tokens? (push none (some content) c) (cs ++ '"' :: rest) := by
        rw [tokens?]
        · rw [if_neg]
          rintro (h | h)
          · exact hslash h
          · omega
        · exact fun h => hquote h
        · exact fun a b c' d _ h _ => hslash h
        · exact fun _ _ h _ => hslash h
      rw [List.cons_append, hstep, push, Option.map_some,
        ih fun c' hc' => hcs c' (List.mem_cons_of_mem c hc')]
      simp

lemma isNumeralChar_of_digit {c : Char} {d : Nat} (h : Numeral.digit? c = some d) :
    isNumeralChar c = true := by
  rw [Numeral.digit?] at h
  split_ifs at h with hdigit
  simp [isNumeralChar, hdigit]

lemma isNumeralChar_of_digits {ds : List Nat} {cs : List Char} (h : Numeral.Digits ds cs) :
    ∀ c ∈ cs, isNumeralChar c = true := by
  obtain ⟨-, hall⟩ := h
  induction hall with
  | nil => exact fun c hc => absurd hc List.not_mem_nil
  | cons hd _ ih =>
      rintro c (_ | ⟨_, hc⟩)
      · exact isNumeralChar_of_digit hd
      · exact ih c hc

lemma isNumeralChar_of_fraction {fraction : Option (List Nat)} {cs : List Char}
    (h : Numeral.FractionSpells fraction cs) : ∀ c ∈ cs, isNumeralChar c = true := by
  cases h with
  | none => exact fun c hc => absurd hc List.not_mem_nil
  | some h =>
      rintro c (_ | ⟨_, hc⟩)
      · rfl
      · exact isNumeralChar_of_digits h c hc

lemma isNumeralChar_of_exponent {exponent : Option Int} {cs : List Char}
    (h : Numeral.ExponentSpells exponent cs) : ∀ c ∈ cs, isNumeralChar c = true := by
  have hmark {mark : Char} (h : mark = 'e' ∨ mark = 'E') : isNumeralChar mark = true := by
    rcases h with rfl | rfl <;> rfl
  cases h with
  | none => exact fun c hc => absurd hc List.not_mem_nil
  | unsigned hm h =>
      rintro c (_ | ⟨_, hc⟩)
      · exact hmark hm
      · exact isNumeralChar_of_digits h c hc
  | plus hm h | minus hm h =>
      rintro c (_ | ⟨_, _ | ⟨_, hc⟩⟩)
      · exact hmark hm
      · rfl
      · exact isNumeralChar_of_digits h c hc

/-- A numeral is made of its characters only. -/
lemma isNumeralChar_of_spells {n : Numeral} {cs : List Char} (h : n.Spells cs) :
    ∀ c ∈ cs, isNumeralChar c = true := by
  cases h with
  | @intro negative _ _ _ _ _ _ hwhole _ hfraction hexponent =>
      intro c hc
      rcases List.mem_append.mp hc with hc | hc
      · cases negative with
        | false => cases hc
        | true =>
            cases List.mem_singleton.mp hc
            rfl
      · rcases List.mem_append.mp hc with hc | hc
        · exact isNumeralChar_of_digits hwhole c hc
        · rcases List.mem_append.mp hc with hc | hc
          · exact isNumeralChar_of_fraction hfraction c hc
          · exact isNumeralChar_of_exponent hexponent c hc

/-- What a numeral begins with. -/
lemma head_of_spells {n : Numeral} {cs : List Char} (h : n.Spells cs) :
    ∃ c cs', cs = c :: cs' ∧ (c = '-' ∨ c.isDigit = true) := by
  cases h with
  | @intro negative _ _ _ _ _ _ hwhole _ _ _ =>
      cases negative with
      | true => exact ⟨'-', _, rfl, .inl rfl⟩
      | false =>
          obtain ⟨d, _, c, cs, rfl, rfl, hd, -⟩ := hwhole.eq_cons
          refine ⟨c, _, rfl, .inr ?_⟩
          rw [Numeral.digit?] at hd
          split_ifs at hd with hdigit
          exact hdigit

lemma tokens?_numeralChars {cs : List Char} (hcs : ∀ c ∈ cs, isNumeralChar c = true)
    (chars rest : List Char) :
    tokens? (.numeral chars) (cs ++ rest) = tokens? (.numeral (cs.reverse ++ chars)) rest := by
  induction cs generalizing chars with
  | nil => rfl
  | cons c cs ih =>
      rw [List.cons_append, tokens?, if_pos (hcs c List.mem_cons_self),
        ih fun c' hc' => hcs c' (List.mem_cons_of_mem c hc')]
      simp

lemma isAlpha_of_isDigit {c : Char} (h : c.isDigit = true) : c.isAlpha = false := by
  delta Char.isDigit at h
  delta Char.isAlpha Char.isUpper Char.isLower
  simp only [Bool.and_eq_true, decide_eq_true_eq, UInt32.le_iff_toNat_le, ge_iff_le,
    Char.reduceVal, UInt32.reduceToNat] at h
  simp only [Bool.or_eq_false_iff, Bool.and_eq_false_iff, decide_eq_false_iff_not,
    UInt32.le_iff_toNat_le, ge_iff_le, Char.reduceVal, UInt32.reduceToNat]
  omega

/-- A numeral begins where no word and no space does. -/
lemma start?_numeral {c : Char} (h : c = '-' ∨ c.isDigit = true) :
    start? c = some ([], .numeral [c]) := by
  rcases h with rfl | h
  · rfl
  · have hspace : isSpace c = false := by
      by_contra hs
      simp only [isSpace, Bool.not_eq_false, Bool.or_eq_true, beq_iff_eq] at hs
      rcases hs with ((rfl | rfl) | rfl) | rfl <;> cases h
    have halpha := isAlpha_of_isDigit h
    have hnum : isNumeralChar c = true := by simp [isNumeralChar, h]
    simp [start?, hspace, halpha, hnum]

/-- A whole numeral. -/
lemma tokens?_numeral {n : Numeral} {cs : List Char} (h : n.Spells cs) {rest : List Char}
    (hrest : Apart rest) :
    tokens? .between (cs ++ rest) = (tokens? .between rest).map (.number n :: ·) := by
  have hread := Numeral.ofChars?_of_spells h
  have hchars := isNumeralChar_of_spells h
  obtain ⟨c, cs, rfl, hc⟩ := head_of_spells h
  rw [List.cons_append, tokens?_begin (start?_numeral hc),
    tokens?_numeralChars fun c' hc' => hchars c' (List.mem_cons_of_mem c hc')]
  have hfinish : finish? (.numeral (cs.reverse ++ [c])) = some [.number n] := by
    simp [finish?, hread]
  cases rest with
  | nil => rw [tokens?, hfinish]; rfl
  | cons next rest =>
      have hnext := (hrest next rfl).2
      rw [tokens?, if_neg (by simp [hnext]), hfinish, tokens?]
      cases start? next with
      | none => rfl
      | some begun => cases h : tokens? begun.2 rest <;> simp [h]

/-- **A token is found** where it is written. -/
theorem tokens?_of_spells {t : Token} {cs : List Char} (h : t.Spells cs) {rest : List Char}
    (hrest : t.IsBare → Apart rest) :
    tokens? .between (cs ++ rest) = (tokens? .between rest).map (t :: ·) := by
  cases h with
  | open_ object | close object => cases object <;> exact tokens?_sign (by rfl) rest
  | comma | colon => exact tokens?_sign (by rfl) rest
  | null => exact tokens?_word (by rfl) (List.all_eq_true.mp (by rfl)) (by rfl) (hrest trivial)
  | bool value =>
      cases value <;>
        exact tokens?_word (by rfl) (List.all_eq_true.mp (by rfl)) (by rfl) (hrest trivial)
  | number h => exact tokens?_numeral h (hrest trivial)
  | string hcs =>
      rw [List.cons_append, List.append_assoc, List.singleton_append,
        tokens?_begin (by rfl), tokens?_string hcs]
      rfl

/-- **The tokens of a spelled text** are found again. -/
theorem tokens?_of_spelling {ts : List Token} {cs : List Char} (h : Spelling ts cs)
    (hts : Separated ts) : tokens? .between cs = some ts := by
  induction h with
  | @last t cs ht =>
      have hend : Apart [] := by
        intro c hc
        cases hc
      have htoken := tokens?_of_spells ht fun _ => hend
      rwa [List.append_nil] at htoken
  | @more t cs gap text ts ht hgap h ih =>
      have hapart : t.IsBare → Apart (gap ++ text) := by
        intro hbare
        cases hts with
        | singleton => cases h
        | cons_cons hnext _ => exact apart_of_isSign hgap (hnext hbare) h
      rw [tokens?_of_spells ht hapart, tokens?_skip hgap, ih hts.tail]
      rfl

/-! ### Values -/

namespace Written

mutual

/-- The tokens of a value. -/
def tokens : Written → List Token
  | .null => [.null]
  | .bool b => [.bool b]
  | .number n => [.number n]
  | .string s => [.string s]
  | .array [] => [.open_ false, .close false]
  | .array (v :: items) => .open_ false :: (tokens v ++ (itemTokens items ++ [.close false]))
  | .object [] => [.open_ true, .close true]
  | .object ((key, v) :: members) =>
    .open_ true :: .string key :: .colon :: (tokens v ++ (memberTokens members ++ [.close true]))

/-- The tokens of items behind the first one. -/
def itemTokens : List Written → List Token
  | [] => []
  | v :: items => .comma :: (tokens v ++ itemTokens items)

/-- The tokens of members behind the first one. -/
def memberTokens : List (Option String × Written) → List Token
  | [] => []
  | (key, v) :: members =>
    .comma :: .string key :: .colon :: (tokens v ++ memberTokens members)

end

lemma separated_cons {t : Token} (ht : ¬t.IsBare) {ts : List Token} (h : Separated ts) :
    Separated (t :: ts) := by
  cases ts with
  | nil => exact .singleton t
  | cons next ts => exact .cons_cons (fun hbare => absurd hbare ht) h

mutual

/-- In front of a sign the tokens of a value are kept apart. -/
lemma separated_tokens : ∀ (w : Written) {t : Token} {rest : List Token}, t.IsSign →
    Separated (t :: rest) → Separated (w.tokens ++ t :: rest)
  | .null, _, _, ht, h | .bool _, _, _, ht, h | .number _, _, _, ht, h
  | .string _, _, _, ht, h => .cons_cons (fun _ => ht) h
  | .array [], _, _, _, h | .object [], _, _, _, h => separated_cons id (separated_cons id h)
  | .array (v :: items), t, rest, _, h => by
      obtain ⟨next, more, hitems, hnext, hmore⟩ :=
        separated_itemTokens items (t := .close false) trivial (separated_cons id h)
      rw [tokens, List.cons_append, List.append_assoc, List.append_assoc, List.singleton_append,
        hitems]
      exact separated_cons id (separated_tokens v hnext hmore)
  | .object ((key, v) :: members), t, rest, _, h => by
      obtain ⟨next, more, hmembers, hnext, hmore⟩ :=
        separated_memberTokens members (t := .close true) trivial (separated_cons id h)
      rw [tokens, List.cons_append, List.cons_append, List.cons_append, List.append_assoc,
        List.append_assoc, List.singleton_append, hmembers]
      exact separated_cons id
        (separated_cons id (separated_cons id (separated_tokens v hnext hmore)))

lemma separated_itemTokens : ∀ (items : List Written) {t : Token} {rest : List Token}, t.IsSign →
    Separated (t :: rest) → ∃ next more, itemTokens items ++ t :: rest = next :: more ∧
      next.IsSign ∧ Separated (next :: more)
  | [], t, rest, ht, h => ⟨t, rest, rfl, ht, h⟩
  | v :: items, t, rest, ht, h => by
      obtain ⟨next, more, hitems, hnext, hmore⟩ := separated_itemTokens items ht h
      refine ⟨.comma, v.tokens ++ next :: more, ?_, trivial,
        separated_cons id (separated_tokens v hnext hmore)⟩
      rw [itemTokens, List.cons_append, List.append_assoc, hitems]

lemma separated_memberTokens : ∀ (members : List (Option String × Written)) {t : Token}
    {rest : List Token}, t.IsSign → Separated (t :: rest) →
    ∃ next more, memberTokens members ++ t :: rest = next :: more ∧
      next.IsSign ∧ Separated (next :: more)
  | [], t, rest, ht, h => ⟨t, rest, rfl, ht, h⟩
  | (key, v) :: members, t, rest, ht, h => by
      obtain ⟨next, more, hmembers, hnext, hmore⟩ := separated_memberTokens members ht h
      refine ⟨.comma, .string key :: .colon :: (v.tokens ++ next :: more), ?_, trivial,
        separated_cons id
          (separated_cons id (separated_cons id (separated_tokens v hnext hmore)))⟩
      rw [memberTokens, List.cons_append, List.cons_append, List.cons_append, List.append_assoc,
        hmembers]

end

/-- No value begins with a closing bracket. -/
lemma value?_open_items (v : Written) (frames : List Frame) (rest : List Token) :
    value? frames (.open_ false :: (v.tokens ++ rest))
      = value? (.array [] :: frames) (v.tokens ++ rest) := by
  rcases v with _ | _ | _ | _ | (_ | _) | (_ | _) <;> rfl

mutual

/-- **The tokens of a value are assembled to this value.** -/
theorem value?_tokens : ∀ (w : Written) (frames : List Frame) (rest : List Token),
    value? frames (w.tokens ++ rest) = next? w frames rest
  | .null, _, _ | .bool _, _, _ | .number _, _, _ | .string _, _, _ => rfl
  | .array [], _, _ | .object [], _, _ => rfl
  | .array (v :: items), frames, rest => by
      rw [tokens, List.cons_append, List.append_assoc, List.append_assoc, List.singleton_append,
        value?_open_items, value?_tokens v, next?_itemTokens items]
      rfl
  | .object ((key, v) :: members), frames, rest => by
      show value? (.object [] key :: frames) ((v.tokens ++ _) ++ rest) = _
      rw [List.append_assoc, List.append_assoc, List.singleton_append, value?_tokens v,
        next?_memberTokens members]
      rfl

/-- The items behind one that has been read. -/
theorem next?_itemTokens : ∀ (items : List Written) (v : Written) (done : List Written)
    (frames : List Frame) (rest : List Token),
    next? v (.array done :: frames) (itemTokens items ++ (.close false :: rest))
      = next? (.array ((v :: done).reverse ++ items)) frames rest
  | [], v, done, frames, rest => by
      rw [itemTokens, List.nil_append, next?, List.append_nil]
  | w :: items, v, done, frames, rest => by
      rw [itemTokens, List.cons_append, List.append_assoc, next?, value?_tokens w,
        next?_itemTokens items]
      simp

/-- The members behind one that has been read. -/
theorem next?_memberTokens : ∀ (members : List (Option String × Written)) (v : Written)
    (key : Option String) (done : List (Option String × Written)) (frames : List Frame)
    (rest : List Token),
    next? v (.object done key :: frames) (memberTokens members ++ (.close true :: rest))
      = next? (.object (((key, v) :: done).reverse ++ members)) frames rest
  | [], v, key, done, frames, rest => by
      rw [memberTokens, List.nil_append, next?, List.append_nil]
  | (key', w) :: members, v, key, done, frames, rest => by
      rw [memberTokens, List.cons_append, List.cons_append, List.cons_append, List.append_assoc,
        next?, value?_tokens w, next?_memberTokens members]
      simp

end

/-- A spelled value is read as it is written. -/
lemma ofText?_of_spelling {w : Written} {text : List Char} (h : Spelling w.tokens text) :
    Written.ofText? (String.ofList text) = some w := by
  have hvalue := value?_tokens w [] []
  rw [List.append_nil] at hvalue
  have hseparated : Separated w.tokens :=
    (separated_tokens w (t := .comma) trivial (.singleton _)).left_of_append
  rw [Written.ofText?, String.toList_ofList, tokens?_of_spelling h hseparated]
  exact hvalue

/-! ### Nesting -/

mutual

/-- A value that keeps a limit keeps every higher one. -/
theorem toJson?_mono : ∀ {w : Written} {v : Json} {depth depth' : Nat}, depth ≤ depth' →
    w.toJson? depth = some v → w.toJson? depth' = some v
  | .null, _, _, _, _, h | .bool _, _, _, _, _, h => h
  | .number _, _, _, _, _, h | .string _, _, _, _, _, h => h
  | .array items, v, depth + 1, depth' + 1, hle, h => by
      rw [toJson?] at h ⊢
      obtain ⟨vs, hvs, rfl⟩ := Option.map_eq_some_iff.mp h
      rw [items?_mono (Nat.le_of_succ_le_succ hle) hvs, Option.map_some]
  | .object members, v, depth + 1, depth' + 1, hle, h => by
      rw [toJson?] at h ⊢
      obtain ⟨vs, hvs, rfl⟩ := Option.map_eq_some_iff.mp h
      rw [members?_mono (Nat.le_of_succ_le_succ hle) hvs, Option.map_some]

theorem items?_mono : ∀ {ws : List Written} {vs : List Json} {depth depth' : Nat},
    depth ≤ depth' → items? depth ws = some vs → items? depth' ws = some vs
  | [], _, _, _, _, h => h
  | w :: ws, vs, depth, depth', hle, h => by
      rw [items?] at h
      split at h
      · rename_i v rest hv hrest
        rw [items?, toJson?_mono hle hv, items?_mono hle hrest]
        exact h
      · cases h

theorem members?_mono : ∀ {ws : List (Option String × Written)} {vs : List (String × Json)}
    {depth depth' : Nat}, depth ≤ depth' → members? depth ws = some vs →
    members? depth' ws = some vs
  | [], _, _, _, _, h => h
  | (key, w) :: ws, vs, depth, depth', hle, h => by
      unfold members? at h ⊢
      split at h
      · rename_i key v rest hv hrest
        rw [toJson?_mono hle hv, members?_mono hle hrest]
        exact h
      · cases h

end

end Written

/-- **Spelled values are read**, as long as they do not nest deeper than the limit. -/
theorem ofText?_of_spelling {w : Written} {text : List Char} (h : Spelling w.tokens text)
    {depth : Nat} (hdepth : depth ≤ nestingLimit) {v : Json} (hv : w.toJson? depth = some v) :
    ofText? (String.ofList text) = some v := by
  rw [ofText?, Written.ofText?_of_spelling h]
  exact Written.toJson?_mono hdepth hv

/-! ### Texts without tokens -/

/-- A text goes on behind its first characters, or they are all of it. -/
lemma getLast?_append_cases {α : Type} {a : α} (lead : List α) {rest : List α}
    (h : (lead ++ rest).getLast? = some a) :
    rest = [] ∧ lead.getLast? = some a ∨ rest.getLast? = some a := by
  rw [List.getLast?_append] at h
  cases hrest : rest.getLast? with
  | none => exact .inl ⟨List.getLast?_eq_none_iff.mp hrest, by rwa [hrest, Option.none_or] at h⟩
  | some b => exact .inr (by rwa [hrest, Option.some_or] at h)

lemma finish?_push (high : Option Nat) (content : Option (List Char)) (c : Char) :
    (push high content c).finish? = none := by
  cases high <;> rfl

lemma finish?_pushUnit (high : Option Nat) (content : Option (List Char)) (unit : Nat) :
    (pushUnit high content unit).finish? = none := by
  simp only [pushUnit]
  split_ifs
  · cases high <;> rfl
  · cases high <;> rfl
  · exact finish?_push high content _

/-- **A text has no tokens if it ends with a character that begins none**: at its end no string may
be open, and outside of strings this character is in no token. -/
theorem tokens?_eq_none {c : Char} (hc : start? c = none) {text : List Char}
    (h : text.getLast? = some c) (lexeme : Lexeme) : tokens? lexeme text = none := by
  have hword : c.isAlpha = false ∧ isNumeralChar c = false := by
    simp only [start?] at hc
    split_ifs at hc with _ halpha hnumeral
    exact ⟨by simpa using halpha, by simpa using hnumeral⟩
  have hends : ∀ {d : Char} {rest : List Char}, (d :: rest).getLast? = some c →
      rest = [] ∧ d = c ∨ rest.getLast? = some c := by
    intro d rest h
    simpa using getLast?_append_cases [d] h
  fun_induction tokens? lexeme text with
  | case1 => cases h
  | case2 high content rest ih =>
      obtain ⟨-, rfl⟩ | hrest := hends h
      · cases hc
      · rw [ih hrest]
        rfl
  | case3 high content a b c' d rest unit hunit ih =>
      obtain ⟨rfl, -⟩ | hrest := getLast?_append_cases ['\\', 'u', a, b, c', d] h
      · exact finish?_pushUnit high content unit
      · exact ih hrest
  | case5 high content c' rest _ d _ ih =>
      obtain ⟨rfl, -⟩ | hrest := getLast?_append_cases ['\\', c'] h
      · exact finish?_push high content d
      · exact ih hrest
  | case8 high content c' rest _ _ _ _ ih =>
      obtain ⟨rfl, -⟩ | hrest := hends h
      · exact finish?_push high content c'
      · exact ih hrest
  | case9 letters c' rest halpha ih =>
      obtain ⟨-, rfl⟩ | hrest := hends h
      · simp [halpha] at hword
      · exact ih hrest
  | case11 chars c' rest hnumeral ih =>
      obtain ⟨-, rfl⟩ | hrest := hends h
      · simp [hnumeral] at hword
      · exact ih hrest
  | case10 _ _ _ _ ih | case12 _ _ _ _ ih | case13 _ _ ih =>
      obtain ⟨-, rfl⟩ | hrest := hends h
      · simp [hc]
      · simp [ih _ hrest]
  | case4 | case6 | case7 => rfl

/-- **A text that ends so is not read.** -/
theorem ofText?_eq_none {c : Char} (hc : start? c = none) {text : String}
    (h : text.toList.getLast? = some c) : ofText? text = none := by
  rw [ofText?, Written.ofText?, tokens?_eq_none hc h]
  rfl

end Componentry.Json
