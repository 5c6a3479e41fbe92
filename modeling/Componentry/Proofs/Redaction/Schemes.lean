import Mathlib.Tactic
import Componentry.Proofs.Redaction.Scan
import Componentry.Proofs.Redaction.Words
/-!
# Credentials of a scheme

`Bearer` and `Basic` are schemes of one kind (`IsScheme`): a word of letters, and a class of token
characters with all letters, but without blanks, brackets and the equals sign.  A match is the word,
blanks, and a token with its padding (`credentials_eq`).

What matters about an assignment `name=value` is whether its name is taken for a token.
`exists_front` decides it, from the text in front of the value alone: either the assignment is left
standing, or a match that starts further in front takes the name and the equals sign and leaves the
value.  `replaceFrom_value` says what becomes of the value: it stays, unless it is itself the word of
a scheme with a token behind it.
-/

namespace Componentry.Redaction

open Text

/-- The word of a scheme and its token characters. -/
structure IsScheme (word : List Char) (isToken : Char → Bool) : Prop where
  ne_nil : word ≠ []
  alpha : ∀ c ∈ word, c.isAlpha = true
  letter : ∀ c : Char, c.toLower.isAlpha = true → isToken c = true
  blank : ∀ c, isBlank c = true → isToken c = false
  equals : isToken '=' = false
  bracket : isToken '[' = false

lemma isScheme_of_others {word others : List Char} (hne : word ≠ [])
    (halpha : ∀ c ∈ word, c.isAlpha = true) (hblank : ∀ c ∈ others, isBlank c = false)
    (hothers : '=' ∉ others ∧ '[' ∉ others) : IsScheme word (isTokenChar others) where
  ne_nil := hne
  alpha := halpha
  letter c hc := by
    rw [isTokenChar, foldCase_of_toLower hc, Char.isAlphanum, hc, Bool.true_or, Bool.true_or]
  blank c hc := by
    rw [isTokenChar, foldCase_of_isBlank hc, Bool.or_eq_false_iff]
    constructor
    · by_contra halnum
      rw [Bool.not_eq_false] at halnum
      rw [isBlank_of_isAlphanum halnum] at hc
      cases hc
    · rw [← Bool.not_eq_true, List.contains_iff_mem]
      intro hmem
      rw [hblank c hmem] at hc
      cases hc
  equals := by
    rw [isTokenChar, Bool.or_eq_false_iff]
    exact ⟨by decide, by simpa using hothers.1⟩
  bracket := by
    rw [isTokenChar, Bool.or_eq_false_iff]
    exact ⟨by decide, by simpa using hothers.2⟩

lemma isScheme_bearer :
    IsScheme "bearer".toList (isTokenChar ['-', '.', '_', '~', '+', '/']) :=
  isScheme_of_others (by decide) (forall_of_all (by decide)) (forall_of_all (by decide)) (by decide)

lemma isScheme_basic : IsScheme "basic".toList (isTokenChar ['+', '/']) :=
  isScheme_of_others (by decide) (forall_of_all (by decide)) (forall_of_all (by decide)) (by decide)

/-! ### Tokens -/

/-- The length of the token that a text starts with, its padding included. -/
def tokenLength (isToken : Char → Bool) (body : List Char) : Nat :=
  countWhile isToken body + countWhile (· == '=') (body.drop (countWhile isToken body))

lemma tokenLength_le (isToken : Char → Bool) (body : List Char) :
    tokenLength isToken body ≤ body.length := by
  have htoken := countWhile_le isToken body
  have hpadding := countWhile_le (· == '=') (body.drop (countWhile isToken body))
  rw [List.length_drop] at hpadding
  rw [tokenLength]
  omega

/-- A token ends in front of a character of another kind, unless it has ended before. -/
lemma token_append_cons {isToken : Char → Bool} {c : Char} (body : List Char) (hc : c ≠ '=')
    (h : isToken c = false ∨ ∃ d ∈ body, isToken d = false) (t : List Char) :
    countWhile isToken (body ++ c :: t) = countWhile isToken body
      ∧ tokenLength isToken (body ++ c :: t) = tokenLength isToken body := by
  have hcount : countWhile isToken (body ++ c :: t) = countWhile isToken body := by
    obtain hc | ⟨d, hd, hother⟩ := h
    · exact countWhile_append_cons hc body t
    · obtain ⟨x, y, rfl⟩ := List.append_of_mem hd
      rw [List.append_assoc, List.cons_append, countWhile_append_cons hother,
        countWhile_append_cons hother]
  refine ⟨hcount, ?_⟩
  rw [tokenLength, tokenLength, hcount, List.drop_append_of_le_length (countWhile_le _ _),
    countWhile_append_cons (by rwa [beq_eq_false_iff_ne])]

namespace IsScheme

variable {word : List Char} {isToken : Char → Bool}

lemma isBlank_eq_false (hs : IsScheme word isToken) {c : Char} (hc : c ∈ word) :
    isBlank c = false :=
  isBlank_of_isAlphanum (by rw [Char.isAlphanum, hs.alpha c hc, Bool.true_or])

lemma foldCase_notMem (hs : IsScheme word isToken) {c : Char} (hc : isBlank c = true) :
    foldCase c ∉ word := by
  rw [foldCase_of_isBlank hc]
  intro hmem
  rw [hs.isBlank_eq_false hmem] at hc
  cases hc

/-- Token characters are followed by the letters of a name and its equals sign. -/
lemma token_append_name (hs : IsScheme word isToken) {body name t : List Char}
    (hbody : ∀ c ∈ body, isToken c = true) (hname : Letters name) (ht : t.head? ≠ some '=') :
    countWhile isToken (body ++ (name ++ '=' :: t)) = body.length + name.length
      ∧ tokenLength isToken (body ++ (name ++ '=' :: t)) = (body ++ (name ++ ['='])).length := by
  have hcount : countWhile isToken (body ++ (name ++ '=' :: t)) = body.length + name.length := by
    rw [countWhile_append_of_all hbody, countWhile_append_of_all fun c hc => hs.letter c (hname c hc),
      countWhile_cons_of_neg hs.equals, Nat.add_zero]
  have hpadding : countWhile (· == '=') ('=' :: t) = 1 := by
    cases t with
    | nil => rfl
    | cons c t =>
        have hc : (c == '=') = false := by simpa using ht
        rw [countWhile, List.takeWhile_cons_of_pos rfl, List.takeWhile_cons_of_neg (by simp [hc])]
        rfl
  refine ⟨hcount, ?_⟩
  rw [tokenLength, hcount, ← List.append_assoc, ← List.length_append, List.drop_left, hpadding,
    ← List.append_assoc, List.length_append, List.length_append, List.length_append,
    List.length_singleton]

/-! ### Matches -/

/-- What is found behind the word: blanks and a token. -/
lemma credentials_eq (isToken : Char → Bool) {w blanks body : List Char} (hword : w.map foldCase = word)
    (hblanks : Blanks blanks) (hbody : ∀ c ∈ body.head?, isBlank c = false)
    (before : Option Char) :
    credentials word isToken before (w ++ (blanks ++ body))
      = if atBoundary before = true ∧ blanks ≠ [] ∧ countWhile isToken body ≠ 0 then
          some ⟨(w ++ blanks).length, tokenLength isToken body⟩
        else none := by
  have hfound : behindWord word (w ++ (blanks ++ body)) = some (blanks ++ body) :=
    behindWord_eq_some_iff.mpr ⟨w, rfl, hword⟩
  have hcount : countWhile isBlank (blanks ++ body) = blanks.length := by
    rw [countWhile_append_of_all hblanks]
    cases body with
    | nil => rfl
    | cons c body => rw [countWhile_cons_of_neg (hbody c rfl), Nat.add_zero]
  have hlength : word.length = w.length := by rw [← hword, List.length_map]
  simp only [credentials, hfound, Option.bind_eq_bind, Option.bind_some, hcount, List.drop_left,
    List.length_eq_zero_iff, ne_eq, hlength, List.length_append, tokenLength]

/-- Without a blank behind the word nothing is found. -/
lemma credentials_of_head {text rest : List Char} (h : behindWord word text = some rest)
    (hrest : ∀ c ∈ rest.head?, isBlank c = false) (before : Option Char) :
    credentials word isToken before text = none := by
  obtain ⟨w, rfl, hword⟩ := behindWord_eq_some_iff.mp h
  have heq := credentials_eq isToken hword Blanks.nil hrest before
  rw [List.nil_append] at heq
  rw [heq, if_neg (by simp)]

lemma credentials_of_none {text : List Char} (h : behindWord word text = none)
    (before : Option Char) : credentials word isToken before text = none := by
  rw [credentials, h]
  rfl

/-- What a match consists of. -/
lemma exists_of_credentials {before : Option Char} {text : List Char} {finding : Finding}
    (h : credentials word isToken before text = some finding) :
    ∃ w blanks body, text = w ++ (blanks ++ body) ∧ w.map foldCase = word
      ∧ finding = ⟨(w ++ blanks).length, tokenLength isToken body⟩ := by
  cases hfound : behindWord word text with
  | none => simp [credentials_of_none hfound] at h
  | some rest =>
      obtain ⟨w, rfl, hword⟩ := behindWord_eq_some_iff.mp hfound
      obtain ⟨blanks, body, rfl, hblanks, hbody⟩ := exists_blanks_append rest
      rw [credentials_eq isToken hword hblanks hbody] at h
      split_ifs at h
      exact ⟨w, blanks, body, rfl, hword, (Option.some.inj h).symm⟩

lemma sober (hs : IsScheme word isToken) : Sober (credentials word isToken) where
  blank before c rest hc :=
    credentials_of_none
      (behindWord_of_isBlank hs.ne_nil (fun _ => hs.isBlank_eq_false) hc rest) before
  kept before text finding h := by
    obtain ⟨w, blanks, body, -, hword, rfl⟩ := exists_of_credentials h
    have hne : w ≠ [] := by
      rintro rfl
      exact hs.ne_nil hword.symm
    rw [List.length_append]
    exact Nat.add_pos_left (List.length_pos_of_ne_nil hne) _
  bound before text finding h := by
    obtain ⟨w, blanks, body, rfl, -, rfl⟩ := exists_of_credentials h
    have hle := tokenLength_le isToken body
    simp only [List.length_append]
    omega

/-- No match comes from in front of a blank and goes beyond it, if a bracket is there. -/
lemma cut (hs : IsScheme word isToken) {c : Char} (hc : isBlank c = true) (t : List Char)
    (before : Option Char) (b : List Char) :
    credentials word isToken before (b ++ c :: '[' :: t) = credentials word isToken before b := by
  cases hb : behindWord word b with
  | none =>
      have hall : behindWord word (b ++ c :: '[' :: t) = none := by
        rw [behindWord_append_eq (hs.foldCase_notMem hc), hb, Option.map_none]
      rw [credentials_of_none hall, credentials_of_none hb]
  | some r =>
      obtain ⟨w, rfl, hword⟩ := behindWord_eq_some_iff.mp hb
      obtain ⟨blanks, body, rfl, hblanks, hbody⟩ := exists_blanks_append r
      rw [credentials_eq isToken hword hblanks hbody]
      cases body with
      | nil =>
          have hmore : Blanks (blanks ++ [c]) := by
            simpa [Blanks, or_imp, forall_and, hc] using hblanks
          have hbracket : ∀ d ∈ ('[' :: t).head?, isBlank d = false := by
            rintro d ⟨⟩
            decide
          have heq := credentials_eq isToken hword hmore hbracket before
          rw [show w ++ (blanks ++ []) ++ c :: '[' :: t = w ++ ((blanks ++ [c]) ++ '[' :: t) by simp,
            heq, countWhile_cons_of_neg hs.bracket, if_neg (by simp), if_neg (by simp [countWhile])]
      | cons d body =>
          have hne : c ≠ '=' := by
            rintro rfl
            exact absurd hc (by decide)
          have hlead : ∀ e ∈ (d :: body ++ c :: '[' :: t).head?, isBlank e = false := hbody
          have htoken := token_append_cons (d :: body) hne (.inl (hs.blank c hc)) ('[' :: t)
          rw [show w ++ (blanks ++ d :: body) ++ c :: '[' :: t
              = w ++ (blanks ++ (d :: body ++ c :: '[' :: t)) by simp,
            credentials_eq isToken hword hblanks hlead,
            htoken.1, htoken.2]

/-! ### In front of an assignment -/

section Name

variable {name : List Char}

/-- A word does not go on into a name and have a blank behind it there. -/
lemma credentials_append_of_none (hs : IsScheme word isToken) (hname : Letters name) {b : List Char}
    (hb : behindWord word b = none) (before : Option Char) (t : List Char) :
    credentials word isToken before (b ++ (name ++ '=' :: t)) = none := by
  cases hfound : behindWord word (b ++ (name ++ '=' :: t)) with
  | none => exact credentials_of_none hfound before
  | some rest =>
      obtain ⟨r, hr, -⟩ | ⟨c, a, htext, hword⟩ := behindWord_append hfound
      · rw [hb] at hr
        cases hr
      · have hequals : '=' ∉ c :: a := fun hmem => by
          have halpha := hs.alpha (foldCase '=') (hword ▸ List.mem_map_of_mem (by simp [hmem]))
          exact absurd halpha (by decide)
        obtain ⟨k, rfl, rfl⟩ := exists_of_crossing htext hequals
        exact credentials_of_head hfound (hname.head_append (fun d hd => by simp [hd]) t) before

/-- What is found behind the word where an assignment follows. -/
lemma credentials_append_name (hname : Letters name) {w blanks body : List Char}
    (hword : w.map foldCase = word) (hblanks : Blanks blanks)
    (hbody : ∀ c ∈ body.head?, isBlank c = false) (before : Option Char) (t : List Char) :
    credentials word isToken before (w ++ (blanks ++ (body ++ (name ++ '=' :: t))))
      = if atBoundary before = true ∧ blanks ≠ []
            ∧ countWhile isToken (body ++ (name ++ '=' :: t)) ≠ 0 then
          some ⟨(w ++ blanks).length, tokenLength isToken (body ++ (name ++ '=' :: t))⟩
        else none := by
  refine credentials_eq isToken hword hblanks (fun c hc => ?_) before
  cases body with
  | nil => exact hname.head_append (List.Subset.refl name) t c hc
  | cons d body => exact hbody c (by simpa using hc)

/-- A token that ends in front of a name is the same without it. -/
lemma token_append_of_exists (hname : Letters name) (hne : name ≠ []) {body : List Char}
    (hbody : ∃ d ∈ body, isToken d = false) (t : List Char) :
    countWhile isToken (body ++ (name ++ '=' :: t)) = countWhile isToken body
      ∧ tokenLength isToken (body ++ (name ++ '=' :: t)) = tokenLength isToken body := by
  obtain ⟨first, rest, rfl⟩ := List.exists_cons_of_ne_nil hne
  have hfirst : first ≠ '=' := by
    rintro rfl
    exact hname.notMem (by decide) List.mem_cons_self
  exact token_append_cons body hfirst (.inr hbody) (rest ++ '=' :: t)

/-- A match that starts in front of an assignment ends in front of it, or it takes all of the
name. -/
lemma course_name (hs : IsScheme word isToken) (hname : Letters name) (hne : name ≠ [])
    (before : Option Char) (b : List Char) :
    Course (fun _ => name ++ ['=']) (fun kept => ∃ lead c, kept = lead ++ [c] ∧ isBlank c = true) b
      fun t : {t : List Char // t.head? ≠ some '='} =>
        credentials word isToken before (b ++ (name ++ ['='] ++ t.1)) := by
  simp only [List.append_assoc, List.singleton_append]
  cases hb : behindWord word b with
  | none => exact .absent fun t => hs.credentials_append_of_none hname hb before t.1
  | some r =>
      obtain ⟨w, rfl, hword⟩ := behindWord_eq_some_iff.mp hb
      obtain ⟨blanks, body, rfl, hblanks, hbody⟩ := exists_blanks_append r
      simp only [List.append_assoc, credentials_append_name hname hword hblanks hbody]
      by_cases hgo : atBoundary before = true ∧ blanks ≠ []
      swap
      · exact .absent fun t => if_neg fun h => hgo ⟨h.1, h.2.1⟩
      by_cases hall : ∀ c ∈ body, isToken c = true
      · -- All that is left in front is of the token, and so is the name.
        obtain ⟨lead, c, rfl⟩ := (List.eq_nil_or_concat blanks).resolve_left hgo.2
        refine .across (w ++ (lead ++ [c])) ⟨w ++ lead, c, by simp, hblanks c (by simp)⟩
          fun t => ⟨body ++ (name ++ ['=']), by simp, ?_⟩
        have htoken := hs.token_append_name hall hname t.2
        have hpos : body.length + name.length ≠ 0 := by simp [hne]
        rw [htoken.1, htoken.2, if_pos ⟨hgo.1, by simp, hpos⟩]
        simp
      · -- The token ends in front of the name.
        have hother : ∃ c ∈ body, isToken c = false := by simpa using hall
        have htoken := token_append_of_exists hname hne hother
        by_cases hzero : countWhile isToken body = 0
        · exact .absent fun t => by rw [(htoken t.1).1, hzero, if_neg (by simp)]
        · refine .within ⟨(w ++ blanks).length, tokenLength isToken body⟩ ?_ ?_ fun t => ?_
          · have hle := tokenLength_le isToken body
            simp only [List.length_append]
            omega
          · rw [List.length_append]
            exact Nat.add_pos_right _ (List.length_pos_of_ne_nil hgo.2)
          · rw [(htoken t.1).1, (htoken t.1).2, if_pos ⟨hgo.1, hgo.2, hzero⟩]

end Name

/-- Nothing is found within a piece without blanks that ends with a character of another kind. -/
lemma credentials_suffix (hs : IsScheme word isToken) {k b : List Char} {z : Char}
    (hz : (foldCase z).isAlpha = false) (hk : ∀ c ∈ k ++ [z], isBlank c = false) (hne : b ≠ [])
    (hb : b <:+ k ++ [z]) (before : Option Char) (t : List Char) :
    credentials word isToken before (b ++ t) = none := by
  obtain ⟨x, rfl, hx⟩ := (List.suffix_concat_iff.mp hb).resolve_left hne
  have hword : foldCase z ∉ word := by
    intro hmem
    rw [hs.alpha _ hmem] at hz
    cases hz
  rw [List.append_assoc, List.singleton_append]
  cases hfound : behindWord word x with
  | none =>
      refine credentials_of_none ?_ before
      rw [behindWord_append_eq hword, hfound, Option.map_none]
  | some r =>
      obtain ⟨w, rfl, -⟩ := behindWord_eq_some_iff.mp hfound
      refine credentials_of_head (behindWord_append_of_some hfound (z :: t)) (fun c hc => ?_) before
      refine hk c ?_
      cases r with
      | nil =>
          obtain rfl : z = c := by simpa using hc
          simp
      | cons d r =>
          obtain rfl : d = c := by simpa using hc
          exact List.mem_append_left _ (hx.subset (by simp))

/-- A name and its equals sign stay, and so what comes behind them is redacted by itself. -/
lemma replaceFrom_name (hs : IsScheme word isToken) {name : List Char} (hname : Letters name)
    (before : Option Char) (t : List Char) :
    replaceFrom (credentials word isToken) before 0 (name ++ '=' :: t)
      = name ++ '=' :: replaceFrom (credentials word isToken) (some '=') 0 t := by
  have hassigned : ∀ c ∈ name ++ ['='], isBlank c = false := by
    intro c hc
    obtain hc | hc := List.mem_append.mp hc
    · exact isBlank_of_letter (hname c hc)
    · rw [List.mem_singleton.mp hc]
      decide
  have hstay := replaceFrom_of_none (credentials word isToken) (t := t)
    (fun before b hb hsuffix => hs.credentials_suffix (by decide) hassigned hb hsuffix before t)
    before
  rw [behind_concat, List.append_assoc, List.append_assoc] at hstay
  exact hstay

/-- An assignment is left standing, or a match that starts further in front takes its name and
leaves its value. Which of the two depends on what is in front of the value alone. -/
lemma exists_front (hs : IsScheme word isToken) {name : List Char} (hname : Letters name)
    (hne : name ≠ []) (u : List Char) :
    ∃ v, (∀ t, t.head? ≠ some '=' →
        replaceAll (credentials word isToken) (u ++ (name ++ '=' :: t))
          = v ++ (name ++ '=' :: replaceFrom (credentials word isToken) (some '=') 0 t))
      ∨ (∃ lead c, v = lead ++ [c] ∧ isBlank c = true)
        ∧ ∀ t, t.head? ≠ some '=' →
          replaceAll (credentials word isToken) (u ++ (name ++ '=' :: t))
            = v ++ mark ++ replaceFrom (credentials word isToken) (some '=') 0 t := by
  have halike : Alike (credentials word isToken)
      (fun _ : {t : List Char // t.head? ≠ some '='} => name ++ ['=']) Subtype.val
      (fun kept => ∃ lead c, kept = lead ++ [c] ∧ isBlank c = true) none 0 u :=
    alike_of_course (fun before b _ => hs.course_name hname hne before b) none (Nat.zero_le _)
  obtain ⟨v, hv⟩ := halike
  simp only [List.append_assoc, List.singleton_append] at hv
  refine ⟨v, hv.imp (fun hend t ht => ?_) fun hover => ⟨?_, fun t ht => ?_⟩⟩
  · rw [replaceAll, hend ⟨t, ht⟩, hs.replaceFrom_name hname]
  · obtain ⟨⟨lead, kept, rfl, inner, c, rfl, hc⟩, -⟩ := hover
    exact ⟨lead ++ inner, c, by simp, hc⟩
  · rw [replaceAll, hover.2 ⟨t, ht⟩, behind_concat, List.append_assoc]

end IsScheme

/-! ### The value of an assignment -/

/-- A value of ASCII letters and digits. -/
def IsValue (s : List Char) : Prop := s ≠ [] ∧ ∀ c ∈ s, c.isAlphanum = true

instance (s : List Char) : Decidable (IsValue s) :=
  decidable_of_iff (s ≠ [] ∧ s.all Char.isAlphanum = true) (by rw [IsValue, List.all_eq_true])

/-- Whether a value is the word of a scheme and what comes behind it starts with a token. -/
def Opens (word : List Char) (isToken : Char → Bool) (s q : List Char) : Prop :=
  s.map foldCase = word ∧ ∃ c, (q.dropWhile isBlank).head? = some c ∧ isToken c = true

lemma IsValue.isBlank_eq_false {s : List Char} (h : IsValue s) : ∀ c ∈ s, isBlank c = false :=
  fun c hc => isBlank_of_isAlphanum (h.2 c hc)

lemma lt_of_isAlphanum {c : Char} (h : c.isAlphanum = true) : c.toNat < 128 := by
  have hval : c.val.toNat = c.toNat := rfl
  delta Char.isAlphanum Char.isAlpha Char.isUpper Char.isLower Char.isDigit at h
  simp only [Bool.or_eq_true, Bool.and_eq_true, decide_eq_true_eq, UInt32.le_iff_toNat_le,
    ge_iff_le, Char.reduceVal, UInt32.reduceToNat] at h
  omega

lemma isWordChar_of_isAlphanum {c : Char} (h : c.isAlphanum = true) : isWordChar c = true := by
  have hval : c.val.toNat = c.toNat := rfl
  delta Char.isAlphanum Char.isAlpha Char.isUpper Char.isLower Char.isDigit at h
  simp only [Bool.or_eq_true, Bool.and_eq_true, decide_eq_true_eq, UInt32.le_iff_toNat_le,
    ge_iff_le, Char.reduceVal, UInt32.reduceToNat] at h
  obtain (hupper | hlower) | hdigit := h
  · exact List.any_eq_true.mpr ⟨(0x41, 0x5A), .tail _ (.head _), by simp; omega⟩
  · exact List.any_eq_true.mpr ⟨(0x61, 0x7A), .tail _ (.tail _ (.tail _ (.head _))), by simp; omega⟩
  · exact List.any_eq_true.mpr ⟨(0x30, 0x39), .head _, by simp; omega⟩

namespace IsScheme

variable {word : List Char} {isToken : Char → Bool}

/-- Nothing is found between the characters of a value. -/
lemma replaceFrom_wordChars {s : List Char} (hs : ∀ c ∈ s, isWordChar c = true)
    {before : Option Char} (hbefore : atBoundary before = false) (t : List Char) :
    replaceFrom (credentials word isToken) before 0 (s ++ t)
      = s ++ replaceFrom (credentials word isToken) (behind before s) 0 t := by
  induction s generalizing before with
  | nil => rfl
  | cons c s ih =>
      have hnone : credentials word isToken before (c :: (s ++ t)) = none := by
        cases hfound : credentials word isToken before (c :: (s ++ t)) with
        | none => rfl
        | some finding =>
            simp [credentials, hbefore] at hfound
      rw [List.cons_append, replaceFrom_cons_of_none hnone, behind_cons,
        ih (fun d hd => hs d (List.mem_cons_of_mem c hd))
          (by simpa [atBoundary] using hs c List.mem_cons_self), List.cons_append]

/-- Nothing is found at a value that opens no credentials. -/
lemma credentials_value (hs : IsScheme word isToken) {s q : List Char} (hvalue : IsValue s)
    (hq : Apart q) (hopens : ¬ Opens word isToken s q) (before : Option Char) :
    credentials word isToken before (s ++ q) = none := by
  cases hfound : behindWord word (s ++ q) with
  | none => exact credentials_of_none hfound before
  | some rest =>
      obtain ⟨r, hr, rfl⟩ | ⟨c, a, rfl, hword⟩ := behindWord_append hfound
      · obtain ⟨w, rfl, hword⟩ := behindWord_eq_some_iff.mp hr
        cases r with
        | nil =>
            obtain ⟨blanks, body, rfl, hblanks, hbody⟩ := exists_blanks_append q
            rw [List.append_nil, credentials_eq isToken hword hblanks hbody, if_neg]
            rintro ⟨-, -, htoken⟩
            refine hopens ⟨by rw [List.append_nil, hword], ?_⟩
            rw [List.dropWhile_append_of_pos hblanks]
            cases body with
            | nil => exact absurd rfl htoken
            | cons c body =>
                rw [List.dropWhile_cons_of_neg (by simp [hbody c rfl])]
                refine ⟨c, rfl, ?_⟩
                by_contra hc
                exact htoken (countWhile_cons_of_neg (Bool.not_eq_true _ ▸ hc) body)
        | cons c r =>
            refine credentials_of_head hfound (fun d hd => ?_) before
            obtain rfl : c = d := by simpa using hd
            exact hvalue.isBlank_eq_false c (by simp)
      · exact absurd (hword ▸ List.mem_map_of_mem (by simp)) (hs.foldCase_notMem (hq c rfl))

/-- A value that opens no credentials stays, and what comes behind it is redacted by itself. -/
lemma replaceFrom_value (hs : IsScheme word isToken) {s q : List Char} (hvalue : IsValue s)
    (hq : Apart q) (hopens : ¬ Opens word isToken s q) (before : Option Char) :
    replaceFrom (credentials word isToken) before 0 (s ++ q)
      = s ++ replaceAll (credentials word isToken) q := by
  have hnone := hs.credentials_value hvalue hq hopens before
  obtain ⟨c, rest, rfl⟩ := List.exists_cons_of_ne_nil hvalue.1
  rw [List.cons_append] at hnone ⊢
  rw [replaceFrom_cons_of_none hnone, replaceFrom_wordChars, hq.replaceFrom_eq hs.sober,
    List.cons_append]
  · exact fun d hd => isWordChar_of_isAlphanum (hvalue.2 d (List.mem_cons_of_mem c hd))
  · simpa [atBoundary] using isWordChar_of_isAlphanum (hvalue.2 c List.mem_cons_self)

/-- A value that opens credentials stays, and of what comes behind it the blanks stay and then comes
the mark. -/
lemma replaceFrom_value_of_opens {s q : List Char} (hvalue : IsValue s)
    (hq : Apart q) (hopens : Opens word isToken s q) {before : Option Char}
    (hbefore : atBoundary before = true) :
    ∃ r, replaceFrom (credentials word isToken) before 0 (s ++ q)
      = s ++ (q.takeWhile isBlank ++ '[' :: r) := by
  obtain ⟨hword, c, hhead, hc⟩ := hopens
  obtain ⟨blanks, body, rfl, hblanks, hbody⟩ := exists_blanks_append q
  rw [List.dropWhile_append_of_pos hblanks] at hhead
  rw [List.takeWhile_append_of_pos hblanks]
  cases body with
  | nil => cases hhead
  | cons d body =>
      have hd := hbody d rfl
      rw [List.dropWhile_cons_of_neg (by simp [hd]), List.head?_cons, Option.some.injEq] at hhead
      subst hhead
      have hne : blanks ≠ [] := by
        rintro rfl
        rw [hq d rfl] at hd
        cases hd
      have htoken : countWhile isToken (d :: body) ≠ 0 := by
        rw [countWhile, List.takeWhile_cons_of_pos hc]
        simp
      have hmatch := credentials_eq isToken hword hblanks hbody before
      rw [if_pos ⟨hbefore, hne, htoken⟩] at hmatch
      have hparts : s ++ (blanks ++ d :: body) = (s ++ blanks)
          ++ (d :: body).take (tokenLength isToken (d :: body))
          ++ (d :: body).drop (tokenLength isToken (d :: body)) := by
        rw [List.append_assoc (s ++ blanks), List.take_append_drop, List.append_assoc]
      have hlength : ((d :: body).take (tokenLength isToken (d :: body))).length
          = tokenLength isToken (d :: body) :=
        List.length_take_of_le (tokenLength_le isToken (d :: body))
      rw [hparts, ← hlength] at hmatch
      rw [hparts, replaceFrom_of_match (by rwa [hlength] at hmatch ⊢) (by simp [hvalue.1])]
      rw [List.takeWhile_cons_of_neg (by simp [hd]), List.append_nil]
      exact ⟨_, by simp only [List.append_assoc]; rfl⟩

end IsScheme

end Componentry.Redaction
