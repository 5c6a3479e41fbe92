import Mathlib.Tactic
import Componentry.Proofs.Redaction.Marked
import Componentry.Proofs.Redaction.Secrecy
/-!
# Redacting twice

A redacted text has nothing left to redact (`redact_redact`).  The four recognisers are steady
(`steady_authorization`, `steady_credentials`, `steady_assignment`), so that none of them finds
anything new where a later one has put its marks.  What is left is what a recogniser finds in its own
output: a scheme finds nothing, since no token starts with a bracket (`clear_credentials`), and a
header or an assignment finds the mark itself in place of its secret and leaves it there
(`replaceFrom_authorized`, `replaceFrom_assigned`).
-/

namespace Componentry.Redaction

open Text

/-! ### The words of the recognisers -/

/-- The words that matches start with. -/
def leadingWords : List (List Char) :=
  [header, "bearer".toList, "basic".toList] ++ secretNames.map (· ++ ['='])

/-- No word starts within the mark. -/
lemma behindWord_mark {word : List Char} (hword : word ∈ leadingWords) {b : List Char}
    (hne : b ≠ []) (hb : b <:+ mark) (t : List Char) : behindWord word (b ++ t) = none := by
  have hall : ∀ word ∈ leadingWords, foldCase ']' ∉ word
      ∧ ∀ k ∈ "[REDACTED".toList.tails, behindWord word k = none := by decide
  obtain ⟨k, rfl, hk⟩ := (List.suffix_concat_iff.mp
    (show b <:+ "[REDACTED".toList ++ [']'] from hb)).resolve_left hne
  rw [List.append_assoc, List.singleton_append, behindWord_append_eq (hall word hword).1,
    (hall word hword).2 k ((List.mem_tails _ _).mpr hk), Option.map_none]

lemma bracket_notMem {word : List Char} (hword : word ∈ leadingWords) : '[' ∉ word := by
  have hall : ∀ word ∈ leadingWords, '[' ∉ word := by decide
  exact hall word hword

lemma name_mem_leadingWords {name : List Char} (h : name ∈ secretNames) :
    name ++ ['='] ∈ leadingWords :=
  List.mem_append_right _ (List.mem_map_of_mem h)

lemma mark_ne_nil : mark ≠ [] := by decide

lemma mark_notBlank : ∀ c ∈ mark, isBlank c = false := forall_of_all (by decide)

/-- A mark between blanks stays. -/
lemma replaceFrom_mark {find : Recogniser} (hsober : Sober find) (hsteady : Steady find) {d : Char}
    (hd : isBlank d = true) {tail : List Char} (htail : Blanks tail) (before : Option Char) :
    replaceFrom find before 0 (d :: (mark ++ tail)) = d :: (mark ++ tail) := by
  have hend := replaceFrom_blanks hsober htail (some ']') []
  rw [List.append_nil, replaceFrom, List.append_nil] at hend
  rw [replaceFrom_cons_of_none (hsober.blank before d _ hd), replaceFrom_of_none find
    fun before b hb hsuffix => hsteady.mark before b tail hb hsuffix, behind_mark, hend]

/-! ### Headers -/

/-- There is no header where no blanks and no secret come behind the word. -/
lemma authorization_eq_none_iff {before : Option Char} {text : List Char} :
    authorization before text = none
      ↔ ∀ rest, behindWord header text = some rest → ¬ Leads (fun _ => true) rest := by
  cases hfound : behindWord header text with
  | none => simp [authorization_of_none hfound]
  | some rest =>
      obtain ⟨w, rfl, hword⟩ := behindWord_eq_some_iff.mp hfound
      obtain ⟨blanks, body, rfl, hblanks, hbody⟩ := exists_blanks_append rest
      simp only [authorization_eq hword hblanks hbody, Option.some.injEq, forall_eq',
        leads_append hblanks hbody]
      cases body with
      | nil => simp [trimEnd]
      | cons c body =>
          have htrim : trimEnd (c :: body) ≠ [] := by
            intro h
            have hends := trimEnd_append_endBlanks (c :: body)
            rw [h, List.nil_append] at hends
            have hblank := blanks_endBlanks (c :: body) c (by rw [hends]; exact List.mem_cons_self)
            rw [hbody c rfl] at hblank
            cases hblank
          simp [htrim]

lemma steady_authorization : Steady authorization where
  mark before b t hne hb := authorization_of_none (behindWord_mark (by decide) hne hb t) before
  keep := by
    intro before before' c t t' hmarked _ hnone
    rw [authorization_eq_none_iff] at hnone ⊢
    intro r' hr' hleads
    obtain ⟨r, hr, hmarked⟩ := (Marked.keep c hmarked).behindWord (bracket_notMem (by decide)) hr'
    exact hnone r hr (hmarked.leads (fun _ _ _ => rfl) hleads)

/-- A header takes its secret up to the blanks at the end of the text. -/
lemma replaceFrom_header {w blanks body : List Char} (hword : w.map foldCase = header)
    (hblanks : Blanks blanks) (hne : blanks ≠ []) (hbody : ∃ c ∈ body.head?, isBlank c = false)
    (before : Option Char) :
    replaceFrom authorization before 0 (w ++ (blanks ++ body))
      = w ++ blanks ++ mark ++ endBlanks body := by
  obtain ⟨c, hc, hblank⟩ := hbody
  have hhead : ∀ d ∈ body.head?, isBlank d = false := by
    intro d hd
    rw [hc] at hd
    exact Option.some.inj hd ▸ hblank
  have hleads : Leads (fun _ => true) (blanks ++ body) :=
    (leads_append hblanks hhead).mpr ⟨hne, c, hc, rfl⟩
  have hmatch := authorization_eq hword hblanks hhead before
  split_ifs at hmatch with hnone
  · exact absurd hleads (authorization_eq_none_iff.mp hmatch _
      (behindWord_eq_some_iff.mpr ⟨w, rfl, hword⟩))
  · have hparts : w ++ (blanks ++ body) = w ++ blanks ++ trimEnd body ++ endBlanks body := by
      rw [List.append_assoc (w ++ blanks), trimEnd_append_endBlanks, List.append_assoc]
    have hend := replaceFrom_blanks sober_authorization (blanks_endBlanks body)
      (behind before (w ++ blanks ++ trimEnd body)) []
    rw [List.append_nil, replaceFrom, List.append_nil] at hend
    rw [hparts] at hmatch ⊢
    rw [replaceFrom_of_match hmatch (by simp [hne]), hend]

/-- Nothing is found in the word of a header and blanks. -/
lemma clear_header {w blanks : List Char} (hword : w.map foldCase = header)
    (hblanks : Blanks blanks) (before : Option Char) :
    Clear authorization before (w ++ blanks) := by
  have happend : Clear authorization before (w ++ blanks ++ []) := by
    refine Clear.append (fun before b _ hb => ?_) trivial
    rw [List.append_nil, authorization_eq_none_iff]
    rintro r hr ⟨front, c, body, rfl, -, -, hc, -⟩
    rw [blanks_of_suffix hword hblanks hb hr c (by simp)] at hc
    cases hc
  rwa [List.append_nil] at happend

/-- **What becomes of headers**: there are none, or the text ends with a mark between blanks, and
none is found in front of it. -/
lemma exists_authorized (before : Option Char) (t : List Char) :
    Clear authorization before t
      ∨ ∃ u d tail, replaceFrom authorization before 0 t = u ++ d :: (mark ++ tail)
        ∧ u ++ [d] <+: t ∧ isBlank d = true ∧ Blanks tail ∧ Clear authorization before u := by
  induction t generalizing before with
  | nil => exact .inl trivial
  | cons c t ih =>
      by_cases hnone : authorization before (c :: t) = none
      · obtain hclear | ⟨u, d, tail, htext, hprefix, hd, htail, hclear⟩ := ih (some c)
        · exact .inl ⟨hnone, hclear⟩
        · refine .inr ⟨c :: u, d, tail, ?_, ?_, hd, htail, ?_, hclear⟩
          · rw [replaceFrom_cons_of_none hnone, htext, List.cons_append]
          · exact List.cons_prefix_cons.mpr ⟨rfl, hprefix⟩
          · -- What is found in front of the mark is found in the longer text.
            obtain ⟨x, rfl⟩ := hprefix
            rw [authorization_eq_none_iff] at hnone ⊢
            rintro r hr ⟨blanks, e, body, rfl, hblanks, hne, he, -⟩
            refine hnone _ ?_ ⟨blanks, e, body ++ ([d] ++ x), rfl, hblanks, hne, he, rfl⟩
            have hlonger := behindWord_append_of_some hr ([d] ++ x)
            simpa using hlonger
      · rw [authorization_eq_none_iff] at hnone
        push Not at hnone
        obtain ⟨rest, hfound, blanks, d, body, rfl, hblanks, hne, hd, -⟩ := hnone
        obtain ⟨w, htext, hword⟩ := behindWord_eq_some_iff.mp hfound
        obtain ⟨front, last, rfl⟩ := (List.eq_nil_or_concat blanks).resolve_left hne
        rw [List.concat_eq_append] at hblanks hne htext
        refine .inr ⟨w ++ front, last, endBlanks (d :: body), ?_, ?_, hblanks last (by simp),
          blanks_endBlanks _, clear_header hword (fun e he => hblanks e (by simp [he])) before⟩
        · rw [htext, replaceFrom_header hword hblanks hne ⟨d, rfl, hd⟩]
          simp
        · rw [htext]
          exact ⟨d :: body, by simp⟩

/-- A header with the mark behind it stays. -/
lemma replaceFrom_authorized {before : Option Char} {u tail : List Char} {d : Char}
    (hclear : Clear authorization before u) (hd : isBlank d = true) (htail : Blanks tail) :
    replaceFrom authorization before 0 (u ++ d :: (mark ++ tail)) = u ++ d :: (mark ++ tail) := by
  induction u generalizing before with
  | nil => exact replaceFrom_mark sober_authorization steady_authorization hd htail before
  | cons c u ih =>
      by_cases hnone : authorization before (c :: u ++ d :: (mark ++ tail)) = none
      · rw [List.cons_append] at hnone ⊢
        rw [replaceFrom_cons_of_none hnone, ih hclear.2]
      · -- The header starts here, and it has nothing but blanks in front of the mark.
        rw [authorization_eq_none_iff] at hnone
        push Not at hnone
        obtain ⟨rest, hfound, hleads⟩ := hnone
        have hheader : foldCase d ∉ header := by
          rw [foldCase_of_isBlank hd]
          intro hmem
          rw [header_isBlank d hmem] at hd
          cases hd
        rw [behindWord_append_eq hheader, Option.map_eq_some_iff] at hfound
        obtain ⟨r, hr, rfl⟩ := hfound
        obtain ⟨w, htext, hword⟩ := behindWord_eq_some_iff.mp hr
        obtain ⟨blanks, body, rfl, hblanks, hbody⟩ := exists_blanks_append r
        cases body with
        | cons e body =>
            have hhere := authorization_eq_none_iff.mp hclear.1 _ hr
            have hbody' : ∀ c ∈ (e :: (body ++ d :: (mark ++ tail))).head?, isBlank c = false :=
              hbody
            rw [leads_append hblanks hbody] at hhere
            rw [List.append_assoc, List.cons_append, leads_append hblanks hbody'] at hleads
            exact absurd ⟨hleads.1, e, rfl, rfl⟩ hhere
        | nil =>
            have hblanks' : Blanks (blanks ++ [d]) := by
              simpa [Blanks, or_imp, forall_and, hd] using hblanks
            have hend : endBlanks (mark ++ tail) = tail := by
              have hparts := trimEnd_append_endBlanks (mark ++ tail)
              rw [trimEnd_append_blanks ⟨']', rfl, by decide⟩ htail] at hparts
              exact List.append_cancel_left hparts
            have hmark : ∃ c ∈ (mark ++ tail).head?, isBlank c = false := ⟨'[', rfl, by decide⟩
            have hmatch := replaceFrom_header hword hblanks' (by simp) hmark before
            rw [hend] at hmatch
            rw [htext]
            simpa using hmatch

/-! ### Schemes -/

section Schemes

variable {word : List Char} {isToken : Char → Bool}

/-- There are no credentials where no word may begin, or no blanks and no token come behind it. -/
lemma credentials_eq_none_iff {before : Option Char} {text : List Char} :
    credentials word isToken before text = none ↔ (atBoundary before = true →
      ∀ rest, behindWord word text = some rest → ¬ Leads isToken rest) := by
  cases hfound : behindWord word text with
  | none => simp [IsScheme.credentials_of_none hfound]
  | some rest =>
      obtain ⟨w, rfl, hword⟩ := behindWord_eq_some_iff.mp hfound
      obtain ⟨blanks, body, rfl, hblanks, hbody⟩ := exists_blanks_append rest
      have htoken : countWhile isToken body ≠ 0 ↔ ∃ c ∈ body.head?, isToken c = true := by
        cases body with
        | nil => simp [countWhile]
        | cons c body => by_cases hc : isToken c = true <;> simp [countWhile, hc]
      simp only [IsScheme.credentials_eq isToken hword hblanks hbody, Option.some.injEq, forall_eq',
        leads_append hblanks hbody, ← htoken]
      split_ifs with h
      · simp only [false_iff]
        exact fun hnot => hnot h.1 h.2
      · simp only [true_iff]
        exact fun hbefore hleads => h ⟨hbefore, hleads⟩

lemma steady_credentials (hs : IsScheme word isToken) (hword : word ∈ leadingWords) :
    Steady (credentials word isToken) where
  mark before b t hne hb := IsScheme.credentials_of_none (behindWord_mark hword hne hb t) before
  keep := by
    intro before before' c t t' hmarked hbefore hnone
    rw [credentials_eq_none_iff] at hnone ⊢
    intro hboundary r' hr' hleads
    obtain ⟨r, hr, hmarked⟩ := (Marked.keep c hmarked).behindWord (bracket_notMem hword) hr'
    have halpha : (foldCase c).isAlpha = true := by
      obtain ⟨w, htext, hw⟩ := behindWord_eq_some_iff.mp hr'
      cases w with
      | nil => exact absurd hw.symm hs.ne_nil
      | cons d w =>
          obtain rfl := (List.cons.inj htext).1
          exact hs.alpha _ (hw ▸ List.mem_cons_self)
    refine hnone (hbefore halpha hboundary) r hr (hmarked.leads (fun hbracket => ?_) hleads)
    rw [hs.bracket] at hbracket
    cases hbracket

/-- The token that a text starts with, and its padding. -/
lemma exists_token (isToken : Char → Bool) (body : List Char) :
    ∃ token padding rest, body = token ++ padding ++ rest
      ∧ countWhile isToken body = token.length
      ∧ tokenLength isToken body = (token ++ padding).length ∧ (∀ c ∈ token, isToken c = true)
      ∧ (∀ c ∈ padding, c = '=') ∧ ∀ c ∈ (padding ++ rest).head?, isToken c = false := by
  obtain ⟨token, hidden, rfl, htoken, hhidden⟩ : ∃ token hidden, body = token ++ hidden
      ∧ (∀ c ∈ token, isToken c = true) ∧ ∀ c ∈ hidden.head?, isToken c = false := by
    refine ⟨body.takeWhile isToken, body.dropWhile isToken, List.takeWhile_append_dropWhile.symm,
      List.all_eq_true.mp List.all_takeWhile, fun c hc => ?_⟩
    have hnot := List.head?_dropWhile_not isToken body
    rw [hc] at hnot
    simpa using hnot
  have hcount : countWhile isToken (token ++ hidden) = token.length := by
    rw [countWhile_append_of_all htoken]
    cases hidden with
    | nil => rfl
    | cons c hidden => rw [countWhile_cons_of_neg (hhidden c rfl), Nat.add_zero]
  refine ⟨token, hidden.takeWhile (· == '='), hidden.dropWhile (· == '='), ?_, hcount, ?_, htoken,
    fun c hc => ?_, ?_⟩
  · rw [List.append_assoc, List.takeWhile_append_dropWhile]
  · rw [tokenLength, hcount, List.drop_left, List.length_append, countWhile]
  · simpa using List.all_eq_true.mp List.all_takeWhile c hc
  · rwa [List.takeWhile_append_dropWhile]

/-- What a match of a scheme is made of: a word and blanks, and a token and its padding. -/
lemma exists_of_hit {before : Option Char} {kept secret rest : List Char}
    (h : credentials word isToken before (kept ++ secret ++ rest)
      = some ⟨kept.length, secret.length⟩) :
    (∃ w blanks, kept = w ++ blanks ∧ w.map foldCase = word ∧ Blanks blanks)
      ∧ ∃ token padding, secret = token ++ padding ∧ token ≠ [] ∧ (∀ c ∈ token, isToken c = true)
        ∧ (∀ c ∈ padding, c = '=') ∧ ∀ c ∈ (padding ++ rest).head?, isToken c = false := by
  have hsome : credentials word isToken before (kept ++ secret ++ rest) ≠ none := by
    rw [h]
    exact Option.some_ne_none _
  rw [ne_eq, credentials_eq_none_iff] at hsome
  push Not at hsome
  obtain ⟨hbefore, r, hfound, blanks, c, body, rfl, hblanks, hne, hc, hfirst⟩ := hsome
  obtain ⟨w, htext, hword⟩ := behindWord_eq_some_iff.mp hfound
  have hcount : countWhile isToken (c :: body) ≠ 0 := by simp [countWhile, hfirst]
  rw [htext, IsScheme.credentials_eq isToken hword hblanks (by rintro d ⟨⟩; exact hc),
    if_pos ⟨hbefore, hne, hcount⟩, Option.some.injEq, Finding.mk.injEq] at h
  rw [← List.append_assoc w, List.append_assoc kept] at htext
  obtain ⟨rfl, hbody⟩ := List.append_inj htext h.1.symm
  obtain ⟨token, padding, more, hparts, htoken, hlength, hall, hpadding, hhead⟩ :=
    exists_token isToken (c :: body)
  rw [hlength] at h
  rw [htoken] at hcount
  obtain ⟨rfl, rfl⟩ := List.append_inj (hbody.trans hparts) h.2.symm
  exact ⟨⟨w, blanks, rfl, hword, hblanks⟩, token, padding, rfl,
    List.ne_nil_of_length_pos (Nat.pos_of_ne_zero hcount), hall, hpadding, hhead⟩

/-- A letter comes behind a token only where its padding ends. -/
lemma hideable_credentials (hs : IsScheme word isToken)
    (hletter : ∀ c, (foldCase c).isAlpha = true → isToken c = true) {before : Option Char}
    {kept secret rest : List Char} (h : credentials word isToken before (kept ++ secret ++ rest)
      = some ⟨kept.length, secret.length⟩) : Hideable secret rest := by
  obtain ⟨-, token, padding, rfl, hne, hall, hpadding, hhead⟩ := exists_of_hit h
  refine ⟨by simp [hne], fun c hc => ?_, fun c hc halpha => ?_⟩
  · obtain hc | hc := List.mem_append.mp hc
    · by_contra hblank
      have htoken := hs.blank c (by simpa using hblank)
      rw [hall c hc] at htoken
      cases htoken
    · rw [hpadding c hc]
      decide
  · obtain rfl | ⟨front, last, rfl⟩ := List.eq_nil_or_concat padding
    · have htoken := hhead c hc
      rw [hletter c halpha] at htoken
      cases htoken
    · obtain rfl := hpadding last (by simp)
      rw [List.concat_eq_append, ← List.append_assoc, List.getLast?_concat]
      exact atBoundary_equals

lemma marked_credentials (hs : IsScheme word isToken)
    (hletter : ∀ c, (foldCase c).isAlpha = true → isToken c = true) {before : Option Char}
    {t t' : List Char} (h : Replaced (credentials word isToken) before t t') : Marked t t' :=
  h.marked fun _ _ _ _ hfound => hideable_credentials hs hletter hfound

/-- **A scheme finds nothing in its own output**, since a mark is no token. -/
lemma clear_credentials (hs : IsScheme word isToken) (hword : word ∈ leadingWords)
    (hletter : ∀ c, (foldCase c).isAlpha = true → isToken c = true) {before : Option Char}
    {t t' : List Char} (h : Replaced (credentials word isToken) before t t') :
    Clear (credentials word isToken) before t' := by
  have hsteady := steady_credentials hs hword
  induction h with
  | done => trivial
  | pass hnone hgo ih =>
      exact ⟨hsteady.keep (marked_credentials hs hletter hgo) (fun _ hsame => hsame) hnone, ih⟩
  | @hit before kept secret rest rest' hfound hgo ih =>
      have hmarked := marked_credentials hs hletter hgo
      have hhidden := hideable_credentials hs hletter hfound
      obtain ⟨⟨w, blanks, rfl, hw, hblanks⟩, -⟩ := exists_of_hit hfound
      rw [List.append_assoc]
      refine Clear.append (fun before b _ hb => ?_) (Clear.append
        (fun before b hne hb => hsteady.mark before b rest' hne hb) ?_)
      · -- Behind the word are blanks, and then the bracket.
        have hbracket : foldCase '[' ∉ word := bracket_notMem hword
        rw [show mark ++ rest' = '[' :: ("REDACTED]".toList ++ rest') from rfl,
          credentials_eq_none_iff]
        intro _ r hr hleads
        rw [behindWord_append_eq hbracket, Option.map_eq_some_iff] at hr
        obtain ⟨blanks', hr, rfl⟩ := hr
        rw [leads_append (blanks_of_suffix hw hblanks hb hr) (by rintro c ⟨⟩; decide)] at hleads
        obtain ⟨-, c, ⟨⟩, htoken⟩ := hleads
        rw [hs.bracket] at htoken
        cases htoken
      · refine hsteady.clear (Marked.refl rest') (fun c hc halpha _ => ?_) ih
        rw [behind_append_of_ne_nil hhidden.ne_nil]
        obtain hsame | ⟨hbracket, -⟩ := hmarked.head_cases
        · exact hhidden.boundary c (hsame ▸ hc) halpha
        · rw [hbracket] at hc
          obtain rfl := Option.some.inj hc
          exact absurd halpha (by decide)

end Schemes

/-- A scheme takes every letter for a part of its token. -/
lemma isTokenChar_of_isAlpha (others : List Char) (c : Char) (h : (foldCase c).isAlpha = true) :
    isTokenChar others c = true := by
  rw [isTokenChar, Char.isAlphanum, h, Bool.true_or, Bool.true_or]

/-! ### Assignments -/

/-- There is no assignment where no value comes behind any of the names. -/
lemma assignment_eq_none_iff {before : Option Char} {text : List Char} :
    assignment before text = none
      ↔ ∀ name ∈ secretNames, ∀ rest, behindWord (name ++ ['=']) text = some rest → Apart rest := by
  rw [assignment_def, List.findSome?_eq_none_iff]
  refine forall₂_congr fun name _ => ?_
  cases hfound : behindWord (name ++ ['=']) text with
  | none => simp [assignedTo_of_none hfound]
  | some rest =>
      simp only [assignedTo_of_some hfound, Option.some.injEq, forall_eq']
      cases rest with
      | nil => simp [countWhile, Apart]
      | cons c rest => by_cases hc : isBlank c = true <;> simp [countWhile, Apart, hc]

lemma steady_assignment : Steady assignment where
  mark before b t hne hb := by
    rw [assignment_eq_none_iff]
    intro name hname rest hrest
    rw [behindWord_mark (name_mem_leadingWords hname) hne hb] at hrest
    cases hrest
  keep := by
    intro before before' c t t' hmarked _ hnone
    rw [assignment_eq_none_iff] at hnone ⊢
    intro name hname r' hr'
    obtain ⟨r, hr, hmarked⟩ := (Marked.keep c hmarked).behindWord
      (bracket_notMem (name_mem_leadingWords hname)) hr'
    exact hmarked.apart (hnone name hname r hr)

/-- Of two names in front of an equals sign at the same place there is one. -/
lemma name_inj {name key w w' rest rest' : List Char} (hname : name ∈ secretNames)
    (hkey : key ∈ secretNames) (hw : w.map foldCase = name ++ ['='])
    (hw' : w'.map foldCase = key ++ ['=']) (h : w ++ rest = w' ++ rest') : name = key := by
  have hequals : ∀ name ∈ secretNames, '=' ∉ name := by decide
  have hboth := congrArg (List.map foldCase) h
  rw [List.map_append, List.map_append, hw, hw', List.append_assoc, List.append_assoc] at hboth
  exact (append_separator_inj (hequals name hname) (hequals key hkey) hboth).1

/-- An assignment takes the value up to the next blank. -/
lemma assignment_eq {name w s q : List Char} (hname : name ∈ secretNames)
    (hw : w.map foldCase = name ++ ['=']) (hne : s ≠ []) (hs : ∀ c ∈ s, isBlank c = false)
    (hq : Apart q) (before : Option Char) :
    assignment before (w ++ s ++ q) = some ⟨w.length, s.length⟩ := by
  have hlength : w.length = name.length + 1 := by
    rw [← List.length_map (f := foldCase), hw, List.length_append, List.length_singleton]
  have hfound : ∀ key ∈ secretNames, assignedTo (w ++ s ++ q) key
      = if name = key then some ⟨w.length, s.length⟩ else none := by
    intro key hkey
    split_ifs with hsame
    · have hbehind : behindWord (key ++ ['=']) (w ++ s ++ q) = some (s ++ q) :=
        behindWord_eq_some_iff.mpr ⟨w, List.append_assoc w s q, hsame ▸ hw⟩
      rw [assignedTo_of_some hbehind, countWhile_apart hs hq, if_neg (by simp [hne]), hlength,
        hsame]
    · refine assignedTo_of_none (Option.eq_none_iff_forall_ne_some.mpr fun rest hrest => hsame ?_)
      obtain ⟨w', htext, hw'⟩ := behindWord_eq_some_iff.mp hrest
      rw [List.append_assoc] at htext
      exact name_inj hname hkey hw hw' htext
  rw [assignment_def, findSome?_congr hfound]
  exact findSome?_of_mem hname _

/-- What a match of an assignment is made of: a name and an equals sign, and a value. -/
lemma exists_of_assigned {before : Option Char} {kept secret rest : List Char}
    (h : assignment before (kept ++ secret ++ rest) = some ⟨kept.length, secret.length⟩) :
    (∃ name ∈ secretNames, kept.map foldCase = name ++ ['=']) ∧ secret ≠ []
      ∧ (∀ c ∈ secret, isBlank c = false) ∧ Apart rest := by
  have hsome : assignment before (kept ++ secret ++ rest) ≠ none := by
    rw [h]
    exact Option.some_ne_none _
  rw [ne_eq, assignment_eq_none_iff] at hsome
  push Not at hsome
  obtain ⟨name, hname, r, hfound, hvalue⟩ := hsome
  obtain ⟨w, htext, hw⟩ := behindWord_eq_some_iff.mp hfound
  have hparts : r = r.takeWhile (fun c => !isBlank c) ++ r.dropWhile fun c => !isBlank c :=
    List.takeWhile_append_dropWhile.symm
  have hs : ∀ c ∈ r.takeWhile fun c => !isBlank c, isBlank c = false := fun c hc => by
    simpa using List.all_eq_true.mp List.all_takeWhile c hc
  have hq : Apart (r.dropWhile fun c => !isBlank c) := fun c hc => by
    have hnot := List.head?_dropWhile_not (fun c => !isBlank c) r
    rw [hc] at hnot
    simpa using hnot
  have hne : r.takeWhile (fun c => !isBlank c) ≠ [] := by
    intro hnil
    rw [hnil, List.nil_append] at hparts
    exact hvalue (hparts ▸ hq)
  have hmatch := assignment_eq hname hw hne hs hq before
  rw [List.append_assoc w, ← hparts, ← htext, h, Option.some.injEq, Finding.mk.injEq] at hmatch
  rw [hparts, ← List.append_assoc w, List.append_assoc kept, List.append_assoc w] at htext
  obtain ⟨rfl, hbody⟩ := List.append_inj htext hmatch.1
  obtain ⟨rfl, rfl⟩ := List.append_inj hbody hmatch.2
  exact ⟨⟨name, hname, hw⟩, hne, hs, hq⟩

lemma marked_assignment {before : Option Char} {t t' : List Char}
    (h : Replaced assignment before t t') : Marked t t' := by
  refine h.marked fun before kept secret rest hfound => ?_
  obtain ⟨-, hne, hs, hq⟩ := exists_of_assigned hfound
  refine ⟨hne, hs, fun c hc halpha => ?_⟩
  -- No letter comes behind a value.
  have hblank := hq c hc
  rw [foldCase_of_isBlank hblank] at halpha
  rw [isBlank_of_isAlphanum (by rw [Char.isAlphanum, halpha, Bool.true_or])] at hblank
  cases hblank

/-- **An assignment of the mark stays**: what is found behind the name is the mark. -/
lemma replaceFrom_assigned {before : Option Char} {t t' : List Char}
    (h : Replaced assignment before t t') (before' : Option Char) :
    replaceFrom assignment before' 0 t' = t' := by
  induction h generalizing before' with
  | done => rfl
  | pass hnone hgo ih =>
      -- What is in front of an assignment does not count.
      have hhere : assignment before' _ = none := hnone
      rw [replaceFrom_cons_of_none
        (steady_assignment.keep (marked_assignment hgo) (fun _ hsame => hsame) hhere), ih]
  | @hit before kept secret rest rest' hfound hgo ih =>
      obtain ⟨⟨name, hname, hkept⟩, -, -, hrest⟩ := exists_of_assigned hfound
      have hmatch := assignment_eq hname hkept mark_ne_nil mark_notBlank
        ((marked_assignment hgo).apart hrest) before'
      rw [replaceFrom_of_match hmatch (by simp [mark_ne_nil]), ih]

/-! ### All four recognisers -/

/-- A mark between blanks at the end of a text is redacted by itself. -/
lemma replaceAll_authorized {u tail : List Char} {d : Char} (hd : isBlank d = true)
    (htail : Blanks tail) :
    replaceAll assignment (replaceAll basic (replaceAll bearer (u ++ d :: (mark ++ tail))))
      = replaceAll assignment (replaceAll basic (replaceAll bearer u)) ++ d :: (mark ++ tail) := by
  have hcut : ∀ {find : Recogniser}, Sober find → Steady find →
      (∀ before b, b ≠ [] → find before (b ++ d :: (mark ++ tail)) = find before b) →
      ∀ u, replaceAll find (u ++ d :: (mark ++ tail)) = replaceAll find u ++ d :: (mark ++ tail) := by
    intro find hsober hsteady hfind u
    rw [replaceAll, replaceFrom_append_of_cut hsober hfind none (Nat.zero_le _),
      replaceFrom_mark hsober hsteady hd htail, replaceAll]
  have hscheme : ∀ {word : List Char} {isToken : Char → Bool}, IsScheme word isToken →
      word ∈ leadingWords → ∀ u, replaceAll (credentials word isToken) (u ++ d :: (mark ++ tail))
        = replaceAll (credentials word isToken) u ++ d :: (mark ++ tail) := fun hs hword =>
    hcut hs.sober (steady_credentials hs hword)
      fun before b _ => hs.cut hd ("REDACTED]".toList ++ tail) before b
  rw [bearer, hscheme isScheme_bearer (by decide), basic, hscheme isScheme_basic (by decide),
    hcut sober_assignment steady_assignment fun before b _ => assignment_cut hd _ before b]

lemma marked_bearer (t : List Char) : Marked t (replaceAll bearer t) :=
  marked_credentials isScheme_bearer (isTokenChar_of_isAlpha _)
    (replaced_replaceFrom isScheme_bearer.sober none t)

lemma marked_basic (t : List Char) : Marked t (replaceAll basic t) :=
  marked_credentials isScheme_basic (isTokenChar_of_isAlpha _)
    (replaced_replaceFrom isScheme_basic.sober none t)

lemma marked_assigned (t : List Char) : Marked t (replaceAll assignment t) :=
  marked_assignment (replaced_replaceFrom sober_assignment none t)

/-- A text that is clear for a steady recogniser stays so. -/
lemma Steady.clear_of_marked {find : Recogniser} (hfind : Steady find) {t t' : List Char}
    (h : Marked t t') (hclear : Clear find none t) : Clear find none t' :=
  hfind.clear h (fun _ _ _ hsame => hsame) hclear

/-- No header is found in a redacted text, or the one with the mark behind it is. -/
lemma replaceAll_authorization_redactChars (text : List Char) :
    replaceAll authorization (redactChars text) = redactChars text := by
  have hkept : ∀ {t}, Clear authorization none t → Clear authorization none
      (replaceAll assignment (replaceAll basic (replaceAll bearer t))) := fun {t} hclear =>
    steady_authorization.clear_of_marked (marked_assigned _)
      (steady_authorization.clear_of_marked (marked_basic _)
        (steady_authorization.clear_of_marked (marked_bearer t) hclear))
  rw [redactChars_eq]
  obtain hclear | ⟨u, d, tail, htext, -, hd, htail, hclear⟩ := exists_authorized none text
  · rw [hclear.replaceAll_eq, (hkept hclear).replaceAll_eq]
  · rw [show replaceAll authorization text = _ from htext, replaceAll_authorized hd htail,
      replaceAll, replaceFrom_authorized (hkept hclear) hd htail]

/-- **A redacted text has nothing left to redact.** -/
lemma redactChars_redactChars (text : List Char) :
    redactChars (redactChars text) = redactChars text := by
  have hbearer := steady_credentials isScheme_bearer (by decide)
  have hbasic := steady_credentials isScheme_basic (by decide)
  -- What the later recognisers mark keeps the earlier ones from finding anything.
  have hclear₂ : Clear bearer none (redactChars text) := by
    rw [redactChars_eq]
    refine hbearer.clear_of_marked (marked_assigned _) (hbearer.clear_of_marked (marked_basic _) ?_)
    exact clear_credentials isScheme_bearer (by decide) (isTokenChar_of_isAlpha _)
      (replaced_replaceFrom isScheme_bearer.sober none _)
  have hclear₃ : Clear basic none (redactChars text) := by
    rw [redactChars_eq]
    refine hbasic.clear_of_marked (marked_assigned _) ?_
    exact clear_credentials isScheme_basic (by decide) (isTokenChar_of_isAlpha _)
      (replaced_replaceFrom isScheme_basic.sober none _)
  have hfixed : replaceAll assignment (redactChars text) = redactChars text := by
    rw [redactChars_eq]
    exact replaceFrom_assigned (replaced_replaceFrom sober_assignment none _) none
  rw [redactChars_eq (redactChars text), replaceAll_authorization_redactChars,
    hclear₂.replaceAll_eq, hclear₃.replaceAll_eq, hfixed]

end Componentry.Redaction
