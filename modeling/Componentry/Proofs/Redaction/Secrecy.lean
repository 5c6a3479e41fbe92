import Mathlib.Tactic
import Componentry.Proofs.Redaction.Assignments
import Componentry.Proofs.Redaction.Headers
import Componentry.Proofs.Redaction.Schemes
/-!
# What a redacted text tells about a secret

Take a text with an assignment of a value to a secret name, and vary the value.  Whether the redacted
text tells anything about it is decided by the text in front of the value, as a rule.

* Behind a header everything goes, the assignment included (`Headed`).
* Otherwise the schemes go over the text before the assignments do, and `Stands` says whether they
  leave the name and the equals sign of the assignment standing.  If they do, the value is redacted
  (`exists_hidden`).  If they do not, because the name has been taken for a token, nothing shows any
  more that there is a value to redact, and it stays in the open (`exists_exposed`).
* A value that is itself the word of a scheme, with a token behind it, takes that token along
  (`Opens`).

`redact_blind` puts this together.
-/

namespace Componentry.Redaction

open Text

/-- Whether the schemes leave an assignment standing, name and equals sign. -/
def Stands (u name : List Char) : Prop :=
  (name ++ ['=']) <:+ replaceAll basic (replaceAll bearer (u ++ (name ++ ['='])))

instance (u name : List Char) : Decidable (Stands u name) := inferInstanceAs (Decidable (_ <:+ _))

/-- Whether a value is the word of one of the schemes and has a token behind it. -/
def OpensScheme (s q : List Char) : Prop :=
  Opens "bearer".toList (isTokenChar ['-', '.', '_', '~', '+', '/']) s q
    ∨ Opens "basic".toList (isTokenChar ['+', '/']) s q

/-- Of what comes behind a value only the first character behind the blanks counts. -/
lemma opensScheme_congr (s : List Char) {q q' : List Char}
    (h : (q.dropWhile isBlank).head? = (q'.dropWhile isBlank).head?) :
    OpensScheme s q ↔ OpensScheme s q' := by
  rw [OpensScheme, OpensScheme, Opens, Opens, Opens, Opens, h]

/-- A word may begin behind an equals sign, and behind the mark. -/
lemma atBoundary_equals : atBoundary (some '=') = true := by decide +kernel

lemma atBoundary_bracket : atBoundary (some ']') = true := by decide +kernel

namespace IsScheme

variable {word : List Char} {isToken : Char → Bool}

/-- What becomes of a value and of the text behind it. -/
lemma exists_value (hs : IsScheme word isToken) {s q : List Char} (hvalue : IsValue s)
    (hq : Apart q) (before : Option Char) (hbefore : atBoundary before = true) :
    ∃ q', replaceFrom (credentials word isToken) before 0 (s ++ q) = s ++ q' ∧ Apart q'
      ∧ (¬ Opens word isToken s q → q' = replaceAll (credentials word isToken) q)
      ∧ (Opens word isToken s q → ∃ r, q' = q.takeWhile isBlank ++ '[' :: r) := by
  by_cases hopens : Opens word isToken s q
  · obtain ⟨r, hr⟩ := replaceFrom_value_of_opens hvalue hq hopens hbefore
    refine ⟨_, hr, ?_, fun h => absurd hopens h, fun _ => ⟨r, rfl⟩⟩
    -- There are blanks in front of the token.
    obtain ⟨-, c, hhead, hc⟩ := hopens
    cases q with
    | nil => cases hhead
    | cons d q =>
        have hd := hq d rfl
        rw [List.takeWhile_cons_of_pos hd]
        exact fun e he => by
          obtain rfl : d = e := by simpa using he
          exact hd
  · exact ⟨_, hs.replaceFrom_value hvalue hq hopens before, hq.replaceFrom hs.sober none,
      fun _ => rfl, fun h => absurd h hopens⟩

/-- Behind the mark a value stays in the open. -/
lemma exists_behind_mark (hs : IsScheme word isToken) {u : List Char} {c : Char}
    (hc : isBlank c = true) (t : List Char) :
    replaceAll (credentials word isToken) (u ++ c :: (mark ++ t))
      = replaceAll (credentials word isToken) u
        ++ c :: (mark ++ replaceFrom (credentials word isToken) (some ']') 0 t) := by
  have hcut := replaceFrom_append_of_cut hs.sober (t := c :: (mark ++ t))
    (fun before b _ => hs.cut hc ("REDACTED]".toList ++ t) before b) none (Nat.zero_le u.length)
  have hmark := replaceFrom_of_none (credentials word isToken) (u := mark) (t := t)
    (fun before b hb hsuffix => hs.credentials_suffix (k := "[REDACTED".toList) (z := ']')
      (by decide) (forall_of_all (by decide)) hb hsuffix before t) (some c)
  rw [replaceAll, hcut, replaceFrom_cons_of_none (hs.sober.blank _ c _ hc), hmark]
  rfl

end IsScheme

/-! ### The two schemes, one after the other -/

section Schemes

variable {name : List Char}

/-- What becomes of a text under a scheme: the assignment is left standing, or its name is taken and
the value comes behind the mark. -/
def LeavesStanding (find : Recogniser) (u name v : List Char) : Prop :=
  ∀ t, t.head? ≠ some '=' → replaceAll find (u ++ (name ++ '=' :: t))
    = v ++ (name ++ '=' :: replaceFrom find (some '=') 0 t)

/-- A scheme takes the name of an assignment for a token. -/
def TakesName (find : Recogniser) (u name v : List Char) : Prop :=
  ∀ t, t.head? ≠ some '=' → replaceAll find (u ++ (name ++ '=' :: t))
    = v ++ mark ++ replaceFrom find (some '=') 0 t

lemma IsValue.head_append {s : List Char} (hs : IsValue s) (q : List Char) :
    (s ++ q).head? ≠ some '=' := by
  obtain ⟨c, s, rfl⟩ := List.exists_cons_of_ne_nil hs.1
  rw [List.cons_append, List.head?_cons, ne_eq, Option.some.injEq]
  rintro rfl
  exact absurd (hs.2 '=' List.mem_cons_self) (by decide)

/-- The mark does not end like an assignment. -/
lemma not_suffix_mark (name v : List Char) : ¬ (name ++ ['=']) <:+ v ++ mark := by
  rintro ⟨x, hx⟩
  have hlast := congrArg List.getLast? hx
  rw [← List.append_assoc, List.getLast?_concat, show v ++ mark = v ++ "[REDACTED".toList ++ [']'] by
    rw [List.append_assoc]; rfl, List.getLast?_concat] at hlast
  exact absurd hlast (by decide)

/-- The schemes leave an assignment standing one after the other, or one of them takes its name. -/
lemma stands_cases (hname : Letters name) (hne : name ≠ []) (u : List Char) :
    (Stands u name ∧ ∃ v w, LeavesStanding bearer u name v ∧ LeavesStanding basic v name w)
      ∨ ¬ Stands u name ∧ ((∃ lead c, isBlank c = true ∧ TakesName bearer u name (lead ++ [c]))
        ∨ ∃ v lead c, isBlank c = true ∧ LeavesStanding bearer u name v
          ∧ TakesName basic v name (lead ++ [c])) := by
  have hnil : ([] : List Char).head? ≠ some '=' := by simp
  obtain ⟨v, hv | ⟨⟨lead, c, rfl, hc⟩, hv⟩⟩ := isScheme_bearer.exists_front hname hne u
  · obtain ⟨w, hw | ⟨⟨lead, c, rfl, hc⟩, hw⟩⟩ := isScheme_basic.exists_front hname hne v
    · refine .inl ⟨⟨w, ?_⟩, v, w, hv, hw⟩
      rw [bearer, hv [] hnil, replaceFrom, basic, hw [] hnil, replaceFrom]
    · refine .inr ⟨fun hstands => ?_, .inr ⟨v, lead, c, hc, hv, hw⟩⟩
      rw [Stands, bearer, hv [] hnil, replaceFrom, basic, hw [] hnil, replaceFrom,
        List.append_nil] at hstands
      exact not_suffix_mark name _ hstands
  · refine .inr ⟨fun hstands => ?_, .inl ⟨lead, c, hc, hv⟩⟩
    have hmark : replaceAll basic (lead ++ [c] ++ mark) = replaceAll basic lead ++ [c] ++ mark := by
      have hmark := isScheme_basic.exists_behind_mark (u := lead) hc []
      rw [replaceFrom, List.append_nil] at hmark
      rw [List.append_assoc, List.append_assoc]
      exact hmark
    rw [Stands, bearer, hv [] hnil, replaceFrom, List.append_nil, hmark] at hstands
    exact not_suffix_mark name _ hstands

/-- A scheme whose word is not in front of an assignment does nothing there. -/
lemma replaceAll_of_forall {word : List Char} {isToken : Char → Bool} (hs : IsScheme word isToken)
    (hname : Letters name) {u : List Char} (hu : ∀ b ∈ u.tails, behindWord word b = none) :
    replaceAll (credentials word isToken) (u ++ (name ++ ['='])) = u ++ (name ++ ['=']) := by
  have hstay := replaceFrom_of_none (credentials word isToken) (t := name ++ ['='])
    (fun before b _ hsuffix => hs.credentials_append_of_none hname
      (hu b ((List.mem_tails _ _).mpr hsuffix)) before []) none
  rw [replaceAll, hstay, hs.replaceFrom_name hname, replaceFrom]

/-- Without the words of the schemes in front of it an assignment is left standing. -/
lemma stands_of_forall (hname : Letters name) {u : List Char} (hu : ∀ b ∈ u.tails,
    behindWord "bearer".toList b = none ∧ behindWord "basic".toList b = none) : Stands u name := by
  rw [Stands, bearer, basic, replaceAll_of_forall isScheme_bearer hname fun b hb => (hu b hb).1,
    replaceAll_of_forall isScheme_basic hname fun b hb => (hu b hb).2]
  exact List.suffix_append u (name ++ ['='])

/-- A text is known by the blanks that it starts with and what is behind them. -/
lemma exists_of_lead {q blanks : List Char} {c : Char} (hblanks : q.takeWhile isBlank = blanks)
    (hc : (q.dropWhile isBlank).head? = some c) : ∃ r, q = blanks ++ c :: r := by
  obtain ⟨r, hr⟩ := List.head?_eq_some_iff.mp hc
  exact ⟨r, by rw [← hblanks, ← hr, List.takeWhile_append_dropWhile]⟩

/-- What an assignment that is left standing has behind it after the schemes. -/
lemma exists_standing {u v w : List Char} (hv : LeavesStanding bearer u name v)
    (hw : LeavesStanding basic v name w) {s q : List Char} (hs : IsValue s) (hq : Apart q) :
    ∃ q', replaceAll basic (replaceAll bearer (u ++ (name ++ '=' :: (s ++ q))))
        = w ++ (name ++ '=' :: (s ++ q')) ∧ Apart q'
      ∧ (¬ OpensScheme s q → q' = replaceAll basic (replaceAll bearer q))
      ∧ (OpensScheme s q → ∃ r, q' = q.takeWhile isBlank ++ '[' :: r) := by
  obtain ⟨q₁, hq₁, hapart₁, hshut₁, hopen₁⟩ :=
    isScheme_bearer.exists_value hs hq (some '=') atBoundary_equals
  obtain ⟨q₂, hq₂, hapart₂, hshut₂, hopen₂⟩ :=
    isScheme_basic.exists_value hs hapart₁ (some '=') atBoundary_equals
  refine ⟨q₂, ?_, hapart₂, fun hshut => ?_, fun hopen => ?_⟩
  · rw [hv _ (hs.head_append q), bearer, hq₁, hw _ (hs.head_append q₁), basic, hq₂]
  · obtain ⟨hbearer, hbasic⟩ := not_or.mp hshut
    rw [hshut₂, hshut₁ hbearer]
    · rfl
    · rwa [hshut₁ hbearer, Opens, (lead_replaceAll isScheme_bearer.sober q).2]
  · by_cases hbearer : Opens "bearer".toList (isTokenChar ['-', '.', '_', '~', '+', '/']) s q
    · -- The value is the one word, so it is not the other.
      obtain ⟨r, rfl⟩ := hopen₁ hbearer
      have hbasic : ∀ q', ¬ Opens "basic".toList (isTokenChar ['+', '/']) s q' := by
        rintro q' ⟨hword, -⟩
        rw [hbearer.1] at hword
        exact absurd hword (by decide)
      have hlead := lead_replaceAll isScheme_basic.sober (q.takeWhile isBlank ++ '[' :: r)
      have hblanks : ∀ c ∈ q.takeWhile isBlank, isBlank c = true :=
        List.all_eq_true.mp List.all_takeWhile
      rw [List.takeWhile_append_of_pos hblanks, List.dropWhile_append_of_pos hblanks,
        List.takeWhile_cons_of_neg (by decide), List.dropWhile_cons_of_neg (by decide),
        List.append_nil] at hlead
      rw [hshut₂ (hbasic _)]
      exact exists_of_lead hlead.1 hlead.2
    · have hlead := lead_replaceAll isScheme_bearer.sober q
      obtain ⟨r, hr⟩ := hopen₂ (by
        rw [hshut₁ hbearer, Opens, hlead.2]
        exact hopen.resolve_left hbearer)
      refine ⟨r, ?_⟩
      rw [hr, hshut₁ hbearer, hlead.1]

/-- Where a scheme takes the name, the value is in the open behind a blank and the mark. -/
lemma exists_taken {u : List Char} (hname : Letters name) (hne : name ≠ []) (hu : ¬ Stands u name) :
    ∃ lead c, isBlank c = true ∧ ∀ s q, IsValue s → Apart q → ∃ q', Apart q'
      ∧ replaceAll basic (replaceAll bearer (u ++ (name ++ '=' :: (s ++ q))))
        = lead ++ c :: (mark ++ (s ++ q')) := by
  obtain ⟨hstands, -⟩ | ⟨-, ⟨lead, c, hc, hv⟩ | ⟨v, lead, c, hc, hv, hw⟩⟩ := stands_cases hname hne u
  · exact absurd hstands hu
  · refine ⟨replaceAll basic lead, c, hc, fun s q hs hq => ?_⟩
    obtain ⟨q₁, hq₁, hapart₁, -⟩ :=
      isScheme_bearer.exists_value hs hq (some '=') atBoundary_equals
    obtain ⟨q₂, hq₂, hapart₂, -⟩ :=
      isScheme_basic.exists_value hs hapart₁ (some ']') atBoundary_bracket
    have hmark := isScheme_basic.exists_behind_mark (u := lead) hc (s ++ q₁)
    refine ⟨q₂, hapart₂, ?_⟩
    rw [hv _ (hs.head_append q), bearer, hq₁, List.append_assoc, List.append_assoc,
      List.singleton_append, basic, hmark, hq₂]
  · refine ⟨lead, c, hc, fun s q hs hq => ?_⟩
    obtain ⟨q₁, hq₁, hapart₁, -⟩ :=
      isScheme_bearer.exists_value hs hq (some '=') atBoundary_equals
    obtain ⟨q₂, hq₂, hapart₂, -⟩ :=
      isScheme_basic.exists_value hs hapart₁ (some '=') atBoundary_equals
    refine ⟨q₂, hapart₂, ?_⟩
    rw [hv _ (hs.head_append q), bearer, hq₁, hw _ (hs.head_append q₁), basic, hq₂]
    simp

end Schemes

/-! ### All four recognisers -/

section Secrecy

variable {u name s q : List Char}

lemma redactChars_eq (text : List Char) : redactChars text
    = replaceAll assignment (replaceAll basic (replaceAll bearer (replaceAll authorization text))) :=
  rfl

/-- An ASCII letter or digit folds to one. -/
lemma foldCase_isAlphanum {c : Char} (h : c.isAlphanum = true) :
    (foldCase c).isAlphanum = true := by
  have hascii : ∀ n < 128, (Char.ofNat n).isAlphanum = true →
      (foldCase (Char.ofNat n)).isAlphanum = true := by decide
  have hc := hascii c.toNat (lt_of_isAlphanum h)
  rw [Char.ofNat_toNat] at hc
  exact hc h

lemma IsValue.foldCase_ne (hs : IsValue s) {z : Char} (hz : z.isAlphanum = false) :
    ∀ c ∈ s, foldCase c ≠ z := by
  rintro c hc rfl
  rw [foldCase_isAlphanum (hs.2 c hc)] at hz
  cases hz

/-- An assignment that is left standing has its value redacted. -/
lemma exists_hidden (hname : IsSecretName name) (hheaded : ¬ Headed u) (hstands : Stands u name) :
    ∃ v, ∀ s q, IsValue s → Apart q → ∃ q',
      redactChars (u ++ (name ++ '=' :: (s ++ q))) = v ++ replaceAll assignment q'
      ∧ (¬ OpensScheme s q → q' = replaceAll basic (replaceAll bearer (replaceAll authorization q)))
      ∧ (OpensScheme s q → ∃ r, q' = q.takeWhile isBlank ++ '[' :: r) := by
  obtain ⟨-, v, w, hv, hw⟩ | ⟨hnot, -⟩ := stands_cases hname.letters hname.ne_nil u
  swap
  · exact absurd hstands hnot
  obtain ⟨x, hx⟩ := exists_assigned hname w
  refine ⟨x ++ mark, fun s q hs hq => ?_⟩
  have hlead := lead_replaceAll sober_authorization q
  obtain ⟨q', heq, hapart, hshut, hopen⟩ :=
    exists_standing hv hw hs (hq.replaceFrom sober_authorization none)
  refine ⟨q', ?_, fun h => hshut ?_, fun h => ?_⟩
  · rw [redactChars_eq, replaceAll_of_not_headed hname.letters hheaded
      (hs.foldCase_ne (by decide)) hq]
    have hassigned := hx ⟨(s, q'), hs.1, hs.isBlank_eq_false, hapart⟩
    rw [List.append_assoc, List.cons_append] at hassigned
    exact (congrArg (replaceAll assignment) heq).trans hassigned
  · exact mt (opensScheme_congr s hlead.2).mp h
  · rw [← hlead.1]
    exact hopen ((opensScheme_congr s hlead.2).mpr h)

/-- Behind the mark no assignment is found, and the value stays. -/
lemma exists_behind_mark_assignment (lead : List Char) {c : Char} (hc : isBlank c = true) :
    ∃ v, ∀ s q, IsValue s → Apart q → ∃ q', Apart q'
      ∧ replaceAll assignment (lead ++ c :: (mark ++ (s ++ q))) = v ++ (s ++ q') := by
  refine ⟨replaceAll assignment lead ++ c :: mark, fun s q hs hq =>
    ⟨replaceFrom assignment (behind (some c) (mark ++ s)) 0 q,
      hq.replaceFrom sober_assignment _, ?_⟩⟩
  have hfold : ∀ d ∈ mark ++ s, foldCase d ≠ '=' := by
    intro d hd
    obtain hd | hd := List.mem_append.mp hd
    · have hmark : ∀ d ∈ mark, foldCase d ≠ '=' := forall_of_all (by decide)
      exact hmark d hd
    · exact hs.foldCase_ne (by decide) d hd
  have hstay := replaceFrom_of_none assignment (u := mark ++ s) (t := q)
    (fun before b _ hsuffix => List.findSome?_eq_none_iff.mpr fun name hname =>
      assignedTo_of_none (behindWord_of_missing (z := '=') (by simp)
        (fun d hd => hfold d (hsuffix.subset hd)) (assigned_isBlank hname) hq)) (some c)
  rw [List.append_assoc] at hstay
  rw [replaceAll, replaceFrom_append_of_cut sober_assignment (fun before b _ =>
    assignment_cut hc _ before b) none (Nat.zero_le _),
    replaceFrom_cons_of_none (sober_assignment.blank _ c _ hc), hstay]
  simp only [replaceAll, List.append_assoc, List.cons_append]

/-- An assignment whose name is taken for a token has its value left in the open. -/
lemma exists_exposed (hname : IsSecretName name) (hheaded : ¬ Headed u)
    (hstands : ¬ Stands u name) :
    ∃ v, ∀ s q, IsValue s → Apart q → ∃ q', Apart q'
      ∧ redactChars (u ++ (name ++ '=' :: (s ++ q))) = v ++ (s ++ q') := by
  obtain ⟨lead, c, hc, htaken⟩ := exists_taken hname.letters hname.ne_nil hstands
  obtain ⟨v, hv⟩ := exists_behind_mark_assignment lead hc
  refine ⟨v, fun s q hs hq => ?_⟩
  obtain ⟨q₁, hq₁, heq⟩ := htaken s _ hs (hq.replaceFrom sober_authorization none)
  obtain ⟨q₂, hq₂, hshown⟩ := hv s q₁ hs hq₁
  refine ⟨q₂, hq₂, ?_⟩
  rw [redactChars_eq, replaceAll_of_not_headed hname.letters hheaded
    (hs.foldCase_ne (by decide)) hq]
  exact (congrArg (replaceAll assignment) heq).trans hshown

/-- A value in front of what is set apart from it can be read off. -/
lemma takeWhile_value (hs : IsValue s) (hq : Apart q) :
    (s ++ q).takeWhile (fun c => !isBlank c) = s := by
  rw [List.takeWhile_append_of_pos fun c hc => by rw [hs.isBlank_eq_false c hc]; rfl]
  cases q with
  | nil => simp
  | cons c q => rw [List.takeWhile_cons_of_neg (by simp [hq c rfl]), List.append_nil]

/-- If the value is the word of a scheme, the token behind it is gone, and so there is a bracket. -/
lemma ne_of_opensScheme {s₁ q₁ q₂ v : List Char} (h₁ : OpensScheme s₁ q)
    (hq₁ : OpensScheme s₁ q → ∃ r, q₁ = q.takeWhile isBlank ++ '[' :: r)
    (hq₂ : q₂ = replaceAll basic (replaceAll bearer (replaceAll authorization q))) :
    v ++ replaceAll assignment q₁ ≠ v ++ replaceAll assignment q₂ := by
  intro heq
  have hhead : ∀ text : List Char, ((replaceAll assignment text).dropWhile isBlank).head?
      = (text.dropWhile isBlank).head? := fun text => (lead_replaceAll sober_assignment text).2
  have hbracket : (q₁.dropWhile isBlank).head? = some '[' := by
    obtain ⟨r, rfl⟩ := hq₁ h₁
    rw [List.dropWhile_append_of_pos (List.all_eq_true.mp List.all_takeWhile),
      List.dropWhile_cons_of_neg (by decide), List.head?_cons]
  have hsame : (q₂.dropWhile isBlank).head? = (q.dropWhile isBlank).head? := by
    rw [hq₂, basic, (lead_replaceAll isScheme_basic.sober _).2, bearer,
      (lead_replaceAll isScheme_bearer.sober _).2, (lead_replaceAll sober_authorization _).2]
  have hboth := congrArg (fun text => (text.dropWhile isBlank).head?) (List.append_cancel_left heq)
  simp only [hhead, hbracket, hsame] at hboth
  obtain ⟨-, c, hc, htoken⟩ | ⟨-, c, hc, htoken⟩ := h₁
  · rw [hc, Option.some.injEq] at hboth
    rw [← hboth, isScheme_bearer.bracket] at htoken
    cases htoken
  · rw [hc, Option.some.injEq] at hboth
    rw [← hboth, isScheme_basic.bracket] at htoken
    cases htoken

end Secrecy

/-- A text with an assignment in it. -/
def assigned (front name value rest : String) : String := front ++ name ++ "=" ++ value ++ rest

lemma redact_assigned (front name value rest : String) :
    redact (assigned front name value rest) = String.ofList (redactChars
      (front.toList ++ (name.toList ++ '=' :: (value.toList ++ rest.toList)))) := by
  rw [redact, assigned]
  simp [String.toList_append]

end Componentry.Redaction
