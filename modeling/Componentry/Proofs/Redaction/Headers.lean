import Mathlib.Tactic
import Componentry.Proofs.Redaction.Scan
import Componentry.Proofs.Redaction.Words
/-!
# Authorization headers

A header takes everything behind it up to the blanks at the end of the text.  So if a text is
`Headed`, all that follows is redacted, whatever it is (`exists_headed`), and otherwise an assignment
is left as it stands (`replaceAll_of_not_headed`).
-/

namespace Componentry.Redaction

open Text

/-- The word of a header. -/
def header : List Char := "authorization:".toList

/-- Whether a text starts with a header and a blank. -/
def StartsHeader (b : List Char) : Prop :=
  ∃ rest, behindWord header b = some rest ∧ ∃ c ∈ rest.head?, isBlank c = true

instance (b : List Char) : Decidable (StartsHeader b) :=
  decidable_of_iff ((behindWord header b).any (fun rest => rest.head?.any isBlank) = true) (by
    simp [StartsHeader, Option.any_eq_true])

/-- Whether a header and a blank stand somewhere in a text. -/
def Headed (u : List Char) : Prop := ∃ b ∈ u.tails, StartsHeader b

instance (u : List Char) : Decidable (Headed u) := List.decidableBEx _ _

lemma header_isBlank : ∀ c ∈ header, isBlank c = false := forall_of_all (by decide)

lemma trimEnd_append_blanks {x tail : List Char} (hx : ∃ c, x.getLast? = some c ∧ isBlank c = false)
    (htail : Blanks tail) : trimEnd (x ++ tail) = x := by
  obtain ⟨c, hc, hblank⟩ := hx
  have hreverse : ∀ d ∈ tail.reverse, isBlank d = true := fun d hd => htail d (List.mem_reverse.mp hd)
  rw [trimEnd, List.reverse_append, List.dropWhile_append_of_pos hreverse,
    dropWhile_of_head ⟨c, by rw [List.head?_reverse, hc], hblank⟩, List.reverse_reverse]

lemma authorization_def (before : Option Char) (text : List Char) :
    authorization before text = (behindWord header text).bind fun rest =>
      if countWhile isBlank rest = 0
          ∨ (trimEnd (rest.drop (countWhile isBlank rest))).length = 0 then none
      else some ⟨header.length + countWhile isBlank rest,
        (trimEnd (rest.drop (countWhile isBlank rest))).length⟩ := rfl

/-- What is found behind a header: blanks, and a secret that reaches to the blanks at the end. -/
lemma authorization_eq {w blanks body : List Char} (hword : w.map foldCase = header)
    (hblanks : Blanks blanks) (hbody : ∀ c ∈ body.head?, isBlank c = false)
    (before : Option Char) :
    authorization before (w ++ (blanks ++ body))
      = if blanks = [] ∨ trimEnd body = [] then none
        else some ⟨(w ++ blanks).length, (trimEnd body).length⟩ := by
  have hfound : behindWord header (w ++ (blanks ++ body)) = some (blanks ++ body) :=
    behindWord_eq_some_iff.mpr ⟨w, rfl, hword⟩
  have hcount : countWhile isBlank (blanks ++ body) = blanks.length := by
    rw [countWhile_append_of_all hblanks]
    cases body with
    | nil => rfl
    | cons c body => rw [countWhile_cons_of_neg (hbody c rfl), Nat.add_zero]
  have hlength : header.length = w.length := by rw [← hword, List.length_map]
  simp only [authorization_def, hfound, Option.bind_some, hcount, List.drop_left,
    List.length_eq_zero_iff, hlength, List.length_append]

lemma authorization_of_none {text : List Char} (h : behindWord header text = none)
    (before : Option Char) : authorization before text = none := by
  rw [authorization_def, h, Option.bind_none]

lemma exists_of_authorization {before : Option Char} {text : List Char} {finding : Finding}
    (h : authorization before text = some finding) :
    ∃ w blanks body, text = w ++ (blanks ++ body) ∧ w.map foldCase = header
      ∧ finding = ⟨(w ++ blanks).length, (trimEnd body).length⟩ := by
  cases hfound : behindWord header text with
  | none => simp [authorization_of_none hfound] at h
  | some rest =>
      obtain ⟨w, rfl, hword⟩ := behindWord_eq_some_iff.mp hfound
      obtain ⟨blanks, body, rfl, hblanks, hbody⟩ := exists_blanks_append rest
      rw [authorization_eq hword hblanks hbody] at h
      split_ifs at h
      exact ⟨w, blanks, body, rfl, hword, (Option.some.inj h).symm⟩

lemma sober_authorization : Sober authorization where
  blank before c rest hc :=
    authorization_of_none (behindWord_of_isBlank (by decide) header_isBlank hc rest) before
  kept before text finding h := by
    obtain ⟨w, blanks, body, -, hword, rfl⟩ := exists_of_authorization h
    have hne : w ≠ [] := by
      rintro rfl
      cases hword
    rw [List.length_append]
    exact Nat.add_pos_left (List.length_pos_of_ne_nil hne) _
  bound before text finding h := by
    obtain ⟨w, blanks, body, rfl, -, rfl⟩ := exists_of_authorization h
    have hle := length_trimEnd_le body
    simp only [List.length_append]
    omega

/-! ### In front of an assignment -/

variable {name : List Char}

/-- No header starts in front of an assignment, if none is there with a blank behind it. -/
lemma authorization_append_name (hname : Letters name) {b : List Char} (hb : ¬ StartsHeader b)
    (before : Option Char) (t : List Char) :
    authorization before (b ++ (name ++ '=' :: t)) = none := by
  cases hfound : behindWord header (b ++ (name ++ '=' :: t)) with
  | none => exact authorization_of_none hfound before
  | some rest =>
      have hhead : ∀ c ∈ rest.head?, isBlank c = false := by
        obtain ⟨r, hr, rfl⟩ | ⟨c, a, htext, hword⟩ := behindWord_append hfound
        · intro c hc
          cases r with
          | nil => exact hname.head_append (List.Subset.refl name) t c hc
          | cons d r =>
              obtain rfl : d = c := by simpa using hc
              exact Bool.eq_false_iff.mpr fun hd => hb ⟨d :: r, hr, d, rfl, hd⟩
        · have hequals : '=' ∉ c :: a := fun hmem => by
            have hheader : foldCase '=' ∈ header := hword ▸ List.mem_map_of_mem (by simp [hmem])
            exact absurd hheader (by decide)
          obtain ⟨k, rfl, rfl⟩ := exists_of_crossing htext hequals
          exact hname.head_append (fun d hd => by simp [hd]) t
      obtain ⟨w, htext, hword⟩ := behindWord_eq_some_iff.mp hfound
      have heq := authorization_eq hword Blanks.nil hhead before
      rw [List.nil_append, ← htext] at heq
      rw [heq, if_pos (.inl rfl)]

/-- Without a header an assignment is left standing, and what comes behind it is redacted by
itself. -/
lemma replaceAll_of_not_headed (hname : Letters name) {u s q : List Char} (hu : ¬ Headed u)
    (hs : ∀ c ∈ s, foldCase c ≠ ':') (hq : Apart q) :
    replaceAll authorization (u ++ (name ++ '=' :: (s ++ q)))
      = u ++ (name ++ '=' :: (s ++ replaceAll authorization q)) := by
  have hfront := replaceFrom_of_none authorization (u := u)
    (t := name ++ '=' :: (s ++ q)) (fun before b _ hsuffix =>
      authorization_append_name hname (fun hb => hu ⟨b, (List.mem_tails _ _).mpr hsuffix, hb⟩) before
        (s ++ q)) none
  have hcolon : ∀ c ∈ name ++ '=' :: s, foldCase c ≠ ':' := by
    intro c hc
    obtain hc | hc := List.mem_append.mp hc
    · exact hname.foldCase_ne (by decide) c hc
    · obtain rfl | hc := List.mem_cons.mp hc
      · decide
      · exact hs c hc
  have hassignment := replaceFrom_of_none authorization (u := name ++ '=' :: s) (t := q)
    (fun before b _ hsuffix => authorization_of_none (behindWord_of_missing (z := ':') (by decide)
      (fun c hc => hcolon c (hsuffix.subset hc)) header_isBlank hq) before) (behind none u)
  rw [hq.replaceFrom_eq sober_authorization, List.append_assoc, List.cons_append] at hassignment
  rw [replaceAll, hfront, hassignment, List.append_assoc, List.cons_append]

/-! ### Behind a header -/

/-- The blanks at the end of a text. -/
def endBlanks (q : List Char) : List Char := (q.reverse.takeWhile isBlank).reverse

lemma blanks_endBlanks (q : List Char) : Blanks (endBlanks q) := fun c hc =>
  List.all_eq_true.mp List.all_takeWhile c (List.mem_reverse.mp hc)

lemma trimEnd_append_endBlanks (q : List Char) : trimEnd q ++ endBlanks q = q := by
  rw [trimEnd, endBlanks, ← List.reverse_append, List.takeWhile_append_dropWhile,
    List.reverse_reverse]

/-- An assignment with what comes behind it is solid up to the blanks at the end. -/
lemma solid_assignment (hname : Letters name) {s : List Char} (hs : Solid s) (q : List Char) :
    Solid (name ++ '=' :: (s ++ trimEnd q)) := by
  refine ⟨?_, ?_⟩
  · obtain ⟨c, hc⟩ : ∃ c, (name ++ '=' :: (s ++ trimEnd q)).head? = some c := by
      cases name <;> simp
    exact ⟨c, hc, hname.head_append (List.Subset.refl name) _ c hc⟩
  · obtain ⟨c, hc, hblank⟩ := hs.last
    rw [← List.cons_append, ← List.append_assoc, List.getLast?_append]
    cases hq : (trimEnd q).getLast? with
    | none =>
        refine ⟨c, ?_, hblank⟩
        rw [Option.none_or, List.getLast?_append, List.getLast?_cons, hc]
        rfl
    | some d =>
        refine ⟨d, Option.some_or, ?_⟩
        have hlast := List.head?_dropWhile_not isBlank q.reverse
        rw [trimEnd, List.getLast?_reverse] at hq
        rw [hq] at hlast
        simpa using hlast

/-- A header takes all that comes behind it up to the blanks at the end. -/
lemma exists_of_startsHeader {b : List Char} (hb : StartsHeader b) :
    ∃ kept, ∀ before near far, Solid near → Blanks far → ∃ secret, b ++ near = kept ++ secret
      ∧ authorization before (b ++ near ++ far) = some ⟨kept.length, secret.length⟩ := by
  obtain ⟨_ | ⟨c, rest⟩, hfound, d, hd, hc⟩ := hb
  · cases hd
  obtain rfl : c = d := by simpa using hd
  obtain ⟨w, rfl, hword⟩ := behindWord_eq_some_iff.mp hfound
  obtain ⟨blanks, body, hparts, hblanks, hbody⟩ := exists_blanks_append (c :: rest)
  have hne : blanks ≠ [] := by
    rintro rfl
    rw [List.nil_append] at hparts
    rw [hbody c (by rw [← hparts]; rfl)] at hc
    cases hc
  refine ⟨w ++ blanks, fun before near far hnear hfar => ⟨body ++ near, by simp [hparts], ?_⟩⟩
  have hhead : ∀ d ∈ (body ++ near ++ far).head?, isBlank d = false := by
    intro d hd
    cases body with
    | nil =>
        obtain ⟨e, he, hblank⟩ := hnear.first
        rw [List.nil_append, List.head?_append, he, Option.some_or] at hd
        obtain rfl := Option.some.inj hd
        exact hblank
    | cons e body =>
        obtain rfl : e = d := by simpa using hd
        exact hbody e rfl
  have htrim : trimEnd (body ++ near ++ far) = body ++ near := by
    refine trimEnd_append_blanks ?_ hfar
    obtain ⟨e, he, hblank⟩ := hnear.last
    exact ⟨e, by rw [List.getLast?_append, he, Option.some_or], hblank⟩
  have hne' : body ++ near ≠ [] := by simp [hnear.ne_nil]
  rw [hparts, show w ++ (blanks ++ body) ++ near ++ far
      = w ++ (blanks ++ (body ++ near ++ far)) by simp,
    authorization_eq hword hblanks hhead, htrim, if_neg (by simp [hne, hne'])]

/-- Behind a header the value of an assignment leaves no trace. -/
lemma exists_headed (hname : Letters name) {u : List Char} (hu : Headed u) (before : Option Char) :
    ∃ v, ∀ s q, Solid s → replaceFrom authorization before 0 (u ++ (name ++ '=' :: (s ++ q)))
      = v ++ endBlanks q := by
  induction u generalizing before with
  | nil =>
      obtain ⟨b, hb, rest, hfound, -⟩ := hu
      rw [List.suffix_nil.mp ((List.mem_tails _ _).mp hb)] at hfound
      cases hfound
  | cons c u ih =>
      by_cases hstart : StartsHeader (c :: u)
      · obtain ⟨kept, hkept⟩ := exists_of_startsHeader hstart
        refine ⟨kept ++ mark, fun s q hs => ?_⟩
        have hfar := blanks_endBlanks q
        obtain ⟨secret, hparts, hmatch⟩ :=
          hkept before _ (endBlanks q) (solid_assignment hname hs q) hfar
        have htext : c :: u ++ (name ++ '=' :: (s ++ q)) = kept ++ secret ++ endBlanks q := by
          rw [← hparts]
          conv_lhs => rw [← trimEnd_append_endBlanks q]
          simp
        have hblanks := replaceFrom_blanks sober_authorization hfar (behind before (kept ++ secret)) []
        rw [List.append_nil, replaceFrom, List.append_nil] at hblanks
        rw [hparts] at hmatch
        rw [htext, replaceFrom_of_match hmatch (by rw [← hparts]; simp), hblanks]
      · obtain ⟨b, hsuffix, hb⟩ := hu
        obtain rfl | hsuffix := List.suffix_cons_iff.mp ((List.mem_tails _ _).mp hsuffix)
        · exact absurd hb hstart
        · obtain ⟨v, hv⟩ := ih ⟨b, (List.mem_tails _ _).mpr hsuffix, hb⟩ (some c)
          refine ⟨c :: v, fun s q hs => ?_⟩
          have hnone := authorization_append_name hname hstart before (s ++ q)
          rw [List.cons_append] at hnone ⊢
          rw [replaceFrom_cons_of_none hnone, hv s q hs, List.cons_append]

end Componentry.Redaction
