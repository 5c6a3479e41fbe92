import Mathlib.Tactic
import Componentry.Proofs.Text
import Componentry.Redaction
/-!
# Redacting piece by piece

What one recogniser does to a text is put together from what it does to its pieces.  A piece in
which nothing is found stays (`replaceFrom_of_none`), a match is what it keeps and the mark
(`replaceFrom_of_match`), and where no match goes over the end of a piece, the piece is redacted as
if it stood alone (`replaceFrom_append_of_cut`).

`alike_of_course` is for texts that differ only behind a common front.  If every match from within
the front takes the same course in all of them (`Course`), then the front is redacted in the same way
in all of them, and either the recogniser comes to its end or one match goes over it (`Alike`).
-/

namespace Componentry.Redaction

/-- The character in front of a position that comes after a text. -/
def behind (before : Option Char) (text : List Char) : Option Char := text.getLast?.or before

lemma behind_cons (before : Option Char) (c : Char) (text : List Char) :
    behind before (c :: text) = behind (some c) text := by
  rw [behind, behind, List.getLast?_cons]
  cases text.getLast? <;> rfl

lemma behind_concat (before : Option Char) (text : List Char) (c : Char) :
    behind before (text ++ [c]) = some c := by
  rw [behind, List.getLast?_concat, Option.some_or]

/-- What the recognisers have in common: they find nothing at a blank, a match keeps at least its
first character, and it does not go beyond the text. -/
structure Sober (find : Recogniser) : Prop where
  blank : ∀ before c rest, Text.isBlank c = true → find before (c :: rest) = none
  kept : ∀ before text finding, find before text = some finding → 0 < finding.kept
  bound : ∀ before text finding, find before text = some finding →
    finding.kept + finding.secret ≤ text.length

variable {find : Recogniser}

/-! ### Pieces -/

/-- What belongs to the last match is passed over. -/
lemma replaceFrom_length (find : Recogniser) (before : Option Char) (u t : List Char) :
    replaceFrom find before u.length (u ++ t) = replaceFrom find (behind before u) 0 t := by
  induction u generalizing before with
  | nil => rfl
  | cons c u ih => rw [List.length_cons, List.cons_append, replaceFrom, ih, behind_cons]

lemma replaceFrom_cons_of_none {before : Option Char} {c : Char} {rest : List Char}
    (h : find before (c :: rest) = none) :
    replaceFrom find before 0 (c :: rest) = c :: replaceFrom find (some c) 0 rest := by
  rw [replaceFrom, h]

lemma replaceFrom_cons_of_some {before : Option Char} {c : Char} {rest : List Char}
    {finding : Finding} (h : find before (c :: rest) = some finding) :
    replaceFrom find before 0 (c :: rest)
      = (c :: rest).take finding.kept ++ mark
        ++ replaceFrom find (some c) (finding.kept + finding.secret - 1) rest := by
  rw [replaceFrom, h]

/-- A match is replaced by what it keeps and the mark. -/
lemma replaceFrom_of_match {before : Option Char} {kept secret t : List Char}
    (h : find before (kept ++ secret ++ t) = some ⟨kept.length, secret.length⟩)
    (hne : kept ++ secret ≠ []) :
    replaceFrom find before 0 (kept ++ secret ++ t)
      = kept ++ mark ++ replaceFrom find (behind before (kept ++ secret)) 0 t := by
  obtain ⟨c, u, hu⟩ := List.exists_cons_of_ne_nil hne
  have hlength : kept.length + secret.length - 1 = u.length := by
    have := congrArg List.length hu
    simp only [List.length_append, List.length_cons] at this
    omega
  have htake : (c :: (u ++ t)).take kept.length = kept := by
    rw [← List.cons_append, ← hu, List.append_assoc, List.take_left]
  rw [hu, List.cons_append] at h ⊢
  rw [replaceFrom_cons_of_some h, hlength, replaceFrom_length, behind_cons, htake]

/-- A match that lies within the first of two pieces. -/
lemma replaceFrom_append_of_some {before : Option Char} {c : Char} {u t : List Char}
    {finding : Finding} (h : find before (c :: (u ++ t)) = some finding)
    (hkept : finding.kept ≤ u.length + 1) :
    replaceFrom find before 0 (c :: (u ++ t))
      = (c :: u).take finding.kept ++ mark
        ++ replaceFrom find (some c) (finding.kept + finding.secret - 1) (u ++ t) := by
  rw [replaceFrom_cons_of_some h, ← List.cons_append, List.take_append_of_le_length hkept]

/-- A piece in which nothing is found stays. -/
lemma replaceFrom_of_none (find : Recogniser) {u t : List Char}
    (h : ∀ before b, b ≠ [] → b <:+ u → find before (b ++ t) = none) (before : Option Char) :
    replaceFrom find before 0 (u ++ t) = u ++ replaceFrom find (behind before u) 0 t := by
  induction u generalizing before with
  | nil => rfl
  | cons c u ih =>
      have hhere := h before (c :: u) (by simp) List.suffix_rfl
      rw [List.cons_append] at hhere ⊢
      rw [replaceFrom_cons_of_none hhere,
        ih fun before b hb hsuffix => h before b hb (hsuffix.trans (List.suffix_cons c u)),
        behind_cons, List.cons_append]

/-- Where no match goes over the end of a piece, it is redacted as if it stood alone. -/
lemma replaceFrom_append_of_cut (hfind : Sober find) {t : List Char}
    (hcut : ∀ before b, b ≠ [] → find before (b ++ t) = find before b) (before : Option Char)
    {skip : Nat} {u : List Char} (hskip : skip ≤ u.length) :
    replaceFrom find before skip (u ++ t)
      = replaceFrom find before skip u ++ replaceFrom find (behind before u) 0 t := by
  induction u generalizing before skip with
  | nil =>
      obtain rfl := Nat.le_zero.mp hskip
      rfl
  | cons c u ih =>
      rw [behind_cons]
      cases skip with
      | succ skip => exact ih (some c) (Nat.le_of_succ_le_succ hskip)
      | zero =>
          have hhere := hcut before (c :: u) (by simp)
          rw [List.cons_append] at hhere ⊢
          cases hfound : find before (c :: u) with
          | none =>
              rw [hfound] at hhere
              rw [replaceFrom_cons_of_none hhere, replaceFrom_cons_of_none hfound,
                ih (some c) (Nat.zero_le _), List.cons_append]
          | some finding =>
              rw [hfound] at hhere
              have hbound := hfind.bound before (c :: u) finding hfound
              rw [List.length_cons] at hbound
              rw [replaceFrom_append_of_some hhere (by omega), replaceFrom_cons_of_some hfound,
                ih (some c) (by omega)]
              simp only [List.append_assoc]

/-! ### Texts behind a blank -/

/-- A text that is set apart from what is in front of it: it is empty or starts with a blank. -/
def Apart (q : List Char) : Prop := ∀ c ∈ q.head?, Text.isBlank c = true

instance (q : List Char) : Decidable (Apart q) :=
  decidable_of_iff (q.head?.all Text.isBlank = true) (by simp [Apart, Option.all_eq_true])

/-- The first character of a text stays. -/
lemma head?_replaceFrom (hfind : Sober find) (before : Option Char) (q : List Char) :
    (replaceFrom find before 0 q).head? = q.head? := by
  cases q with
  | nil => rfl
  | cons c q =>
      cases hfound : find before (c :: q) with
      | none => rw [replaceFrom_cons_of_none hfound]; rfl
      | some finding =>
          have hpos := hfind.kept before (c :: q) finding hfound
          rw [replaceFrom_cons_of_some hfound, ← Nat.succ_pred_eq_of_pos hpos, List.take_succ_cons]
          rfl

lemma Apart.replaceFrom (hfind : Sober find) {q : List Char} (hq : Apart q)
    (before : Option Char) : Apart (replaceFrom find before 0 q) := by
  rw [Apart, head?_replaceFrom hfind]
  exact hq

/-- A text that is set apart is redacted by itself. -/
lemma Apart.replaceFrom_eq (hfind : Sober find) {q : List Char} (hq : Apart q)
    (before : Option Char) : Redaction.replaceFrom find before 0 q = replaceAll find q := by
  cases q with
  | nil => rfl
  | cons c q =>
      have hnone := fun before => hfind.blank before c q (hq c rfl)
      rw [replaceAll, replaceFrom_cons_of_none (hnone before), replaceFrom_cons_of_none (hnone none)]

/-- Blanks stay. -/
lemma replaceFrom_blanks (hfind : Sober find) {blanks : List Char} (hblanks : Text.Blanks blanks)
    (before : Option Char) (body : List Char) :
    replaceFrom find before 0 (blanks ++ body)
      = blanks ++ replaceFrom find (behind before blanks) 0 body := by
  refine replaceFrom_of_none find (fun before b hb hsuffix => ?_) before
  obtain ⟨c, b, rfl⟩ := List.exists_cons_of_ne_nil hb
  exact hfind.blank before c _ (hblanks c (hsuffix.subset List.mem_cons_self))

/-- The blanks that a text starts with and the character behind them stay. -/
lemma lead_replaceAll (hfind : Sober find) (q : List Char) :
    (replaceAll find q).takeWhile Text.isBlank = q.takeWhile Text.isBlank
      ∧ ((replaceAll find q).dropWhile Text.isBlank).head? = (q.dropWhile Text.isBlank).head? := by
  obtain ⟨blanks, body, rfl, hblanks, hbody⟩ := Text.exists_blanks_append q
  have hlead : ∀ body : List Char, (∀ c ∈ body.head?, Text.isBlank c = false) →
      (blanks ++ body).takeWhile Text.isBlank = blanks
        ∧ (blanks ++ body).dropWhile Text.isBlank = body := by
    intro body hbody
    rw [List.takeWhile_append_of_pos hblanks, List.dropWhile_append_of_pos hblanks]
    cases body with
    | nil => simp
    | cons c body => simp [hbody c rfl]
  have hhead := head?_replaceFrom hfind (behind none blanks) body
  rw [replaceAll, replaceFrom_blanks hfind hblanks, (hlead body hbody).1, (hlead body hbody).2,
    (hlead _ (by rw [hhead]; exact hbody)).1, (hlead _ (by rw [hhead]; exact hbody)).2]
  exact ⟨rfl, hhead⟩

/-! ### Texts with a common front -/

/-- What is found in texts with a common front `b`, if it is the same in all of them: nothing, a match
within the front, or one that keeps a text of a given kind and takes all that is near. -/
inductive Course {ι : Type} (near : ι → List Char) (P : List Char → Prop) (b : List Char)
    (found : ι → Option Finding) : Prop
  | absent (h : ∀ i, found i = none)
  | within (finding : Finding) (bound : finding.kept + finding.secret ≤ b.length)
      (pos : 0 < finding.kept) (h : ∀ i, found i = some finding)
  | across (kept : List Char) (kind : P kept) (h : ∀ i, ∃ secret, b ++ near i = kept ++ secret
      ∧ found i = some ⟨kept.length, secret.length⟩)

section Alike

variable {ι : Type} {near far : ι → List Char} {P : List Char → Prop}

/-- A common front is redacted in the same way in all texts.  Either the recogniser comes to its
end, or one match, with a kept part of the given kind, goes over it. -/
def Alike (find : Recogniser) (near far : ι → List Char) (P : List Char → Prop)
    (before : Option Char) (skip : Nat) (u : List Char) : Prop :=
  ∃ v, (∀ i, replaceFrom find before skip (u ++ (near i ++ far i))
        = v ++ replaceFrom find (behind before u) 0 (near i ++ far i))
    ∨ (∃ lead kept, v = lead ++ kept ∧ P kept)
      ∧ ∀ i, replaceFrom find before skip (u ++ (near i ++ far i))
        = v ++ mark ++ replaceFrom find (behind (behind before u) (near i)) 0 (far i)

/-- One character more in front, and what comes of it. -/
lemma Alike.cons {before : Option Char} {c : Char} {u w : List Char} {skip : Nat}
    (h : Alike find near far P (some c) skip u)
    (hw : ∀ i, replaceFrom find before 0 (c :: (u ++ (near i ++ far i)))
      = w ++ replaceFrom find (some c) skip (u ++ (near i ++ far i))) :
    Alike find near far P before 0 (c :: u) := by
  simp only [Alike, behind_cons, List.cons_append, hw]
  obtain ⟨v, hend | ⟨⟨lead, kept, rfl, hkept⟩, hover⟩⟩ := h
  · exact ⟨w ++ v, .inl fun i => by rw [hend, List.append_assoc]⟩
  · refine ⟨w ++ (lead ++ kept), .inr ⟨⟨w ++ lead, kept, by rw [List.append_assoc], hkept⟩,
      fun i => ?_⟩⟩
    rw [hover]
    simp only [List.append_assoc]

/-- **Texts that differ only behind a common front**: `near` is what a match from within the front
may still take, and `far` is out of its reach.  If every such match takes the same course in all the
texts, the front is redacted in the same way in all of them. -/
lemma alike_of_course
    (h : ∀ before b, b ≠ [] → Course near P b fun i => find before (b ++ (near i ++ far i)))
    (before : Option Char) {skip : Nat} {u : List Char} (hskip : skip ≤ u.length) :
    Alike find near far P before skip u := by
  induction u generalizing before skip with
  | nil =>
      obtain rfl := Nat.le_zero.mp hskip
      exact ⟨[], .inl fun i => rfl⟩
  | cons c u ih =>
      cases skip with
      | succ skip =>
          have hrest := ih (some c) (Nat.le_of_succ_le_succ hskip)
          rw [Alike] at hrest ⊢
          rwa [behind_cons]
      | zero =>
          cases h before (c :: u) (by simp) with
          | absent hnone =>
              exact (ih (some c) (Nat.zero_le _)).cons (w := [c]) fun i =>
                replaceFrom_cons_of_none (hnone i)
          | within finding hbound hpos hfound =>
              rw [List.length_cons] at hbound
              refine (ih (some c) ?_).cons fun i =>
                replaceFrom_append_of_some (hfound i) (by omega)
              omega
          | across kept hkept hfound =>
              refine ⟨kept, .inr ⟨⟨[], kept, rfl, hkept⟩, fun i => ?_⟩⟩
              obtain ⟨secret, hparts, hmatch⟩ := hfound i
              have hne : kept ++ secret ≠ [] := by rw [← hparts]; simp
              rw [← List.append_assoc, hparts] at hmatch ⊢
              rw [replaceFrom_of_match hmatch hne, ← hparts]
              congr 2
              rw [behind, behind, behind, List.getLast?_append, Option.or_assoc]

end Alike

end Componentry.Redaction
