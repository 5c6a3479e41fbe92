import Mathlib.Tactic
import Componentry.Proofs.Redaction.Scan
import Componentry.Proofs.Redaction.Words
/-!
# Assignments to secret names

The value of an assignment goes up to the next blank.  So the value behind a secret name is always
redacted (`exists_assigned`), either as a value of its own or within that of an assignment that
starts further in front.  What is in front of a blank is redacted by itself (`assignment_cut`).
-/

namespace Componentry.Redaction

open Text

/-- What is found for one name. -/
def assignedTo (text name : List Char) : Option Finding :=
  (behindWord (name ++ ['=']) text).bind fun rest =>
    if countWhile (fun c => !isBlank c) rest = 0 then none
    else some ⟨name.length + 1, countWhile (fun c => !isBlank c) rest⟩

lemma assignment_def (before : Option Char) (text : List Char) :
    assignment before text = secretNames.findSome? (assignedTo text) := rfl

/-- Names of letters in lower case. -/
lemma letters_of_secretNames {name : List Char} (h : name ∈ secretNames) :
    name ≠ [] ∧ ∀ c ∈ name, c.isAlpha = true := by
  have hall : ∀ name ∈ secretNames, name ≠ [] ∧ name.all Char.isAlpha = true := by decide
  exact (hall name h).imp_right List.all_eq_true.mp

lemma assigned_isBlank {name : List Char} (h : name ∈ secretNames) :
    ∀ c ∈ name ++ ['='], isBlank c = false := by
  intro c hc
  obtain hc | hc := List.mem_append.mp hc
  · exact isBlank_of_isAlphanum
      (by rw [Char.isAlphanum, (letters_of_secretNames h).2 c hc, Bool.true_or])
  · rw [List.mem_singleton.mp hc]
    decide

lemma assignedTo_of_none {name text : List Char} (h : behindWord (name ++ ['=']) text = none) :
    assignedTo text name = none := by
  rw [assignedTo, h, Option.bind_none]

lemma assignedTo_of_some {name text rest : List Char}
    (h : behindWord (name ++ ['=']) text = some rest) :
    assignedTo text name = if countWhile (fun c => !isBlank c) rest = 0 then none
      else some ⟨name.length + 1, countWhile (fun c => !isBlank c) rest⟩ := by
  rw [assignedTo, h, Option.bind_some]

lemma exists_of_assignment {before : Option Char} {text : List Char} {finding : Finding}
    (h : assignment before text = some finding) :
    ∃ w rest, text = w ++ rest ∧ w ≠ []
      ∧ finding = ⟨w.length, countWhile (fun c => !isBlank c) rest⟩ := by
  rw [assignment_def] at h
  obtain ⟨name, -, hname⟩ := List.exists_of_findSome?_eq_some h
  cases hfound : behindWord (name ++ ['=']) text with
  | none => simp [assignedTo_of_none hfound] at hname
  | some rest =>
      obtain ⟨w, rfl, hword⟩ := behindWord_eq_some_iff.mp hfound
      have hlength : w.length = name.length + 1 := by
        rw [← List.length_map (f := foldCase), hword, List.length_append, List.length_singleton]
      rw [assignedTo_of_some hfound] at hname
      split_ifs at hname
      refine ⟨w, rest, rfl, List.ne_nil_of_length_pos (by omega), ?_⟩
      rw [hlength]
      exact (Option.some.inj hname).symm

lemma sober_assignment : Sober assignment where
  blank before c rest hc := by
    rw [assignment_def, List.findSome?_eq_none_iff]
    exact fun name hname => assignedTo_of_none
      (behindWord_of_isBlank (by simp) (assigned_isBlank hname) hc rest)
  kept before text finding h := by
    obtain ⟨w, rest, -, hne, rfl⟩ := exists_of_assignment h
    exact List.length_pos_of_ne_nil hne
  bound before text finding h := by
    obtain ⟨w, rest, rfl, -, rfl⟩ := exists_of_assignment h
    rw [List.length_append]
    exact Nat.add_le_add_left (countWhile_le _ rest) _

lemma findSome?_congr {α β : Type} {f g : α → Option β} {l : List α} (h : ∀ a ∈ l, f a = g a) :
    l.findSome? f = l.findSome? g := by
  induction l with
  | nil => rfl
  | cons a l ih =>
      rw [List.findSome?_cons, List.findSome?_cons, h a List.mem_cons_self,
        ih fun b hb => h b (List.mem_cons_of_mem a hb)]

lemma findSome?_of_mem {α β : Type} [DecidableEq α] {a : α} {l : List α} (h : a ∈ l) (b : β) :
    l.findSome? (fun c => if a = c then some b else none) = some b := by
  induction l with
  | nil => cases h
  | cons c l ih =>
      rw [List.findSome?_cons]
      by_cases hac : a = c
      · rw [if_pos hac]
      · rw [if_neg hac]
        exact ih ((List.mem_cons.mp h).resolve_left hac)

/-- No value goes over a blank. -/
lemma assignment_cut {c : Char} (hc : isBlank c = true) (t : List Char) (before : Option Char)
    (b : List Char) : assignment before (b ++ c :: t) = assignment before b := by
  rw [assignment_def, assignment_def]
  refine findSome?_congr fun name hname => ?_
  have hword : foldCase c ∉ name ++ ['='] := by
    rw [foldCase_of_isBlank hc]
    intro hmem
    rw [assigned_isBlank hname c hmem] at hc
    cases hc
  cases hfound : behindWord (name ++ ['=']) b with
  | none =>
      rw [assignedTo_of_none hfound, assignedTo_of_none (by
        rw [behindWord_append_eq hword, hfound, Option.map_none])]
  | some r =>
      rw [assignedTo_of_some hfound, assignedTo_of_some (behindWord_append_of_some hfound (c :: t)),
        countWhile_append_cons (by simp [hc])]

/-! ### The value behind a secret name -/

/-- A name that is secret in any case of its letters. -/
def IsSecretName (name : List Char) : Prop := name.map Char.toLower ∈ secretNames

instance (name : List Char) : Decidable (IsSecretName name) := inferInstanceAs (Decidable (_ ∈ _))

lemma IsSecretName.letters {name : List Char} (h : IsSecretName name) : Letters name := fun c hc =>
  (letters_of_secretNames h).2 c.toLower (List.mem_map_of_mem hc)

lemma IsSecretName.ne_nil {name : List Char} (h : IsSecretName name) : name ≠ [] := by
  rintro rfl
  exact (letters_of_secretNames h).1 rfl

/-- A value without blanks and a text that is set apart from it. -/
abbrev Valued : Type :=
  {i : List Char × List Char // i.1 ≠ [] ∧ (∀ c ∈ i.1, isBlank c = false) ∧ Apart i.2}

/-- A word that ends in an equals sign and goes on into an assignment ends with its name. -/
lemma eq_of_crossing {name t rest w : List Char} {z : Char} (hname : Letters name)
    (h : name ++ '=' :: t = w ++ z :: rest) (hw : '=' ∉ w) (hz : foldCase z = '=') : w = name := by
  obtain ⟨x, rfl, hx⟩ | ⟨x, rfl, hx⟩ := List.append_eq_append_iff.mp h
  · cases x with
    | nil => rw [List.append_nil]
    | cons d x =>
        obtain rfl := (List.cons.inj hx).1
        exact absurd (by simp) hw
  · cases x with
    | nil => rw [List.append_nil]
    | cons d x =>
        obtain rfl := (List.cons.inj hx).1
        exact absurd hz (hname.foldCase_ne (by decide) z (by simp))

/-- A run without blanks ends in front of what is set apart. -/
lemma countWhile_apart {x q : List Char} (hx : ∀ c ∈ x, isBlank c = false) (hq : Apart q) :
    countWhile (fun c => !isBlank c) (x ++ q) = x.length := by
  rw [countWhile_append_of_all fun c hc => by rw [hx c hc]; rfl]
  cases q with
  | nil => rfl
  | cons c q => rw [countWhile_cons_of_neg (by simp [hq c rfl]), Nat.add_zero]

lemma assigned_notBlank {name s : List Char} (hname : Letters name)
    (hs : ∀ c ∈ s, isBlank c = false) : ∀ c ∈ name ++ '=' :: s, isBlank c = false := by
  intro c hc
  obtain hc | hc := List.mem_append.mp hc
  · exact isBlank_of_letter (hname c hc)
  · obtain rfl | hc := List.mem_cons.mp hc
    · decide
    · exact hs c hc

/-- A word that is not found in front of an assignment is found up to its equals sign or not at
all. -/
lemma assignedTo_append_of_none {name key b : List Char} (hname : Letters name)
    (hkey : key ∈ secretNames) (hb : behindWord (key ++ ['=']) b = none) (i : Valued) :
    assignedTo (b ++ (name ++ '=' :: i.1.1 ++ i.1.2)) key
      = if (b ++ name).map foldCase = key then some ⟨(b ++ name ++ ['=']).length, i.1.1.length⟩
        else none := by
  split_ifs with hcross
  · have hfound : behindWord (key ++ ['=']) (b ++ (name ++ '=' :: i.1.1 ++ i.1.2))
        = some (i.1.1 ++ i.1.2) := by
      refine behindWord_eq_some_iff.mpr ⟨b ++ name ++ ['='], by simp, ?_⟩
      rw [List.map_append, hcross]
      rfl
    rw [assignedTo_of_some hfound, countWhile_apart i.2.2.1 i.2.2.2, if_neg (by simp [i.2.1]),
      ← hcross, List.length_map, ← List.concat_eq_append, List.length_concat]
  · cases hfound : behindWord (key ++ ['=']) (b ++ (name ++ '=' :: i.1.1 ++ i.1.2)) with
    | none => exact assignedTo_of_none hfound
    | some rest =>
        obtain ⟨r, hr, -⟩ | ⟨c, a, htext, hword⟩ := behindWord_append hfound
        · rw [hb] at hr
          cases hr
        · obtain ⟨w, z, hwz⟩ : ∃ w z, c :: a = w ++ [z] :=
            ((List.eq_nil_or_concat (c :: a)).resolve_left (by simp)).imp
              fun w h => h.imp fun z h => by rw [h, List.concat_eq_append]
          rw [hwz, ← List.append_assoc, List.map_append] at hword
          obtain ⟨hkeyed, hequals⟩ := List.append_inj' hword rfl
          have hw : '=' ∉ w := fun hmem => by
            have halpha := (letters_of_secretNames hkey).2 (foldCase '=')
              (hkeyed ▸ List.mem_map_of_mem (by simp [hmem]))
            exact absurd halpha (by decide)
          rw [← List.cons_append, hwz, List.append_assoc, List.append_assoc] at htext
          rw [eq_of_crossing hname htext hw (by simpa using hequals)] at hkeyed
          exact absurd hkeyed hcross

/-- For one of the names: what starts in front of a value ends in front of the assignment, or it goes
to the end of the value. -/
lemma course_assignedTo {name : List Char} (hname : Letters name) {key : List Char}
    (hkey : key ∈ secretNames) (b : List Char) :
    Course (fun i : Valued => name ++ '=' :: i.1.1) (fun _ => True) b
      fun i => assignedTo (b ++ (name ++ '=' :: i.1.1 ++ i.1.2)) key := by
  cases hb : behindWord (key ++ ['=']) b with
  | none =>
      simp only [assignedTo_append_of_none hname hkey hb]
      by_cases hcross : (b ++ name).map foldCase = key
      · exact .across (b ++ name ++ ['=']) trivial fun i => ⟨i.1.1, by simp, if_pos hcross⟩
      · exact .absent fun i => if_neg hcross
  | some r =>
      obtain ⟨w, rfl, hword⟩ := behindWord_eq_some_iff.mp hb
      have hlength : key.length + 1 = w.length := by
        have hmap := congrArg List.length hword
        rwa [List.length_map, List.length_append, List.length_singleton, eq_comm] at hmap
      have hfound := fun t => assignedTo_of_some (behindWord_append_of_some hb t)
      by_cases hall : ∀ c ∈ r, isBlank c = false
      · refine .across w trivial fun i => ⟨r ++ (name ++ '=' :: i.1.1), by simp, ?_⟩
        have hblank : ∀ c ∈ r ++ (name ++ '=' :: i.1.1), isBlank c = false := fun c hc =>
          (List.mem_append.mp hc).elim (hall c) (assigned_notBlank hname i.2.2.1 c)
        rw [hfound, ← List.append_assoc, countWhile_apart hblank i.2.2.2, if_neg (by simp), hlength]
      · obtain ⟨d, hd, hblank⟩ : ∃ d ∈ r, isBlank d = true := by simpa using hall
        obtain ⟨x, y, rfl⟩ := List.append_of_mem hd
        have hcount : ∀ t, countWhile (fun c => !isBlank c) (x ++ d :: y ++ t)
            = countWhile (fun c => !isBlank c) x := fun t => by
          rw [List.append_assoc, List.cons_append, countWhile_append_cons (by simp [hblank])]
        by_cases hzero : countWhile (fun c => !isBlank c) x = 0
        · exact .absent fun i => by rw [hfound, hcount, if_pos hzero]
        · refine .within ⟨w.length, countWhile (fun c => !isBlank c) x⟩ ?_ (by dsimp only; omega)
            fun i => by rw [hfound, hcount, if_neg hzero, hlength]
          have hle := countWhile_le (fun c => !isBlank c) x
          simp only [List.length_append]
          omega

/-- The same for several names, of which the first that is found counts. -/
lemma course_findSome? {name : List Char} (hname : Letters name) {keys : List (List Char)}
    (hkeys : keys ⊆ secretNames) (b : List Char) :
    Course (fun i : Valued => name ++ '=' :: i.1.1) (fun _ => True) b
      fun i => keys.findSome? (assignedTo (b ++ (name ++ '=' :: i.1.1 ++ i.1.2))) := by
  induction keys with
  | nil => exact .absent fun i => rfl
  | cons key keys ih =>
      simp only [List.findSome?_cons]
      cases course_assignedTo hname (hkeys List.mem_cons_self) b with
      | absent hnone =>
          simp only [hnone]
          exact ih fun key hkey => hkeys (List.mem_cons_of_mem _ hkey)
      | within finding hbound hpos hfound =>
          exact .within finding hbound hpos fun i => by rw [hfound i]
      | across kept _ hfound =>
          refine .across kept trivial fun i => ?_
          obtain ⟨secret, hparts, hkey⟩ := hfound i
          exact ⟨secret, hparts, by rw [hkey]⟩

/-- A secret name is found where it stands. -/
lemma assignment_of_secretName {name : List Char} (hname : IsSecretName name)
    (before : Option Char) (i : Valued) :
    assignment before (name ++ '=' :: i.1.1 ++ i.1.2)
      = some ⟨(name ++ ['=']).length, i.1.1.length⟩ := by
  have hfold : name.map foldCase = name.map Char.toLower :=
    List.map_congr_left fun c hc => foldCase_of_toLower (hname.letters c hc)
  have hfound : ∀ key ∈ secretNames, assignedTo (name ++ '=' :: i.1.1 ++ i.1.2) key
      = if name.map foldCase = key then some ⟨(name ++ ['=']).length, i.1.1.length⟩ else none := by
    intro key hkey
    have hb : behindWord (key ++ ['=']) [] = none := by cases key <;> rfl
    simpa using assignedTo_append_of_none hname.letters hkey hb i
  rw [assignment_def, findSome?_congr hfound, hfold]
  exact findSome?_of_mem hname _

/-- **The value behind a secret name is redacted**, whatever is in front of the name. -/
lemma exists_assigned {name : List Char} (hname : IsSecretName name) (u : List Char) :
    ∃ v, ∀ i : Valued, replaceAll assignment (u ++ (name ++ '=' :: i.1.1 ++ i.1.2))
      = v ++ mark ++ replaceAll assignment i.1.2 := by
  have halike : Alike assignment (fun i : Valued => name ++ '=' :: i.1.1) (fun i => i.1.2)
      (fun _ => True) none 0 u :=
    alike_of_course (fun before b _ => course_findSome? hname.letters (List.Subset.refl _) b) none
      (Nat.zero_le _)
  obtain ⟨v, hend | hover⟩ := halike
  · refine ⟨v ++ (name ++ ['=']), fun i => ?_⟩
    have hmatch := assignment_of_secretName hname (behind none u) i
    rw [show name ++ '=' :: i.1.1 ++ i.1.2 = (name ++ ['=']) ++ i.1.1 ++ i.1.2 by simp] at hmatch
    have hthere := replaceFrom_of_match hmatch (by simp)
    rw [i.2.2.2.replaceFrom_eq sober_assignment] at hthere
    rw [replaceAll, hend i,
      show name ++ '=' :: i.1.1 ++ i.1.2 = (name ++ ['=']) ++ i.1.1 ++ i.1.2 by simp, hthere]
    simp only [List.append_assoc]
  · refine ⟨v, fun i => ?_⟩
    rw [replaceAll, hover.2 i, i.2.2.2.replaceFrom_eq sober_assignment]

end Componentry.Redaction
