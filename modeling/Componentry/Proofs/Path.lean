import Mathlib.Tactic
import Componentry.Path
import Componentry.Proofs.Text
/-!
# Paths below the home directory

What is joined to a directory without a slash in front leads on from there: behind the components of
the directory come those of what is joined (`continues_join`), however many slashes there are
between two of them.  A tilde in front of a path is meant to be the home directory in this way, and
mostly it is.  But what begins with a slash takes the place of the directory that it is joined to, so
that a second slash behind the tilde leads away from the home directory (`configFile_continues`).
-/

namespace Componentry

namespace Path

/-- A path that leads on from a directory as written: it starts where the directory starts, and
behind the components of the directory it has those of the text. -/
def Continues (directory path : Path) (text : String) : Prop :=
  isAbsolute path = isAbsolute directory
    ∧ components path = components directory ++ components ("/" ++ text)

/-! ### Components -/

/-- The components of what is written up to a slash and of what is written from there. -/
lemma components_append (front rest : List Char) :
    components (String.ofList (front ++ '/' :: rest))
      = components (String.ofList front) ++ components (String.ofList ('/' :: rest)) := by
  obtain ⟨first, pieces, hpieces⟩ :=
    List.exists_cons_of_ne_nil (Text.splitOn_ne_nil '/' front)
  have hfront : Text.splitOn '/' (front ++ '/' :: rest)
      = first :: (pieces ++ Text.splitOn '/' rest) := by
    rw [Text.splitOn_append_separator, hpieces, List.cons_append]
  have hrest : Text.splitOn '/' ('/' :: rest) = [] :: Text.splitOn '/' rest :=
    Text.splitOn_append_separator '/' [] rest
  simp only [components, String.toList_ofList, hfront, hrest, hpieces]
  simp

lemma components_slash : components (String.ofList ['/']) = [] := by decide

/-- A slash at the end adds nothing. -/
lemma components_append_slash (front : List Char) :
    components (String.ofList (front ++ ['/'])) = components (String.ofList front) := by
  rw [components_append, components_slash, List.append_nil]

section Join

variable {directory path : Path}

lemma join_of_isAbsolute (h : isAbsolute path) (directory : Path) : join directory path = path := by
  rw [join, h, Bool.true_or, if_pos rfl]

/-- What is joined to a directory without a slash in front stands behind one slash. -/
lemma exists_join (hdirectory : directory ≠ "") (hpath : ¬ isAbsolute path) :
    ∃ front, components (String.ofList front) = components directory
      ∧ (join directory path).toList = front ++ '/' :: path.toList
      ∧ isAbsolute (join directory path) = isAbsolute directory := by
  have hne : directory.toList ≠ [] := by simpa using hdirectory
  have hhead : ∀ more : List Char, (directory.toList ++ more).head? = directory.toList.head? := by
    intro more
    obtain ⟨c, rest, hchars⟩ := List.exists_cons_of_ne_nil hne
    rw [hchars, List.cons_append, List.head?_cons, List.head?_cons]
  rw [join, if_neg (by simp [hpath, hne])]
  split_ifs with hlast
  · obtain ⟨front, hfront⟩ := List.getLast?_eq_some_iff.mp hlast
    refine ⟨front, ?_, by simp [hfront], by simp [isAbsolute, hhead]⟩
    rw [← components_append_slash, ← hfront, String.ofList_toList]
  · exact ⟨directory.toList, by rw [String.ofList_toList], by simp, by simp [isAbsolute, hhead]⟩

/-- **What is joined to a directory leads on from there**, unless it begins with a slash. -/
theorem continues_join (hdirectory : directory ≠ "") (hpath : ¬ isAbsolute path) :
    Continues directory (join directory path) path := by
  obtain ⟨front, hfront, hchars, habsolute⟩ := exists_join hdirectory hpath
  refine ⟨habsolute, ?_⟩
  have hslash : String.ofList ('/' :: path.toList) = "/" ++ path := by
    rw [← String.toList_inj]
    simp
  rw [← String.ofList_toList (s := join directory path), hchars, components_append, hfront, hslash]

/-- What begins with a slash leads on from the root only. -/
lemma continues_absolute_iff (hpath : isAbsolute path) :
    Continues directory path path ↔ isAbsolute directory ∧ components directory = [] := by
  obtain ⟨rest, hrest⟩ : ∃ rest, path.toList = '/' :: rest := by
    rw [isAbsolute, decide_eq_true_eq] at hpath
    exact ⟨path.toList.tail, (List.cons_head?_tail hpath).symm⟩
  have hcomponents : components ("/" ++ path) = components path := by
    have hslash : "/" ++ path = String.ofList (['/'] ++ '/' :: rest) := by
      rw [← String.toList_inj]
      simp [hrest]
    rw [hslash, components_append, components_slash, List.nil_append, ← hrest, String.ofList_toList]
  rw [Continues, hpath, hcomponents, eq_comm, List.self_eq_append_left]

end Join

/-- What a tilde with a separator behind it is replaced by. -/
lemma expandHome_of_trimChars (home : Option Path) {path : Path} {mark : Char} {written : List Char}
    (hmark : mark = '/' ∨ mark = '\\')
    (hpath : Text.trimChars path.toList = '~' :: mark :: written) :
    expandHome home path = join (home.getD "~") (String.ofList written) := by
  rw [expandHome, hpath]
  rcases hmark with rfl | rfl <;> rfl

end Path

namespace Environment

/-- A pointer that is not blank says where the file is. -/
lemma configFile_of_trimChars (env : Environment) (name : String) {path : Path}
    (hpath : Text.trimChars path.toList ≠ []) :
    env.configFile (some path) name = Path.expandHome env.home path := by
  have hnot : Text.isBlankText path = false := by
    rw [Bool.eq_false_iff]
    exact fun hblank => hpath (Text.trimChars_of_blanks (List.all_eq_true.mp hblank))
  rw [configFile, Option.filter_some, if_pos (by simp [hnot])]

/-- **Where a tilde leads.**  What is written behind a tilde and a separator leads on from the home
directory, with any blanks around and any further slashes and periods inside, and a pointer to a
configuration file leads there too.  But if what is written behind the separator begins with a slash,
it is the path itself, and the home directory is no part of it unless it is the root. -/
theorem configFile_continues (env : Environment) (name : String) {path : Path} {mark : Char}
    {written : List Char} (hhome : env.home ≠ some "") (hmark : mark = '/' ∨ mark = '\\')
    (hpath : Text.trimChars path.toList = '~' :: mark :: written) :
    let home := env.home.getD "~"
    let text := String.ofList written
    let place := Path.expandHome env.home path
    env.configFile (some path) name = place
      ∧ (¬ Path.isAbsolute text → Path.Continues home place text)
      ∧ (Path.isAbsolute text → place = text
        ∧ (Path.Continues home place text ↔ Path.isAbsolute home ∧ Path.components home = [])) := by
  intro home text place
  have hplace : place = Path.join home text := Path.expandHome_of_trimChars env.home hmark hpath
  have hne : home ≠ "" := by
    cases hcase : env.home with
    | none => simp [home, hcase]
    | some directory =>
        rw [hcase] at hhome
        simpa [home, hcase] using hhome
  refine ⟨env.configFile_of_trimChars name (by simp [hpath]), fun htext => ?_, fun htext => ?_⟩
  · rw [hplace]
    exact Path.continues_join hne htext
  · rw [hplace, Path.join_of_isAbsolute htext]
    exact ⟨rfl, Path.continues_absolute_iff htext⟩

/-- A path below the home directory, and one that a second slash leads away from it. -/
theorem configFile_continues_ada :
    let env : Environment := { home := some "/home/ada" }
    let below := "pad//./engine.json"
    let away := "/etc/engine.json"
    env.home ≠ some ""
      ∧ Text.trimChars " ~/pad//./engine.json ".toList = '~' :: '/' :: below.toList
      ∧ env.configFile (some " ~/pad//./engine.json ") "engine.json" = "/home/ada/pad//./engine.json"
      ∧ Path.Continues "/home/ada" "/home/ada/pad//./engine.json" below
      ∧ Text.trimChars "~\\/etc/engine.json".toList = '~' :: '\\' :: away.toList
      ∧ env.configFile (some "~\\/etc/engine.json") "engine.json" = away
      ∧ ¬ Path.Continues "/home/ada" away away := by
  intro env below away
  have hhome : env.home ≠ some "" := by simp [env]
  have hbelow : Text.trimChars " ~/pad//./engine.json ".toList = '~' :: '/' :: below.toList := by
    decide +kernel
  have haway : Text.trimChars "~\\/etc/engine.json".toList = '~' :: '\\' :: away.toList := by
    decide +kernel
  have hplace :
      Path.expandHome env.home " ~/pad//./engine.json " = "/home/ada/pad//./engine.json" := by
    decide +kernel
  obtain ⟨hfile, hcontinues, -⟩ := configFile_continues env "engine.json" hhome (.inl rfl) hbelow
  obtain ⟨hfile', -, hleaves⟩ := configFile_continues env "engine.json" hhome (.inr rfl) haway
  rw [String.ofList_toList] at hcontinues hleaves
  rw [hplace] at hfile hcontinues
  have habsolute : Path.isAbsolute away := by decide +kernel
  obtain ⟨hplace', hroot⟩ := hleaves habsolute
  rw [hplace'] at hfile' hroot
  refine ⟨hhome, hbelow, hfile, hcontinues (by decide +kernel), haway, hfile', fun h => ?_⟩
  have hnone : Path.components "/home/ada" = [] := (hroot.mp h).2
  exact absurd hnone (by decide +kernel)

end Environment

end Componentry
