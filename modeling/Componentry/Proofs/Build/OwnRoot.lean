import Mathlib.Tactic
import Componentry.Proofs.Build.Elements
import Componentry.Proofs.Keyed
/-!
# Documents that are their own root

A document without a view is its own root, with its three sections among the members of the root
node.  `Document.wrapped` is the same document with the rest of its members under `view`.

Both are walked alike.  Reports that were there before the walk change nothing about it
(`Builder.fill_preceded`), and the two root nodes are described alike but for one fault
(`Builder.describe_rootNode`): the section `style`, which has to be an object, is read as the style
names of the root node, which have to be a text.  So the trees are the same, and the document
without a view has the one report more (`Document.build_wrapped`).
-/

namespace Componentry

namespace Build

/-! ### Reports that were there before -/

/-- A build with other reports before its own. -/
def preceded (b : Build) (problems : List BuildProblem) : Build :=
  { b with problems := problems ++ b.problems }

variable (b : Build) (problems : List BuildProblem)

lemma preceded_report (path : String) (faults : List BuildFault) :
    (b.preceded problems).report path faults = (b.report path faults).preceded problems := by
  simp [preceded, report, List.append_assoc]

lemma preceded_malformed (path reason : String) :
    (b.preceded problems).malformed path reason = (b.malformed path reason).preceded problems :=
  b.preceded_report problems path _

lemma preceded_attach (owner : Nat) (slot : Slot) (events : List EventName) (index : Nat) :
    (b.preceded problems).attach owner slot events index
      = (b.attach owner slot events index).preceded problems := by
  cases slot <;> rfl

lemma preceded_claim (role : Role) (path : String) (own : Attributes) :
    (b.preceded problems).claim role path own
      = ((b.claim role path own).1.preceded problems, (b.claim role path own).2) := by
  rw [claim, claim]
  split
  · rfl
  · dsimp only
    rw [show (b.preceded problems).tree = b.tree from rfl]
    split_ifs
    · rfl
    · rw [preceded_report]
    · rfl
  · rw [preceded_malformed]
    rfl

/-- Where no id is taken, claiming one reports at most that it is no text. -/
lemma claim_reported_of_empty (hids : b.tree.ids = []) (role : Role) (path : String)
    (own : Attributes) : ∃ reported : List BuildProblem,
      (∀ p ∈ reported, p = ⟨path, .malformed "'id' must be a string"⟩)
        ∧ (b.claim role path own).1.problems = b.problems ++ reported := by
  have hfree : ∀ id, b.tree.isTaken id = false := by
    intro id
    rw [Tree.isTaken, hids]
    rfl
  rw [claim]
  split
  · exact ⟨[], by simp, by simp [generate]⟩
  · dsimp only
    split_ifs with hblank htaken
    · exact ⟨[], by simp, by simp [generate]⟩
    · rw [hfree] at htaken
      cases htaken
    · exact ⟨[], by simp, by simp⟩
  · exact ⟨[⟨path, .malformed "'id' must be a string"⟩], by simp, rfl⟩

end Build

namespace Builder

variable {builder : Builder} {owner : Nat} {path : String} {b : Build}
  {problems : List BuildProblem}

lemma enter_preceded (role : Role) (owner : Option Nat) (own : Attributes) :
    builder.enter role owner path own (b.preceded problems)
      = ((builder.enter role owner path own b).1.preceded problems,
        (builder.enter role owner path own b).2) := by
  rw [enter, enter, Build.preceded_claim]
  dsimp only
  rw [show ((b.claim role path own).1.preceded problems).tree = (b.claim role path own).1.tree
    from rfl]
  split
  · rw [Build.preceded_report]
  · rw [Build.preceded_report]
    rfl

/-- The walk through an element, if this is so for its parts. -/
lemma walk_preceded {slot : Slot} {d : Declaration}
    (hfill : ∀ index b, builder.fill index (d.parts slot.role path) (b.preceded problems)
      = (builder.fill index (d.parts slot.role path) b).preceded problems) :
    builder.walk owner slot path d (b.preceded problems)
      = ((builder.walk owner slot path d b).1.preceded problems,
        (builder.walk owner slot path d b).2) := by
  cases d with
  | other =>
      cases slot with
      | control | provider | listed | bound _ =>
          exact congrArg (·, none) (b.preceded_malformed problems path _)
  | object own providers actions controls handlers =>
      cases hreferred : slot.referred? b.tree (.object own providers actions controls handlers) with
      | some existing =>
          obtain ⟨rfl, -⟩ := exists_of_referred? hreferred
          have hexisting : Builder.referred? b.tree own = some existing := hreferred
          rw [walk, walk, Builder.provider, Builder.provider,
            show (b.preceded problems).tree = b.tree from rfl, hexisting]
          dsimp only
          rw [Build.preceded_report]
      | none =>
          rw [walk_object (b := b.preceded problems) hreferred, walk_object hreferred,
            enter_preceded]
          cases builder.enter slot.role (some owner) path own b with
          | mk entered index =>
              cases index with
              | none => rfl
              | some index =>
                  rw [filled, hfill]
                  rfl

/-- Settling a part, if this is so for the parts of its declaration. -/
lemma settle_preceded {part : Part}
    (hfill : ∀ slot path d, part = .element slot path d → ∀ index b,
      builder.fill index (d.parts slot.role path) (b.preceded problems)
        = (builder.fill index (d.parts slot.role path) b).preceded problems) :
    builder.settle owner (b.preceded problems) part
      = (builder.settle owner b part).preceded problems := by
  cases part with
  | refused path reason lost => exact b.preceded_malformed problems path reason
  | element slot path d =>
      rw [settle, settle, Build.preceded_report]
      split_ifs
      · exact Build.preceded_malformed _ problems path _
      · rw [walk_preceded (hfill slot path d rfl)]
        cases builder.walk owner slot path d (b.report path (slot.triggers d).1) with
        | mk b' index =>
            cases index with
            | none => rfl
            | some index => exact b'.preceded_attach problems owner slot _ index

/-- Reports that were there before change nothing about the walk through parts.  The induction is on
the declarations, and inside it along the parts. -/
lemma fill_preceded (size : Nat) (parts : List Part)
    (h : ∀ slot path d, .element slot path d ∈ parts → sizeOf d < size) :
    ∀ owner b, builder.fill owner parts (b.preceded problems)
      = (builder.fill owner parts b).preceded problems := by
  induction size using Nat.strong_induction_on generalizing parts with
  | _ size ih =>
  intro owner b
  induction parts generalizing b with
  | nil => rfl
  | cons part rest ihrest =>
      rw [fill_cons, fill_cons, settle_preceded fun slot path d hd => ?_]
      · exact ihrest (fun slot path d hd => h slot path d (List.mem_cons_of_mem part hd)) _
      · have hsize := h slot path d (hd ▸ List.mem_cons_self)
        exact ih (sizeOf d) hsize _ fun _ _ _ => Declaration.sizeOf_lt

end Builder

/-! ### The two documents -/

namespace Document

/-- The fault that the section `style` is as a member of the root node, where the type of the root
node can be read. -/
def styleFaults (document : Document) : List BuildFault :=
  match Keyed.lookup document.members "style", Builder.declaredType document.members with
  | some _, .ok _ => [.malformed "'style' must be a comma separated list of style names"]
  | _, _ => []

/-- The members of a document that are no sections. -/
def unsectioned (document : Document) : Attributes :=
  document.members.filter fun member => member.1 ∉ sections

/-- The document with its sections, and the rest of its members under `view`. -/
def wrapped (document : Document) : Document where
  members := document.members.filter (fun member => member.1 ∈ sections)
    ++ [("view", .object document.unsectioned)]

variable {document : Document}

lemma lookup_unsectioned (key : String) (h : key ∉ sections) :
    document.unsectioned.lookup key = Keyed.lookup document.members key := by
  rw [unsectioned, Keyed.lookup_filter _ (· ∉ sections), if_pos h]

lemma lookup_unsectioned_style : document.unsectioned.lookup "style" = none := by
  rw [unsectioned, Keyed.lookup_filter _ (· ∉ sections), if_neg (by decide)]

lemma lookup_wrapped {key : String} (h : key ∈ sections) :
    Keyed.lookup document.wrapped.members key = Keyed.lookup document.members key := by
  have hview : "view" ≠ key := by
    rintro rfl
    exact absurd h (by decide)
  rw [wrapped, Keyed.lookup_append, Keyed.lookup_filter, if_pos h, Keyed.lookup, if_neg hview,
    Keyed.lookup, Option.or_none]

lemma rootNode_wrapped : document.wrapped.rootNode = document.unsectioned := by
  have hview : Keyed.lookup document.wrapped.members "view"
      = some (.object document.unsectioned) := by
    rw [wrapped, Keyed.lookup_append, Keyed.lookup_filter, if_neg (by decide)]
    rfl
  rw [rootNode, hview]

lemma sectionOf_wrapped {key : String} (h : key ∈ sections) :
    document.wrapped.sectionOf key = document.sectionOf key := by
  rw [sectionOf, lookup_wrapped h, sectionOf]

/-- The sections of a document are objects. -/
lemma ofJson_eq_ok {v : Json} : ofJson v = .ok document ↔
    v = document.toJson ∧ ∀ key ∈ sections, ∀ w,
      Keyed.lookup document.members key = some w → w.isObject := by
  have hfind : ∀ members : Attributes, (sections.find? fun key =>
        (List.lookup key members).any fun v => !v.isObject) = none
      ↔ ∀ key ∈ sections, ∀ w, Keyed.lookup members key = some w → w.isObject := by
    intro members
    rw [List.find?_eq_none]
    refine forall₂_congr fun key _ => ?_
    rw [Keyed.list_lookup_eq]
    cases Keyed.lookup members key <;> simp
  constructor
  · intro h
    unfold ofJson at h
    split at h
    · split at h
      · cases h
      · rename_i hnone
        cases h
        exact ⟨rfl, (hfind _).mp hnone⟩
    · cases h
  · rintro ⟨rfl, hall⟩
    rw [toJson, ofJson, (hfind _).mpr hall]

end Document

lemma Declaration.parts_unsectioned (document : Document) (role : Role) (path : String) :
    (ofJson (.object document.unsectioned)).parts role path
      = (ofJson (.object document.members)).parts role path := by
  rw [ofJson_object, ofJson_object]
  simp only [Document.lookup_unsectioned "dataProviders" (by decide),
    Document.lookup_unsectioned "actions" (by decide),
    Document.lookup_unsectioned "controls" (by decide),
    Document.lookup_unsectioned "on" (by decide)]
  rfl

/-! ### The root node -/

section RootNode

variable {document : Document}
  (hstyle : ∀ w, Keyed.lookup document.members "style" = some w → w.isObject)

include hstyle

/-- The root node takes no attributes from a section. -/
lemma Declared.collected_unsectioned (styles : Keyed String Attributes) :
    collected styles [] document.unsectioned = collected styles [] document.members := by
  have hnames : styleNames document.members = [] := by
    rw [styleNames]
    split
    · rename_i names hnames
      exact absurd (hstyle _ hnames) (by simp [Json.isObject])
    · rfl
  have hnone : styleNames document.unsectioned = [] := by
    rw [styleNames, Document.lookup_unsectioned_style]
  have hentries : entries document.unsectioned shorthandKeys
      = entries document.members shorthandKeys := by
    refine List.filterMap_congr fun key hkey => ?_
    have hsection : ∀ key ∈ shorthandKeys, key ∉ Document.sections := by decide
    rw [Document.lookup_unsectioned key (hsection key hkey)]
  rw [collected, collected, layers, layers, hnames, hnone, List.append_nil, hentries,
    Document.lookup_unsectioned "attributes" (by decide)]

/-- What is wrong with the attributes of the root node, beside the section `style`. -/
lemma Declared.faults_unsectioned (styles : Keyed String Attributes) {name : Option String}
    (hname : Builder.declaredType document.members = .ok name) :
    faults styles document.members
      = document.styleFaults ++ faults styles document.unsectioned := by
  rw [faults, faults, Document.lookup_unsectioned_style,
    Document.lookup_unsectioned "attributes" (by decide), Document.styleFaults, hname]
  cases hlookup : Keyed.lookup document.members "style" with
  | none => rfl
  | some w =>
      have hobject := hstyle w hlookup
      cases w with
      | object members => rfl
      | null | bool _ | number _ | string _ | array _ => cases hobject

namespace Builder

lemma typed_unsectioned (builder : Builder) (id : String) :
    builder.typed .control id document.members
      = (document.styleFaults ++ (builder.typed .control id document.unsectioned).1,
        (builder.typed .control id document.unsectioned).2) := by
  have htype : declaredType document.unsectioned = declaredType document.members := by
    rw [declaredType, Document.lookup_unsectioned _ (by decide), declaredType]
  rw [typed, typed, htype]
  cases hname : declaredType document.members with
  | error fault =>
      have hnone : document.styleFaults = [] := by
        rw [Document.styleFaults, hname]
        cases Keyed.lookup document.members "style" <;> rfl
      rw [hnone]
      rfl
  | ok name =>
      dsimp only
      rw [Declared.faults_unsectioned hstyle _ hname, extraKeys,
        Declared.collected_unsectioned hstyle]
      cases name with
      | none => rfl
      | some typeName =>
          dsimp only
          split
          · rw [List.append_assoc]
          · rfl

/-- The root node is described alike with and without the sections, but for the fault that the
section `style` is. -/
lemma describe_unsectioned (builder : Builder) (t : Tree) (owner : Option Nat) (id : String) :
    builder.describe t .control owner id document.members
      = (document.styleFaults ++ (builder.describe t .control owner id document.unsectioned).1,
        (builder.describe t .control owner id document.unsectioned).2) := by
  have hcompleted : ∀ e : Entity, e.role = .control →
      builder.completed t owner document.unsectioned e
        = builder.completed t owner document.members e := by
    intro e he
    simp only [completed, he, Document.lookup_unsectioned "if" (by decide),
      Document.lookup_unsectioned "enabled" (by decide)]
  rw [describe, describe, builder.typed_unsectioned hstyle id]
  cases htyped : builder.typed .control id document.unsectioned with
  | mk faults e =>
      cases e with
      | none => rfl
      | some e =>
          dsimp only
          rw [hcompleted e (typed_isNew htyped).role_eq, List.append_assoc]

/-- The root node enters alike, but for the report of the section `style` after those on its id. -/
lemma enter_unsectioned (builder : Builder) {b : Build} (hids : b.tree.ids = []) :
    ∃ (entered : Build) (index : Option Nat) (before : List BuildProblem),
      (∀ p ∈ before, p = ⟨"view", .malformed "'id' must be a string"⟩)
        ∧ builder.enter .control none "view" document.members b
          = (entered.preceded (b.problems ++ before
            ++ document.styleFaults.map (BuildProblem.mk "view")), index)
        ∧ builder.enter .control none "view" document.unsectioned b
          = (entered.preceded (b.problems ++ before), index) := by
  obtain ⟨before, hbefore, hclaimed⟩ :=
    b.claim_reported_of_empty hids .control "view" document.members
  have hclaim : b.claim .control "view" document.unsectioned
      = b.claim .control "view" document.members := by
    rw [Build.claim, Build.claim, Document.lookup_unsectioned _ (by decide)]
  obtain ⟨claimed, id, hmk⟩ : ∃ claimed id,
      b.claim .control "view" document.members = (claimed, id) := ⟨_, _, rfl⟩
  rw [enter, enter, hclaim, hmk]
  rw [hmk] at hclaimed
  dsimp only at hclaimed ⊢
  rw [builder.describe_unsectioned hstyle]
  obtain ⟨faults, e⟩ := builder.describe claimed.tree .control none id document.unsectioned
  let silent : Build := { claimed with problems := [] }
  have hreport : ∀ more : List BuildFault, claimed.report "view" (more ++ faults)
      = (silent.report "view" faults).preceded
        (b.problems ++ before ++ more.map (BuildProblem.mk "view")) := by
    intro more
    simp [Build.report, Build.preceded, silent, hclaimed, List.append_assoc]
  have hreport_nil := hreport []
  rw [List.nil_append, List.map_nil, List.append_nil] at hreport_nil
  cases e with
  | none =>
      refine ⟨silent.report "view" faults, none, before, hbefore, ?_, ?_⟩
      · rw [← hreport]
      · rw [← hreport_nil]
  | some e =>
      refine ⟨((silent.report "view" faults).insert e).1, some claimed.tree.size, before, hbefore,
        ?_, ?_⟩
      · dsimp only
        rw [hreport]
        rfl
      · dsimp only
        rw [hreport_nil]
        rfl

/-- The walk through the root node is alike, too. -/
lemma control_unsectioned (builder : Builder) {b : Build} (hids : b.tree.ids = []) :
    ∃ (below : Build) (index : Option Nat) (before : List BuildProblem),
      (∀ p ∈ before, p = ⟨"view", .malformed "'id' must be a string"⟩)
        ∧ builder.control none "view" (Declaration.ofJson (.object document.members)) b
          = (below.preceded (b.problems ++ before
            ++ document.styleFaults.map (BuildProblem.mk "view")), index)
        ∧ builder.control none "view" (Declaration.ofJson (.object document.unsectioned)) b
          = (below.preceded (b.problems ++ before), index) := by
  obtain ⟨entered, index, before, hbefore, hmembers, hrest⟩ :=
    builder.enter_unsectioned hstyle hids
  have hparts := Declaration.parts_unsectioned document .control "view"
  have hwalk : ∀ own, builder.control none "view" (Declaration.ofJson (.object own)) b
      = builder.filled .control "view" (Declaration.ofJson (.object own))
        (builder.enter .control none "view" own b) := by
    intro own
    rw [Declaration.ofJson_object, control_object]
  rw [hwalk, hwalk, hmembers, hrest]
  cases index with
  | none => exact ⟨entered, none, before, hbefore, rfl, rfl⟩
  | some index =>
      have hfill : ∀ problems, builder.fill index
          ((Declaration.ofJson (.object document.members)).parts .control "view")
          (entered.preceded problems) = _ := fun _ =>
        fill_preceded _ _ (fun _ _ _ => Declaration.sizeOf_lt) index entered
      refine ⟨builder.fill index
        ((Declaration.ofJson (.object document.members)).parts .control "view") entered, some index,
        before, hbefore, ?_, ?_⟩
      · rw [filled, hfill]
      · rw [filled, hparts, hfill]

end Builder

end RootNode

/-- **A document that is its own root builds like one with a view**, but for one report.  Where a
document has no view, the document with the same sections and the rest under `view` is built into
the same tree with the same reports, except that the section `style` is reported as a malformed list
of style names of the root node where its type can be read. -/
theorem Document.build_wrapped {v : Json} {document : Document}
    (h : Document.ofJson v = .ok document)
    (hview : Keyed.lookup document.members "view" = none) (catalog : Catalog)
    (evaluator : Evaluator) (dispatch : DispatchConfig) :
    let built := document.build catalog evaluator dispatch
    let wrapped := document.wrapped.build catalog evaluator dispatch
    Document.ofJson document.wrapped.toJson = .ok document.wrapped
      ∧ wrapped.tree = built.tree
      ∧ ∃ before after, (∀ p ∈ before, p = ⟨"view", .malformed "'id' must be a string"⟩)
        ∧ built.problems = before ++ document.styleFaults.map (BuildProblem.mk "view") ++ after
        ∧ wrapped.problems = before ++ after := by
  intro built wrapped
  obtain ⟨-, hsections⟩ := Document.ofJson_eq_ok.mp h
  have hwrapped : Document.ofJson document.wrapped.toJson = .ok document.wrapped := by
    refine Document.ofJson_eq_ok.mpr ⟨rfl, fun key hkey w hw => ?_⟩
    rw [Document.lookup_wrapped hkey] at hw
    exact hsections key hkey w hw
  have hroot : document.rootNode = document.members := by
    rw [Document.rootNode, hview]
  have hstores : document.wrapped.app = document.app
      ∧ document.wrapped.session = document.session :=
    ⟨Document.sectionOf_wrapped (by decide), Document.sectionOf_wrapped (by decide)⟩
  have hstyles : document.wrapped.styles = document.styles := by
    rw [Document.styles, Document.sectionOf_wrapped (by decide), Document.styles]
  let builder : Builder :=
    { catalog, evaluator, styles := document.styles, defaultDelay := 1000 * dispatch.defaultDelay }
  let start : Build := { tree := { app := document.app, session := document.session } }
  obtain ⟨below, index, before, hbefore, hmembers, hrest⟩ :=
    builder.control_unsectioned (hsections "style" (by decide)) (rfl : start.tree.ids = [])
  have hbuilt : built = builder.build document := rfl
  have hwrapped' : wrapped = builder.build document.wrapped := by
    show document.wrapped.build catalog evaluator dispatch = _
    rw [Document.build, hstyles]
  rw [Builder.build, hroot] at hbuilt
  rw [Builder.build, Document.rootNode_wrapped, hstores.1, hstores.2] at hwrapped'
  dsimp only at hbuilt hwrapped'
  rw [hmembers] at hbuilt
  rw [hrest] at hwrapped'
  rw [hbuilt, hwrapped']
  refine ⟨hwrapped, ?_⟩
  cases index with
  | none => exact ⟨rfl, before, below.problems, hbefore, rfl, rfl⟩
  | some index => exact ⟨rfl, before, below.problems, hbefore, rfl, rfl⟩

/-- A screen without a view, with one named bundle of attributes and a text that uses it. -/
def styled : Document where
  members := [("style", .object [("heading", .object [("font", .string "bold 18")])]),
    ("id", .string "screen"),
    ("controls", .array [.object [("id", .string "title"), ("style", .string "heading")]])]

/-- The bundle is used, and the section is reported all the same. -/
theorem Document.build_wrapped_styled :
    let catalog : Catalog := ⟨.empty .strict⟩
    let built := styled.build catalog .standard {}
    let wrapped := styled.wrapped.build catalog .standard {}
    Document.ofJson styled.toJson = .ok styled ∧ Keyed.lookup styled.members "view" = none
      ∧ wrapped.tree = built.tree
      ∧ (built.tree.entity? 1).map Entity.attributes = some [("font", .string "bold 18")]
      ∧ (∃ before after, built.problems = before
          ++ [⟨"view", .malformed "'style' must be a comma separated list of style names"⟩] ++ after
        ∧ wrapped.problems = before ++ after)
      ∧ wrapped.problems = [] := by
  intro catalog built wrapped
  have hjson : Document.ofJson styled.toJson = .ok styled := by rfl
  have hview : Keyed.lookup styled.members "view" = none := by decide +kernel
  have hfaults : styled.styleFaults
      = [.malformed "'style' must be a comma separated list of style names"] := by decide +kernel
  obtain ⟨-, htree, before, after, -, hbuilt, hwrapped⟩ :=
    Document.build_wrapped hjson hview catalog .standard {}
  rw [hfaults] at hbuilt
  exact ⟨hjson, hview, htree, by decide +kernel, ⟨before, after, hbuilt, hwrapped⟩,
    by decide +kernel⟩

end Componentry
