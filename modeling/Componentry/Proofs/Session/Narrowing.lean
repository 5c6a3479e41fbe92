import Mathlib.Tactic
import Componentry.Proofs.Session.Fate
import Componentry.Proofs.Session.Repeat
import Componentry.Proofs.Template
/-!
# What a provider keeps of an answer

A `json` provider keeps the part of an answer that its `data_path` leads to (`Json.narrowed`).  The
attributes are read twice for one load.  When the provider is asked, the request carries them with
all their shortcodes replaced; when the answer is taken they are read as they stand.

`Session.run_narrows` says what is kept.  It is the part that the request names for every answer
just if the path as it stands then has the segments of the one that the request carries
(`Json.narrowed_inj`), as it has if it opens no shortcode and has not been changed in between.
-/

namespace Componentry

/-! ### Parts of an answer -/

/-- The part of an answer below a path: all of it without a path, and null where the path leads
nowhere. -/
def Json.narrowed (answer : Json) : Option (List String) → Json
  | none => answer
  | some path => (answer.atPath? path).getD .null

/-- The segments of the path to the part of an answer that is kept, if the attributes have a text
for it. -/
def Attributes.dataPath? (attributes : Attributes) : Option (List String) :=
  ((attributes.lookup "data_path").bind Json.string?).map Text.dottedPath

namespace DataProvider

lemma transform_json (answer : Json) (attributes : Attributes) :
    json.transform answer attributes = answer.narrowed attributes.dataPath? := by
  simp only [json, Attributes.dataPath?]
  cases (attributes.lookup "data_path").bind Json.string? <;> rfl

end DataProvider

namespace Json

/-- A value below a path of keys. -/
def nest (leaf : Json) : List String → Json
  | [] => leaf
  | key :: path => .object [(key, nest leaf path)]

/-- A path leads to the leaf just if it is the path of the leaf. -/
lemma atPath?_nest (path other : List String) :
    (nest (.bool true) path).atPath? other = some (.bool true) ↔ other = path := by
  induction path generalizing other with
  | nil => cases other <;> simp [nest, atPath?, child?]
  | cons key path ih =>
      cases other with
      | nil => simp [nest, atPath?]
      | cons segment other =>
          by_cases hkey : key = segment
          · subst hkey
            simp [nest, atPath?, child?, Keyed.lookup, ih]
          · simp [nest, atPath?, child?, Keyed.lookup, hkey, Ne.symm hkey]

/-- Two paths that are not empty narrow all answers alike just if they are the same. -/
lemma narrowed_inj {path other : Option (List String)} (hpath : path ≠ some [])
    (hother : other ≠ some []) :
    (∀ answer : Json, answer.narrowed path = answer.narrowed other) ↔ path = other := by
  -- No path leads into a truth value, and a path leads to its own leaf only.
  have hbare : ∀ {segments : List String}, some segments ≠ some [] →
      (Json.bool true).narrowed (some segments) = .null := by
    intro segments hne
    cases segments with
    | nil => exact absurd rfl hne
    | cons segment rest => rfl
  refine ⟨fun h => ?_, fun h answer => by rw [h]⟩
  cases path with
  | none =>
      cases other with
      | none => rfl
      | some other =>
          have hfirst := h (.bool true)
          rw [hbare hother] at hfirst
          cases hfirst
  | some path =>
      cases other with
      | none =>
          have hfirst := h (.bool true)
          rw [hbare hpath] at hfirst
          cases hfirst
      | some other =>
          have hleaf := h (nest (.bool true) path)
          rw [narrowed, narrowed, (atPath?_nest path path).mpr rfl, Option.getD_some] at hleaf
          have hfound : (nest (.bool true) path).atPath? other = some (.bool true) := by
            cases hat : (nest (.bool true) path).atPath? other with
            | none => simp [hat] at hleaf
            | some value => rw [hat, Option.getD_some] at hleaf; rw [hleaf]
          rw [(atPath?_nest path other).mp hfound]

end Json

/-! ### The path that a request carries -/

lemma Attributes.dataPath?_ne_nil (attributes : Attributes) : attributes.dataPath? ≠ some [] := by
  rw [dataPath?]
  cases (attributes.lookup "data_path").bind Json.string? with
  | none => simp
  | some text => simp [Text.dottedPath, Text.splitOn_ne_nil]

namespace Template

variable {catalog : Catalog} {scope : Scope}

lemma lookup_expandAttributes (attributes : Attributes) (key : String) :
    (expandAttributes catalog scope attributes).lookup key
      = (attributes.lookup key).map (expand catalog scope) := by
  rw [expandAttributes]
  induction attributes with
  | nil => rfl
  | cons member members ih =>
      obtain ⟨k, v⟩ := member
      rw [expandMembers, Keyed.lookup, Keyed.lookup, ih]
      split_ifs <;> rfl

/-- A text in which no shortcode is opened stands for itself. -/
lemma expandText_of_free {text : String} (h : ¬['[', '['] <:+: text.toList) :
    expandText catalog scope text = .string text := by
  have hwhole : ∀ inner, ¬Whole text.toList inner := by
    intro inner hinner
    obtain ⟨lead, trail, -, -, htext⟩ := Text.exists_trimChars text.toList
    rw [hinner.trimmed] at htext
    exact h ⟨lead, inner ++ [']', ']'] ++ trail, by rw [← htext]; simp⟩
  rw [expandText_of_not_whole hwhole, render_unclosed (unclosed_of_free h), String.ofList_toList]

/-- A value that is not a text does not become one. -/
lemma string?_expand {v : Json} (h : v.string? = none) :
    (expand catalog scope v).string? = none := by
  cases v with
  | string text => simp [Json.string?] at h
  | _ => simp [expand, Json.string?]

end Template

namespace Attributes

/-- The path is read off one attribute. -/
lemma dataPath?_congr {attributes other : Attributes}
    (h : attributes.lookup "data_path" = other.lookup "data_path") :
    attributes.dataPath? = other.dataPath? := by
  rw [dataPath?, dataPath?, h]

/-- The usual request keeps the path. -/
lemma dataPath?_ofAttributes (b : Blueprint) :
    (DataRequest.ofAttributes b).attributes.dataPath? = b.attributes.dataPath? := by
  refine dataPath?_congr ?_
  simp only [DataRequest.ofAttributes, takeObject]
  rw [Keyed.lookup_erase_of_ne _ (by decide), Keyed.lookup_erase_of_ne _ (by decide),
    Keyed.lookup_erase_of_ne _ (by decide), Keyed.lookup_erase_of_ne _ (by decide)]

/-- A path in which no shortcode is opened is the same with all shortcodes replaced. -/
lemma dataPath?_expandAttributes {catalog : Catalog} {scope : Scope} {attributes : Attributes}
    (hfree : ∀ text, attributes.lookup "data_path" = some (.string text) →
      ¬['[', '['] <:+: text.toList) :
    (Template.expandAttributes catalog scope attributes).dataPath? = attributes.dataPath? := by
  rw [dataPath?, dataPath?, Template.lookup_expandAttributes]
  cases hlookup : attributes.lookup "data_path" with
  | none => rfl
  | some v =>
      cases hv : v.string? with
      | none => simp [hv, Template.string?_expand hv]
      | some text =>
          obtain rfl : v = .string text := by
            cases v with
            | string other => rw [Json.string?, Option.some.injEq] at hv; rw [hv]
            | _ => simp [Json.string?] at hv
          have hexpand : Template.expand catalog scope (.string text) = .string text := by
            rw [Template.expand, Template.expandText_of_free (hfree text hlookup)]
          rw [Option.map_some, hexpand]

end Attributes

namespace Session

/-! ### A load that has its answer -/

/-- No load but this one bears its ticket. -/
structure Sole (s : Session) (load : Load) : Prop where
  numbered : s.Numbered
  lt : load.ticket < s.tickets
  eq : ∀ other ∈ s.loads, other.ticket = load.ticket → other = load

section Sole

variable {s : Session} {load : Load}

/-- The move of a load that has its answer leaves the load as it is, or ends it. -/
lemma Sole.advance (h : s.Sole load) (ha : load.answer.isSome) {other : Load}
    (ho : other ∈ (s.apply (.advance (.load load.ticket))).loads)
    (hticket : other.ticket = load.ticket) : other = load := by
  change other ∈ (s.advanceLoad load.ticket).loads at ho
  rw [advanceLoad] at ho
  cases hfind : s.loads.find? fun load' => load'.ticket = load.ticket with
  | none =>
      rw [hfind] at ho
      exact h.eq other ho hticket
  | some found =>
      obtain rfl : found = load :=
        h.eq found (List.mem_of_find?_eq_some hfind) (by simpa using List.find?_some hfind)
      obtain ⟨⟨arrival, result⟩, hanswer⟩ := Option.isSome_iff_exists.mp ha
      simp only [hfind, hanswer] at ho
      split_ifs at ho
      · rw [endLoad_loads] at ho
        exact absurd hticket (by simpa using (List.mem_filter.mp ho).2)
      · exact h.eq other ho hticket

lemma Sole.apply (h : s.Sole load) (ha : load.answer.isSome) (m : Move) :
    (s.apply m).Sole load := by
  refine ⟨(s.step_apply m).numbered h.numbered, h.lt.trans_le (s.step_apply m).issues.le,
    fun other ho hticket => ?_⟩
  by_cases hm : m.isLoadTask = true
  · obtain ⟨ticket, rfl⟩ := Move.exists_of_isLoadTask hm
    by_cases heq : ticket = load.ticket
    · subst heq
      exact h.advance ha ho hticket
    · have hne : other.ticket ≠ ticket := by rw [hticket]; exact Ne.symm heq
      exact h.eq other ((meets_apply h.numbered ticket).old other ho hne) hticket
  · rw [(s.accepts_apply (by simpa using hm)).loads] at ho
    obtain ho | ho := List.mem_append.mp ho
    · exact h.eq other ho hticket
    · -- A load that has just been accepted bears a later ticket.
      obtain ⟨k, hk, rfl⟩ := List.mem_mapIdx.mp ho
      have hlate := h.lt
      simp only at hticket
      omega

lemma Sole.run (h : s.Sole load) (ha : load.answer.isSome) (moves : List Move) :
    (s.run moves).Sole load := by
  induction moves generalizing s with
  | nil => exact h
  | cons m moves ih => exact ih (h.apply ha m)

end Sole

/-! ### What is kept -/

/-- The transport answers what a `json` provider is asked. -/
lemma ask_json {s : Session} {request : DataRequest} {latency : Nat} {result : LoadResult}
    (h : s.host.transport s.requests request = (latency, result)) (ticket : Nat) :
    s.ask ticket .json request = ({ s with
      requests := s.requests ++ [request] } : Session).setAnswer ticket (s.clock + latency)
        result := by
  have hplan : DataProvider.json.plan request = .ask request := rfl
  simp only [ask, hplan, h]

/-- The first move of a load of a `json` provider, with the answer that it is going to get. -/
lemma apply_of_asks {s : Session} (hn : s.Numbered) {load : Load} (hl : load ∈ s.loads)
    (ha : load.answer = none) {request : DataRequest} {latency : Nat} {result : LoadResult}
    (hfate : s.fate load.provider = .asks .json request)
    (htransport : s.host.transport s.requests request = (latency, result)) :
    let asked : Load := { load with answer := some (s.clock + latency, result) }
    let t := s.apply (.advance (.load load.ticket))
    t.requests = s.requests ++ [request] ∧ asked ∈ t.loads ∧ t.Sole asked := by
  intro asked t
  have ht : t = ({ s.setState load.provider .running with
      requests := s.requests ++ [request] } : Session).setAnswer load.ticket (s.clock + latency)
        result := by
    show s.apply _ = _
    rw [(apply_of_unanswered hn hl ha).1, hfate]
    exact ask_json (s := s.setState load.provider .running) htransport load.ticket
  have hloads : t.loads = s.loads.map fun other =>
      if other.ticket = load.ticket then { other with answer := some (s.clock + latency, result) }
      else other := by rw [ht]; rfl
  refine ⟨by rw [ht]; rfl, ?_, (s.step_apply _).numbered hn, ?_, fun other ho hticket => ?_⟩
  · rw [hloads]
    exact List.mem_map.mpr ⟨load, hl, if_pos rfl⟩
  · exact (hn.lt load hl).trans_le (s.step_apply _).issues.le
  · rw [hloads] at ho
    obtain ⟨old, hold, rfl⟩ := List.mem_map.mp ho
    split_ifs at hticket ⊢ with heq
    · rw [hn.eq_of_find? (hn.find?_eq hl) hold heq]
    · exact absurd hticket heq

/-- What a `json` provider is asked for: its attributes with all shortcodes replaced. -/
lemma exists_of_fate {s : Session} {index : Nat} {request : DataRequest}
    (h : s.fate index = .asks .json request) :
    ∃ e, s.tree.entity? index = some e ∧ e.behaviour.dataProvider? = some .json
      ∧ request.attributes.dataPath?
        = (Template.expandAttributes s.host.catalog { tree := s.tree } e.attributes).dataPath? := by
  rw [fate] at h
  cases he : s.tree.entity? index with
  | none => simp [he] at h
  | some e =>
      simp only [he] at h
      cases hp : e.behaviour.dataProvider? with
      | none => simp [hp] at h
      | some provider =>
          simp only [hp] at h
          split_ifs at h
          cases h
          exact ⟨e, rfl, hp, Attributes.dataPath?_ofAttributes _⟩

/-- A load that the host asks for waits until its first move. -/
lemma mem_loads_run {s : Session} {id : String} {provider ticket : Nat}
    (h : s.admitted (.load id) = [provider] ∧ s.tickets = ticket) :
    (⟨ticket, provider, none⟩ : Load) ∈ (s.run [.load id]).loads := by
  rw [run_cons, run_nil]
  rw [(s.accepts_apply (m := .load id) rfl).loads, h.1, h.2]
  simp

/-- A load asks a provider that is neither suppressed nor running. -/
lemma fate_eq_asks {s : Session} {index : Nat} {e : Entity} (he : s.tree.entity? index = some e)
    {provider : DataProvider} (hp : e.behaviour.dataProvider? = some provider)
    (hsuppressed : e.suppressed = false) (hstate : e.state ≠ .running) :
    s.fate index = .asks provider (s.loadRequest e provider) := by
  simp [fate, he, hp, hsuppressed, hstate]

/-- **What is kept of an answer.**  When a `json` provider is asked, the request carries the path
of its attributes with the shortcodes replaced.  Whenever the answer is taken in an open session,
the provider keeps the part that the path of its attributes leads to as they are then, shortcodes
and all.  For every answer this is the part that the request names just if the two paths are the
same, which they are if the path has not been changed since and opens no shortcode. -/
theorem run_narrows (host : Host) (document : Document) (before : List Move) {load : Load}
    {request : DataRequest} {latency : Nat} {answer : Json}
    (hl : load ∈ ((ofDocument host document).run before).loads) (ha : load.answer = none)
    (hfate : ((ofDocument host document).run before).fate load.provider = .asks .json request)
    (htransport : host.transport ((ofDocument host document).run before).requests request
      = (latency, .ok answer)) :
    let s := (ofDocument host document).run before
    let own : Move := .advance (.load load.ticket)
    (s.apply own).requests = s.requests ++ [request]
      ∧ ∃ e, s.tree.entity? load.provider = some e
        ∧ request.attributes.dataPath?
          = (Template.expandAttributes host.catalog { tree := s.tree } e.attributes).dataPath?
        ∧ ∀ after, let u := (s.apply own).run after
          u.closed = false → (∃ other ∈ u.loads, other.ticket = load.ticket) →
          s.clock + latency ≤ u.clock →
          ∃ e', u.tree.entity? load.provider = some e'
            ∧ (u.apply own).payload? load.provider
              = some (answer.narrowed e'.attributes.dataPath?)
            ∧ ((∀ other : Json, other.narrowed e'.attributes.dataPath?
                = other.narrowed request.attributes.dataPath?)
              ↔ e'.attributes.dataPath? = request.attributes.dataPath?)
            ∧ (e'.attributes.lookup "data_path" = e.attributes.lookup "data_path" →
              (∀ text, e.attributes.lookup "data_path" = some (.string text) →
                ¬['[', '['] <:+: text.toList) →
              e'.attributes.dataPath? = request.attributes.dataPath?) := by
  intro s own
  have hn : s.Numbered := numbered_run (numbered_start _ _) before
  have hhost : s.host = host := host_run _ _
  have hanswer : s.host.transport s.requests request = (latency, .ok answer) := by rwa [hhost]
  obtain ⟨hrequests, -, hsole⟩ := apply_of_asks hn hl ha hfate hanswer
  obtain ⟨e, he, hprovider, hpath⟩ := exists_of_fate hfate
  rw [hhost] at hpath
  refine ⟨hrequests, e, he, hpath, ?_⟩
  intro after u hopen hthere harrived
  set asked : Load := { load with answer := some (s.clock + latency, .ok answer) }
  have hstill : u.Sole asked := hsole.run rfl after
  obtain ⟨other, hother, hticket⟩ := hthere
  obtain rfl : other = asked := hstill.eq other hother hticket
  have hstructure : s.tree.SameStructure u.tree :=
    (s.step_apply own).tree.trans (sameStructure_run _ after)
  obtain ⟨e', he', hframe⟩ := hstructure.exists_entity he
  have hbehaviour : e'.behaviour = e.behaviour := (congrArg Entity.behaviour hframe :)
  have hprovider' : e'.behaviour.dataProvider? = some .json := by rw [hbehaviour, hprovider]
  have htakes := takes_apply (p := load.provider) hstill.numbered hopen he'
    (mem_inFlight.mpr ⟨hother, rfl, rfl⟩) rfl harrived
  refine ⟨e', he', ?_, Json.narrowed_inj (Attributes.dataPath?_ne_nil _)
    (Attributes.dataPath?_ne_nil _), fun hsame hfree => ?_⟩
  · rw [payload?, htakes.after]
    show some (keptPayload e' answer) = _
    rw [keptPayload, hprovider']
    exact congrArg some (DataProvider.transform_json _ _)
  · rw [hpath, Attributes.dataPath?_expandAttributes hfree, Attributes.dataPath?_congr hsame]

/-- A provider whose path is a shortcode. -/
def indexed : Document where
  members := [("id", .string "screen"), ("app", .object [("at", .string "items")]),
    ("dataProviders", .array [.object [("id", .string "feed"), ("type", .string "json"),
      ("attributes", .object [("data_path", .string "[[app:at]]")])]])]

/-- A session on it whose transport answers with two items. -/
def answered : Session :=
  let items : Json := .array [.number (.int 1), .number (.int 2)]
  ofDocument (Host.answering 0 (.ok (.object [("items", items)]))) indexed

lemma dataProvider?_answered :
    ((answered.tree.entity? 1).bind fun e => e.behaviour.dataProvider?) = some .json := by
  rfl

/-- The request names the items, and the provider keeps null: it looks for the shortcode itself. -/
theorem run_narrows_indexed :
    let items : Json := .array [.number (.int 1), .number (.int 2)]
    let answer : Json := .object [("items", items)]
    let s := answered.run [.load "feed"]
    let own : Move := .advance (.load 0)
    let load : Load := ⟨0, 1, none⟩
    let request : DataRequest := {
      providerId := "feed", providerType := "json"
      attributes := [("data_path", .string "items")] }
    load ∈ s.loads ∧ load.answer = none ∧ s.fate load.provider = .asks .json request
      ∧ (Host.answering 0 (.ok answer)).transport s.requests request = (0, .ok answer)
      ∧ (s.apply own).requests = s.requests ++ [request]
      ∧ ((s.apply own).apply own).payload? 1 = some .null
      ∧ answer.narrowed request.attributes.dataPath? = items := by
  intro items answer s own load request
  have hadmitted : answered.admitted (.load "feed") = [1] ∧ answered.tickets = 0 := by
    decide +kernel
  have hl : load ∈ s.loads := mem_loads_run hadmitted
  have hfate : s.fate load.provider = .asks .json request := by
    obtain ⟨e, he, hprovider⟩ := Option.bind_eq_some_iff.mp dataProvider?_answered
    obtain ⟨e', he', hframe⟩ := (answered.sameStructure_run [.load "feed"]).exists_entity he
    have hbehaviour : e'.behaviour = e.behaviour := (congrArg Entity.behaviour hframe :)
    have hseen : (s.tree.entity? 1).map (fun e => (e.suppressed, e.state, s.loadRequest e .json))
        = some (false, .idle, request) := by decide +kernel
    rw [he', Option.map_some, Option.some.injEq, Prod.mk.injEq, Prod.mk.injEq] at hseen
    obtain ⟨hsuppressed, hstate, hrequest⟩ := hseen
    rw [← hrequest]
    exact fate_eq_asks he' (by rw [hbehaviour, hprovider]) hsuppressed (by simp [hstate])
  have htransport : (Host.answering 0 (.ok answer)).transport s.requests request
      = (0, .ok answer) := rfl
  obtain ⟨hrequests, e, he, -, hkept⟩ :=
    run_narrows (Host.answering 0 (.ok answer)) indexed [.load "feed"] hl rfl hfate htransport
  obtain ⟨e', he', hpayload, -⟩ := hkept [] (by decide +kernel) (by decide +kernel)
    (by decide +kernel)
  have hpath : (((s.apply own).tree.entity? 1).map fun e => e.attributes.dataPath?)
      = some (some ["[[app:at]]"]) := by decide +kernel
  have hpath' : e'.attributes.dataPath? = some ["[[app:at]]"] := by
    rw [run_nil] at he'
    have hsame : (s.apply own).tree.entity? 1 = some e' := he'
    rw [hsame] at hpath
    exact Option.some.inj hpath
  rw [hpath', run_nil] at hpayload
  exact ⟨hl, rfl, hfate, htransport, hrequests, hpayload, by decide +kernel⟩

end Session

end Componentry
