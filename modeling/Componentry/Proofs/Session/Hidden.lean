import Mathlib.Tactic
import Componentry.Proofs.Build.Nesting
import Componentry.Proofs.Build.Visits
import Componentry.Proofs.Session.Serving
import Componentry.Proofs.Session.States
/-!
# What is hidden is inert

An entity is suppressed when it is built, because its gate is not open then or because its parent is
suppressed (`Document.build_explained`).  So whatever is declared below a suppressed control is
suppressed as well (`Tree.Built.isSuppressed_of_ancestor`), and no move changes it.

`Session.Inert` says what this means for a session: nothing that a suppressed entity binds is
planned, executed or repeated, and no load of a suppressed provider asks it.  The events of such an
entity go nowhere because of `Session.Served`: what is served is bound by an entity that is not
suppressed, and an action is bound by one entity only.  Loads are another matter, since any of them
is accepted; it is their first move that finds the provider suppressed.  `run_hidden` is the result
for all runs, and does not depend on who asks.
-/

namespace Componentry

namespace Tree

variable {t u : Tree} {p i : Nat}

/-- Whether an entity binds an action to some event. -/
def Binds (t : Tree) (owner action : Nat) : Prop := ∃ event, action ∈ t.boundActions owner event

lemma SameStructure.suppressed_eq (h : t.SameStructure u) (i : Nat) :
    (u.entity? i).map Entity.suppressed = (t.entity? i).map Entity.suppressed :=
  h.map_eq i Entity.suppressed fun _ => rfl

lemma SameStructure.isSuppressed_iff (h : t.SameStructure u) :
    u.IsSuppressed i ↔ t.IsSuppressed i := by
  rw [IsSuppressed, h.suppressed_eq, IsSuppressed]

lemma SameStructure.fitting (h : t.SameStructure u) (ht : t.Fitting) : u.Fitting := by
  intro i e he
  obtain ⟨e', he', hframe⟩ := h.symm.exists_entity he
  have hfits : e'.frame.Fits := ht i e' he'
  rwa [hframe] at hfits

lemma SameStructure.binds_iff (h : t.SameStructure u) : u.Binds p i ↔ t.Binds p i := by
  simp only [Binds, h.boundActions_eq]

/-- An action is bound by one entity only. -/
lemma Linked.eq_of_binds (h : t.Linked) {owner other action : Nat} (ho : t.Binds owner action)
    (ho' : t.Binds other action) : owner = other := by
  have hparent : ∀ q, t.Binds q action → ∃ e, t.entity? action = some e ∧ e.parent = some q := by
    rintro q ⟨event, hmem⟩
    rw [boundActions] at hmem
    split at hmem
    · simp at hmem
    · rename_i o hq
      obtain ⟨b, hb, rfl⟩ := List.mem_map.mp hmem
      obtain ⟨e, he, -, hp⟩ := h.listed q o hq .action b.action
        (List.mem_map_of_mem (List.mem_of_mem_filter hb))
      exact ⟨e, he, hp (by simp)⟩
  obtain ⟨e, he, hp⟩ := hparent owner ho
  obtain ⟨e', he', hp'⟩ := hparent other ho'
  obtain rfl : e = e' := Option.some.inj (he.symm.trans he')
  exact Option.some.inj (hp.symm.trans hp')

/-- What an event is served with is not bound by a suppressed entity. -/
lemma Linked.not_binds (h : t.Linked) (hp : t.IsSuppressed p) {event : Event} {run : PlannedRun}
    (hserves : t.Serves event run) : ¬ t.Binds p run.action := by
  intro hbinds
  obtain ⟨index, source, e, -, hsource, hopen, hbound, -, -⟩ := hserves
  obtain rfl : index = p := h.eq_of_binds ⟨event.name, hbound⟩ hbinds
  rw [IsSuppressed, hsource, Option.map_some, hopen] at hp
  simp at hp

/-! ### Inheritance -/

/-- Controls and data providers are below controls. -/
lemma Built.roleAt?_parent (h : t.Built) {e : Entity} (he : t.entity? i = some e)
    (hrole : e.role ≠ .action) (hp : e.parent = some p) : t.roleAt? p = some .control := by
  have hroot : t.root ≠ some i := fun hr => by
    rw [(h.orphan_iff he).mpr hr] at hp
    cases hp
  obtain ⟨q, o, hq, ho, hmem⟩ := h.exists_parent he hroot
  obtain rfl : q = p := Option.some.inj (hq.symm.trans hp)
  rw [roleAt?, ho, Option.map_some,
    h.linked.owner q o ho e.role hrole (List.ne_nil_of_mem hmem)]

/-- A control or a provider whose parent is suppressed is suppressed. -/
lemma isSuppressed_of_parent {builder : Builder} {visits : List (Nat × Tree)} {b : Build}
    (h : builder.Explained visits [] b) (hrole : b.tree.roleAt? i ≠ some .action)
    (hparent : b.tree.IsParent p i) (hp : b.tree.IsSuppressed p) : b.tree.IsSuppressed i := by
  obtain ⟨e, he, hep⟩ := hparent
  have hshown : i ∈ b.tree.shown :=
    List.mem_filter.mpr ⟨List.mem_range.mpr (lt_size_iff.mpr ⟨e, he⟩), by simpa using hrole⟩
  rw [← h.visited] at hshown
  obtain ⟨visit, hvisit, rfl⟩ := List.mem_map.mp hshown
  obtain ⟨e', he', hiff⟩ := h.hidden visit hvisit
  obtain rfl : e = e' := Option.some.inj (he.symm.trans he')
  rw [IsSuppressed, he, Option.map_some, Option.some.injEq, hiff]
  exact .inr ⟨p, hep, hp⟩

/-- **Whatever is below a suppressed control is suppressed**, but for the actions, whose own flag is
never set. -/
lemma Built.isSuppressed_of_ancestor {builder : Builder} {visits : List (Nat × Tree)} {b : Build}
    (hb : b.tree.Built) (h : builder.Explained visits [] b) (hp : b.tree.IsSuppressed p)
    (hbelow : Relation.TransGen b.tree.IsParent p i) (hrole : b.tree.roleAt? i ≠ some .action) :
    b.tree.IsSuppressed i := by
  induction hbelow with
  | single hparent => exact isSuppressed_of_parent h hrole hparent hp
  | tail hbelow hparent ih =>
      obtain ⟨e, he, hep⟩ := hparent
      have hparentRole := hb.roleAt?_parent he
        (fun hr => hrole (by rw [roleAt?, he, Option.map_some, hr])) hep
      exact isSuppressed_of_parent h hrole ⟨e, he, hep⟩ (ih (by simp [hparentRole]))

end Tree

namespace Session

variable {s : Session} {t : Tree} {p : Nat}

/-- What is bound to a suppressed entity is not executed. -/
lemma Served.executed_eq_nil (h : s.Served) (hs : s.Sourced) (ht : t.Linked)
    (htree : t.SameStructure s.tree) (hp : t.IsSuppressed p) {action : Nat}
    (hbinds : t.Binds p action) (m : Move) : s.executed action m = [] := by
  by_cases hm : ∃ source, m = .advance (.lane source)
  · obtain ⟨source, rfl⟩ := hm
    have hnone : ∀ c ∈ s.completions (.advance (.lane source)), c.index ≠ action := by
      rintro c hc rfl
      cases hturn : s.turn source with
      | none => simp [completions, hturn] at hc
      | some turn =>
          rw [completions, hturn] at hc
          obtain ⟨event, run, hserves, hrun, -⟩ := h.completion hs hturn hc
          exact ht.not_binds hp (htree.symm.serves hserves) (hrun ▸ hbinds)
    rw [executed]
    split_ifs
    · rfl
    · rw [outcomesOf, List.filter_eq_nil_iff.mpr (by simpa using hnone), List.filterMap_nil]
  · exact executed_of_ne_lane fun source heq => hm ⟨source, heq⟩

/-! ### Loads -/

/-- A load that is there after the move of a load was there before as it is, or its provider is not
suppressed. -/
lemma mem_loads_advanceLoad (hn : s.Numbered) {ticket : Nat} {load : Load}
    (h : load ∈ (s.advanceLoad ticket).loads) :
    load ∈ s.loads ∨ ¬ s.tree.IsSuppressed load.provider := by
  have hdrop : ∀ {u : Session} {ticket' : Nat}, u.loads = s.loads →
      load ∈ (u.dropLoad ticket').loads → load ∈ s.loads := by
    intro u ticket' hloads hmem
    rw [← hloads]
    exact List.mem_of_mem_filter hmem
  rw [advanceLoad] at h
  split at h
  · exact .inl h
  · rename_i found hfind
    have hfound : found ∈ s.loads := List.mem_of_find?_eq_some hfind
    split at h
    · rw [beginLoad] at h
      split at h
      · exact .inl (hdrop rfl h)
      · rename_i e he
        split at h
        · exact .inl (hdrop rfl h)
        · split_ifs at h with hsuppressed
          · exact .inl (hdrop rfl h)
          · exact .inl (hdrop rfl h)
          · obtain ⟨u, arrival, result, -, hloads, -, hask⟩ :=
              exists_ask_eq (s.setState found.provider .running) found.ticket _ _
            rw [hask] at h
            obtain ⟨old, hold, rfl⟩ := List.mem_map.mp h
            rw [hloads] at hold
            split_ifs with hticket
            · -- Loads bear different tickets, so this is the one that asks.
              obtain rfl : old = found := List.inj_on_of_nodup_map hn.nodup hold hfound hticket
              right
              simpa [Tree.IsSuppressed, he] using hsuppressed
            · exact .inl hold
    · split_ifs at h
      · rw [endLoad_loads] at h
        exact .inl (hdrop rfl h)
      · exact .inl h

/-- Along a run a suppressed provider has no load in flight and no payload. -/
lemma unasked_apply (h : s.Orderly) (hrole : s.tree.roleAt? p = some .dataProvider)
    (hp : s.tree.IsSuppressed p) (hnone : s.inFlight p = [] ∧ s.payload? p = none) (m : Move) :
    (s.apply m).inFlight p = [] ∧ (s.apply m).payload? p = none := by
  obtain ⟨hflight, hpayload⟩ := hnone
  have hkept : ∀ {e e' : Entity}, s.tree.entity? p = some e → e'.payload = e.payload →
      (s.apply m).tree.entity? p = some e' → (s.apply m).payload? p = none := by
    intro e e' he heq he'
    rw [payload?, he, Option.bind_some] at hpayload
    rw [payload?, he', Option.bind_some, heq, hpayload]
  have hhandles := handles_apply h hrole m
  have hempty : ∀ ticket, m = .advance (.load ticket) → (s.apply m).inFlight p = [] := by
    rintro ticket rfl
    refine List.eq_nil_iff_forall_not_mem.mpr fun load hload => ?_
    obtain ⟨hmem, rfl, hanswer⟩ := mem_inFlight.mp hload
    obtain hold | hopen := mem_loads_advanceLoad h.numbered hmem
    · have hflies := mem_inFlight.mpr ⟨hold, rfl, hanswer⟩
      rw [hflight] at hflies
      simp at hflies
    · exact hopen hp
  cases hhandles with
  | spared spares => exact ⟨spares.inFlight.trans hflight, spares.payload.trans hpayload⟩
  | begun id move found e entity state after inFlight =>
      exact ⟨inFlight.trans hflight, hkept entity (by rfl) after⟩
  | completed id outcome payload move found e entity state after inFlight =>
      exact ⟨inFlight.trans hflight, hkept entity (by rfl) after⟩
  | asked load arrival result move e entity state after =>
      exact ⟨hempty load.ticket move, hkept entity (by rfl) after⟩
  | landed load e result move takes => exact absurd takes.flies (by simp [hflight])
  | dropped load move flies => exact absurd flies (by simp [hflight])

/-! ### Inert entities -/

/-- An entity that takes no part in a session: nothing that it binds is planned, executed or
repeated, and if it is a data provider, no load asks it. -/
structure Inert (s : Session) (p : Nat) : Prop where
  planned : ∀ source delivery, (s.lane source).work = some delivery →
    ∀ run, .run run ∈ PlannedStep.run delivery.next :: delivery.rest → ¬ s.tree.Binds p run.action
  executed : ∀ action, s.tree.Binds p action → ∀ m, s.executed action m = []
  repeats : ∀ timer ∈ s.ticker.timers, ¬ s.tree.Binds p timer.label.action
  /-- What comes to the entity, an event or one repetition, is dropped. -/
  dropped : ∀ event only, s.tree.find? event.source = some p →
    s.plan event only = some (.dropped .sourceSuppressed)
  /-- A load of the provider has no answer, and its only move records that it is refused. -/
  refused : ∀ load ∈ s.loads, load.provider = p → ∀ e, s.tree.entity? p = some e →
    e.behaviour.dataProvider?.isSome → load.answer = none
      ∧ s.apply (.advance (.load load.ticket))
        = (s.record (loadEvent e.id) none (.skipped .sourceSuppressed)).dropLoad load.ticket
  /-- A move that hands a request to the transport is that of a load of another provider. -/
  requests : ∀ m, (s.apply m).requests = s.requests
    ∨ ∃ load ∈ s.loads, m = .advance (.load load.ticket) ∧ load.provider ≠ p
  payload : s.tree.roleAt? p = some .dataProvider → s.payload? p = none

/-- An event whose source addresses a suppressed entity is dropped. -/
lemma plan_of_suppressed (hp : s.tree.IsSuppressed p) {event : Event} (only : Option Nat)
    (hfind : s.tree.find? event.source = some p) :
    s.plan event only = some (.dropped .sourceSuppressed) := by
  obtain ⟨e, he, hsuppressed⟩ := Option.map_eq_some_iff.mp hp
  simp [plan, hfind, he, dropReason?, hsuppressed]

/-- The first move of a load of a suppressed provider. -/
lemma apply_load_of_suppressed (hn : s.Numbered) {load : Load} (hl : load ∈ s.loads)
    (ha : load.answer = none) {e : Entity} (he : s.tree.entity? load.provider = some e)
    (hprovider : e.behaviour.dataProvider?.isSome) (hsuppressed : e.suppressed = true) :
    s.apply (.advance (.load load.ticket))
      = (s.record (loadEvent e.id) none (.skipped .sourceSuppressed)).dropLoad load.ticket := by
  obtain ⟨provider, hp⟩ := Option.isSome_iff_exists.mp hprovider
  show s.advanceLoad load.ticket = _
  simp only [advanceLoad, hn.find?_eq hl, ha, beginLoad, he, hp, if_pos hsuppressed]

section Runs

variable {host : Host} {document : Document}

/-- A suppressed provider is never asked. -/
lemma unasked_run (hrole : (ofDocument host document).tree.roleAt? p = some .dataProvider)
    (hp : (ofDocument host document).tree.IsSuppressed p) (moves : List Move) :
    ((ofDocument host document).run moves).inFlight p = []
      ∧ ((ofDocument host document).run moves).payload? p = none := by
  induction moves using List.reverseRecOn with
  | nil =>
      have hidle := document.build_idle host.catalog host.evaluator host.dispatch p
      refine ⟨rfl, ?_⟩
      rw [run_nil, payload?]
      cases he : (ofDocument host document).tree.entity? p with
      | none => rfl
      | some e => exact (hidle e he).2
  | append_singleton moves m ih =>
      have htree := (ofDocument host document).sameStructure_run moves
      rw [run_append]
      exact unasked_apply (orderly_run host document moves) (roleAt?_run hrole moves)
        (htree.isSuppressed_iff.mpr hp) ih m

/-- **A suppressed entity is inert** all along a run. -/
lemma inert_run (hp : (ofDocument host document).tree.IsSuppressed p) (moves : List Move) :
    ((ofDocument host document).run moves).Inert p := by
  have hbuilt := document.build_built host.catalog host.evaluator host.dispatch
  have htree := (ofDocument host document).sameStructure_run moves
  have horderly := orderly_run host document moves
  have hsourced := sourced_run (sourced_start _ _) (sound_ofDocument host document) moves
  have hserved : ((ofDocument host document).run moves).Served :=
    served_run (served_start _ _) moves
  have hsuppressed := htree.isSuppressed_iff.mpr hp
  have hfitting := htree.fitting
    (document.build_fitting host.catalog host.evaluator host.dispatch)
  have hfree : ∀ event run, ((ofDocument host document).run moves).tree.Serves event run →
      ¬ ((ofDocument host document).run moves).tree.Binds p run.action := by
    intro event run hserves
    rw [htree.binds_iff]
    exact hbuilt.linked.not_binds hp (htree.symm.serves hserves)
  refine ⟨fun source delivery hwork run hrun => ?_, fun action hbinds m => ?_,
    fun timer htimer => ?_, fun event only => plan_of_suppressed hsuppressed only,
    fun load hload hprovider e he hloads => ?_, fun m => ?_, fun hrole => ?_⟩
  · exact hfree _ run (hserved.work source delivery hwork run hrun)
  · exact hserved.executed_eq_nil hsourced hbuilt.linked htree hp (htree.binds_iff.mp hbinds) m
  · obtain ⟨run, hserves, haction, -⟩ := hserved.timer timer htimer
    exact haction ▸ hfree _ run hserves
  · subst hprovider
    have hflag : e.suppressed = true := by
      rw [Tree.IsSuppressed, he, Option.map_some] at hsuppressed
      exact Option.some.inj hsuppressed
    have hrole : e.role = .dataProvider := (hfitting _ e he).role_eq hloads
    have hroleAt : (ofDocument host document).tree.roleAt? load.provider = some .dataProvider := by
      rw [← htree.roleAt?_eq, Tree.roleAt?, he, Option.map_some, hrole]
    have hanswer : load.answer = none := by
      have hflight := (unasked_run hroleAt hp moves).1
      have hnot : load ∉ ((ofDocument host document).run moves).inFlight load.provider := by
        simp [hflight]
      simpa [mem_inFlight, hload] using hnot
    exact ⟨hanswer, apply_load_of_suppressed horderly.numbered hload hanswer he hloads hflag⟩
  · obtain hkept | ⟨load, hload, hm, -, e, he, hopen⟩ := requests_apply _ m
    · exact .inl hkept
    · refine .inr ⟨load, hload, hm, ?_⟩
      rintro rfl
      rw [Tree.IsSuppressed, he, Option.map_some, hopen] at hsuppressed
      simp at hsuppressed
  · rw [htree.roleAt?_eq] at hrole
    exact (unasked_run hrole hp moves).2

end Runs

/-- **Hidden subtrees are inert.**  The controls and the data providers of a document are visited
once each, when there are only the entities before them; they are suppressed exactly if their gate
is not open then or their parent is suppressed, and so is everything below.  No move changes this,
and whatever moves are made, suppressed entities stay inert. -/
theorem run_hidden (host : Host) (document : Document) (moves : List Move) :
    let opened := ofDocument host document
    let visits := document.visits host.catalog host.evaluator host.dispatch
    let s := opened.run moves
    (visits.map Prod.fst = opened.tree.shown
        ∧ ∀ visit ∈ visits, visit.2.size = visit.1
          ∧ opened.tree.HiddenBy host.evaluator visit.1 visit.2)
      ∧ (∀ p i, opened.tree.IsSuppressed p → Relation.TransGen opened.tree.IsParent p i →
          opened.tree.roleAt? i ≠ some .action → opened.tree.IsSuppressed i)
      ∧ (∀ i, (s.tree.entity? i).map Entity.suppressed
          = (opened.tree.entity? i).map Entity.suppressed)
      ∧ ∀ p, opened.tree.IsSuppressed p → s.Inert p := by
  intro opened visits s
  have hbuilt := document.build_built host.catalog host.evaluator host.dispatch
  have hexplained := document.build_explained host.catalog host.evaluator host.dispatch
  refine ⟨⟨hexplained.visited, fun visit hvisit =>
      ⟨hexplained.size_eq visit hvisit, hexplained.hidden visit hvisit⟩⟩,
    fun p i hp hbelow hrole => hbuilt.isSuppressed_of_ancestor hexplained hp hbelow hrole,
    fun i => (opened.sameStructure_run moves).suppressed_eq i, fun p hp => inert_run hp moves⟩

/-- A screen with a hidden panel, in which a data provider has an action that repeats. -/
def veiled : Document where
  members := [("id", .string "screen"), ("controls", .array [.object [("id", .string "panel"),
    ("if", .bool false), ("dataProviders", .array [.object [("id", .string "feed"),
      ("type", .string "json"), ("actions", .array [.object [("id", .string "again"),
        ("on", .string "success"), ("repeatDelay", .number (.int 5))]])]])]])]

/-- The provider is suppressed with the panel above it: its load is refused and its event dropped. -/
theorem run_hidden_veiled :
    let opened := ofDocument (Host.answering 0 (.ok .null)) veiled
    let moves : List Move := [.load "feed", .raise "feed" "success" none, .advance (.load 0),
      .advance (.lane "feed")]
    let s := opened.run moves
    (opened.tree.IsSuppressed 1 ∧ opened.tree.IsSuppressed 2)
      ∧ s.Inert 2
      ∧ s.journal = [refusedRecord "feed",
        ⟨"feed", EventName.ofLifecycle .success, none, .skipped .sourceSuppressed⟩]
      ∧ s.pending = 0 := by
  intro opened moves s
  have hpanel : opened.tree.IsSuppressed 1 := by
    show (opened.tree.entity? 1).map Entity.suppressed = some true
    decide +kernel
  obtain ⟨-, hinherits, -, hinert⟩ := run_hidden (Host.answering 0 (.ok .null)) veiled moves
  have hparent : opened.tree.IsParent 1 2 := by
    have hfound : (opened.tree.entity? 2).bind Entity.parent = some 1 := by decide +kernel
    exact Option.bind_eq_some_iff.mp hfound
  have hfeed : opened.tree.IsSuppressed 2 :=
    hinherits 1 2 hpanel (.single hparent) (by decide +kernel)
  exact ⟨⟨hpanel, hfeed⟩, hinert 2 hfeed, by decide +kernel, by decide +kernel⟩

end Session

end Componentry
