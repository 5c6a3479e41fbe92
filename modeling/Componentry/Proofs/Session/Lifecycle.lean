import Mathlib.Tactic
import Componentry.Proofs.Session.Blocks
import Componentry.Proofs.Session.Settle
/-!
# Where lifecycle events go

When an execution or a load of the entity at an index has ended, its lifecycle events are put on the
lane of the *id* of the entity.  The lane takes them to the entity that the id addresses, which is
the first one with this id (`Tree.Sound.find?_eq_own_iff`).  So they reach the bindings of the
entity that has ended exactly if no earlier entity has the same id, and this is what happens in a
document without contested ids (`run_lifecycle`).  It does not matter whether a task or the host has
ended it (`completion_isOutcome`).

`lane_completions` says that what a lane ends is what it records as executed or failed.
-/

namespace Componentry

/-- Whether an outcome is that of an action that has run. -/
def Outcome.hasRun : Outcome → Bool
  | .executed | .failed _ => true
  | .delivered _ | .skipped _ => false

/-- The record of an execution and what has ended with it: the same action, and the events of the
same outcome. -/
inductive Tree.Ends (tree : Tree) (record : Record) (c : Completion) : Prop
  | success (action : record.action = tree.idAt? c.index) (outcome : record.outcome = .executed)
      (events : c.events = [(.success, none), (.finished, none)])
  | failure (message : String) (action : record.action = tree.idAt? c.index)
      (outcome : record.outcome = .failed message)
      (events : c.events = [(.failed, some (.object [("message", .string message)]))])

/-- The events of an outcome, and no others. -/
def Completion.IsOutcome (c : Completion) : Prop :=
  c.events.map Prod.fst = [.success, .finished] ∨ c.events.map Prod.fst = [.failed]
    ∨ c.events.map Prod.fst = [.error]

lemma Tree.Ends.isOutcome {tree : Tree} {record : Record} {c : Completion}
    (h : tree.Ends record c) : c.IsOutcome := by
  cases h with
  | success action outcome events => exact .inl (by rw [events]; rfl)
  | failure message action outcome events => exact .inr (.inl (by rw [events]; rfl))

lemma exists_of_mem_right {α β : Type} {R : α → β → Prop} {xs : List α} {ys : List β}
    (h : List.Forall₂ R xs ys) {y : β} (hy : y ∈ ys) : ∃ x ∈ xs, R x y := by
  induction h with
  | nil => simp at hy
  | @cons x y' xs ys hr _ ih =>
      obtain rfl | hy := List.mem_cons.mp hy
      · exact ⟨x, List.mem_cons_self, hr⟩
      · obtain ⟨x', hx', hr'⟩ := ih hy
        exact ⟨x', List.mem_cons_of_mem x hx', hr'⟩

/-- An id addresses an entity that has it, unless an earlier entity has it as well. -/
lemma Tree.Sound.find?_eq_own_iff {tree : Tree} (h : tree.Sound) {index first : Nat} {id : String}
    (hid : tree.idAt? index = some id) (hf : tree.find? id = some first) :
    first = index ↔ ∀ earlier < index, tree.idAt? earlier ≠ some id := by
  constructor
  · rintro rfl earlier hlt hearlier
    obtain ⟨found, hfound, hle⟩ := h.found earlier id hearlier
    rw [hf, Option.some.injEq] at hfound
    omega
  · intro hnone
    have hheld := h.held id first hf
    obtain ⟨found, hfound, hle⟩ := h.found index id hid
    rw [hf, Option.some.injEq] at hfound
    by_contra hne
    exact hnone first (by omega) hheld

namespace Session

variable {s : Session} {tree : Tree}

/-! ### What ends -/

lemma execution_ends (h : tree.SameStructure s.tree) (index : Nat) (event : Event) :
    List.Forall₂ tree.Ends (s.execution index event).records
      (s.execution index event).completions := by
  rw [execution]
  cases he : s.tree.entity? index with
  | none => exact .nil
  | some e =>
      have hid : some e.id = tree.idAt? index := by
        rw [← h.idAt?_eq, Tree.idAt?_of_entity? he]
      refine .cons ?_ .nil
      rw [ending]
      cases (s.carryOut (s.verdict e event)).2 with
      | ok effect => exact .success hid rfl rfl
      | error failure => exact .failure _ hid rfl rfl

lemma execution_hasRun {index : Nat} {event : Event} :
    (s.execution index event).records.filter (fun record => record.outcome.hasRun)
      = (s.execution index event).records := by
  rw [List.filter_eq_self]
  intro record hr
  rw [execution] at hr
  split at hr
  · simp at hr
  · rw [List.mem_singleton.mp hr]
    simp only [executionRecord, ending]
    cases (s.carryOut (s.verdict _ event)).2 <;> rfl

lemma skipRecords_hasRun (event : Event) (steps : List PlannedStep) :
    (skipRecords event steps).filter (fun record => record.outcome.hasRun) = [] := by
  induction steps with
  | nil => rfl
  | cons step rest ih =>
      cases step with
      | run next => rfl
      | skip actionId reason => exact ih

lemma refireEmissions_ends (hc : s.closed = false) (h : tree.SameStructure s.tree) (event : Event)
    (steps : List PlannedStep) :
    List.Forall₂ tree.Ends
      ((s.refireEmissions event steps).records.filter fun record => record.outcome.hasRun)
      (s.refireEmissions event steps).completions := by
  induction steps generalizing s with
  | nil => exact .nil
  | cons step rest ih =>
      have hstep := emits_refireStep hc event step
      have hrest := ih (hstep.closed.trans hc) (h.trans hstep.tree)
      simp only [refireEmissions, Emission.append, List.filter_append]
      refine List.rel_append ?_ hrest
      cases step with
      | run run =>
          have hexec := execution_ends h run.action event
          rw [← execution_hasRun] at hexec
          exact hexec
      | skip actionId reason => exact .nil

/-- What the turn of a lane ends is what it records as executed or failed. -/
lemma turn_ends (hc : s.closed = false) (h : tree.SameStructure s.tree) {source : String}
    {turn : Turn} (hturn : s.turn source = some turn) :
    List.Forall₂ tree.Ends (turn.records.filter fun record => record.outcome.hasRun)
      turn.completions := by
  have ho : tree.SameStructure (s.opened source).tree := by rw [opened_tree]; exact h
  have hco : (s.opened source).closed = false := by rw [opened_closed, hc]
  rw [Session.turn] at hturn
  split at hturn
  · split_ifs at hturn
    cases hturn
    have hexec := execution_ends h (s := s)
    simp only [nextTurn, Emission.append, List.filter_append, skipRecords_hasRun, List.append_nil,
      execution_hasRun]
    exact hexec _ _
  · cases hturn
  · cases hturn
    rw [deliverTurn]
    split
    · exact .nil
    · exact .nil
    · rw [List.filter_cons_of_neg (by simp [Outcome.hasRun]), skipRecords_hasRun]
      exact .nil
  · cases hturn
    rw [refireTurn]
    split
    · exact refireEmissions_ends hco ho _ _
    · exact .nil

/-- **What a lane ends is what it records** as executed or failed, in the same order. -/
theorem lane_completions (hc : s.closed = false) (h : tree.SameStructure s.tree) (source : String) :
    List.Forall₂ tree.Ends
      ((s.written (.advance (.lane source))).filter fun record => record.outcome.hasRun)
      (s.completions (.advance (.lane source))) := by
  rw [written_eq]
  simp only [records, completions, hc, Bool.false_eq_true, if_false]
  cases hturn : s.turn source with
  | none => exact .nil
  | some turn => exact turn_ends hc h hturn

lemma loadCompletion_isOutcome {provider : Nat} {result : LoadResult} {c : Completion}
    (hc : c ∈ s.loadCompletion provider result) : c.IsOutcome := by
  rw [loadCompletion] at hc
  split at hc
  · simp at hc
  · rename_i e _
    rw [List.mem_singleton.mp hc, Completion.IsOutcome, List.map_map]
    cases result with
    | ok answer => exact .inl rfl
    | error failure =>
        cases failure with
        | failed message payload => exact .inr (.inl rfl)
        | error message => exact .inr (.inr rfl)

/-- What a task ends raises the events of one outcome. -/
lemma completion_isOutcome_of_task (hopen : s.closed = false) {task : Task} {c : Completion}
    (hc : c ∈ s.completions (.advance task)) : c.IsOutcome := by
  cases task with
  | lane source =>
      obtain ⟨record, _, hends⟩ :=
        exists_of_mem_right (lane_completions hopen (.refl s.tree) source) hc
      exact hends.isOutcome
  | load ticket =>
      simp only [completions] at hc
      split at hc
      · simp at hc
      · split at hc
        · simp at hc
        · split_ifs at hc
          · exact loadCompletion_isOutcome hc
          · simp at hc
  | timer generation => simp [completions] at hc

/-- What the host ends by hand raises the events of the outcome that it names, which may be
`finished` alone. -/
lemma completion_isOutcome_of_complete {id : String} {outcome : LifecycleEvent}
    {payload : Option Json} {c : Completion}
    (hc : c ∈ s.completions (.complete id outcome payload)) :
    c.IsOutcome ∨ outcome = .finished ∧ c.events = [(.finished, payload)] := by
  simp only [completions] at hc
  split at hc
  · simp at hc
  · split at hc
    · simp at hc
    · rw [List.mem_singleton.mp hc]
      cases outcome with
      | error => exact .inl (.inr (.inr rfl))
      | failed => exact .inl (.inr (.inl rfl))
      | finished => exact .inr ⟨rfl, rfl⟩
      | success => exact .inl (.inl rfl)

/-- What a move ends raises the events of one outcome; only the host can name `finished` as one. -/
lemma completion_isOutcome (hopen : s.closed = false) {m : Move} {c : Completion}
    (hc : c ∈ s.completions m) :
    c.IsOutcome
      ∨ ∃ id payload, m = .complete id .finished payload ∧ c.events = [(.finished, payload)] := by
  cases m with
  | advance task => exact .inl (completion_isOutcome_of_task hopen hc)
  | complete id outcome payload =>
      obtain h | ⟨rfl, h⟩ := completion_isOutcome_of_complete hc
      · exact .inl h
      · exact .inr ⟨id, payload, rfl, h⟩
  | _ => simp [completions] at hc

/-! ### Where the events go -/

/-- A move that ends something posts the events of what it ends. -/
lemma posted_of_completion (hopen : s.closed = false) {m : Move} {c : Completion}
    (hc : c ∈ s.completions m) : s.posted m = s.postsOf (s.completions m) := by
  cases m with
  | dispatch event => simp [completions] at hc
  | raise source name payload => simp [completions] at hc
  | advance task =>
      cases task with
      | timer generation => simp [completions] at hc
      | lane source => simp [posted, hopen]
      | load ticket => simp [posted, hopen]
  | _ => simp [posted, hopen]

/-- The messages of a completion are among those that a move brings to the lane of the id, one after
the other. -/
lemma exists_arrived_eq (hopen : s.closed = false) {m : Move} {c : Completion}
    (hc : c ∈ s.completions m) {e : Entity} (he : s.tree.entity? c.index = some e)
    (hb : e.bindings ≠ []) :
    ∃ front back, s.arrived e.id m = front ++ c.events.map (lifecycleMessage e.id) ++ back := by
  obtain ⟨before, after, hsplit⟩ := List.append_of_mem hc
  have hmessages : postsTo e.id (s.messagesOf c) = c.events.map (lifecycleMessage e.id) := by
    have hown : s.messagesOf c = c.events.map fun event => (e.id, lifecycleMessage e.id event) := by
      rw [messagesOf]
      rw [he]
      dsimp only
      rw [if_neg hb]
    have hall : ∀ post ∈ s.messagesOf c, decide (post.1 = e.id) = true := by
      intro post hpost
      rw [hown] at hpost
      obtain ⟨event, _, rfl⟩ := List.mem_map.mp hpost
      simp
    rw [postsTo, List.filter_eq_self.mpr hall, hown, List.map_map]
    rfl
  refine ⟨postsTo e.id (s.postsOf before), postsTo e.id (s.postsOf after), ?_⟩
  rw [arrived_eq, posted_of_completion hopen hc, hsplit, ← List.singleton_append, postsOf_append,
    postsOf_append, postsTo_append, postsTo_append, ← hmessages, List.append_assoc]
  simp [postsOf]

end Session

/-- The block of an event tells what became of it at the entity that its source addresses. -/
lemma Tree.Block.answers {tree : Tree} {event : Event} {records : List Record} {index : Nat}
    (h : tree.Block (.deliver event) records) (hf : tree.find? event.source = some index) :
    tree.Answers index event records := by
  cases h with
  | delivered event first records found answers =>
      rw [hf, Option.some.injEq] at found
      rw [found]
      exact answers

lemma forall₂_of_map_eq {α β γ : Type} {P : β → Prop} {f : β → γ} {g : α → γ} {xs : List α}
    {ys : List β} (h : ys.map f = xs.map g) (hp : ∀ y ∈ ys, P y) :
    List.Forall₂ (fun x y => f y = g x ∧ P y) xs ys := by
  induction xs generalizing ys with
  | nil =>
      obtain rfl := List.map_eq_nil_iff.mp h
      exact .nil
  | cons x xs ih =>
      obtain ⟨y, ys', rfl, hy, hys⟩ := List.map_eq_cons_iff.mp h
      exact .cons ⟨hy, hp y List.mem_cons_self⟩
        (ih hys fun y' hy' => hp y' (List.mem_cons_of_mem y hy'))

namespace Session

/-- The events of a completion come to the bindings of an entity: among the blocks of the lane of an
id stands one block for each of the events, in order and one after the other, and it tells what
became of the event at that entity. -/
def Reach (opened : Session) (moves : List Move) (id : String) (c : Completion) (index : Nat) :
    Prop :=
  ∃ front own back : List (Message × List Record),
    opened.arrivals id moves = (front ++ own ++ back).map Prod.fst
      ∧ opened.chronicle id moves = ((front ++ own ++ back).map Prod.snd).flatten
      ∧ List.Forall₂ (fun event block => block.1 = lifecycleMessage id event
          ∧ opened.tree.Answers index block.1.event block.2) c.events own

/-- On a lane that has come to rest the messages that have arrived have reached the entity that the
id addresses. -/
lemma reach_of_blocks {opened : Session} {moves : List Move} {id : String} {c : Completion}
    {index : Nat} {lane : Lane} (hidle : lane.IsIdle)
    (hin : ∃ blocks part, opened.tree.InBlocks lane (opened.arrivals id moves)
      (opened.chronicle id moves) blocks part)
    (hf : opened.tree.find? id = some index)
    (harrivals : ∃ front back, opened.arrivals id moves
      = front ++ c.events.map (lifecycleMessage id) ++ back) : opened.Reach moves id c index := by
  obtain ⟨blocks, part, hin⟩ := hin
  obtain ⟨hqueue, hwork⟩ := hidle
  have hpart := hin.part
  rw [hwork] at hpart
  have hmessages : opened.arrivals id moves = blocks.map Prod.fst := by
    simp [hin.arrivals, Lane.current, hqueue, hwork]
  have hrecords : opened.chronicle id moves = (blocks.map Prod.snd).flatten := by
    simp [hin.records, hpart]
  obtain ⟨first, last, hsplit⟩ := harrivals
  rw [hmessages] at hsplit
  obtain ⟨most, back, rfl, hmost, _⟩ := List.map_eq_append_iff.mp hsplit
  obtain ⟨front, own, rfl, _, hown⟩ := List.map_eq_append_iff.mp hmost
  refine ⟨front, own, back, hmessages, hrecords, forall₂_of_map_eq hown fun block hblock => ?_⟩
  have hb := hin.block block (List.mem_append_left _ (List.mem_append_right _ hblock))
  have hmem : block.1 ∈ own.map Prod.fst := List.mem_map_of_mem hblock
  rw [hown] at hmem
  obtain ⟨event, _, hevent⟩ := List.mem_map.mp hmem
  rw [← hevent] at hb ⊢
  exact hb.answers hf

/-- **Where lifecycle events go.**  The events of an execution or a load that has ended, by a task
or by hand, come, each once and in order, to the entity that the id of its entity addresses.  This
is the entity itself exactly if no earlier one has the same id. -/
theorem run_lifecycle (host : Host) (document : Document) {before after : List Move} {m : Move}
    (hopen : .teardown ∉ before ++ m :: after) {c : Completion} {e : Entity}
    (hc : c ∈ ((ofDocument host document).run before).completions m)
    (he : ((ofDocument host document).run before).tree.entity? c.index = some e)
    (hb : e.bindings ≠ []) :
    (c.IsOutcome
        ∨ ∃ id payload, m = .complete id .finished payload ∧ c.events = [(.finished, payload)])
      ∧ ∃ index, (ofDocument host document).tree.find? e.id = some index
      ∧ (index = c.index
        ↔ ∀ earlier < c.index, (ofDocument host document).tree.idAt? earlier ≠ some e.id)
      ∧ ((∀ p ∈ (document.build host.catalog host.evaluator host.dispatch).problems, ∀ id,
          p.fault ≠ .duplicateId id) → index = c.index)
      ∧ ((((ofDocument host document).run (before ++ m :: after)).lane e.id).IsIdle →
          (ofDocument host document).Reach (before ++ m :: after) e.id c index) := by
  set opened := ofDocument host document with hopened
  have hsound : opened.tree.Sound := sound_ofDocument host document
  have hclosed : (opened.run before).closed = false := by
    have hbefore : (.teardown : Move) ∉ before := fun h => hopen (List.mem_append_left _ h)
    rw [closed_run, hopened]
    simpa [ofDocument, start] using hbefore
  have hid : opened.tree.idAt? c.index = some e.id := by
    rw [← (opened.sameStructure_run before).idAt?_eq]
    exact Tree.idAt?_of_entity? he
  obtain ⟨index, hf, _⟩ := hsound.found c.index e.id hid
  refine ⟨completion_isOutcome hclosed hc, index, hf, hsound.find?_eq_own_iff hid hf, ?_, ?_⟩
  · intro hproblems
    have hown := document.build_addressable host.catalog host.evaluator host.dispatch hproblems
      c.index e.id hid
    exact Option.some.inj (hf.symm.trans hown)
  · intro hidle
    have hstart : ∃ blocks part, opened.tree.InBlocks (opened.lane e.id) [] [] blocks part :=
      ⟨[], [], rfl, rfl, by simp, rfl⟩
    have hin := inBlocks_run (.refl _) hsound (sourced_start _ _) hstart rfl hopen
    simp only [List.nil_append] at hin
    refine reach_of_blocks hidle hin hf ?_
    obtain ⟨front, back, harrived⟩ := exists_arrived_eq hclosed hc he hb
    refine ⟨opened.arrivals e.id before ++ front,
      back ++ ((opened.run before).apply m).arrivals e.id after, ?_⟩
    rw [arrivals_append, arrivals, harrived]
    simp

/-- A screen with two actions of one id, each with an action of its own. -/
def twins : Document where
  members := [("id", .string "screen"), ("actions", .array [twin "first", twin "second"])]
where
  twin (own : String) : Json := .object [("id", .string "twin"), ("on", .string "success"),
    ("actions", .array [.object [("id", .string own), ("on", .string "success")]])]

/-- The events of the second twin come to the bindings of the first one. -/
theorem run_lifecycle_twins :
    let before : List Move :=
      [.raise "screen" "success" none, .advance (.lane "screen"), .advance (.lane "screen")]
    let after : List Move := List.replicate 6 (.advance (.lane "twin"))
    (ofDocument Host.bare twins).tree.idAt? 3 = some "twin"
      ∧ (ofDocument Host.bare twins).Reach (before ++ .advance (.lane "screen") :: after) "twin"
          ⟨3, [(.success, none), (.finished, none)]⟩ 1 := by
  intro before after
  have hc : (⟨3, [(.success, none), (.finished, none)]⟩ : Completion)
      ∈ ((ofDocument Host.bare twins).run before).completions (.advance (.lane "screen")) := by
    decide +kernel
  have hid : (((ofDocument Host.bare twins).run before).tree.entity? 3).map Entity.id
      = some "twin" := by decide +kernel
  have hbindings : (((ofDocument Host.bare twins).run before).tree.entity? 3).all
      (fun e => e.bindings ≠ []) = true := by decide +kernel
  obtain ⟨e, he, hname⟩ := Option.map_eq_some_iff.mp hid
  rw [he, Option.all_some, decide_eq_true_eq] at hbindings
  have hopen : (.teardown : Move) ∉ before ++ .advance (.lane "screen") :: after := by decide
  obtain ⟨_, index, hf, _, _, hreach⟩ := run_lifecycle Host.bare twins hopen hc he hbindings
  rw [hname] at hf hreach
  have hfirst : (ofDocument Host.bare twins).tree.find? "twin" = some 1 := by decide +kernel
  rw [hfirst, Option.some.injEq] at hf
  subst hf
  exact ⟨by decide +kernel, hreach ⟨by decide +kernel, by decide +kernel⟩⟩

end Session

end Componentry
