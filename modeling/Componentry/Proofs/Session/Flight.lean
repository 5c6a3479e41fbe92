import Mathlib.Tactic
import Componentry.Proofs.Session.Provider
/-!
# One load at a time

Loads of a provider are asked for from the host, from actions on any lane and from repeats, and yet
at most one of them is in flight: a load asks its provider only while it is not running, and makes
it run.  `Session.Guarded` is this invariant.  It holds as long as the host does not complete the
provider by hand while a load of it is in flight.

If the host neither begins nor completes it by hand, an open session has more: the provider runs
exactly while a load is in flight (`Session.Attended`), and a load in flight comes to its end once
(`Session.LandsOnce`), with one completion that keeps the payload and settles the provider
(`Session.Lands`).  `Session.run_singleFlight` is the result for runs.
-/

namespace Componentry

/-- Whether the host begins or completes the entity at an index by hand. -/
def Move.isByHand (tree : Tree) (index : Nat) : Move → Bool
  | .begin id | .complete id _ _ => tree.find? id = some index
  | _ => false

namespace Session

/-! ### What a result leaves -/

/-- The state that a result settles its provider into. -/
def stateOf : LoadResult → LifecycleState
  | .ok _ => .finished
  | .error (.failed ..) => .failed
  | .error (.error _) => .error

/-- The payload of an entity after a result: a success leaves its own, a failure the one before. -/
def payloadOf (e : Entity) : LoadResult → Option Json
  | .ok answer => some (keptPayload e answer)
  | .error _ => e.payload

/-- A running entity settles. -/
lemma loaded_of_running {e : Entity} (h : e.state = .running) (result : LoadResult) :
    loaded e result = { e with state := stateOf result, payload := payloadOf e result } := by
  have hsettled : ∀ outcome, e.state.complete? outcome = .ok (.settled outcome) := by
    intro outcome
    rw [h]
    rfl
  simp only [loaded, hsettled]
  cases result with
  | ok answer => rfl
  | error failure => cases failure <;> rfl

/-- An entity that is not running keeps its state, but not its payload. -/
lemma loaded_of_not_running {e : Entity} (h : e.state ≠ .running) (result : LoadResult) :
    loaded e result = { e with payload := payloadOf e result } := by
  have hrefused : ∀ outcome, e.state.complete? outcome = .error ⟨e.state, outcome.name⟩ := by
    intro outcome
    cases hstate : e.state with
    | running => exact absurd hstate h
    | _ => rfl
  simp only [loaded, hrefused]
  cases result <;> rfl

lemma stateOf_ne_running (result : LoadResult) : stateOf result ≠ .running := by
  cases result with
  | ok answer => simp [stateOf]
  | error failure => cases failure <;> simp [stateOf]

/-! ### At most one load in flight -/

/-- At most one load of a provider is in flight, and only while the provider is running. -/
structure Guarded (s : Session) (p : Nat) : Prop where
  length_le : (s.inFlight p).length ≤ 1
  running : s.inFlight p ≠ [] → s.state? p = some .running

section Guarded

variable {s t : Session} {p : Nat} {m : Move}

/-- The load in flight is the only one. -/
lemma Guarded.eq_singleton (h : s.Guarded p) {load : Load} (hl : load ∈ s.inFlight p) :
    s.inFlight p = [load] := by
  have hlen := h.length_le
  cases hf : s.inFlight p with
  | nil => simp [hf] at hl
  | cons first rest =>
      rw [hf, List.length_cons] at hlen
      obtain rfl : rest = [] := List.length_eq_zero_iff.mp (by omega)
      rw [hf, List.mem_singleton] at hl
      rw [hl]

/-- The load in flight leaves nothing in flight behind. -/
lemma Guarded.eq_nil_of_perm (h : s.Guarded p) {load : Load}
    (hperm : (s.inFlight p).Perm (load :: t.inFlight p)) : t.inFlight p = [] := by
  have hlen := hperm.length_eq
  have hle := h.length_le
  rw [List.length_cons] at hlen
  exact List.length_eq_zero_iff.mp (by omega)

lemma Guarded.of_nil (h : s.inFlight p = []) : s.Guarded p := ⟨by simp [h], by simp [h]⟩

lemma Guarded.state_eq (h : s.Guarded p) {e : Entity} (he : s.tree.entity? p = some e)
    (hne : s.inFlight p ≠ []) : e.state = .running := by
  have hrunning := h.running hne
  rwa [state?_of_entity? he, Option.some.injEq] at hrunning

/-- A provider that is not running has no load in flight. -/
lemma Guarded.eq_nil (h : s.Guarded p) {e : Entity} (he : s.tree.entity? p = some e)
    (hstate : e.state ≠ .running) : s.inFlight p = [] := by
  by_contra hne
  exact hstate (h.state_eq he hne)

/-- A move keeps a provider guarded unless the host completes it with a load in flight. -/
lemma Handles.guarded (h : s.Handles p m t) (hg : s.Guarded p)
    (hhand : ∀ id outcome payload, m = .complete id outcome payload →
      s.tree.find? id = some p → s.inFlight p = []) : t.Guarded p := by
  cases h with
  | spared spares =>
      exact ⟨by rw [spares.inFlight]; exact hg.length_le,
        by rw [spares.inFlight, spares.state]; exact hg.running⟩
  | begun id move found e entity state after inFlight =>
      refine .of_nil ?_
      rw [inFlight, hg.eq_nil entity state]
  | completed id outcome payload move found e entity state after inFlight =>
      refine .of_nil ?_
      rw [inFlight, hhand id outcome payload move found]
  | asked load arrival result move e entity state after inFlight =>
      have hlen := inFlight.length_eq
      rw [hg.eq_nil entity state] at hlen
      exact ⟨hlen.le, fun _ => state?_of_entity? after⟩
  | landed load e result move takes => exact .of_nil (hg.eq_nil_of_perm takes.inFlight)
  | dropped load move flies closed entity inFlight => exact .of_nil (hg.eq_nil_of_perm inFlight)

end Guarded

/-! ### Providers that are left to their loads -/

/-- In an open session the provider runs only with a load in flight. -/
structure Attended (s : Session) (p : Nat) : Prop extends s.Guarded p where
  inFlight_ne_nil : s.closed = false → s.state? p = some .running → s.inFlight p ≠ []

section Attended

variable {s t : Session} {p : Nat} {m : Move}

/-- A move keeps a provider attended unless it is one by hand. -/
lemma Handles.attended (h : s.Handles p m t) (ha : s.Attended p)
    (hfree : m.isByHand s.tree p = false) (hclosed : t.closed = false → s.closed = false) :
    t.Attended p := by
  have hhand : ∀ id outcome payload, m = .complete id outcome payload →
      s.tree.find? id ≠ some p := by
    rintro id outcome payload rfl hfound
    simp [Move.isByHand, hfound] at hfree
  refine ⟨h.guarded ha.toGuarded fun id outcome payload hm hfound =>
    absurd hfound (hhand id outcome payload hm), fun hopen hrunning => ?_⟩
  cases h with
  | spared spares =>
      rw [spares.state] at hrunning
      rw [spares.inFlight]
      exact ha.inFlight_ne_nil (hclosed hopen) hrunning
  | begun id move found =>
      subst move
      simp [Move.isByHand, found] at hfree
  | completed id outcome payload move found => exact absurd found (hhand id outcome payload move)
  | asked load arrival result move e entity state after inFlight =>
      intro hnil
      rw [hnil] at inFlight
      exact absurd inFlight.length_eq (by simp)
  | landed load e result move takes =>
      -- The provider was running, and has settled.
      have hbefore := ha.state_eq takes.entity (List.ne_nil_of_mem takes.flies)
      rw [state?_of_entity? takes.after, loaded_of_running hbefore, Option.some.injEq] at hrunning
      exact absurd hrunning (stateOf_ne_running result)
  | dropped load move flies closed =>
      rw [hclosed hopen] at closed
      exact absurd closed (by simp)

/-- The load of a running provider. -/
lemma Attended.running_iff (h : s.Attended p) (hopen : s.closed = false) :
    s.state? p = some .running ↔ (s.inFlight p).length = 1 := by
  constructor
  · intro hrunning
    have hpos := List.length_pos_iff.mpr (h.inFlight_ne_nil hopen hrunning)
    have hle := h.length_le
    omega
  · intro hlen
    exact h.running fun hnil => by simp [hnil] at hlen

end Attended

/-! ### How a load ends -/

/-- A load in flight ends, if it makes its move now: one completion reports its result, the provider
keeps the payload and settles, and nothing is in flight any more. -/
inductive Lands (s : Session) (p : Nat) (load : Load) (c : Completion) : Prop
  | mk (arrival : Nat) (result : LoadResult) (answer : load.answer = some (arrival, result))
      (arrived : arrival ≤ s.clock) (e : Entity) (entity : s.tree.entity? p = some e)
      (running : e.state = .running) (completion : c = Completion.ofLoad p e result)
      (ends : s.ends p (.advance (.load load.ticket)) = [c])
      (posted : ∀ source, s.arrived source (.advance (.load load.ticket))
        = postsTo source (s.messagesOf c))
      (after : (s.apply (.advance (.load load.ticket))).tree.entity? p
        = some { e with state := stateOf result, payload := payloadOf e result })
      (inFlight : (s.apply (.advance (.load load.ticket))).inFlight p = [])

/-- The completions of a provider that the moves of one load bring about along a run. -/
def landings (s : Session) (p ticket : Nat) : List Move → List Completion
  | [] => []
  | m :: moves =>
    (if m = .advance (.load ticket) then s.ends p m else []) ++ (s.apply m).landings p ticket moves

/-- Along a run the moves of a load in flight bring about no completion as long as it is in flight
or when the session is closed first, and otherwise one, by the move that ends it. -/
def LandsOnce (s : Session) (p : Nat) (load : Load) (moves : List Move) : Prop :=
  (s.landings p load.ticket moves = []
      ∧ (load ∈ (s.run moves).inFlight p ∨ (s.run moves).closed = true))
    ∨ ∃ front back c, moves = front ++ .advance (.load load.ticket) :: back
      ∧ (s.run front).Lands p load c ∧ s.landings p load.ticket moves = [c]
      ∧ ∀ other ∈ (s.run moves).loads, other.ticket ≠ load.ticket

section Landing

variable {s : Session} {p : Nat}

/-- A load that can make a move is a ready task. -/
lemma ready_of_load {load : Load} (hl : load ∈ s.loads) (hready : load.isReady s.clock = true) :
    .load load.ticket ∈ s.ready := by
  rw [ready]
  exact List.mem_append_left _ (List.mem_append_right _
    (List.mem_map.mpr ⟨load, List.mem_filter.mpr ⟨hl, hready⟩, rfl⟩))

/-- A load that has ended brings about nothing any more. -/
lemma landings_of_gone {ticket : Nat} (hgone : ∀ other ∈ s.loads, other.ticket ≠ ticket)
    (hlt : ticket < s.tickets) (moves : List Move) :
    s.landings p ticket moves = [] ∧ ∀ other ∈ (s.run moves).loads, other.ticket ≠ ticket := by
  induction moves generalizing s with
  | nil => exact ⟨rfl, hgone⟩
  | cons m moves ih =>
      have hissues := (s.step_apply m).issues
      have hgone' : ∀ other ∈ (s.apply m).loads, other.ticket ≠ ticket := by
        rintro other ho rfl
        obtain ⟨old, hold, heq⟩ := List.mem_map.mp
          (hissues.old _ (List.mem_map_of_mem ho) hlt)
        exact hgone old hold heq
      obtain ⟨hrest, hrun⟩ := ih hgone' (hlt.trans_le hissues.le)
      refine ⟨?_, hrun⟩
      rw [landings, hrest, List.append_nil]
      split_ifs with hm
      · subst hm
        refine ends_eq_nil ?_ p
        have hnone : (s.loads.find? fun load => load.ticket = ticket) = none := by
          simpa using hgone
        simp only [completions, hnone]
      · rfl

/-- A result that is taken while the provider is guarded. -/
lemma Takes.lands {load : Load} {e : Entity} {result : LoadResult}
    (h : s.Takes p load e result (s.apply (.advance (.load load.ticket)))) (hg : s.Guarded p) :
    s.Lands p load (Completion.ofLoad p e result) := by
  obtain ⟨arrival, harrived, ha⟩ := h.answer
  have hrunning := hg.state_eq h.entity (List.ne_nil_of_mem h.flies)
  refine ⟨arrival, result, ha, harrived, e, h.entity, hrunning, rfl, h.ends, fun source => ?_, ?_,
    hg.eq_nil_of_perm h.inFlight⟩
  · have hposted : s.posted (.advance (.load load.ticket))
        = s.postsOf (s.completions (.advance (.load load.ticket))) := by
      simp [posted, h.isOpen]
    rw [arrived_eq, hposted, h.completions]
    simp [postsOf]
  · rw [h.after, loaded_of_running hrunning]

/-- The answer to a load in flight that can make its move. -/
lemma exists_answer {load : Load} (hl : load ∈ s.inFlight p)
    (hready : load.isReady s.clock = true) :
    ∃ arrival result, load.answer = some (arrival, result) ∧ arrival ≤ s.clock := by
  obtain ⟨-, -, hanswer⟩ := mem_inFlight.mp hl
  obtain ⟨⟨arrival, result⟩, ha⟩ := Option.isSome_iff_exists.mp hanswer
  exact ⟨arrival, result, ha, by simpa [Load.isReady, ha] using hready⟩

/-- A load that is in flight lands as soon as it makes a move with its answer there. -/
lemma Orderly.exists_lands (h : s.Orderly) (hp : s.tree.roleAt? p = some .dataProvider)
    (hg : s.Guarded p) (hopen : s.closed = false) {load : Load} (hl : load ∈ s.inFlight p)
    (hready : load.isReady s.clock = true) : ∃ c, s.Lands p load c := by
  obtain ⟨e, he, -⟩ := Option.map_eq_some_iff.mp hp
  obtain ⟨arrival, result, ha, harrived⟩ := exists_answer hl hready
  exact ⟨_, (takes_apply h.numbered hopen he hl ha harrived).lands hg⟩

/-- A closed session brings about nothing. -/
lemma landings_of_closed (hc : s.closed = true) (ticket : Nat) (moves : List Move) :
    s.landings p ticket moves = [] := by
  induction moves generalizing s with
  | nil => rfl
  | cons m moves ih =>
      rw [landings, ih (closed_apply_of_closed hc m), ends, if_pos hc]
      split_ifs <;> rfl

/-- A move before the others that ends nothing. -/
lemma LandsOnce.cons {m : Move} {load : Load} {moves : List Move}
    (h : (s.apply m).LandsOnce p load moves) (hends : s.ends p m = []) :
    s.LandsOnce p load (m :: moves) := by
  have hlandings : s.landings p load.ticket (m :: moves)
      = (s.apply m).landings p load.ticket moves := by
    rw [landings, hends]
    split_ifs <;> rfl
  rw [LandsOnce, hlandings, run_cons]
  rcases h with h | ⟨front, back, c, rfl, hlands, honce, hgone⟩
  · exact .inl h
  · exact .inr ⟨m :: front, back, c, rfl, hlands, honce, hgone⟩

/-- A load whose result is taken first. -/
lemma Takes.landsOnce (hn : s.Numbered) {load : Load} {e : Entity} {result : LoadResult}
    (h : s.Takes p load e result (s.apply (.advance (.load load.ticket)))) (hg : s.Guarded p)
    (moves : List Move) : s.LandsOnce p load (.advance (.load load.ticket) :: moves) := by
  have hlt := hn.lt load (mem_inFlight.mp h.flies).1
  have hissues := (s.step_apply (.advance (.load load.ticket))).issues
  obtain ⟨hnone, hgone⟩ := landings_of_gone h.gone (hlt.trans_le hissues.le) moves (p := p)
  refine .inr ⟨[], moves, _, rfl, h.lands hg, ?_, hgone⟩
  rw [landings, if_pos rfl, h.ends, hnone, List.append_nil]

end Landing

/-! ### Runs -/

lemma isByHand_congr {s t : Session} (h : s.tree.SameStructure t.tree) (p : Nat) (m : Move) :
    m.isByHand t.tree p = m.isByHand s.tree p := by
  cases m <;> simp [Move.isByHand, h.find?_eq]

section Runs

variable {host : Host} {document : Document} {p : Nat}

/-- No load is in flight and nothing runs when a session is opened. -/
lemma attended_ofDocument : (ofDocument host document).Attended p := by
  have hidle := document.build_idle host.catalog host.evaluator host.dispatch
  refine ⟨.of_nil rfl, fun _ hrunning => ?_⟩
  obtain ⟨e, he, hstate⟩ := Option.map_eq_some_iff.mp hrunning
  rw [(hidle p e he).1] at hstate
  cases hstate

/-- A provider that is left to its loads is attended along every run. -/
lemma attended_run (hp : (ofDocument host document).tree.roleAt? p = some .dataProvider)
    {moves : List Move}
    (hfree : ∀ m ∈ moves, m.isByHand (ofDocument host document).tree p = false) :
    ((ofDocument host document).run moves).Attended p := by
  induction moves using List.reverseRecOn with
  | nil => exact attended_ofDocument
  | append_singleton moves m ih =>
      have hattended := ih fun m' hm' => hfree m' (List.mem_append_left _ hm')
      rw [run_append, run_cons, run_nil]
      refine (handles_run hp moves m).attended hattended ?_ fun hopen => ?_
      · rw [isByHand_congr ((ofDocument host document).sameStructure_run moves)]
        exact hfree m (by simp)
      · rw [closed_apply, Bool.or_eq_false_iff] at hopen
        exact hopen.1

/-- A load in flight ends once at most. -/
lemma landsOnce_run (hp : (ofDocument host document).tree.roleAt? p = some .dataProvider)
    {before after : List Move}
    (hfree : ∀ m ∈ before ++ after, m.isByHand (ofDocument host document).tree p = false)
    {load : Load} (hl : load ∈ ((ofDocument host document).run before).inFlight p) :
    ((ofDocument host document).run before).LandsOnce p load after := by
  induction after generalizing before with
  | nil => exact .inl ⟨rfl, .inl hl⟩
  | cons m after ih =>
      have hattended := attended_run hp fun m' hm' => hfree m' (List.mem_append_left _ hm')
      have horderly := orderly_run host document before
      have hhandles := handles_run hp before m
      have hhand : m.isByHand ((ofDocument host document).run before).tree p = false := by
        rw [isByHand_congr ((ofDocument host document).sameStructure_run before)]
        exact hfree m (by simp)
      have hrest : load ∈ (((ofDocument host document).run before).apply m).inFlight p →
          (((ofDocument host document).run before).apply m).LandsOnce p load after := by
        intro hl'
        have h := @ih (before ++ [m]) (by simpa using hfree)
        rw [run_append, run_cons, run_nil] at h
        exact h hl'
      set s := (ofDocument host document).run before
      cases hc : s.closed with
      | true => exact .inl ⟨landings_of_closed hc _ _, .inr (closed_run_of_closed hc _)⟩
      | false =>
          cases hhandles with
          | spared spares ends => exact (hrest (by rw [spares.inFlight]; exact hl)).cons ends
          | begun id move found =>
              subst move
              simp [Move.isByHand, found] at hhand
          | completed id outcome payload move found =>
              subst move
              simp [Move.isByHand, found] at hhand
          | asked other arrival result move e entity state =>
              rw [hattended.eq_nil entity state] at hl
              simp at hl
          | landed other e result move takes =>
              subst move
              have hflies := takes.flies
              rw [hattended.eq_singleton hl, List.mem_singleton] at hflies
              subst hflies
              exact takes.landsOnce horderly.numbered hattended.toGuarded after
          | dropped other move flies closed =>
              rw [hc] at closed
              cases closed

end Runs

/-- **One load at a time.**  If the host neither begins nor completes a provider by hand, at most
one load of it is in flight, and until the session is closed the provider is running exactly then.
A load whose answer has come can make its move, and the move ends it; along any run every load in
flight ends at most once, with one completion. -/
theorem run_singleFlight (host : Host) (document : Document) {p : Nat} {moves : List Move}
    (hp : (ofDocument host document).tree.roleAt? p = some .dataProvider)
    (hfree : ∀ m ∈ moves, m.isByHand (ofDocument host document).tree p = false) :
    (((ofDocument host document).run moves).inFlight p).length ≤ 1
      ∧ (.teardown ∉ moves →
        (((ofDocument host document).run moves).state? p = some .running
            ↔ (((ofDocument host document).run moves).inFlight p).length = 1)
          ∧ ∀ load ∈ ((ofDocument host document).run moves).inFlight p,
            load.isReady ((ofDocument host document).run moves).clock = true →
              .load load.ticket ∈ ((ofDocument host document).run moves).ready
                ∧ ∃ c, ((ofDocument host document).run moves).Lands p load c)
      ∧ ∀ before after, moves = before ++ after →
          ∀ load ∈ ((ofDocument host document).run before).inFlight p,
            ((ofDocument host document).run before).LandsOnce p load after := by
  have hattended := attended_run hp hfree
  refine ⟨hattended.length_le, fun hopen => ?_, ?_⟩
  · have hclosed : ((ofDocument host document).run moves).closed = false := by
      rw [closed_run]
      simpa [ofDocument, start] using hopen
    refine ⟨hattended.running_iff hclosed, fun load hl hready => ⟨?_, ?_⟩⟩
    · exact ready_of_load (mem_inFlight.mp hl).1 hready
    · exact (orderly_run host document moves).exists_lands (roleAt?_run hp moves)
        hattended.toGuarded hclosed hl hready
  · rintro before after rfl load hl
    exact landsOnce_run hp hfree hl

/-- A screen with a data provider. -/
def feed : Document where
  members := [("id", .string "screen"), ("dataProviders",
    .array [.object [("id", .string "feed"), ("type", .string "json")]])]

/-- Of two loads of a provider one is in flight, and it lands. -/
theorem run_singleFlight_feed :
    let opened := ofDocument (Host.answering 0 (.ok (.string "news"))) feed
    let before : List Move :=
      [.load "feed", .load "feed", .advance (.load 0), .advance (.load 1)]
    let after : List Move := [.advance (.load 0)]
    opened.tree.roleAt? 1 = some .dataProvider
      ∧ (∀ m ∈ before ++ after, m.isByHand opened.tree 1 = false)
      ∧ (opened.run before).inFlight 1 ≠ []
      ∧ ((opened.run (before ++ after)).inFlight 1).length ≤ 1
      ∧ ∀ load ∈ (opened.run before).inFlight 1, (opened.run before).LandsOnce 1 load after := by
  intro opened before after
  have hp : opened.tree.roleAt? 1 = some .dataProvider := by decide +kernel
  have hfree : ∀ m ∈ before ++ after, m.isByHand opened.tree 1 = false := by decide +kernel
  have hflight : (opened.run before).inFlight 1 ≠ [] := by
    have hlength : ((opened.run before).inFlight 1).length = 1 := by decide +kernel
    exact List.ne_nil_of_length_pos (by omega)
  obtain ⟨hone, -, honce⟩ := run_singleFlight _ feed hp hfree
  exact ⟨hp, hfree, hflight, hone, honce before after rfl⟩

end Session

end Componentry
