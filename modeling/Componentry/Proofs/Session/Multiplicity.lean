import Mathlib.Tactic
import Componentry.Proofs.Build.Bindings
import Componentry.Proofs.Session.Gates
/-!
# How often an event runs an action

An action is bound to an event as often as its offer names the event (`Makes.count_boundActions`).
A handler map offers each of its actions to one event, and once.  A listed action names its events
itself, in a text that may name one event several times, be it in different spellings: then one
event of the entity runs the action as many times.

`run_multiplicity` says so for all documents and all runs: the actions that an entity binds to an
event are different ones exactly if no action of the entity names the event more than once, and a
delivery of the event runs an admitted action as often as the action names it, and never more often.
-/

namespace Componentry

/-- The action of a fulfilment, once for every time that its offer names an event. -/
def Fulfilment.targets (event : EventName) (o : Fulfilment) : List Nat :=
  match o.action? with
  | some action => List.replicate (o.offer.events.count event) action.index
  | none => []

/-- An action is offered to one event, or it is listed and names its events itself. -/
lemma Declaration.events_of_mem_offers {d : Declaration} {offer : Offer} (h : offer ∈ d.offers) :
    (∃ event, offer.events = [event]) ∨ offer.events = offer.declaration.named := by
  cases d with
  | other => cases h
  | object own providers actions controls handlers =>
      obtain h | h := List.mem_append.mp h
      · left
        cases handlers with
        | absent | trigger _ | malformed => cases h
        | entries bounds =>
            obtain ⟨entry, -, hoffer⟩ := List.mem_flatMap.mp h
            split at hoffer
            · rename_i event _
              obtain ⟨d, -, rfl⟩ := List.mem_map.mp hoffer
              exact ⟨event, rfl⟩
            · cases hoffer
      · right
        cases actions with
        | absent | malformed => cases h
        | items ds =>
            obtain ⟨d, -, rfl⟩ := List.mem_map.mp h
            rfl

namespace Fulfilment

variable {event : EventName} {o : Fulfilment} {os : List Fulfilment} {action : Made}

/-- What a fulfilment binds to an event. -/
lemma filter_bindings (o : Fulfilment) (event : EventName) :
    (o.bindings.filter (fun b => b.event = event)).map Binding.action = o.targets event := by
  rw [bindings, targets]
  cases o.action? with
  | none => rfl
  | some action =>
      dsimp only
      rw [List.filter_map, List.map_map, List.count_eq_length_filter]
      exact List.map_const'

lemma mem_of_mem_targets {i : Nat} (h : i ∈ os.flatMap (targets event)) :
    i ∈ (os.filterMap action?).map Made.index := by
  obtain ⟨o, ho, hi⟩ := List.mem_flatMap.mp h
  rw [targets] at hi
  split at hi
  · rename_i action haction
    rw [List.eq_of_mem_replicate hi]
    exact List.mem_map_of_mem (List.mem_filterMap.mpr ⟨o, ho, haction⟩)
  · cases hi

/-- Where the actions are different ones, each is a target as often as its own offer names the
event. -/
lemma count_targets (hdistinct : ((os.filterMap action?).map Made.index).Nodup) (ho : o ∈ os)
    (haction : o.action? = some action) :
    (os.flatMap (targets event)).count action.index = o.offer.events.count event := by
  induction os with
  | nil => cases ho
  | cons first rest ih =>
      rw [List.flatMap_cons, List.count_append]
      obtain rfl | ho := List.mem_cons.mp ho
      · rw [List.filterMap_cons_some haction, List.map_cons, List.nodup_cons] at hdistinct
        rw [List.count_eq_zero.mpr fun h => hdistinct.1 (mem_of_mem_targets h), targets, haction]
        exact List.count_replicate_self
      · have hrest : ((rest.filterMap action?).map Made.index).Nodup :=
          hdistinct.sublist ((List.Sublist.filterMap _ (List.sublist_cons_self _ _)).map _)
        have hzero : (first.targets event).count action.index = 0 := by
          rw [targets]
          cases hfirst : first.action? with
          | none => rfl
          | some other =>
              rw [List.filterMap_cons_some hfirst, List.map_cons, List.nodup_cons] at hdistinct
              have hne : other.index ≠ action.index := fun heq => hdistinct.1 (heq ▸
                List.mem_map_of_mem (List.mem_filterMap.mpr ⟨o, ho, haction⟩))
              exact List.count_eq_zero.mpr fun h => hne (List.eq_of_mem_replicate h).symm
        rw [hzero, Nat.zero_add]
        exact ih hrest ho

end Fulfilment

namespace Builder

variable {builder : Builder} {document : Document} {m : Made}

lemma Makes.boundActions_eq (h : builder.Makes document m) (event : EventName) :
    (builder.build document).tree.boundActions m.index event
      = (builder.offered m).flatMap (Fulfilment.targets event) := by
  obtain ⟨e, he, -, hbindings⟩ := h.exists_bindings
  rw [Tree.boundActions, he]
  dsimp only
  rw [hbindings, List.filter_flatMap, List.map_flatMap]
  exact List.flatMap_congr fun o _ => o.filter_bindings event

/-- **An action is bound to an event as often as its offer names the event.** -/
lemma Makes.count_boundActions (h : builder.Makes document m) (event : EventName) {o : Fulfilment}
    (ho : o ∈ builder.offered m) {action : Made} (haction : o.action? = some action) :
    ((builder.build document).tree.boundActions m.index event).count action.index
      = o.offer.events.count event := by
  rw [h.boundActions_eq]
  exact Fulfilment.count_targets h.nodup_bound ho haction

/-- The actions that are bound to an event are different ones exactly if no offer of theirs names it
twice. -/
lemma Makes.nodup_boundActions_iff (h : builder.Makes document m) (event : EventName) :
    ((builder.build document).tree.boundActions m.index event).Nodup
      ↔ ∀ o ∈ builder.offered m, o.action?.isSome → o.offer.events.count event ≤ 1 := by
  rw [List.nodup_iff_count_le_one]
  constructor
  · intro hle o ho hsome
    obtain ⟨action, haction⟩ := Option.isSome_iff_exists.mp hsome
    rw [← h.count_boundActions event ho haction]
    exact hle action.index
  · intro hle i
    by_cases hi : i ∈ (builder.build document).tree.boundActions m.index event
    · have hi' := hi
      rw [h.boundActions_eq] at hi'
      obtain ⟨action, haction, rfl⟩ := List.mem_map.mp (Fulfilment.mem_of_mem_targets hi')
      obtain ⟨o, ho, hmade⟩ := List.mem_filterMap.mp haction
      rw [h.count_boundActions event ho hmade]
      exact hle o ho (by rw [hmade]; rfl)
    · rw [List.count_eq_zero.mpr hi]
      exact Nat.zero_le 1

end Builder

namespace Session

variable {s : Session} {source : String} {message : Message} {index : Nat} {e : Entity}

/-- Of an action that a message is about all bindings are admitted, or none. -/
lemma count_admitted (s : Session) (index : Nat) (message : Message) (action : Nat) :
    (((s.boundTo index message).filter (s.admits message.event)).map
        (Firing.mk · message.event)).count ⟨action, message.event⟩
      = if s.admits message.event action ∧ message.only?.all (· = action)
        then (s.tree.boundActions index message.event.name).count action else 0 := by
  have hinj : Function.Injective (Firing.mk · message.event) := fun a b hab =>
    congrArg Firing.action hab
  rw [List.count_map_of_injective _ _ hinj action, boundTo, List.filter_filter]
  split_ifs with hopen
  · exact List.count_filter (by simpa using hopen)
  · rw [List.count_eq_zero, List.mem_filter]
    rintro ⟨-, hmem⟩
    exact hopen (by simpa using hmem)

/-- **An event runs an action as often as the action names it.**  The walk makes all entities of a
session, and an action is bound to an event as often as its offer names the event; that is once in a
handler map, and in an action list as often as the text of the action has it.  The actions that are
bound to an event are different ones exactly if none of those that are made is offered to it twice.
Whenever a lane takes a message about the event, what has been run by then and what is left of the
delivery are together the admitted actions, each as often as it is bound. -/
theorem run_multiplicity (host : Host) (document : Document) :
    let opened := ofDocument host document
    let builder : Builder :=
      { catalog := host.catalog, evaluator := host.evaluator, styles := document.styles
        defaultDelay := 1000 * host.dispatch.defaultDelay }
    (∀ index e, opened.tree.entity? index = some e →
        ∃ m, builder.Makes document m ∧ m.index = index)
      ∧ (∀ m, builder.Makes document m →
        (builder.offered m).map Fulfilment.offer = m.declaration.offers
          ∧ (∀ offer ∈ m.declaration.offers,
            (∃ event, offer.events = [event]) ∨ offer.events = offer.declaration.named)
          ∧ ∀ event,
            (∀ o ∈ builder.offered m, ∀ action ∈ o.action?,
              (opened.tree.boundActions m.index event).count action.index
                = o.offer.events.count event)
            ∧ ((opened.tree.boundActions m.index event).Nodup
              ↔ ∀ o ∈ builder.offered m, o.action?.isSome → o.offer.events.count event ≤ 1))
      ∧ ∀ before source message index e, (opened.run before).Reaches source message index e →
          let s := opened.run before
          let t := s.apply (.advance (.lane source))
          ∀ during, t.Delivers source during → ∀ action,
            (s.runFirings source (.advance (.lane source) :: during)).count ⟨action, message.event⟩
                + ((t.run during).lane source).firingsLeft.count ⟨action, message.event⟩
              = if s.admits message.event action ∧ message.only?.all (· = action)
                then (opened.tree.boundActions index message.event.name).count action else 0 := by
  intro opened builder
  refine ⟨fun index e he => Builder.exists_makes he, fun m hm => ⟨builder.map_offer_offered m,
    fun _ hoffer => Declaration.events_of_mem_offers hoffer,
    fun event => ⟨fun o ho action haction => hm.count_boundActions event ho haction,
      hm.nodup_boundActions_iff event⟩⟩, ?_⟩
  intro before source message index e h s t during hduring action
  have hsound : s.tree.Sound := sound_run (sound_ofDocument host document) before
  have hsourced : s.Sourced :=
    sourced_run (sourced_start host _) (sound_ofDocument host document) before
  have hopen : t.closed = false := by simp [t, closed_apply, h.isOpen, s]
  have hleft := (h.left hsourced).1
  have hrest := (hduring.run_left hopen ((s.step_apply _).tree.sound hsound)
    (hsourced.apply hsound _)).1
  rw [← List.count_append, runFirings, along_cons, List.append_assoc, ← runFirings, hrest, hleft,
    s.count_admitted, (opened.sameStructure_run before).boundActions_eq]

/-- A screen with an action that names one event in two spellings. -/
def twice : Document where
  members := [("id", .string "screen"), ("actions", .array
    [.object [("id", .string "act"), ("on", .string "touch, Touch")]])]

/-- The one action is bound to the one event twice, and a touch runs it twice. -/
theorem run_multiplicity_twice :
    let opened := ofDocument Host.bare twice
    let builder : Builder :=
      { catalog := Host.bare.catalog, evaluator := .standard, styles := twice.styles
        defaultDelay := 0 }
    let s := opened.run [.raise "screen" "touch" none]
    let event : Event := ⟨⟨"touch"⟩, "screen", none⟩
    let during : List Move := [.advance (.lane "screen"), .advance (.lane "screen")]
    (∃ m, builder.Makes twice m ∧ m.index = 0
        ∧ ¬ ∀ o ∈ builder.offered m, o.action?.isSome → o.offer.events.count event.name ≤ 1)
      ∧ opened.tree.boundActions 0 event.name = [1, 1]
      ∧ (∃ e, s.Reaches "screen" (.deliver event) 0 e)
      ∧ (s.apply (.advance (.lane "screen"))).Delivers "screen" during
      ∧ (s.runFirings "screen" (.advance (.lane "screen") :: during)).count ⟨1, event⟩ = 2 := by
  intro opened builder s event during
  obtain ⟨-, hmade, hcount⟩ := run_multiplicity Host.bare twice
  have hbound : opened.tree.boundActions 0 event.name = [1, 1] := by decide +kernel
  obtain ⟨m, hm⟩ := Option.isSome_iff_exists.mp
    (by decide +kernel : (builder.root? twice).isSome)
  obtain ⟨⟨hindex, -⟩, -⟩ := Builder.make?_eq_some hm
  have hindex : m.index = 0 := hindex
  obtain ⟨-, -, hevents⟩ := hmade m (.root hm)
  obtain ⟨-, hnodup⟩ := hevents event.name
  rw [hindex] at hnodup
  obtain ⟨⟨hopen, hidle, hfirst, hfound⟩, hfacts, hadmits, hduring, hover⟩ :
      (s.closed = false ∧ (s.lane "screen").work = none
          ∧ (s.lane "screen").queue.head? = some (.deliver event)
          ∧ s.tree.find? "screen" = some 0)
        ∧ (s.tree.entity? 0).map (fun e => (e.suppressed, e.enabled)) = some (false, none)
        ∧ s.admits event 1 = true
        ∧ (s.apply (.advance (.lane "screen"))).Delivers "screen" during
        ∧ (((s.apply (.advance (.lane "screen"))).run during).lane "screen").work = none := by
    decide +kernel
  obtain ⟨e, he, hof⟩ := Option.map_eq_some_iff.mp hfacts
  obtain ⟨hshown, hgate⟩ : e.suppressed = false ∧ e.enabled = none := by simpa using hof
  have hreaches : s.Reaches "screen" (.deliver event) 0 e :=
    ⟨hopen, hidle, hfirst, hfound, he, hshown, fun _ => by rw [hgate]; rfl⟩
  have htwo := hcount [.raise "screen" "touch" none] "screen" (.deliver event) 0 e hreaches during
    hduring 1
  rw [if_pos ⟨hadmits, rfl⟩, Lane.firingsLeft, hover, Option.toList_none, List.flatMap_nil,
    List.count_nil, Nat.add_zero, Message.event, hbound] at htwo
  refine ⟨⟨m, .root hm, hindex, fun hle => ?_⟩, hbound, ⟨e, hreaches⟩, hduring, htwo⟩
  have hdistinct : (opened.tree.boundActions 0 event.name).Nodup := hnodup.mpr hle
  rw [hbound] at hdistinct
  simp at hdistinct

end Session

end Componentry
