/-
**The life cycle of a state machine.**

`Graph.automaton` is what the machine is for: in each update the current state is executed, its
conditions are asked in the order in which they were added until one holds, and the transition of
that one is taken.

* `Graph.ofBuild` — the graph that the calls of `aStateMachine_addState` and
  `aStateMachine_addTransition1` describe.
* `built_shape` — after these calls the memory of the machine is this graph.
* `scan_eq` — the loop of an update finds the first condition that holds.
* `life_cycle` — from the start on, the updates of the machine are those of the automaton.
-/

import Robocon.StateMachine.Control

namespace Robocon.StateMachine

open Lib

/-! ### The automaton -/

/-- Which functions the states have, and the targets of their transitions in order. -/
structure Graph where
  entry : Ref → Bool
  excution : Ref → Bool
  exit : Ref → Bool
  targets : Ref → List Ref

/-- The current state, and the source of the last transition. -/
structure Place where
  current : Ref
  previous : Option Ref
  deriving DecidableEq

namespace Graph

variable (g : Graph)

/-- The call of `entry`, if the state has one. -/
def enters (s : Ref) : List Event := if g.entry s then [.entry s] else []

/-- The call of `excution`, if the state has one. -/
def executes (s : Ref) : List Event := if g.excution s then [.excution s] else []

/-- The call of `exit`, if the state has one. -/
def exits (s : Ref) : List Event := if g.exit s then [.exit s] else []

/-- The first transition whose condition holds: its target and its place. -/
def first (s : Ref) (conditions : ℕ → Bool) : Option (Ref × ℕ) :=
  (g.targets s).zipIdx.find? fun transition => conditions transition.2

/-- The first conditions of a state are asked. -/
def asks (s : Ref) (count : ℕ) : List Event := (List.range count).map (.condition s)

/-- One update. -/
def update (place : Place) (responses : Responses) : Place × List Event :=
  match g.first place.current responses.conditions with
  | none =>
    (place, g.executes place.current ++ asks place.current (g.targets place.current).length)
  | some (target, i) =>
    (⟨target, some place.current⟩,
      g.executes place.current ++ asks place.current (i + 1) ++ g.exits place.current ++
        g.enters target)

/-- The automaton of the graph. -/
def automaton : Machine Place Responses Event where
  step place responses := some (g.update place responses)

end Graph

/-- The targets of the transitions that the calls add to a state, in order. Before the state itself
is added, there are none. -/
def targetsOf (s : Ref) : Bool → List Build → List Ref
  | _, [] => []
  | added, .addState other :: calls => targetsOf s (added || other == s) calls
  | added, .addTransition1 source target _ :: calls =>
    if added ∧ source = some s then target.getD .finish :: targetsOf s added calls
    else targetsOf s added calls

section Machine

variable {V : Type → Type} {vec : CVector V}

/-- The graph that the calls describe. The finish state has no functions. -/
def Graph.ofBuild (memory : Ref → AState V) (calls : List Build) : Graph where
  entry s := s ≠ .finish ∧ (memory s).entry.isSome
  excution s := s ≠ .finish ∧ (memory s).excution.isSome
  exit s := s ≠ .finish ∧ (memory s).exit.isSome
  targets s := targetsOf s false calls

/-- The memory of the machine is the graph, and its transitions can be asked. -/
structure Shape (vec : CVector V) (g : Graph) (sm : AStateMachine V) : Prop where
  entry : ∀ s, (sm.memory s).entry.isSome = g.entry s
  excution : ∀ s, (sm.memory s).excution.isSome = g.excution s
  exit : ∀ s, (sm.memory s).exit.isSome = g.exit s
  targets : ∀ s, (vec.toList (sm.memory s).transitions).map Transition.target = g.targets s
  callable : ∀ s, ∀ t ∈ vec.toList (sm.memory s).transitions,
    t.trigger = true ∧ t.condition.isSome

/-! ### The loop of an update -/

/-- The transition that the loop finds from a place on. -/
def firstFrom (conditions : ℕ → Bool) (i : ℕ) (rest : List Transition) : Option (Transition × ℕ) :=
  (rest.zipIdx i).find? fun transition => conditions transition.2

theorem firstFrom_cons_of_holds {conditions : ℕ → Bool} {i : ℕ} (holds : conditions i = true)
    (t : Transition) (rest : List Transition) :
    firstFrom conditions i (t :: rest) = some (t, i) := by
  rw [firstFrom, List.zipIdx_cons]
  exact List.find?_cons_of_pos holds

theorem firstFrom_cons_of_fails {conditions : ℕ → Bool} {i : ℕ} (fails : ¬ conditions i = true)
    (t : Transition) (rest : List Transition) :
    firstFrom conditions i (t :: rest) = firstFrom conditions (i + 1) rest := by
  rw [firstFrom, List.zipIdx_cons]
  exact List.find?_cons_of_neg fails

theorem le_of_firstFrom {conditions : ℕ → Bool} {i k : ℕ} {rest : List Transition} {t : Transition}
    (found : firstFrom conditions i rest = some (t, k)) : i ≤ k :=
  List.le_snd_of_mem_zipIdx (List.mem_of_find?_eq_some found)

/-- **The loop of an update** asks the conditions in order and takes the transition of the first one
that holds. -/
theorem scan_eq {sm : AStateMachine V} {current : Ref} (here : sm.current = some current)
    (conditions : ℕ → Bool) (rest : List Transition) :
    ∀ (done : List Transition) (fuel : ℕ),
      vec.toList (sm.memory current).transitions = done ++ rest →
      (∀ t ∈ rest, t.trigger = true ∧ t.condition.isSome) → rest.length < fuel →
      AStateMachine.scan vec conditions fuel done.length sm =
        match firstFrom conditions done.length rest with
        | none => some (sm, (List.range' done.length rest.length).map (.condition current))
        | some (t, i) => some ((sm.take current t).1,
            (List.range' done.length (i + 1 - done.length)).map (.condition current) ++
              (sm.take current t).2) := by
  induction rest with
  | nil =>
    intro done fuel split callable enough
    obtain ⟨fuel, rfl⟩ : ∃ more, fuel = more + 1 := ⟨fuel - 1, by omega⟩
    have past : ¬ done.length < vec.length (sm.memory current).transitions := by
      rw [vec.length_eq, split, List.append_nil]
      exact lt_irrefl _
    rw [AStateMachine.scan, here, Option.bind_some, if_neg past]
    rfl
  | cons t rest ih =>
    intro done fuel split callable enough
    obtain ⟨fuel, rfl⟩ : ∃ more, fuel = more + 1 := ⟨fuel - 1, by omega⟩
    obtain ⟨trigger, condition⟩ := callable t List.mem_cons_self
    obtain ⟨condition, set⟩ := Option.isSome_iff_exists.mp condition
    have inside : done.length < vec.length (sm.memory current).transitions := by
      rw [vec.length_eq, split, List.length_append, List.length_cons]
      omega
    have found : vec.get (sm.memory current).transitions done.length = some t := by
      rw [vec.get_eq, split, List.getElem?_append_right le_rfl, Nat.sub_self]
      rfl
    rw [AStateMachine.scan, here, Option.bind_some, if_pos inside, found, Option.bind_some,
      if_pos trigger, set, Option.bind_some]
    by_cases holds : conditions done.length = true
    · have one : done.length + 1 - done.length = 1 := Nat.add_sub_cancel_left _ _
      rw [if_pos holds, firstFrom_cons_of_holds holds]
      simp only [one, List.range'_one, List.map_cons, List.map_nil, List.singleton_append]
    · have later := ih (done ++ [t]) fuel (by rw [split, List.append_assoc]; rfl)
        (fun u member => callable u (List.mem_cons_of_mem t member)) (by simpa using enough)
      rw [List.length_append, List.length_singleton] at later
      rw [if_neg holds, later, firstFrom_cons_of_fails holds]
      cases found : firstFrom conditions (done.length + 1) rest with
      | none => rw [List.length_cons, List.range'_succ]; rfl
      | some last =>
        obtain ⟨u, k⟩ := last
        have bound := le_of_firstFrom found
        have asked : k + 1 - done.length = k + 1 - (done.length + 1) + 1 := by omega
        simp only [asked, List.range'_succ]
        rfl

/-! ### One update -/

/-- The machine is in the graph, at a place. -/
structure Follows (vec : CVector V) (g : Graph) (place : Place) (sm : AStateMachine V) : Prop where
  shape : Shape vec g sm
  started : sm.started = true
  finished : sm.finished = false
  current : sm.current = some place.current
  previous : sm.previous = place.previous

variable {g : Graph} {sm : AStateMachine V} {place : Place}

theorem Shape.first (shape : Shape vec g sm) (s : Ref) (conditions : ℕ → Bool) :
    g.first s conditions = (firstFrom conditions 0 (vec.toList (sm.memory s).transitions)).map
      fun found => (found.1.target, found.2) := by
  rw [Graph.first, ← shape.targets s, List.zipIdx_map, List.find?_map]
  rfl

theorem Shape.callEntry (shape : Shape vec g sm) (s : Ref) :
    (sm.memory s).callEntry s = g.enters s := by
  rw [AState.callEntry, shape.entry s, Graph.enters]

theorem Shape.callExcution (shape : Shape vec g sm) (s : Ref) :
    (sm.memory s).callExcution s = g.executes s := by
  rw [AState.callExcution, shape.excution s, Graph.executes]

theorem Shape.callExit (shape : Shape vec g sm) (s : Ref) :
    (sm.memory s).callExit s = g.exits s := by
  rw [AState.callExit, shape.exit s, Graph.exits]

/-- **One update** of the machine is one of the automaton. -/
theorem Follows.update (follows : Follows vec g place sm) {responses : Responses}
    (goes : responses.excution ≠ stateFinish) :
    ∃ sm', sm.update vec responses = some (sm', (g.update place responses).2) ∧
      Follows vec g (g.update place responses).1 sm' := by
  have shape := follows.shape
  have started : ¬ sm.started = false := by
    rw [follows.started]
    exact Bool.noConfusion
  have finished : ¬ sm.finished = true := by
    rw [follows.finished]
    exact Bool.false_ne_true
  have scanned := scan_eq follows.current responses.conditions
    (vec.toList (sm.memory place.current).transitions) []
    (vec.length (sm.memory place.current).transitions + 1) (List.nil_append _).symm
    (shape.callable place.current) (by rw [vec.length_eq]; exact Nat.lt_succ_self _)
  rw [List.length_nil] at scanned
  have targets : (vec.toList (sm.memory place.current).transitions).length =
      (g.targets place.current).length := by
    rw [← shape.targets, List.length_map]
  unfold AStateMachine.update Graph.update
  rw [if_neg started, if_neg finished, follows.current, shape.first place.current]
  simp only [goes, and_false, if_false, scanned, shape.callExcution]
  cases firstFrom responses.conditions 0 (vec.toList (sm.memory place.current).transitions) with
  | none =>
    refine ⟨sm, ?_, follows⟩
    simp only [Option.map_some, Option.map_none, Graph.asks, List.range_eq_range', targets]
  | some found =>
    obtain ⟨t, i⟩ := found
    refine ⟨(sm.take place.current t).1, ?_, ?_⟩
    · simp only [Option.map_some, AStateMachine.take, shape.callExit, shape.callEntry, Graph.asks,
        List.range_eq_range', Nat.sub_zero, List.append_assoc]
    · exact ⟨⟨shape.entry, shape.excution, shape.exit, shape.targets, shape.callable⟩,
        follows.started, follows.finished, rfl, rfl⟩

/-! ### Building -/

/-- The call adds a state. -/
def Build.adds (s : Ref) : Build → Bool
  | .addState other => other == s
  | .addTransition1 .. => false

/-- The transition that the call adds has a condition. -/
def Build.Callable : Build → Prop
  | .addState _ => True
  | .addTransition1 _ _ condition => condition.isSome

theorem targetsOf_append (s : Ref) (calls more : List Build) : ∀ added : Bool,
    targetsOf s added (calls ++ more) =
      targetsOf s added calls ++ targetsOf s (added || calls.any (Build.adds s)) more := by
  induction calls with
  | nil =>
    intro added
    rw [List.nil_append, List.any_nil, Bool.or_false]
    rfl
  | cons call calls ih =>
    intro added
    cases call with
    | addState other =>
      rw [List.cons_append, targetsOf, targetsOf, ih, List.any_cons, ← Bool.or_assoc]
      rfl
    | addTransition1 source target condition =>
      rw [List.cons_append, targetsOf, targetsOf, ih, List.any_cons]
      split
      · rfl
      · rfl

theorem isAdded_iff (sm : AStateMachine V) (s : Ref) :
    sm.isAdded vec (some s) = true ↔ s ∈ vec.toList sm.states := by
  rw [AStateMachine.isAdded, List.any_eq_true, List.mem_iff_getElem?]
  refine ⟨fun ⟨i, _, here⟩ => ⟨i, ?_⟩, fun ⟨i, here⟩ => ⟨i, ?_, ?_⟩⟩
  · rwa [vec.get_eq, beq_iff_eq] at here
  · rw [List.mem_range, vec.length_eq]
    exact (List.getElem?_eq_some_iff.mp here).1
  · rw [vec.get_eq, beq_iff_eq]
    exact here

/-- One transition more. -/
def Graph.withTransition (g : Graph) (source target : Ref) : Graph :=
  { g with targets := Function.update g.targets source (g.targets source ++ [target]) }

theorem Shape.transition (shape : Shape vec g sm) (source target : Ref)
    {condition : Option Function} (callable : condition.isSome) :
    Shape vec (g.withTransition source target)
      { sm with
        memory := Function.update sm.memory source ((sm.memory source).addTransition vec
          (transitionInit target condition)) } := by
  have unchanged {α : Type} (field : AState V → α)
      (same : ∀ s t, field (s.addTransition vec t) = field s) (s : Ref) :
      field (Function.update sm.memory source ((sm.memory source).addTransition vec
        (transitionInit target condition)) s) = field (sm.memory s) := by
    rw [Function.apply_update fun _ => field, same]
    exact congrFun (Function.update_eq_self source fun s => field (sm.memory s)) s
  refine ⟨fun s => ?_, fun s => ?_, fun s => ?_, fun s => ?_, fun s => ?_⟩
  · exact (unchanged (fun s => s.entry.isSome) (fun _ _ => rfl) s).trans (shape.entry s)
  · exact (unchanged (fun s => s.excution.isSome) (fun _ _ => rfl) s).trans (shape.excution s)
  · exact (unchanged (fun s => s.exit.isSome) (fun _ _ => rfl) s).trans (shape.exit s)
  · simp only [Graph.withTransition]
    by_cases self : s = source
    · rw [self, Function.update_self, Function.update_self, AState.addTransition,
        vec.toList_pushback, List.map_append, shape.targets]
      rfl
    · rw [Function.update_of_ne self, Function.update_of_ne self]
      exact shape.targets s
  · simp only
    by_cases self : s = source
    · rw [self, Function.update_self, AState.addTransition, vec.toList_pushback]
      intro t either
      rcases List.mem_append.mp either with old | last
      · exact shape.callable source t old
      · rw [List.mem_singleton.mp last]
        exact ⟨rfl, callable⟩
    · rw [Function.update_of_ne self]
      exact shape.callable s

theorem addTransition1_of_added {sm : AStateMachine V} {source : Ref}
    (added : source ∈ vec.toList sm.states) (target : Option Ref) (condition : Option Function) :
    sm.addTransition1 vec (some source) target condition =
      { sm with
        memory := Function.update sm.memory source ((sm.memory source).addTransition vec
          (transitionInit (target.getD .finish) condition)) } :=
  if_pos ((isAdded_iff sm source).mpr added)

theorem addTransition1_of_missing {sm : AStateMachine V} {source : Option Ref}
    (missing : ∀ s, source = some s → s ∉ vec.toList sm.states) (target : Option Ref)
    (condition : Option Function) : sm.addTransition1 vec source target condition = sm := by
  cases source with
  | none => rfl
  | some s => exact if_neg fun added => missing s rfl ((isAdded_iff sm s).mp added)

/-- Only the source of a transition gets it, once it is added. -/
theorem targetsOf_transition (s : Ref) (added : Bool) (source target : Option Ref)
    (condition : Option Function) :
    targetsOf s added [.addTransition1 source target condition] =
      if added ∧ source = some s then [target.getD .finish] else [] := rfl

/-- The machine after the calls. -/
structure Built (vec : CVector V) (memory : Ref → AState V) (calls : List Build)
    (sm : AStateMachine V) : Prop where
  shape : Shape vec (Graph.ofBuild memory calls) sm
  states : ∀ s, s ∈ vec.toList sm.states ↔ calls.any (Build.adds s) = true
  started : sm.started = false
  finished : sm.finished = false

/-- `aStateMachine_Init`, over states that `aState_Init` has set up. -/
theorem built_init {memory : Ref → AState V}
    (fresh : ∀ s, ∃ name excution entry exit, memory s = aStateInit vec name excution entry exit)
    (address : ℕ) : Built vec memory [] (.init vec memory address) := by
  have finish : (AStateMachine.init vec memory address).memory .finish =
      aStateInit vec ⟨address, "finish"⟩ none none none := by
    show Function.update memory .finish _ .finish = _
    exact Function.update_self _ _ _
  have other (s : Ref) (apart : s ≠ .finish) :
      (AStateMachine.init vec memory address).memory s = memory s :=
    Function.update_of_ne apart _ _
  have called (field : AState V → Bool)
      (none : field (aStateInit vec ⟨address, "finish"⟩ none none none) = false) (s : Ref) :
      field ((AStateMachine.init vec memory address).memory s) =
        decide (s ≠ .finish ∧ field (memory s)) := by
    by_cases apart : s = .finish
    · rw [apart, finish, none]
      simp
    · rw [other s apart]
      simp [apart]
  have empty (s : Ref) :
      vec.toList ((AStateMachine.init vec memory address).memory s).transitions = [] := by
    by_cases apart : s = .finish
    · rw [apart, finish]
      exact vec.toList_create
    · obtain ⟨name, excution, entry, exit, set⟩ := fresh s
      rw [other s apart, set]
      exact vec.toList_create
  refine ⟨⟨fun s => ?_, fun s => ?_, fun s => ?_, fun s => ?_, fun s t member => ?_⟩, fun s => ?_,
    rfl, rfl⟩
  · exact called (fun state => state.entry.isSome) rfl s
  · exact called (fun state => state.excution.isSome) rfl s
  · exact called (fun state => state.exit.isSome) rfl s
  · rw [empty s]
    rfl
  · rw [empty s] at member
    cases member
  · rw [show vec.toList (AStateMachine.init vec memory address).states = [] from vec.toList_create]
    simp

theorem ofBuild_targets (memory : Ref → AState V) (calls : List Build) (call : Build) (s : Ref) :
    (Graph.ofBuild memory (calls ++ [call])).targets s =
      (Graph.ofBuild memory calls).targets s ++ targetsOf s (calls.any (Build.adds s)) [call] :=
  targetsOf_append s calls [call] false

section Next

variable {memory : Ref → AState V} {calls : List Build}

theorem Built.addState (built : Built vec memory calls sm) (other : Ref) :
    Built vec memory (calls ++ [.addState other]) (sm.addState vec other) := by
  have shape := built.shape
  refine ⟨⟨shape.entry, shape.excution, shape.exit, fun s => ?_, shape.callable⟩, fun s => ?_,
    built.started, built.finished⟩
  · rw [ofBuild_targets]
    exact (shape.targets s).trans (List.append_nil _).symm
  · show s ∈ vec.toList (vec.pushback sm.states other) ↔ _
    rw [vec.toList_pushback, List.mem_append, List.mem_singleton, built.states, List.any_append,
      Bool.or_eq_true, List.any_cons, List.any_nil, Bool.or_false, Build.adds, beq_iff_eq]
    exact or_congr_right eq_comm

/-- A transition from a state that has been added. -/
theorem ofBuild_withTransition {source : Ref} (added : calls.any (Build.adds source) = true)
    (target : Option Ref) (condition : Option Function) :
    Graph.ofBuild memory (calls ++ [.addTransition1 (some source) target condition]) =
      (Graph.ofBuild memory calls).withTransition source (target.getD .finish) := by
  rw [Graph.withTransition, Graph.ofBuild, Graph.mk.injEq]
  refine ⟨rfl, rfl, rfl, funext fun s => ?_⟩
  refine (ofBuild_targets memory calls _ s).trans ?_
  rw [targetsOf_transition]
  by_cases self : s = source
  · rw [self, if_pos ⟨added, rfl⟩, Function.update_self]
  · rw [if_neg fun both => self (Option.some.inj both.2).symm, List.append_nil,
      Function.update_of_ne self]

theorem Built.addTransition1 (built : Built vec memory calls sm) (source target : Option Ref)
    {condition : Option Function} (callable : condition.isSome) :
    Built vec memory (calls ++ [.addTransition1 source target condition])
      (sm.addTransition1 vec source target condition) := by
  have shape := built.shape
  have states (s : Ref) : s ∈ vec.toList sm.states ↔
      (calls ++ [Build.addTransition1 source target condition]).any (Build.adds s) = true := by
    rw [built.states, List.any_append, List.any_cons, List.any_nil, Build.adds, Bool.or_false,
      Bool.or_false]
  by_cases goes : ∃ s, source = some s ∧ s ∈ vec.toList sm.states
  · obtain ⟨source, rfl, member⟩ := goes
    have graph : Graph.ofBuild memory _ = _ :=
      ofBuild_withTransition ((built.states source).mp member) target condition
    rw [addTransition1_of_added member]
    exact ⟨graph ▸ shape.transition source _ callable, states, built.started, built.finished⟩
  · rw [addTransition1_of_missing fun s here member => goes ⟨s, here, member⟩]
    refine ⟨⟨shape.entry, shape.excution, shape.exit, fun s => ?_, shape.callable⟩, states,
      built.started, built.finished⟩
    rw [ofBuild_targets, targetsOf_transition, if_neg, List.append_nil]
    · exact shape.targets s
    · rintro ⟨added, rfl⟩
      exact goes ⟨s, rfl, (built.states s).mpr added⟩

/-- **One more call** goes into the graph. -/
theorem Built.next (built : Built vec memory calls sm) {call : Build} (callable : call.Callable) :
    Built vec memory (calls ++ [call]) (sm.build vec call) := by
  cases call with
  | addState other => exact built.addState other
  | addTransition1 source target condition => exact built.addTransition1 source target callable

end Next

theorem built_run {memory : Ref → AState V}
    (fresh : ∀ s, ∃ name excution entry exit, memory s = aStateInit vec name excution entry exit)
    (address : ℕ) {calls : List Build} (callable : ∀ call ∈ calls, call.Callable) :
    ∃ sm, (control vec).Run (.init vec memory address) (calls.map .build) [] sm ∧
      Built vec memory calls sm := by
  induction calls using List.reverseRecOn with
  | nil => exact ⟨_, .nil _, built_init fresh address⟩
  | append_singleton calls call ih =>
    obtain ⟨sm, run, built⟩ := ih fun other member =>
      callable other (List.mem_append_left [call] member)
    have last := callable call (List.mem_append_right calls (List.mem_singleton_self call))
    have step : (control vec).Run sm [.build call] [] (sm.build vec call) := .single trivial rfl
    refine ⟨sm.build vec call, ?_, built.next last⟩
    rw [List.map_append, List.map_singleton]
    exact run.append step

/-! ### Runs -/

theorem Follows.forward {place : Place} {sm : AStateMachine V} (follows : Follows vec g place sm)
    {responses : Responses} (goes : responses.excution ≠ stateFinish) :
    ∃ sm' place' output, (control vec).step sm (.update responses) = some (sm', output) ∧
      g.automaton.step place responses = some (place', output) ∧ Follows vec g place' sm' := by
  obtain ⟨sm', step, last⟩ := follows.update goes
  exact ⟨sm', (g.update place responses).1, _, step, rfl, last⟩

/-- **The life cycle.** A machine that is built from initialised states and then started makes
exactly the calls of the automaton, for any number of updates, and its `current` and `previous` are
the automaton's. -/
theorem life_cycle {memory : Ref → AState V}
    (fresh : ∀ s, ∃ name excution entry exit, memory s = aStateInit vec name excution entry exit)
    (address : ℕ) {calls : List Build} (callable : ∀ call ∈ calls, call.Callable) (s₀ : Ref)
    {responses : List Responses} (goes : ∀ r ∈ responses, r.excution ≠ stateFinish) :
    ∃ outs place sm,
      (Graph.ofBuild memory calls).automaton.Run ⟨s₀, none⟩ responses outs place ∧
        (control vec).Run (.init vec memory address)
          (calls.map .build ++ .start (some s₀) :: responses.map .update)
          ((Graph.ofBuild memory calls).enters s₀ ++ outs) sm ∧
        sm.current = some place.current ∧ sm.previous = place.previous := by
  obtain ⟨sm, building, built⟩ := built_run fresh address callable
  have unstarted : ¬ sm.started = true := by
    rw [built.started]
    exact Bool.false_ne_true
  have start : (control vec).step sm (.start (some s₀)) =
      some ({ sm with started := true, current := some s₀, previous := none },
        (Graph.ofBuild memory calls).enters s₀) := by
    show sm.start (some s₀) = _
    rw [AStateMachine.start, if_neg unstarted, Option.map_some, built.shape.callEntry]
  have follows : Follows vec (Graph.ofBuild memory calls) ⟨s₀, none⟩
      { sm with started := true, current := some s₀, previous := none } :=
    ⟨⟨built.shape.entry, built.shape.excution, built.shape.exit, built.shape.targets,
      built.shape.callable⟩, rfl, built.finished, rfl, rfl⟩
  obtain ⟨outs, last, place, concrete, abstract, ends⟩ := Machine.Run.forward
    (fun sm place => Follows vec (Graph.ofBuild memory calls) place sm)
    (fun responses => responses.excution ≠ stateFinish) Input.update
    (fun sm place responses follows goes => follows.forward goes) responses follows goes
  exact ⟨outs, place, last, abstract, building.append (.cons trivial start concrete), ends.current,
    ends.previous⟩

end Machine

/-! ### Two states -/

/-- Two states, each without some of its functions. -/
def twoStates : Ref → AState List
  | .user 0 => aStateInit .list ⟨0, "idle"⟩ none none (some 1)
  | _ => aStateInit .list ⟨5, "run"⟩ (some 2) (some 3) none

/-- A self loop before a transition to the other state, from which one goes to the finish state. -/
def twoStatesCalls : List Build :=
  [.addState (.user 0), .addState (.user 1),
    .addTransition1 (some (.user 0)) (some (.user 0)) (some 4),
    .addTransition1 (some (.user 0)) (some (.user 1)) (some 5),
    .addTransition1 (some (.user 1)) none (some 6)]

/-- Both conditions hold, then the second only, then none, then the first. -/
def twoStatesResponses : List Responses :=
  [⟨0, fun _ => true⟩, ⟨0, fun i => i = 1⟩, ⟨0, fun _ => false⟩, ⟨0, fun i => i = 0⟩]

theorem life_cycle_two_states :
    ∃ sm, (control CVector.list).Run (.init .list twoStates 10)
        (twoStatesCalls.map .build ++ .start (some (.user 0)) :: twoStatesResponses.map .update)
        [.condition (.user 0) 0, .exit (.user 0),
          .condition (.user 0) 0, .condition (.user 0) 1, .exit (.user 0), .entry (.user 1),
          .excution (.user 1), .condition (.user 1) 0,
          .excution (.user 1), .condition (.user 1) 0] sm ∧
      sm.current = some .finish ∧ sm.previous = some (.user 1) := by
  have fresh (s : Ref) : ∃ name excution entry exit,
      twoStates s = aStateInit .list name excution entry exit := by
    unfold twoStates
    split
    · exact ⟨_, _, _, _, rfl⟩
    · exact ⟨_, _, _, _, rfl⟩
  have callable : ∀ call ∈ twoStatesCalls, call.Callable := by
    simp [twoStatesCalls, Build.Callable]
  have goes : ∀ r ∈ twoStatesResponses, r.excution ≠ stateFinish := by
    simp [twoStatesResponses, stateFinish]
  obtain ⟨outs, place, sm, abstract, concrete, current, previous⟩ :=
    life_cycle fresh 10 callable (.user 0) goes
  obtain ⟨outs', place', run, checked⟩ := Machine.exists_run
    (Graph.ofBuild twoStates twoStatesCalls).automaton (fun _ _ => True) ⟨.user 0, none⟩
    twoStatesResponses (fun place outs => place = ⟨.finish, some (.user 1)⟩ ∧ outs =
      [.condition (.user 0) 0, .exit (.user 0),
        .condition (.user 0) 0, .condition (.user 0) 1, .exit (.user 0), .entry (.user 1),
        .excution (.user 1), .condition (.user 1) 0,
        .excution (.user 1), .condition (.user 1) 0]) (by decide +kernel)
  obtain ⟨rfl, rfl⟩ := abstract.unique run
  obtain ⟨rfl, rfl⟩ := of_decide_eq_true checked
  exact ⟨sm, concrete, current, previous⟩

end Robocon.StateMachine
