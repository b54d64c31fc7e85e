/-
**Transitions by name (`aStateMachine_addTransition2`, `3` and `4`).**

The three functions turn names into pointers with `aStateMachine_convert_state` and call
`aStateMachine_addTransition1`, which reads a null target as the finish state.

* `convertState_own` — among states with distinct names, the name of an added state gives that
  state.
* `convertState_unknown` — a name that no added state has gives a null pointer.
* `transitions_by_name` — with the names of added states the three functions do what
  `aStateMachine_addTransition1` does with the states. An unknown source changes nothing, and an
  unknown target is the finish state.
-/

import Robocon.StateMachine.LifeCycle

namespace Robocon.StateMachine

open Lib

section Names

variable {V : Type → Type} {vec : CVector V} {sm : AStateMachine V} {strings : ℕ → String}

/-! ### The search for a name -/

/-- The name is a string of the memory `strings`. -/
def Name.Stored (strings : ℕ → String) (name : Name) : Prop := name.text = strings name.address

variable (vec strings) in
/-- The names of the added states are strings of the memory, and they differ as strings. -/
structure Named (sm : AStateMachine V) : Prop where
  stored : ∀ s ∈ vec.toList sm.states, (sm.memory s).name.Stored strings
  distinct : ∀ s ∈ vec.toList sm.states, ∀ t ∈ vec.toList sm.states,
    (sm.memory s).name.text = (sm.memory t).name.text → s = t

/-- The state that the search returns is an added one, at the address of the name. -/
theorem convertState_some {name : Name} {s : Ref} (found : sm.convertState vec name = some s) :
    s ∈ vec.toList sm.states ∧ (sm.memory s).name.address = name.address := by
  obtain ⟨i, -, here⟩ := List.exists_of_findSome?_eq_some found
  obtain ⟨t, read, checked⟩ := Option.bind_eq_some_iff.mp here
  rw [vec.get_eq] at read
  split at checked
  case isTrue same =>
    obtain rfl := Option.some.inj checked
    exact ⟨List.mem_of_getElem? read, same⟩
  case isFalse => cases checked

/-- An added state at the address of the name is enough for the search to return one. -/
theorem convertState_isSome {name : Name} {s : Ref} (added : s ∈ vec.toList sm.states)
    (same : (sm.memory s).name.address = name.address) : (sm.convertState vec name).isSome := by
  obtain ⟨i, bound, here⟩ := List.mem_iff_getElem.mp added
  refine List.findSome?_isSome_iff.mpr ⟨i, ?_, ?_⟩
  · rw [List.mem_range, vec.length_eq]
    exact bound
  · rw [vec.get_eq, List.getElem?_eq_getElem bound, here]
    show (if (sm.memory s).name.address = name.address then some s else none).isSome = true
    rw [if_pos same]
    rfl

/-- **The name of an added state** gives the state. -/
theorem convertState_own (named : Named vec strings sm) {s : Ref}
    (added : s ∈ vec.toList sm.states) : sm.convertState vec (sm.memory s).name = some s := by
  obtain ⟨t, found⟩ := Option.isSome_iff_exists.mp (convertState_isSome added rfl)
  obtain ⟨added', address⟩ := convertState_some found
  have text : (sm.memory t).name.text = (sm.memory s).name.text := by
    rw [named.stored t added', named.stored s added, address]
  rw [found, named.distinct t added' s added text]

/-- **An unknown name** gives a null pointer. -/
theorem convertState_unknown (named : Named vec strings sm) {name : Name}
    (stored : name.Stored strings)
    (unknown : ∀ s ∈ vec.toList sm.states, (sm.memory s).name.text ≠ name.text) :
    sm.convertState vec name = none := by
  refine Option.eq_none_iff_forall_ne_some.mpr fun s found => ?_
  obtain ⟨added, address⟩ := convertState_some found
  refine unknown s added ?_
  rw [named.stored s added, stored, address]

/-! ### The transitions -/

/-- **Transitions by name.** With the names of added states they are the transitions by state. With
an unknown source name nothing changes. An unknown target name leads to the finish state. -/
theorem transitions_by_name (named : Named vec strings sm) (condition : Option Function) :
    (∀ source ∈ vec.toList sm.states, ∀ target ∈ vec.toList sm.states,
      sm.addTransition2 vec (sm.memory source).name (sm.memory target).name condition =
          sm.addTransition1 vec (some source) (some target) condition ∧
        sm.addTransition3 vec (some source) (sm.memory target).name condition =
          sm.addTransition1 vec (some source) (some target) condition ∧
        sm.addTransition4 vec (sm.memory source).name (some target) condition =
          sm.addTransition1 vec (some source) (some target) condition) ∧
    ∀ name : Name, name.Stored strings →
      (∀ s ∈ vec.toList sm.states, (sm.memory s).name.text ≠ name.text) →
      (∀ toName target, sm.addTransition2 vec name toName condition = sm ∧
        sm.addTransition4 vec name target condition = sm) ∧
      ∀ source ∈ vec.toList sm.states,
        sm.addTransition2 vec (sm.memory source).name name condition =
            sm.addTransition1 vec (some source) (some .finish) condition ∧
          sm.addTransition3 vec (some source) name condition =
            sm.addTransition1 vec (some source) (some .finish) condition := by
  refine ⟨fun source added target added' => ?_, fun name stored unknown => ⟨?_, ?_⟩⟩
  · have own := convertState_own named added
    have own' := convertState_own named added'
    refine ⟨?_, ?_, ?_⟩
    · rw [AStateMachine.addTransition2, own, own']
    · rw [AStateMachine.addTransition3, own']
    · rw [AStateMachine.addTransition4, own]
  · intro toName target
    have none := convertState_unknown named stored unknown
    refine ⟨?_, ?_⟩
    · rw [AStateMachine.addTransition2, none]
      rfl
    · rw [AStateMachine.addTransition4, none]
      rfl
  · intro source added
    have none := convertState_unknown named stored unknown
    refine ⟨?_, ?_⟩
    · rw [AStateMachine.addTransition2, convertState_own named added, none]
      rfl
    · rw [AStateMachine.addTransition3, none]
      rfl

end Names

/-! ### Two states -/

/-- The states `"wait"` and `"run"`, both added. -/
def pair : AStateMachine List where
  states := [.user 0, .user 1]
  current := none
  previous := none
  started := false
  finished := false
  memory
    | .user 0 => aStateInit .list ⟨0, "wait"⟩ none none none
    | .user _ => aStateInit .list ⟨8, "run"⟩ none none none
    | .finish => aStateInit .list ⟨16, "finish"⟩ none none none

/-- A memory with the names, a second copy of `"run"`, and the misspelt name `"rum"`. -/
def pairStrings : ℕ → String
  | 0 => "wait"
  | 8 => "run"
  | 24 => "run"
  | 32 => "rum"
  | _ => "finish"

theorem pair_named : Named .list pairStrings pair where
  stored s added := by
    rcases List.mem_cons.mp added with rfl | later
    · rfl
    · rw [List.mem_singleton.mp later]
      rfl
  distinct := by decide

/-- The transition from `"wait"` to `"run"`, with the condition at the address 40. -/
theorem transitions_by_name_pair :
    pair.addTransition2 .list ⟨0, "wait"⟩ ⟨8, "run"⟩ (some 40) =
      pair.addTransition1 .list (some (.user 0)) (some (.user 1)) (some 40) :=
  ((transitions_by_name pair_named (some 40)).1 (.user 0) (by decide) (.user 1) (by decide)).1

/-- **A misspelt target** adds a transition to the finish state, and a second copy of the name of a
state is such a target. -/
theorem misspelt_rewires :
    Named .list pairStrings pair ∧ Name.Stored pairStrings ⟨32, "rum"⟩ ∧
      (∀ s ∈ pair.states, (pair.memory s).name.text ≠ "rum") ∧
      ((pair.addTransition2 .list ⟨0, "wait"⟩ ⟨32, "rum"⟩ (some 40)).memory (.user 0)).transitions ≠
        (pair.memory (.user 0)).transitions ∧
      Name.Stored pairStrings ⟨24, "run"⟩ ∧
      pair.addTransition2 .list ⟨0, "wait"⟩ ⟨24, "run"⟩ (some 40) ≠
        pair.addTransition1 .list (some (.user 0)) (some (.user 1)) (some 40) := by
  refine ⟨pair_named, rfl, by decide, by decide, rfl, fun same => ?_⟩
  have targets := congrArg
    (fun sm => (sm.memory (.user 0)).transitions.map Transition.target) same
  exact absurd targets (by decide)

end Robocon.StateMachine
