/-
**The state machine (`statemachine.c`).**

`control` is one machine under the calls of its users: states and transitions are added, the machine
is started or restarted, and updated. Its outputs are the calls of the functions that the user gave
it.

* A state is known by its pointer (`Ref`); the records behind the pointers are the memory of the
  machine, and the machine's own finish state is one of them.
* `cvector` belongs to a library outside the repository and is a parameter (`CVector`).
* What the user's functions return in an update is part of its input (`Responses`). They do not
  touch the machine. The calls of the log are left out.
* A failed step is a null pointer that is used.
-/

import Robocon.Lib.Run

namespace Robocon.StateMachine

open Lib

/-! ### The library of vectors -/

/-- The functions of `cvector`, which hold a sequence: `cvector_create` the empty one,
`cvector_pushback` one element more; `cvector_length` and `cvector_at` read it. -/
structure CVector (V : Type → Type) where
  create : {α : Type} → V α
  pushback : {α : Type} → V α → α → V α
  length : {α : Type} → V α → ℕ
  get : {α : Type} → V α → ℕ → Option α
  toList : {α : Type} → V α → List α
  toList_create : ∀ {α : Type}, toList (create : V α) = []
  toList_pushback : ∀ {α : Type} (v : V α) (x : α), toList (pushback v x) = toList v ++ [x]
  length_eq : ∀ {α : Type} (v : V α), length v = (toList v).length
  get_eq : ∀ {α : Type} (v : V α) (i : ℕ), get v i = (toList v)[i]?

/-- Lists are such vectors. -/
def CVector.list : CVector List where
  create := []
  pushback v x := v ++ [x]
  length := List.length
  get v i := v[i]?
  toList v := v
  toList_create := rfl
  toList_pushback _ _ := rfl
  length_eq _ := rfl
  get_eq _ _ := rfl

/-! ### Records -/

/-- A pointer to a state: one of the user's, or the finish state of the machine. -/
inductive Ref
  | user (address : ℕ)
  | finish
  deriving DecidableEq

/-- A pointer to a function. -/
abbrev Function := ℕ

/-- A `const char *`: where the string is, and what it reads. -/
structure Name where
  address : ℕ
  text : String
  deriving DecidableEq

structure Transition where
  trigger : Bool
  target : Ref
  condition : Option Function
  deriving DecidableEq

structure AState (V : Type → Type) where
  entry : Option Function
  excution : Option Function
  exit : Option Function
  name : Name
  transitions : V Transition

/-- `aStateMachine` less its name, with the records of the states. -/
structure AStateMachine (V : Type → Type) where
  states : V Ref
  current : Option Ref
  previous : Option Ref
  started : Bool
  finished : Bool
  memory : Ref → AState V

def stateFinish : ℤ := 2

/-- What the functions return in an update: the current state's `excution`, and the conditions of
its transitions. -/
structure Responses where
  excution : ℤ
  conditions : ℕ → Bool

/-- The calls of the user's functions; a condition is known by its state and its place there. -/
inductive Event
  | entry (s : Ref)
  | excution (s : Ref)
  | exit (s : Ref)
  | condition (s : Ref) (i : ℕ)
  deriving DecidableEq

/-- What the machine is built with. -/
inductive Build
  | addState (s : Ref)
  | addTransition1 (source target : Option Ref) (condition : Option Function)

/-- The calls of the users of the machine. -/
inductive Input
  | build (call : Build)
  | addTransition2 (fromName toName : Name) (condition : Option Function)
  | addTransition3 (source : Option Ref) (toName : Name) (condition : Option Function)
  | addTransition4 (fromName : Name) (target : Option Ref) (condition : Option Function)
  | start (s : Option Ref)
  | restart (s : Option Ref)
  | update (responses : Responses)

/-! ### States and transitions -/

def transitionInit (target : Ref) (condition : Option Function) : Transition where
  trigger := true
  target := target
  condition := condition

section Functions

variable {V : Type → Type} (vec : CVector V)

def aStateInit (name : Name) (excution entry exit : Option Function) : AState V where
  name := name
  excution := excution
  entry := entry
  exit := exit
  transitions := vec.create

namespace AState

/-- The call `s->entry(s)`, unless it is null. -/
def callEntry (s : AState V) (self : Ref) : List Event :=
  if s.entry.isSome then [.entry self] else []

/-- The call `s->excution(s)`, unless it is null. -/
def callExcution (s : AState V) (self : Ref) : List Event :=
  if s.excution.isSome then [.excution self] else []

/-- The call `s->exit(s)`, unless it is null. -/
def callExit (s : AState V) (self : Ref) : List Event :=
  if s.exit.isSome then [.exit self] else []

/-- `aState_addTransition`. -/
def addTransition (s : AState V) (t : Transition) : AState V :=
  { s with transitions := vec.pushback s.transitions t }

end AState

namespace AStateMachine

/-- `aStateMachine_Init`, with the user's states in memory and the string `"finish"` at an
address. -/
def init (memory : Ref → AState V) (address : ℕ) : AStateMachine V where
  states := vec.create
  current := none
  previous := none
  started := false
  finished := false
  memory := Function.update memory .finish (aStateInit vec ⟨address, "finish"⟩ none none none)

variable (sm : AStateMachine V)

/-- `aStateMachine_finish`. -/
def finish : AStateMachine V := { sm with finished := true }

/-- `aStateMachine_convert_state`: names are compared as pointers. -/
def convertState (name : Name) : Option Ref :=
  (List.range (vec.length sm.states)).findSome? fun i =>
    (vec.get sm.states i).bind fun s =>
      if (sm.memory s).name.address = name.address then some s else none

/-- `aStateMachine_addState`. -/
def addState (s : Ref) : AStateMachine V := { sm with states := vec.pushback sm.states s }

/-- The loop of `aStateMachine_addTransition1`. -/
def isAdded (source : Option Ref) : Bool :=
  (List.range (vec.length sm.states)).any fun i => vec.get sm.states i == source

/-- `aStateMachine_addTransition1`. -/
def addTransition1 (source target : Option Ref) (condition : Option Function) : AStateMachine V :=
  let target := target.getD .finish
  match source with
  | none => sm
  | some s =>
    if sm.isAdded vec (some s) then
      let next := (sm.memory s).addTransition vec (transitionInit target condition)
      { sm with memory := Function.update sm.memory s next }
    else sm

/-- `aStateMachine_addTransition2`. -/
def addTransition2 (fromName toName : Name) (condition : Option Function) : AStateMachine V :=
  sm.addTransition1 vec (sm.convertState vec fromName) (sm.convertState vec toName) condition

/-- `aStateMachine_addTransition3`. -/
def addTransition3 (source : Option Ref) (toName : Name) (condition : Option Function) :
    AStateMachine V :=
  sm.addTransition1 vec source (sm.convertState vec toName) condition

/-- `aStateMachine_addTransition4`. -/
def addTransition4 (fromName : Name) (target : Option Ref) (condition : Option Function) :
    AStateMachine V :=
  sm.addTransition1 vec (sm.convertState vec fromName) target condition

/-! ### Starting and updating -/

/-- `aStateMachine_start`. -/
def start (s : Option Ref) : Option (AStateMachine V × List Event) :=
  if sm.started then some (sm, [])
  else s.map fun s =>
    ({ sm with started := true, current := some s, previous := none },
      (sm.memory s).callEntry s)

/-- `aStateMachine_restart`. -/
def restart (s : Option Ref) : Option (AStateMachine V × List Event) :=
  s.map fun s =>
    ({ sm with started := false, finished := false, current := some s, previous := none },
      (sm.memory s).callEntry s)

/-- The transition that an update takes. -/
def take (current : Ref) (t : Transition) : AStateMachine V × List Event :=
  ({ sm with previous := some current, current := some t.target },
    (sm.memory current).callExit current ++ (sm.memory t.target).callEntry t.target)

/-- The loop of `aStateMachine_update`; each of its turns uses one unit of fuel. -/
def scan (conditions : ℕ → Bool) : ℕ → ℕ → AStateMachine V → Option (AStateMachine V × List Event)
  | 0, _, _ => none
  | fuel + 1, i, sm =>
    sm.current.bind fun current =>
      if i < vec.length (sm.memory current).transitions then
        (vec.get (sm.memory current).transitions i).bind fun t =>
          if t.trigger then
            t.condition.bind fun _ =>
              if conditions i then
                let next := sm.take current t
                some (next.1, .condition current i :: next.2)
              else
                (scan conditions fuel (i + 1) sm).map fun next =>
                  (next.1, .condition current i :: next.2)
          else scan conditions fuel (i + 1) sm
      else some (sm, [])

/-- `aStateMachine_update`, without `ASTATE_AUTO_START`. -/
def update (responses : Responses) : Option (AStateMachine V × List Event) :=
  if sm.started = false then some (sm, [])
  else if sm.finished then some (sm, [])
  else
    match sm.current with
    | some current =>
      let s := sm.memory current
      let next := if s.excution.isSome ∧ responses.excution = stateFinish then sm.finish else sm
      (scan vec responses.conditions (vec.length s.transitions + 1) 0 next).map fun last =>
        (last.1, s.callExcution current ++ last.2)
    | none =>
      if sm.started = false then sm.start (vec.get sm.states 0)
      else some (sm, [])

end AStateMachine

/-- A call of `aStateMachine_addState` or `aStateMachine_addTransition1`. -/
def AStateMachine.build (sm : AStateMachine V) : Build → AStateMachine V
  | .addState s => sm.addState vec s
  | .addTransition1 source target condition => sm.addTransition1 vec source target condition

/-- The state machine under its calls. -/
def control : Machine (AStateMachine V) Input Event where
  step sm
    | .build call => some (sm.build vec call, [])
    | .addTransition2 fromName toName condition =>
      some (sm.addTransition2 vec fromName toName condition, [])
    | .addTransition3 source toName condition =>
      some (sm.addTransition3 vec source toName condition, [])
    | .addTransition4 fromName target condition =>
      some (sm.addTransition4 vec fromName target condition, [])
    | .start s => sm.start s
    | .restart s => sm.restart s
    | .update responses => sm.update vec responses

end Functions

end Robocon.StateMachine
