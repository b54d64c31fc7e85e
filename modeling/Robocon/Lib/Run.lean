/-
**Runs of a step function that may fail.**

A `Machine` reads one input at a time. A step either fails, which stands for undefined behaviour or
for a loop that never ends, or moves to a next state and emits observations (calls out of the
modelled code, frames on a wire, return codes).

* `step_unique`, `forall_step_iff` — a step has one result.
* `RunOn guard` — the runs each of whose steps meets `guard`, a condition on the state before the
  step and on the input. `Run` is the unguarded case.
* `RunOn.invariant`, `RunOn.history` — what each guarded step preserves holds after every guarded
  run; the second form lets the invariant read the inputs so far.
* `RunOn.trace` — the same with the outputs so far.
* `RunOn.guard_iff_of_invariant` — guards that agree on the steps that succeed from invariant states
  have the same runs.
* `RunOn.outputs` — what every output of a step satisfies, every output of a run satisfies;
  `RunOn.outputs_iff` is the exact form.
* `RunOn.agree_iff_of_met`, `RunOn.agree_iff` — guards that agree on the steps of a run are met by
  it together.
* `RunOn.stream` — a machine whose every step gives the answer to the inputs so far gives the
  answers in order.
* `RunOn.simulates` — runs whose steps an abstract machine can follow, it can follow.
* `RunOn.component` — a component runs on what the outputs say that it is given.
* `Run.lockstep` — two runs whose inputs are pairwise related stay related, with related outputs.
* `Run.follows`, `Run.bisimilar` — a machine whose steps another one follows; machines that fail
  together and have the same outputs have the same runs.
* `Run.line` — items that each lead from idle to idle may follow one another.
* `Run.progress` — a machine that never fails from an invariant state runs on any inputs.
* `exec`, `exists_run` — the executable run, so that a concrete run can be evaluated.
-/

import Mathlib

namespace Robocon.Lib

/-- A machine: from a state and an input, a next state and the observations of the step. -/
structure Machine (State Input Output : Type*) where
  step : State → Input → Option (State × List Output)

namespace Machine

variable {State Input Output : Type*} (machine : Machine State Input Output)

/-- The runs of a machine each of whose steps meets `guard`. -/
inductive RunOn (guard : State → Input → Prop) :
    State → List Input → List Output → State → Prop
  | nil (state : State) : RunOn guard state [] [] state
  | cons {state middle final : State} {input : Input} {inputs : List Input}
      {output outputs : List Output} (meets : guard state input)
      (step : machine.step state input = some (middle, output))
      (rest : RunOn guard middle inputs outputs final) :
      RunOn guard state (input :: inputs) (output ++ outputs) final

/-- The runs of a machine. -/
abbrev Run : State → List Input → List Output → State → Prop :=
  machine.RunOn fun _ _ => True

variable {machine} {guard : State → Input → Prop}

theorem step_unique {state next next' : State} {input : Input} {output output' : List Output}
    (step : machine.step state input = some (next, output))
    (step' : machine.step state input = some (next', output')) :
    next = next' ∧ output = output' :=
  Prod.mk.inj (Option.some.inj (step.symm.trans step'))

/-- What is asked of every result of a step is asked of the only one. -/
theorem forall_step_iff {Good : State → List Output → Prop} {state next : State} {input : Input}
    {output : List Output} (step : machine.step state input = some (next, output)) :
    (∀ next' output', machine.step state input = some (next', output') → Good next' output') ↔
      Good next output := by
  refine ⟨fun all => all next output step, fun good next' output' step' => ?_⟩
  obtain ⟨rfl, rfl⟩ := step_unique step step'
  exact good

namespace RunOn

/-- A run under a guard is a run under any weaker guard. -/
theorem weaken {weaker : State → Input → Prop}
    (implies : ∀ state input, guard state input → weaker state input) {state final : State}
    {inputs : List Input} {outputs : List Output}
    (run : machine.RunOn guard state inputs outputs final) :
    machine.RunOn weaker state inputs outputs final := by
  induction run with
  | nil state => exact .nil state
  | cons meets step _ ih => exact .cons (implies _ _ meets) step ih

/-- **The exact guard rule.** Two guards that agree on every step that succeeds from an invariant
state have the same runs from there. -/
theorem guard_iff_of_invariant {strict : State → Input → Prop} (Inv : State → Prop)
    (kept : ∀ state input next output, Inv state →
      machine.step state input = some (next, output) → Inv next)
    (agree : ∀ state input next output, Inv state →
      machine.step state input = some (next, output) → (guard state input ↔ strict state input))
    {state final : State} {inputs : List Input} {outputs : List Output} (start : Inv state) :
    machine.RunOn guard state inputs outputs final ↔
      machine.RunOn strict state inputs outputs final := by
  refine ⟨fun run => ?_, fun run => ?_⟩
  · induction run with
    | nil state => exact .nil state
    | cons meets step _ ih =>
      have later := ih (kept _ _ _ _ start step)
      exact .cons ((agree _ _ _ _ start step).mp meets) step later
  · induction run with
    | nil state => exact .nil state
    | cons meets step _ ih =>
      have later := ih (kept _ _ _ _ start step)
      exact .cons ((agree _ _ _ _ start step).mpr meets) step later

/-- Two guards that agree on every step that succeeds have the same runs. -/
theorem guard_iff {strict : State → Input → Prop}
    (agree : ∀ state input next output, machine.step state input = some (next, output) →
      (guard state input ↔ strict state input)) {state final : State} {inputs : List Input}
    {outputs : List Output} :
    machine.RunOn guard state inputs outputs final ↔
      machine.RunOn strict state inputs outputs final :=
  guard_iff_of_invariant (fun _ => True) (fun _ _ _ _ _ _ => trivial)
    (fun state input next output _ step => agree state input next output step) trivial

theorem single {state final : State} {input : Input} {output : List Output}
    (meets : guard state input) (step : machine.step state input = some (final, output)) :
    machine.RunOn guard state [input] output final := by
  simpa using RunOn.cons meets step (.nil final)

theorem uncons {state final : State} {input : Input} {inputs : List Input}
    {outs : List Output} (run : machine.RunOn guard state (input :: inputs) outs final) :
    ∃ middle output outputs, outs = output ++ outputs ∧ guard state input ∧
      machine.step state input = some (middle, output) ∧
      machine.RunOn guard middle inputs outputs final := by
  cases run with
  | cons meets step rest => exact ⟨_, _, _, rfl, meets, step, rest⟩

theorem append {state middle final : State} {first second : List Input}
    {early late : List Output} (head : machine.RunOn guard state first early middle)
    (tail : machine.RunOn guard middle second late final) :
    machine.RunOn guard state (first ++ second) (early ++ late) final := by
  induction head with
  | nil => exact tail
  | cons meets step _ ih =>
    rw [List.cons_append, List.append_assoc]
    exact .cons meets step (ih tail)

/-- A run over a concatenation splits at the seam. -/
theorem split {first second : List Input} : ∀ {state final : State} {outputs : List Output},
    machine.RunOn guard state (first ++ second) outputs final →
      ∃ middle early late, outputs = early ++ late ∧
        machine.RunOn guard state first early middle ∧
        machine.RunOn guard middle second late final := by
  induction first with
  | nil => exact fun run => ⟨_, [], _, rfl, .nil _, run⟩
  | cons input inputs ih =>
    intro state final outputs run
    cases run with
    | cons meets step rest =>
      obtain ⟨middle, early, late, rfl, head, tail⟩ := ih rest
      exact ⟨middle, _, late, (List.append_assoc _ _ _).symm, .cons meets step head, tail⟩

/-- **The invariant rule.** What every guarded step preserves holds after every guarded run. -/
theorem invariant (Inv : State → Prop)
    (preserved : ∀ state input next output, guard state input → Inv state →
      machine.step state input = some (next, output) → Inv next)
    {state final : State} {inputs : List Input} {outputs : List Output}
    (run : machine.RunOn guard state inputs outputs final) (start : Inv state) : Inv final := by
  induction run with
  | nil => exact start
  | cons meets step _ ih => exact ih (preserved _ _ _ _ meets start step)

/-- **The invariant rule with history.** The invariant may read the inputs consumed so far. -/
theorem history (Inv : List Input → State → Prop)
    (preserved : ∀ past state input next output, guard state input → Inv past state →
      machine.step state input = some (next, output) → Inv (past ++ [input]) next)
    {state final : State} {inputs : List Input} {outputs : List Output}
    (run : machine.RunOn guard state inputs outputs final) :
    ∀ past : List Input, Inv past state → Inv (past ++ inputs) final := by
  induction run with
  | nil => exact fun past start => by simpa using start
  | cons meets step _ ih =>
    intro past start
    have next := ih _ (preserved _ _ _ _ _ meets start step)
    rwa [List.append_assoc, List.singleton_append] at next

/-- **The invariant rule with trace.** The invariant may read the inputs and the outputs so far. -/
theorem trace (Inv : List Input → List Output → State → Prop)
    (preserved : ∀ past seen state input next output, guard state input → Inv past seen state →
      machine.step state input = some (next, output) → Inv (past ++ [input]) (seen ++ output) next)
    {state final : State} {inputs : List Input} {outputs : List Output}
    (run : machine.RunOn guard state inputs outputs final) :
    ∀ (past : List Input) (seen : List Output), Inv past seen state →
      Inv (past ++ inputs) (seen ++ outputs) final := by
  induction run with
  | nil => exact fun past seen start => by simpa using start
  | cons meets step _ ih =>
    intro past seen start
    have next := ih _ _ (preserved _ _ _ _ _ _ meets start step)
    rwa [List.append_assoc, List.singleton_append, List.append_assoc] at next

/-- What holds of every output of a step from an invariant state holds of every output of a
run. -/
theorem outputs (Inv : State → Prop) (Good : Output → Prop)
    (preserved : ∀ state input next output, guard state input → Inv state →
      machine.step state input = some (next, output) → Inv next ∧ ∀ seen ∈ output, Good seen)
    {state final : State} {inputs : List Input} {outs : List Output}
    (run : machine.RunOn guard state inputs outs final) (start : Inv state) :
    ∀ seen ∈ outs, Good seen := by
  induction run with
  | nil => exact fun seen member => by cases member
  | cons meets step _ ih =>
    obtain ⟨next, here⟩ := preserved _ _ _ _ meets start step
    intro seen member
    rcases List.mem_append.mp member with member | member
    · exact here seen member
    · exact ih next seen member

/-- **The exact output rule.** If the outputs of each guarded step from an invariant state satisfy
`Good` exactly if the step meets `strict`, then the outputs of a guarded run do exactly if all its
steps meet `strict`. -/
theorem outputs_iff (Inv : State → Prop) (Good : Output → Prop)
    (strict : State → Input → Prop)
    (exact : ∀ state input next output, guard state input → Inv state →
      machine.step state input = some (next, output) →
      Inv next ∧ ((∀ seen ∈ output, Good seen) ↔ strict state input))
    {state final : State} {inputs : List Input} {outs : List Output}
    (run : machine.RunOn guard state inputs outs final) (start : Inv state) :
    (∀ seen ∈ outs, Good seen) ↔ machine.RunOn strict state inputs outs final := by
  induction run with
  | nil => exact ⟨fun _ => .nil _, fun _ seen member => by cases member⟩
  | cons meets step _ ih =>
    obtain ⟨next, here⟩ := exact _ _ _ _ meets start step
    rw [List.forall_mem_append, here, ih next]
    refine ⟨fun both => .cons both.1 step both.2, fun run => ?_⟩
    obtain ⟨middle, output, outputs, same, strictly, step', rest⟩ := run.uncons
    obtain ⟨rfl, rfl⟩ := step_unique step step'
    obtain rfl := List.append_cancel_left same
    exact ⟨strictly, rest⟩

/-- **The rule for two guards.** If two guards agree on every step of a guarded run, as long as they
are met, the run meets the one exactly if it meets the other. -/
theorem agree_iff_of_met {first second : State → Input → Prop} (Inv : State → Prop)
    (agree : ∀ state input next output, guard state input → Inv state →
      machine.step state input = some (next, output) →
      (first state input ↔ second state input) ∧ (second state input → Inv next))
    {state final : State} {inputs : List Input} {outs : List Output}
    (run : machine.RunOn guard state inputs outs final) (start : Inv state) :
    machine.RunOn first state inputs outs final ↔ machine.RunOn second state inputs outs final := by
  induction run with
  | nil => exact ⟨fun _ => .nil _, fun _ => .nil _⟩
  | cons meets step _ ih =>
    obtain ⟨here, next⟩ := agree _ _ _ _ meets start step
    refine ⟨fun run => ?_, fun run => ?_⟩
    · obtain ⟨_, _, _, same, strictly, step', rest⟩ := run.uncons
      obtain ⟨rfl, rfl⟩ := step_unique step step'
      obtain rfl := List.append_cancel_left same
      have met := here.mp strictly
      exact .cons met step ((ih (next met)).mp rest)
    · obtain ⟨_, _, _, same, met, step', rest⟩ := run.uncons
      obtain ⟨rfl, rfl⟩ := step_unique step step'
      obtain rfl := List.append_cancel_left same
      exact .cons (here.mpr met) step ((ih (next met)).mpr rest)

/-- The rule for two guards, with an invariant that every step keeps. -/
theorem agree_iff {first second : State → Input → Prop} (Inv : State → Prop)
    (agree : ∀ state input next output, guard state input → Inv state →
      machine.step state input = some (next, output) →
      Inv next ∧ (first state input ↔ second state input))
    {state final : State} {inputs : List Input} {outs : List Output}
    (run : machine.RunOn guard state inputs outs final) (start : Inv state) :
    machine.RunOn first state inputs outs final ↔ machine.RunOn second state inputs outs final :=
  run.agree_iff_of_met Inv (fun state input next output meets inv step =>
    have both := agree state input next output meets inv step
    ⟨both.2, fun _ => both.1⟩) start

/-- **The simulation rule.** If every guarded step is seen as a run of an abstract machine, every
guarded run is. -/
theorem simulates {State' Input' Output' : Type*} {abstract : Machine State' Input' Output'}
    (view : State → State') (see : Output → List Output')
    (steps : ∀ state input next output, guard state input →
      machine.step state input = some (next, output) →
      ∃ inputs, abstract.Run (view state) inputs (output.flatMap see) (view next))
    {state final : State} {inputs : List Input} {outs : List Output}
    (run : machine.RunOn guard state inputs outs final) :
    ∃ inputs, abstract.Run (view state) inputs (outs.flatMap see) (view final) := by
  induction run with
  | nil => exact ⟨[], .nil _⟩
  | cons meets step _ ih =>
    obtain ⟨early, head⟩ := steps _ _ _ _ meets step
    obtain ⟨late, tail⟩ := ih
    rw [List.flatMap_append]
    exact ⟨early ++ late, head.append tail⟩

/-- **The component rule.** If the outputs of every step tell what a component is given and what it
puts out, the outputs of a run do. -/
theorem component {State' Input' Output' : Type*} {part : Machine State' Input' Output'}
    (view : State → State') (given : Output → List Input') (emitted : Output → List Output')
    (steps : ∀ state input next output, guard state input →
      machine.step state input = some (next, output) →
      part.Run (view state) (output.flatMap given) (output.flatMap emitted) (view next))
    {state final : State} {inputs : List Input} {outs : List Output}
    (run : machine.RunOn guard state inputs outs final) :
    part.Run (view state) (outs.flatMap given) (outs.flatMap emitted) (view final) := by
  induction run with
  | nil => exact .nil _
  | cons meets step _ ih =>
    rw [List.flatMap_append, List.flatMap_append]
    exact (steps _ _ _ _ meets step).append ih

variable (machine) (guard) in
/-- **The stream rule.** If every step from an invariant state meets the guard and succeeds with the
one answer that the inputs so far determine, any inputs have a run, and its outputs are the answers
in order. -/
theorem stream {Input' : Type*} (Inv : List Input' → State → Prop) (see : Input' → Input)
    (answer : List Input' → Output)
    (steps : ∀ past state input, Inv past state → guard state (see input) ∧ ∃ next,
      machine.step state (see input) = some (next, [answer (past ++ [input])]) ∧
        Inv (past ++ [input]) next)
    (inputs : List Input') : ∀ (past : List Input') {state : State}, Inv past state →
      ∃ outs final, machine.RunOn guard state (inputs.map see) outs final ∧
        Inv (past ++ inputs) final ∧ outs.length = inputs.length ∧ ∀ place < inputs.length,
          outs[place]? = some (answer (past ++ inputs.take (place + 1))) := by
  induction inputs with
  | nil =>
    intro past state start
    exact ⟨[], state, .nil state, by simpa using start, rfl, fun place inside => by
      cases inside⟩
  | cons input inputs ih =>
    intro past state start
    obtain ⟨meets, next, step, inv⟩ := steps past state input start
    obtain ⟨outs, final, run, last, length, answers⟩ := ih _ inv
    rw [List.append_assoc, List.singleton_append] at last
    refine ⟨_, final, .cons meets step run, last, ?_, fun place inside => ?_⟩
    · rw [List.singleton_append, List.length_cons, List.length_cons, length]
    · cases place with
      | zero => rfl
      | succ place =>
        have later := answers place (Nat.lt_of_succ_lt_succ inside)
        rwa [List.append_assoc, List.singleton_append, ← List.take_succ_cons] at later

end RunOn

namespace Run

/-- A run whose inputs are all allowed is guarded by that. -/
theorem guarded {Allowed : Input → Prop} {state final : State} {inputs : List Input}
    {outs : List Output} (run : machine.Run state inputs outs final) :
    (∀ input ∈ inputs, Allowed input) →
      machine.RunOn (fun _ input => Allowed input) state inputs outs final := by
  induction run with
  | nil state => exact fun _ => .nil state
  | cons _ step _ ih =>
    intro allowed
    have later := ih fun input member => allowed input (List.mem_cons_of_mem _ member)
    exact .cons (allowed _ List.mem_cons_self) step later

variable (machine) in
/-- **The progress rule.** If every step from an invariant state succeeds and keeps the invariant,
every input list has a run. -/
theorem progress (Inv : State → Prop)
    (steps : ∀ state input, Inv state →
      ∃ next output, machine.step state input = some (next, output) ∧ Inv next)
    (inputs : List Input) : ∀ {state : State}, Inv state →
      ∃ outs final, machine.Run state inputs outs final ∧ Inv final := by
  induction inputs with
  | nil => exact fun start => ⟨_, _, .nil _, start⟩
  | cons input inputs ih =>
    intro state start
    obtain ⟨next, output, step, inv⟩ := steps state input start
    obtain ⟨outs, final, run, last⟩ := ih inv
    exact ⟨_, final, .cons trivial step run, last⟩

/-- **The forward rule.** If related states answer each allowed input with the same outputs and stay
related, the two machines do so in every run. -/
theorem forward {State' Input' : Type*} {abstract : Machine State' Input' Output}
    (Rel : State → State' → Prop) (Allowed : Input' → Prop) (see : Input' → Input)
    (steps : ∀ state state' input, Rel state state' → Allowed input →
      ∃ next next' output, machine.step state (see input) = some (next, output) ∧
        abstract.step state' input = some (next', output) ∧ Rel next next')
    (inputs : List Input') :
    ∀ {state : State} {state' : State'}, Rel state state' → (∀ input ∈ inputs, Allowed input) →
      ∃ outs final final', machine.Run state (inputs.map see) outs final ∧
        abstract.Run state' inputs outs final' ∧ Rel final final' := by
  induction inputs with
  | nil => exact fun start _ => ⟨_, _, _, .nil _, .nil _, start⟩
  | cons input inputs ih =>
    intro state state' start allowed
    obtain ⟨next, next', output, step, step', related⟩ :=
      steps state state' input start (allowed input List.mem_cons_self)
    obtain ⟨outs, final, final', run, run', last⟩ :=
      ih related fun other member => allowed other (List.mem_cons_of_mem input member)
    exact ⟨_, final, final', .cons trivial step run, .cons trivial step' run', last⟩

/-- **The relational simulation rule.** If the steps from related states can be followed, with the
same outputs and to related states, runs can. -/
theorem follows {State' : Type*} {abstract : Machine State' Input Output}
    (Rel : State → State' → Prop)
    (steps : ∀ state state' input next output, Rel state state' →
      machine.step state input = some (next, output) →
      ∃ next', abstract.step state' input = some (next', output) ∧ Rel next next')
    {state final : State} {inputs : List Input} {outs : List Output}
    (run : machine.Run state inputs outs final) : ∀ {state' : State'}, Rel state state' →
      ∃ final', abstract.Run state' inputs outs final' ∧ Rel final final' := by
  induction run with
  | nil => exact fun start => ⟨_, .nil _, start⟩
  | cons _ step _ ih =>
    intro state' start
    obtain ⟨next', step', related⟩ := steps _ _ _ _ _ start step
    obtain ⟨final', run', last⟩ := ih related
    exact ⟨final', .cons trivial step' run', last⟩

/-- Steps that fail together, or have the same outputs and lead to related states, follow one
another. -/
theorem answer {State' : Type*} {Rel : State → State' → Prop}
    {here : Option (State × List Output)} {there : Option (State' × List Output)}
    (both : Option.Rel (fun next next' => Rel next.1 next'.1 ∧ next.2 = next'.2) here there) :
    (∀ next output, here = some (next, output) →
      ∃ next', there = some (next', output) ∧ Rel next next') ∧
    ∀ next' output, there = some (next', output) →
      ∃ next, here = some (next, output) ∧ Rel next next' := by
  cases both with
  | none => exact ⟨fun _ _ step => (by cases step), fun _ _ step => (by cases step)⟩
  | @some next next' both =>
    obtain ⟨related, same⟩ := both
    refine ⟨fun state output step => ?_, fun state output step => ?_⟩
    · obtain rfl := Option.some.inj step
      exact ⟨next'.1, congrArg some (Prod.ext rfl same.symm), related⟩
    · obtain rfl := Option.some.inj step
      exact ⟨next.1, congrArg some (Prod.ext rfl same), related⟩

/-- **The bisimulation rule.** Machines whose steps from related states fail together, or have the
same outputs and lead to related states, have the same runs. -/
theorem bisimilar {State' : Type*} {abstract : Machine State' Input Output}
    (Rel : State → State' → Prop)
    (steps : ∀ state state' input, Rel state state' →
      Option.Rel (fun next next' => Rel next.1 next'.1 ∧ next.2 = next'.2)
        (machine.step state input) (abstract.step state' input))
    {state : State} {state' : State'} (start : Rel state state') {inputs : List Input}
    {outs : List Output} :
    (∃ final, machine.Run state inputs outs final) ↔
      ∃ final', abstract.Run state' inputs outs final' := by
  constructor
  · rintro ⟨final, run⟩
    obtain ⟨final', run', -⟩ := run.follows Rel
      (fun state state' input next output related =>
        (answer (steps state state' input related)).1 next output) start
    exact ⟨final', run'⟩
  · rintro ⟨final', run'⟩
    obtain ⟨final, run, -⟩ := run'.follows (fun state' state => Rel state state')
      (fun state' state input next output related =>
        (answer (steps state state' input related)).2 next output) start
    exact ⟨final, run⟩

/-- **The line rule.** If every item takes idle states to idle states, with its results and its
effect, items one after the other do so. -/
theorem line {Item View : Type*} {bytes : Item → List Input} {results : Item → List Output}
    {effect : View → Item → View} (Idle : State → Prop) (view : State → View)
    (one : ∀ item state, Idle state → ∃ next, machine.Run state (bytes item) (results item) next ∧
      Idle next ∧ view next = effect (view state) item) (items : List Item) :
    ∀ {state : State}, Idle state → ∃ final,
      machine.Run state (items.flatMap bytes) (items.flatMap results) final ∧ Idle final ∧
        view final = items.foldl effect (view state) := by
  induction items with
  | nil => exact fun idle => ⟨_, .nil _, idle, rfl⟩
  | cons item items ih =>
    intro state idle
    obtain ⟨next, head, idle', here⟩ := one item state idle
    obtain ⟨final, tail, last, there⟩ := ih idle'
    exact ⟨final, head.append tail, last, by rw [there, here, List.foldl_cons]⟩

/-- A machine is deterministic: its inputs fix its outputs and its final state. -/
theorem unique {state : State} {inputs : List Input} {outs : List Output} {final : State}
    (run : machine.Run state inputs outs final) :
    ∀ {outs' : List Output} {final' : State}, machine.Run state inputs outs' final' →
      outs' = outs ∧ final' = final := by
  induction run with
  | nil => exact fun other => by cases other; exact ⟨rfl, rfl⟩
  | cons _ step _ ih =>
    intro outs' final' other
    cases other with
    | cons _ step' rest' =>
      obtain ⟨rfl, rfl⟩ := step_unique step step'
      obtain ⟨rfl, rfl⟩ := ih rest'
      exact ⟨rfl, rfl⟩

/-- **The two-run rule.** If related inputs take related states to related states with related
outputs, then related input lists do the same. -/
theorem lockstep (Rel : State → State → Prop) (Same : Input → Input → Prop)
    (Agree : Output → Output → Prop)
    (related : ∀ left right input input' next next' output output', Rel left right →
      Same input input' → machine.step left input = some (next, output) →
      machine.step right input' = some (next', output') →
      Rel next next' ∧ List.Forall₂ Agree output output')
    {left final : State} {inputs : List Input} {outs : List Output}
    (run : machine.Run left inputs outs final) :
    ∀ {right final' : State} {inputs' : List Input} {outs' : List Output},
      List.Forall₂ Same inputs inputs' → machine.Run right inputs' outs' final' →
      Rel left right → Rel final final' ∧ List.Forall₂ Agree outs outs' := by
  induction run with
  | nil =>
    intro right final' inputs' outs' same run' start
    cases same
    cases run'
    exact ⟨start, .nil⟩
  | cons _ step _ ih =>
    intro right final' inputs' outs' same run' start
    cases same with
    | cons here rest =>
      cases run' with
      | cons _ step' run' =>
        obtain ⟨next, heads⟩ := related _ _ _ _ _ _ _ _ start here step step'
        obtain ⟨last, tails⟩ := ih rest run' next
        exact ⟨last, List.rel_append heads tails⟩

end Run

section Execution

variable (machine) (guard)

/-- The executable run: each step checks the guard and then steps. -/
def exec [∀ state input, Decidable (guard state input)] :
    State → List Input → Option (State × List Output)
  | state, [] => some (state, [])
  | state, input :: inputs =>
    if guard state input then
      (machine.step state input).bind fun next =>
        (exec next.1 inputs).map fun last => (last.1, next.2 ++ last.2)
    else none

variable {machine} {guard}

theorem runOn_iff_exec [∀ state input, Decidable (guard state input)] {state final : State}
    {inputs : List Input} {outs : List Output} :
    machine.RunOn guard state inputs outs final ↔
      machine.exec guard state inputs = some (final, outs) := by
  refine ⟨fun run => ?_, fun computed => ?_⟩
  · induction run with
    | nil => rfl
    | cons meets step _ ih => simp [exec, meets, step, ih]
  · induction inputs generalizing state outs with
    | nil =>
      obtain ⟨rfl, rfl⟩ := Prod.mk.inj (Option.some.inj computed)
      exact .nil _
    | cons input inputs ih =>
      by_cases meets : guard state input
      · rw [exec, if_pos meets] at computed
        obtain ⟨⟨middle, output⟩, step, rest⟩ := Option.bind_eq_some_iff.mp computed
        obtain ⟨⟨last, later⟩, tail, equal⟩ := Option.map_eq_some_iff.mp rest
        obtain ⟨rfl, rfl⟩ := Prod.mk.inj equal
        exact .cons meets step (ih tail)
      · rw [exec, if_neg meets] at computed
        cases computed

variable (machine) (guard)

/-- What the executable run is seen to end in, a run ends in. -/
theorem exists_run [∀ state input, Decidable (guard state input)] (state : State)
    (inputs : List Input) (check : State → List Output → Bool)
    (computed : (machine.exec guard state inputs).any (fun last => check last.1 last.2) = true) :
    ∃ outs final, machine.RunOn guard state inputs outs final ∧ check final outs = true := by
  obtain ⟨⟨final, outs⟩, run, checked⟩ := (Option.any_eq_true _ _).mp computed
  exact ⟨outs, final, runOn_iff_exec.mpr run, checked⟩

end Execution

end Machine

/-- What stands in a history stands there in every later one. -/
theorem getElem?_append_some {Data : Type*} {early late : List Data} {index : ℕ} {data : Data}
    (here : early[index]? = some data) : (early ++ late)[index]? = some data := by
  rw [List.getElem?_append_left (List.getElem?_eq_some_iff.mp here).1]
  exact here

/-- What says nothing says nothing one after the other. -/
theorem flatMap_silent {Said Data : Type*} (list : List Said) :
    list.flatMap (fun _ => ([] : List Data)) = [] :=
  List.flatMap_eq_nil_iff.mpr fun _ _ => rfl

end Robocon.Lib
