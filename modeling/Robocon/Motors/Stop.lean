/-
**Stopped motors.**

While a motor is stopped, `motor_handle` gives its driver the output zero, whatever quantity the
driver takes. That is rest for a torque and for a speed, but a position of its own.

* `Event.Rests` — the driver call does not move the motor.
* `stopped_rests_iff` — between `motor_stop` and `motor_start`, a driver call rests exactly if the
  accept level is not 3 or the motor is at the position zero. `motor_behiver_4`, which serves that
  level, gives the driver a position.
-/

import Robocon.Motors.Levels
import Robocon.Motors.LastCommand

namespace Robocon.Motors

open Lib Trajectory

variable {K P : Type} [Field K]

/-- The event does not move a motor at `position`. -/
def Event.Rests (position : K) : Event K → Prop
  | .driver _ .torque value => value = 0
  | .driver _ .speed value => value = 0
  | .driver _ .pos value => value = position
  | _ => True

section Stopped

variable [LinearOrder K] [FloorRing K] {expf : K → K} {apid : Apid K P} {num : ℕ}
  {motors middle next : Vector (Motor K P) num} {i : Fin num}

/-- The motor after the feedback of a call of `motor_handle`. -/
def Motor.fed (m : Motor K P) (cycle : K) (reading : Reading K) : Option (Motor K P) :=
  { m with time := trunc ((m.time : K) + cycle) }.takeFeedback reading

/-- A motor that is stopped and not started again is stopped. -/
theorem run_stopped {past between : List (Call K)} {outs : List (Event K)}
    (run : (layer expf apid).Run motors (past ++ .stop (i : ℕ) :: between) outs middle)
    (stays : .start (i : ℕ) ∉ between) : (middle.get i).flagIsStop = true := by
  obtain ⟨first, early, late, -, -, rest⟩ := run.split
  obtain ⟨second, output, outputs, -, -, step, after⟩ := rest.uncons
  have stopped : (second.get i).flagIsStop = true := by
    have flag := congrArg Setup.flagIsStop (call_setup step i)
    exact flag.trans (if_pos rfl)
  have guarded : (layer expf apid).RunOn (fun _ input => input ≠ .start (i : ℕ)) second between
      outputs middle := Machine.Run.guarded after fun input member same => stays (same ▸ member)
  refine guarded.invariant (fun state => (state.get i).flagIsStop = true) ?_ stopped
  intro state input next output other stopped step
  have flag := congrArg Setup.flagIsStop (call_setup step i)
  refine flag.trans ?_
  show input.stopFlag (i : ℕ) (state.get i).flagIsStop = true
  rw [stopped]
  cases input with
  | stop id => exact ite_self true
  | start id =>
    have differs : id ≠ (i : ℕ) := fun same => other (same ▸ rfl)
    exact if_neg differs
  | _ => rfl

/-- **One call for a stopped motor** gives its driver zero, after the feedback. -/
theorem handle_stopped {m m' : Motor K P} {id : ℤ} {cycle : K} {reading : Reading K}
    {events : List (Event K)} (stopped : m.flagIsStop = true)
    (handled : m.handle expf apid id cycle reading = some (m', events)) :
    ∃ fed, m.fed cycle reading = some fed ∧ m'.curPos = fed.curPos ∧
      events = [.driver id m.flagOutMode 0] := by
  rw [Motor.handle_eq] at handled
  obtain ⟨fed, taken, cases⟩ := Motor.handleRest_cases handled
  refine ⟨fed, taken, ?_⟩
  obtain ⟨_, _, _, rfl⟩ := Motor.takeFeedback_writes taken
  rcases cases with ⟨-, rfl, rfl⟩ | ⟨going, -⟩
  · exact ⟨rfl, rfl⟩
  · exact absurd (stopped.symm.trans going) Bool.noConfusion

/-- **A stopped motor is not driven**, unless its driver takes positions and it is not at zero. -/
theorem stopped_rests_iff {init : P → P} {levels : Fin num → Fin 4}
    (initialised : Initialised init levels motors) {past between : List (Call K)}
    {outs events : List (Event K)}
    (run : (layer expf apid).Run motors (past ++ .stop (i : ℕ) :: between) outs middle)
    (stays : .start (i : ℕ) ∉ between) {cycle : K} {reading : Reading K}
    (step : (layer expf apid).step middle (.handle (i : ℕ) cycle reading) = some (next, events)) :
    (∀ event ∈ events, event.Rests (next.get i).curPos) ↔
      (levels i = 3 → ∀ fed, (middle.get i).fed cycle reading = some fed → fed.curPos = 0) := by
  obtain ⟨m, allocated, initial⟩ := initialised i
  obtain ⟨-, level, -⟩ := Motor.initialise_setup initial
  have mode := (run_outMode run i).trans level
  have here : withMotor middle (i : ℕ) (fun m => m.handle expf apid (i : ℕ) cycle reading) =
      some (next, events) := step
  obtain ⟨-, handled⟩ | ⟨differs, -⟩ := withMotor_get here i
  · obtain ⟨fed, taken, position, rfl⟩ := handle_stopped (run_stopped run stays) handled
    rw [List.forall_mem_singleton, position, mode, taken]
    have told : (∀ fed', some fed = some fed' → fed'.curPos = 0) ↔ fed.curPos = 0 :=
      ⟨fun all => all fed rfl, fun zero fed' same => Option.some.inj same ▸ zero⟩
    rw [told]
    generalize levels i = accept
    fin_cases accept
    · exact iff_of_true trivial fun no => absurd no (by decide)
    · exact iff_of_true rfl fun no => absurd no (by decide)
    · exact iff_of_true rfl fun no => absurd no (by decide)
    · exact ⟨fun zero _ => Eq.symm zero, fun zero => (zero rfl).symm⟩
  · exact absurd rfl differs

end Stopped

/-! ### One motor -/

/-- A motor of accept level 3, as `motor_init` leaves it. -/
def positioned : Motor ℚ Unit := { fresh with behaver := .four, flagOutMode := .pos }

theorem stopped_rests_torque :
    ∃ outs middle next events,
      (layer (fun _ => 1) still).Run #v[fresh] ([.setTorque 0 5] ++ .stop ((0 : Fin 1) : ℕ) :: [])
        outs middle ∧
      (layer (fun _ => 1) still).step middle (.handle ((0 : Fin 1) : ℕ) 1 ⟨none, none, none⟩) =
        some (next, events) ∧
      ∀ event ∈ events, event.Rests (next.get 0).curPos := by
  obtain ⟨outs, middle, run, checked⟩ := Machine.exists_run (layer (fun _ => 1) still)
    (fun _ _ => True) #v[fresh] ([.setTorque 0 5] ++ .stop ((0 : Fin 1) : ℕ) :: [])
    (fun middle _ => ((layer (fun _ => 1) still).step middle
      (.handle ((0 : Fin 1) : ℕ) 1 ⟨none, none, none⟩)).isSome) (by decide +kernel)
  obtain ⟨⟨next, events⟩, step⟩ := Option.isSome_iff_exists.mp checked
  have initialised : Initialised id (fun _ => 1) #v[fresh] :=
    fun i => ⟨fresh, fun _ => (), by fin_cases i; rfl⟩
  refine ⟨outs, middle, next, events, run, step, ?_⟩
  exact (stopped_rests_iff initialised run List.not_mem_nil step).mpr
    fun level => absurd level (by decide)

/-- **A stopped motor is sent to the origin.** It is at the position 5, and its driver is told the
position 0. -/
theorem stopped_moves :
    Initialised id (fun _ => 3) #v[positioned] ∧
      ∃ outs middle next events,
        (layer (fun _ => 1) still).Run #v[positioned]
          ([.feedbackPos 0 5] ++ .stop ((0 : Fin 1) : ℕ) :: []) outs middle ∧
        (layer (fun _ => 1) still).step middle
          (.handle ((0 : Fin 1) : ℕ) 1 ⟨none, none, none⟩) = some (next, events) ∧
        ¬ ∀ event ∈ events, event.Rests (next.get 0).curPos := by
  refine ⟨fun i => ⟨fresh, fun _ => (), by fin_cases i; rfl⟩, ?_⟩
  obtain ⟨outs, middle, run, checked⟩ := Machine.exists_run (layer (fun _ => 1) still)
    (fun _ _ => True) #v[positioned] ([.feedbackPos 0 5] ++ .stop ((0 : Fin 1) : ℕ) :: [])
    (fun middle _ => ((layer (fun _ => 1) still).step middle
      (.handle ((0 : Fin 1) : ℕ) 1 ⟨none, none, none⟩)).any
        fun last => last.2 = [.driver 0 .pos 0] && (last.1.get 0).curPos = 5) (by decide +kernel)
  obtain ⟨⟨next, events⟩, step, seen⟩ := (Option.any_eq_true _ _).mp checked
  obtain ⟨sent, position⟩ := Bool.and_eq_true_iff.mp seen
  have sent : events = [.driver 0 .pos 0] := of_decide_eq_true sent
  have position : (next.get 0).curPos = 5 := of_decide_eq_true position
  refine ⟨outs, middle, next, events, run, step, fun rests => ?_⟩
  rw [sent, List.forall_mem_singleton, position] at rests
  have zero : (0 : ℚ) = 5 := rests
  exact absurd zero (by decide)

end Robocon.Motors
