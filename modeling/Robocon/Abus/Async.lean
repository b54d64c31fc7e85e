/-
**Asynchronous subscriptions.**

An asynchronous subscription initialises its semaphore and replaces its callback by one that posts
the subscriber's semaphore. The subscriber never gets that semaphore, so a publish posts nothing, a
wait is refused, and the count stays `0`.

* `Notified` — what such a subscription is for: the count is the number of undelivered publishes,
  and a wait succeeds exactly while there are any.
* `notified_iff` — after any run it holds if and only if nothing was published since.
-/

import Robocon.Abus.Delivery

namespace Robocon.Abus

open Lib

/-- The publishes on a topic that have not been waited for. -/
def undelivered (name : CString) (it : Pointer) (inputs : List Op) (outs : List Event) : ℤ :=
  (inputs.countP (Op.publishes name) : ℤ) - outs.count (.waited it 0)

/-- The semaphore of a subscriber counts the undelivered publishes, and a wait returns success
exactly while there are any. -/
def Notified (name : CString) (sem : Address) (it : Pointer) (inputs : List Op) (outs : List Event)
    (bus : Bus) : Prop :=
  (bus.sems sem : ℤ) = undelivered name it inputs outs ∧
    ((∃ bus', abus.step bus (.wait it) = some (bus', [.waited it 0])) ↔
      0 < undelivered name it inputs outs)

/-- A subscription leaves a semaphore at `0` there. -/
theorem subcribeCfg_sems {cfg : SubcribeCfg} {sems : Address → ℕ} {sem : Address}
    (zero : sems sem = 0) : cfg.sems sems sem = 0 := by
  unfold SubcribeCfg.sems
  split
  · cases cfg.sem with
    | none => exact zero
    | some other =>
      show Function.update sems other 0 sem = 0
      rw [Function.update_apply, zero, ite_self]
  · exact zero

/-- A step from a well-formed state leaves a semaphore at `0` there, and no wait succeeds. -/
theorem unnotified_step {bus bus' : Bus} {op : Op} {events : List Event} (formed : WellFormed bus)
    (step : abus.step bus op = some (bus', events)) :
    (∀ sem, bus.sems sem = 0 → bus'.sems sem = 0) ∧ ∀ it, .waited it 0 ∉ events := by
  cases op with
  | topicCreate name cfg =>
    obtain ⟨rfl, rfl⟩ := Prod.mk.inj (Option.some.inj step)
    exact ⟨fun _ zero => zero, fun it => List.not_mem_nil⟩
  | accounterCreate name =>
    obtain ⟨rfl, rfl⟩ := Prod.mk.inj (Option.some.inj step)
    exact ⟨fun _ zero => zero, fun it => List.not_mem_nil⟩
  | subcribe name accounter cfg =>
    obtain ⟨-, rfl, rfl⟩ | ⟨topic, top, acc, -, -, rfl, rfl⟩ := subcribe_cases step
    · exact ⟨fun _ zero => zero, fun it member => by cases List.mem_singleton.mp member⟩
    · exact ⟨fun _ => subcribeCfg_sems, fun it member => by cases List.mem_singleton.mp member⟩
  | unsubcribe name subcribe =>
    obtain ⟨rfl, code, rfl⟩ := unsubcribe_cases step
    exact ⟨fun _ zero => zero, fun it member => by cases List.mem_singleton.mp member⟩
  | publish name data =>
    obtain ⟨topic, top, -, rfl, rfl⟩ := formed.publish_cases step
    refine ⟨fun _ zero => zero, fun it member => ?_⟩
    rcases List.mem_append.mp member with member | member
    · obtain ⟨index, port, -, member⟩ := mem_deliveries.mp member
      cases (delivery_target member).1
    · cases List.mem_singleton.mp member
  | wait pointer =>
    obtain ⟨rfl, rfl⟩ := formed.wait_cases step
    exact ⟨fun _ zero => zero, fun it member => by cases List.mem_singleton.mp member⟩

/-- The semaphore of a subscription stays at `0`, and no wait succeeds. -/
theorem unnotified_run {bus bus' : Bus} {inputs : List Op} {outs : List Event}
    (formed : WellFormed bus) (run : abus.Run bus inputs outs bus') {sem : Address}
    (zero : bus.sems sem = 0) : bus'.sems sem = 0 ∧ ∀ it, outs.count (.waited it 0) = 0 := by
  have kept := run.invariant (fun bus => WellFormed bus ∧ bus.sems sem = 0)
    (fun _ _ _ _ _ start step =>
      ⟨start.1.next step, (unnotified_step start.1 step).1 sem start.2⟩) ⟨formed, zero⟩
  refine ⟨kept.2, fun it => List.count_eq_zero.mpr fun member => ?_⟩
  refine run.outputs WellFormed (fun event => event ≠ .waited it 0) ?_ formed _ member rfl
  rintro _ _ _ _ - start step
  refine ⟨start.next step, fun event seen same => ?_⟩
  subst same
  exact (unnotified_step start step).2 it seen

/-- **Asynchronous subscriptions are notified** only as long as nothing is published. -/
theorem notified_iff {sems : Address → ℕ} {past : List Op} {outs : List Event} {bus bus' : Bus}
    (run : abus.Run (.initial sems) past outs bus) {name accounter : CString} {cfg : SubcribeCfg}
    (subscribed : abus.step bus (.subcribe name accounter cfg) = some (bus', [.subcribed 0]))
    (async : cfg.isAsync = 1) {sem : Address} (given : cfg.sem = some sem) (it : Pointer)
    {inputs : List Op} {outs' : List Event} {final : Bus}
    (rest : abus.Run bus' inputs outs' final) :
    Notified name sem it inputs outs' final ↔ inputs.countP (Op.publishes name) = 0 := by
  have formed := (wellFormed_reachable run).next subscribed
  have zero : bus'.sems sem = 0 := by
    obtain ⟨-, -, other⟩ | ⟨topic, top, acc, -, -, -, rfl⟩ := subcribe_cases subscribed
    · cases other
    · show cfg.sems bus.sems sem = 0
      rw [SubcribeCfg.sems, if_pos async, given]
      exact Function.update_self _ _ _
  obtain ⟨count, failures⟩ := unnotified_run formed rest zero
  have formed' := rest.invariant WellFormed (fun _ _ _ _ _ start step => start.next step) formed
  have refused : ¬ ∃ bus'', abus.step final (.wait it) = some (bus'', [.waited it 0]) := by
    rintro ⟨bus'', step⟩
    exact (unnotified_step formed' step).2 it List.mem_cons_self
  rw [Notified, undelivered, count, failures it]
  refine ⟨fun notified => ?_, fun quiet => ?_⟩
  · have equal := notified.1
    omega
  · rw [quiet]
    exact ⟨rfl, iff_of_false refused (by decide)⟩

/-! ### One subscription -/

/-- A topic and an account. -/
def asyncSetup : List Op := [.topicCreate firstName ⟨0, 1⟩, .accounterCreate secondName]

/-- An asynchronous subscription with semaphore `9`, the topic's first. -/
def asyncSubcribe : Op := .subcribe firstName secondName ⟨none, none, 1, some 9⟩

/-- As long as nothing is published, the subscription is notified. -/
theorem notified_quiet : ∃ outs bus bus', abus.Run (.initial fun _ => 0) asyncSetup outs bus ∧
    abus.step bus asyncSubcribe = some (bus', [.subcribed 0]) ∧
    ∃ outs' final, abus.Run bus' [.wait ⟨0, 0⟩] outs' final ∧
      Notified firstName 9 ⟨0, 0⟩ [.wait ⟨0, 0⟩] outs' final := by
  obtain ⟨outs, bus, run, checked⟩ := Machine.exists_run abus (fun _ _ => True)
    (.initial fun _ => 0) asyncSetup (fun bus _ => (abus.step bus asyncSubcribe).any fun next =>
      next.2 = [.subcribed 0] ∧ (abus.exec (fun _ _ => True) next.1 [.wait ⟨0, 0⟩]).isSome = true)
    (by decide +kernel)
  obtain ⟨⟨bus', events⟩, subscribed, checked⟩ := (Option.any_eq_true _ _).mp checked
  obtain ⟨rfl, waited⟩ := of_decide_eq_true checked
  obtain ⟨⟨final, outs'⟩, computed⟩ := Option.isSome_iff_exists.mp waited
  have rest : abus.Run bus' [.wait ⟨0, 0⟩] outs' final := Machine.runOn_iff_exec.mpr computed
  exact ⟨outs, bus, bus', run, subscribed, outs', final, rest,
    (notified_iff run subscribed rfl rfl ⟨0, 0⟩ rest).mpr rfl⟩

/-- **A publish that is not notified.** It posts nothing, and the wait for it is refused. -/
theorem publish_unnotified : ∃ outs bus bus',
    abus.Run (.initial fun _ => 0) asyncSetup outs bus ∧
    abus.step bus asyncSubcribe = some (bus', [.subcribed 0]) ∧
    ∃ final, abus.Run bus' [.publish firstName [1], .wait ⟨0, 0⟩]
        [.cb ⟨0, 0⟩ .asyncNotify [1], .published 0, .waited ⟨0, 0⟩ (-1)] final ∧
      ¬ Notified firstName 9 ⟨0, 0⟩ [.publish firstName [1], .wait ⟨0, 0⟩]
        [.cb ⟨0, 0⟩ .asyncNotify [1], .published 0, .waited ⟨0, 0⟩ (-1)] final := by
  obtain ⟨outs, bus, run, checked⟩ := Machine.exists_run abus (fun _ _ => True)
    (.initial fun _ => 0) asyncSetup (fun bus _ => (abus.step bus asyncSubcribe).any fun next =>
      next.2 = [.subcribed 0] ∧
        (abus.exec (fun _ _ => True) next.1 [.publish firstName [1], .wait ⟨0, 0⟩]).any
          (fun last => last.1.sems 9 = 0 ∧
            last.2 = [.cb ⟨0, 0⟩ .asyncNotify [1], .published 0, .waited ⟨0, 0⟩ (-1)]) = true)
    (by decide +kernel)
  obtain ⟨⟨bus', events⟩, subscribed, checked⟩ := (Option.any_eq_true _ _).mp checked
  obtain ⟨rfl, published⟩ := of_decide_eq_true checked
  obtain ⟨⟨final, outs'⟩, computed, checked⟩ := (Option.any_eq_true _ _).mp published
  obtain ⟨count, rfl⟩ := of_decide_eq_true checked
  refine ⟨outs, bus, bus', run, subscribed, final, Machine.runOn_iff_exec.mpr computed, ?_⟩
  rintro ⟨counted, -⟩
  rw [show final.sems 9 = 0 from count] at counted
  exact absurd counted (by decide)

end Robocon.Abus
