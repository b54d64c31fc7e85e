/-
**What becomes of the messages of a CAN device.**

* `Accounts` — every message that arrived was read, is in the hands of a reader, waits or was
  dropped; the counters of the device say how many arrived and how many were lost.
* `messages_accounted` — so it is in every run of the device.
-/

import Robocon.Can.Refinement

namespace Robocon.Can

open Lib

variable {maxhdr msgboxsz : ℕ}

/-! ### What becomes of the messages -/

/-- The messages that arrive. -/
def Input.arrived : Input → List RtCanMsg
  | .isr _ recvmsg => recvmsg.toList
  | _ => []

/-- The overflows that the controller tells of. -/
def Input.overflows : Input → ℕ
  | .isr true _ => 1
  | _ => 0

/-- The messages that readers get. -/
def Event.given : Event maxhdr → List RtCanMsg
  | .read data => [data]
  | _ => []

/-- Where the messages that arrived are, and what the counters say. -/
structure Accounts (arrived read dropped : List RtCanMsg) (overflows : ℕ) (m : Mailbox maxhdr) :
    Prop where
  messages : arrived.Perm (read ++ m.lent ++ m.waiting.map Prod.snd ++ dropped)
  order : (m.waiting.map Prod.snd).Sublist arrived
  rcvpkg : m.rcvpkg = UInt32.ofNat arrived.length
  dropedrcvpkg : m.dropedrcvpkg = UInt32.ofNat (dropped.length + overflows)

namespace Accounts

variable {arrived read dropped : List RtCanMsg} {overflows : ℕ} {m : Mailbox maxhdr}

theorem empty : Accounts [] [] [] 0 (.empty : Mailbox maxhdr) :=
  ⟨.refl _, .refl _, rfl, rfl⟩

theorem indicate_silent (m : Mailbox maxhdr) (bank : Fin maxhdr) :
    (m.indicate bank).flatMap Event.given = [] := by
  unfold Mailbox.indicate
  split
  · rfl
  · split <;> rfl

theorem overflow (accounts : Accounts arrived read dropped overflows m) :
    Accounts arrived read dropped (overflows + 1)
      { m with dropedrcvpkg := m.dropedrcvpkg + 1 } where
  messages := accounts.messages
  order := accounts.order
  rcvpkg := accounts.rcvpkg
  dropedrcvpkg := by
    show m.dropedrcvpkg + 1 = _
    rw [accounts.dropedrcvpkg, ← Nat.add_assoc, UInt32.ofNat_add (dropped.length + overflows)]
    rfl

/-- **A message arrives.** The one that makes room for it is dropped. -/
theorem receive (accounts : Accounts arrived read dropped overflows m) {size : ℕ}
    (room : m.lent.length < size) (bank : Fin maxhdr) (tmpmsg : RtCanMsg) :
    ∃ dropped', Accounts (arrived ++ [tmpmsg]) read dropped' overflows
      (m.receive size bank tmpmsg) := by
  have counted : m.rcvpkg + 1 = UInt32.ofNat (arrived ++ [tmpmsg]).length := by
    rw [accounts.rcvpkg, List.length_append, UInt32.ofNat_add]
    rfl
  by_cases space : m.waiting.length + m.lent.length < size
  · refine ⟨dropped, List.perm_iff_count.mpr fun msg => ?_, ?_, counted, ?_⟩
    · have before := List.perm_iff_count.mp accounts.messages msg
      simp only [Mailbox.receive, space, List.count_append, List.map_append, not_true_eq_false,
        decide_false, Bool.false_eq_true, if_false, List.map_singleton] at before ⊢
      omega
    · have order := accounts.order.append_right [tmpmsg]
      simpa [Mailbox.receive, space] using order
    · simpa [Mailbox.receive, space] using accounts.dropedrcvpkg
  · cases waiting : m.waiting with
    | nil =>
      rw [waiting, List.length_nil] at space
      omega
    | cons mail rest =>
      have order := accounts.order
      rw [waiting] at order space
      have stored : m.receive size bank tmpmsg = { m with
          waiting := rest ++ [(if (m.settings.1 bank).1 then some bank else none, tmpmsg)]
          rcvpkg := m.rcvpkg + 1
          dropedrcvpkg := m.dropedrcvpkg + 1 } := by
        simp only [Mailbox.receive, waiting, space, not_false_eq_true, decide_true, if_true,
          List.tail_cons]
      rw [stored]
      refine ⟨dropped ++ [mail.2], List.perm_iff_count.mpr fun msg => ?_, ?_, counted, ?_⟩
      · have before := List.perm_iff_count.mp accounts.messages msg
        rw [waiting, List.map_cons, ← List.singleton_append] at before
        simp only [List.count_append, List.map_append, List.map_singleton] at before ⊢
        omega
      · show ((rest ++ [_]).map Prod.snd).Sublist _
        rw [List.map_append]
        exact (List.sublist_of_cons_sublist order).append_right _
      · show m.dropedrcvpkg + 1 = _
        rw [accounts.dropedrcvpkg, List.length_append, Nat.add_right_comm,
          UInt32.ofNat_add (dropped.length + overflows)]
        rfl

/-- **A message is lent** to a reader. -/
theorem take (accounts : Accounts arrived read dropped overflows m) (hdrIndex : Int8) :
    Accounts arrived (read ++ (m.take hdrIndex).2.flatMap Event.given) dropped overflows
      (m.take hdrIndex).1 := by
  unfold Mailbox.take
  cases found : m.waiting.find? fun mail => Mailed.Wanted maxhdr mail.1 hdrIndex with
  | none =>
    show Accounts arrived (read ++ []) dropped overflows m
    rwa [List.append_nil]
  | some mail =>
    have moved := (List.perm_cons_erase (List.mem_of_find?_eq_some found)).map Prod.snd
    rw [← eraseP_of_find found] at moved
    refine ⟨List.perm_iff_count.mpr fun msg => ?_,
      (List.eraseP_sublist.map Prod.snd).trans accounts.order, accounts.rcvpkg,
      accounts.dropedrcvpkg⟩
    have before := List.perm_iff_count.mp accounts.messages msg
    have here := List.perm_iff_count.mp moved msg
    rw [List.map_cons, ← List.singleton_append] at here
    simp only [List.count_append, List.flatMap_nil, List.append_nil] at before here ⊢
    omega

theorem setFilter (accounts : Accounts arrived read dropped overflows m) (hdrBank : ℤ)
    (ind : Bool) : Accounts arrived read dropped overflows (m.setFilter hdrBank ind) := by
  unfold Mailbox.setFilter
  split
  · exact accounts
  · split
    · exact accounts
    · exact ⟨accounts.messages, accounts.order, accounts.rcvpkg, accounts.dropedrcvpkg⟩

/-- **One step.** -/
theorem next (accounts : Accounts arrived read dropped overflows m) {size : ℕ} {input : Input}
    {m' : Mailbox maxhdr} {events : List (Event maxhdr)}
    (step : (mailbox maxhdr size).step m input = some (m', events)) :
    ∃ dropped', Accounts (arrived ++ input.arrived) (read ++ events.flatMap Event.given) dropped'
      (overflows + input.overflows) m' := by
  cases input with
  | isr overflow recvmsg =>
    have first : Accounts arrived read dropped (overflows + (Input.isr overflow recvmsg).overflows)
        (if overflow then { m with dropedrcvpkg := m.dropedrcvpkg + 1 } else m) := by
      cases overflow with
      | false => exact accounts
      | true => exact accounts.overflow
    have step : m.isr size overflow recvmsg = some (m', events) := step
    unfold Mailbox.isr at step
    generalize (if overflow then { m with dropedrcvpkg := m.dropedrcvpkg + 1 } else m) = counted
      at first step
    cases recvmsg with
    | none =>
      obtain ⟨rfl, rfl⟩ := Prod.mk.inj (Option.some.inj step)
      refine ⟨dropped, ?_⟩
      rw [List.flatMap_nil, List.append_nil]
      show Accounts (arrived ++ []) _ _ _ _
      rwa [List.append_nil]
    | some tmpmsg =>
      have step : counted.rxInd size tmpmsg = some (m', events) := step
      unfold Mailbox.rxInd at step
      split at step
      · next room =>
        obtain ⟨bank, -, same⟩ := Option.map_eq_some_iff.mp step
        obtain ⟨rfl, rfl⟩ := Prod.mk.inj same
        rw [indicate_silent, List.append_nil]
        exact first.receive room bank tmpmsg
      · cases step
  | take hdrIndex =>
    obtain ⟨rfl, rfl⟩ := Prod.mk.inj (Option.some.inj step)
    refine ⟨dropped, ?_⟩
    show Accounts (arrived ++ []) _ _ _ _
    rw [List.append_nil]
    exact accounts.take hdrIndex
  | give reader =>
    obtain ⟨data, inside, same⟩ := Option.map_eq_some_iff.mp step
    obtain ⟨rfl, rfl⟩ := Prod.mk.inj same
    obtain ⟨place, rfl⟩ := List.getElem?_eq_some_iff.mp inside
    refine ⟨dropped, List.perm_iff_count.mpr fun msg => ?_, ?_, ?_, accounts.dropedrcvpkg⟩
    · have before := List.perm_iff_count.mp accounts.messages msg
      have moved := List.perm_iff_count.mp (List.getElem_cons_eraseIdx_perm place) msg
      rw [← List.singleton_append] at moved
      show (arrived ++ []).count msg = (read ++ [m.lent[reader]] ++ _ ++ _ ++ _).count msg
      simp only [List.count_append, List.append_nil] at before moved ⊢
      omega
    · show (m.waiting.map Prod.snd).Sublist (arrived ++ [])
      rw [List.append_nil]
      exact accounts.order
    · show m.rcvpkg = UInt32.ofNat (arrived ++ []).length
      rw [List.append_nil]
      exact accounts.rcvpkg
  | setFilter hdrBank ind =>
    obtain ⟨rfl, rfl⟩ := Prod.mk.inj (Option.some.inj step)
    refine ⟨dropped, ?_⟩
    rw [List.flatMap_nil, List.append_nil]
    show Accounts (arrived ++ []) _ _ _ _
    rw [List.append_nil]
    exact accounts.setFilter hdrBank ind
  | setRxIndicate =>
    obtain ⟨rfl, rfl⟩ := Prod.mk.inj (Option.some.inj step)
    refine ⟨dropped, ?_⟩
    rw [List.flatMap_nil, List.append_nil]
    show Accounts (arrived ++ []) _ _ _ _
    rw [List.append_nil]
    exact ⟨accounts.messages, accounts.order, accounts.rcvpkg, accounts.dropedrcvpkg⟩

end Accounts

/-- A message of bank 0. -/
def sent (id : BitVec 29) : RtCanMsg :=
  ⟨id, false, false, 8, 0, 0, .replicate 8 0⟩

/-- **No message is lost untold.** In every run from `rt_can_open` the messages that arrived are the
ones that readers got, have in hand or may still get, and those that were dropped. The driver has
counted the first, and the last with the overflows; the messages that wait do so in order. -/
theorem messages_accounted {final : Reading maxhdr msgboxsz} {inputs : List Input}
    {events : List (Event maxhdr)} (run : canDriver.Run ⟨.opened, []⟩ inputs events final) :
    ∃ free used dropped, Mailed final.device final.held free used ∧
      Accounts (inputs.flatMap Input.arrived) (events.flatMap Event.given) dropped
        (inputs.map Input.overflows).sum (final.device.view final.held used) := by
  have follows : ∃ m, (mailbox maxhdr msgboxsz).Run .empty inputs events m ∧ Shows final m :=
    run.follows Shows (fun _ _ input next output shows =>
      (Machine.Run.answer (step_shows input shows)).1 next output) shows_opened
  obtain ⟨m, run', free, used, mailed, rfl⟩ := follows
  have accounts := run'.trace (fun past seen m => ∃ dropped, Accounts
    (past.flatMap Input.arrived) (seen.flatMap Event.given) dropped
    (past.map Input.overflows).sum m) ?_ [] [] ⟨[], .empty⟩
  · obtain ⟨dropped, accounts⟩ := accounts
    exact ⟨free, used, dropped, mailed, accounts⟩
  · rintro past seen m input next output - ⟨dropped, accounts⟩ step
    rw [List.flatMap_append, List.flatMap_append, List.flatMap_singleton, List.map_append,
      List.sum_append, List.map_singleton, List.sum_singleton]
    exact accounts.next step

/-- Two nodes and three messages, of which the first is dropped. A reader has the second one. -/
theorem messages_accounted_two : ∃ (events : List (Event 1)) (final : Reading 1 2),
    canDriver.Run ⟨.opened, []⟩ [.setFilter 0 true, .isr false (some (sent 0)),
      .isr true (some (sent 1)), .isr false (some (sent 2)), .take (-1)] events final ∧
    ∃ free used dropped, Mailed final.device final.held free used ∧
      Accounts [sent 0, sent 1, sent 2] (events.flatMap Event.given) dropped 1
        (final.device.view final.held used) := by
  obtain ⟨events, final, run, -⟩ := Machine.exists_run canDriver (fun _ _ => True)
    (⟨.opened, []⟩ : Reading 1 2) [.setFilter 0 true, .isr false (some (sent 0)),
      .isr true (some (sent 1)), .isr false (some (sent 2)), .take (-1)] (fun _ _ => true)
    (by decide +kernel)
  exact ⟨events, final, run, messages_accounted run⟩

end Robocon.Can
