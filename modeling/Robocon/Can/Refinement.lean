/-
**A CAN device is a mailbox.**

A mailbox keeps the messages in the order in which they came, each with its bank. A reader borrows
the first one that it asks for. When there is no room for a message, the first one is dropped.

* `mailbox` — the machine of it, without links, nodes and counts.
* `Mailed.isr_shows`, `Mailed.take_shows`, `Mailed.give_shows`, `step_shows` — each step of the
  device is one of the mailbox that it shows, and fails where that one does.
* `device_is_mailbox` — so they have the same runs.
-/

import Robocon.Can.Opening

namespace Robocon.Can

open Lib

variable {maxhdr msgboxsz : ℕ}

/-- What is taken first is what is asked for first. -/
theorem eraseP_of_find {Node : Type*} [BEq Node] [LawfulBEq Node] {wanted : Node → Bool} {i : Node}
    {list : List Node} (found : list.find? wanted = some i) :
    list.eraseP wanted = list.erase i := by
  induction list with
  | nil => rfl
  | cons j list ih =>
    by_cases here : wanted j = true
    · rw [List.find?_cons_of_pos here] at found
      obtain rfl := Option.some.inj found
      rw [List.eraseP_cons_of_pos here, List.erase_cons_head]
    · rw [List.find?_cons_of_neg here] at found
      have other : j ≠ i := by
        rintro rfl
        exact here (List.find?_some found)
      rw [List.eraseP_cons_of_neg here, List.erase_cons_tail (by simpa using other), ih found]

/-! ### The mailbox -/

/-- The messages that wait, each with its bank, and those in the hands of readers. -/
structure Mailbox (maxhdr : ℕ) where
  waiting : List (Option (Fin maxhdr) × RtCanMsg)
  lent : List RtCanMsg
  settings : (Fin maxhdr → Bool × Bool) × Bool
  rcvpkg : UInt32
  dropedrcvpkg : UInt32

namespace Mailbox

def empty : Mailbox maxhdr := ⟨[], [], (fun _ => (false, false), false), 0, 0⟩

/-- The callback after a message for a bank. -/
def indicate (m : Mailbox maxhdr) (bank : Fin maxhdr) : List (Event maxhdr) :=
  if (m.settings.1 bank).1 ∧ (m.settings.1 bank).2 then
    [.ind bank (m.waiting.filter (·.1 = some bank)).length]
  else if m.settings.2 then [.rxIndicate m.waiting.length]
  else []

/-- A message goes to the end. Where there is no room for it, the first one is dropped. -/
def receive (m : Mailbox maxhdr) (size : ℕ) (bank : Fin maxhdr) (tmpmsg : RtCanMsg) :
    Mailbox maxhdr :=
  let full : Bool := ¬ m.waiting.length + m.lent.length < size
  { m with
    waiting := (if full then m.waiting.tail else m.waiting) ++
      [(if (m.settings.1 bank).1 then some bank else none, tmpmsg)]
    rcvpkg := m.rcvpkg + 1
    dropedrcvpkg := if full then m.dropedrcvpkg + 1 else m.dropedrcvpkg }

/-- A message arrives; some place must not be lent. -/
def rxInd (m : Mailbox maxhdr) (size : ℕ) (tmpmsg : RtCanMsg) :
    Option (Mailbox maxhdr × List (Event maxhdr)) :=
  if m.lent.length < size then
    (bankOf maxhdr tmpmsg.hdrIndex.toInt).map fun bank =>
      (m.receive size bank tmpmsg, (m.receive size bank tmpmsg).indicate bank)
  else none

/-- An interrupt, which may count an overflow first. -/
def isr (m : Mailbox maxhdr) (size : ℕ) (overflow : Bool) (recvmsg : Option RtCanMsg) :
    Option (Mailbox maxhdr × List (Event maxhdr)) :=
  let m := if overflow then { m with dropedrcvpkg := m.dropedrcvpkg + 1 } else m
  match recvmsg with
  | none => some (m, [])
  | some tmpmsg => m.rxInd size tmpmsg

/-- The first message that is asked for is lent. -/
def take (m : Mailbox maxhdr) (hdrIndex : Int8) : Mailbox maxhdr × List (Event maxhdr) :=
  match m.waiting.find? fun mail => Mailed.Wanted maxhdr mail.1 hdrIndex with
  | none => (m, [.empty])
  | some mail =>
    ({ m with
      waiting := m.waiting.eraseP fun mail => Mailed.Wanted maxhdr mail.1 hdrIndex
      lent := m.lent ++ [mail.2] }, [])

/-- A filter is set, where there was none. -/
def setFilter (m : Mailbox maxhdr) (hdrBank : ℤ) (ind : Bool) : Mailbox maxhdr :=
  match bankOf maxhdr hdrBank with
  | none => m
  | some bank =>
    if (m.settings.1 bank).1 then m
    else { m with settings := (Function.update m.settings.1 bank (true, ind), m.settings.2) }

end Mailbox

variable (maxhdr) in
/-- A mailbox with `size` places. -/
def mailbox (size : ℕ) : Machine (Mailbox maxhdr) Input (Event maxhdr) where
  step m
    | .isr overflow recvmsg => m.isr size overflow recvmsg
    | .take hdrIndex => some (m.take hdrIndex)
    | .give reader => m.lent[reader]?.map fun data =>
      ({ m with lent := m.lent.eraseIdx reader }, [.read data])
    | .setFilter hdrBank ind => some (m.setFilter hdrBank ind, [])
    | .setRxIndicate => some ({ m with settings := (m.settings.1, true) }, [])

/-- The mailbox that a device is. -/
def CanDevice.view (d : CanDevice maxhdr msgboxsz) (held used : List (Fin msgboxsz)) :
    Mailbox maxhdr where
  waiting := used.map fun i => (d.owner i, d.data i)
  lent := held.map d.data
  settings := d.settings
  rcvpkg := d.rcvpkg
  dropedrcvpkg := d.dropedrcvpkg

/-- A device shows a mailbox. -/
def Shows (s : Reading maxhdr msgboxsz) (m : Mailbox maxhdr) : Prop :=
  ∃ free used, Mailed s.device s.held free used ∧ m = s.device.view s.held used

theorem shows_opened :
    Shows (⟨.opened, []⟩ : Reading maxhdr msgboxsz) (.empty : Mailbox maxhdr) :=
  ⟨_, [], mailed_opened, rfl⟩

namespace Mailed

variable {d : CanDevice maxhdr msgboxsz} {held free used : List (Fin msgboxsz)}
  {i : Fin msgboxsz}

/-- Where all nodes are lent there is none for a message. -/
theorem listmsg_none (mailed : Mailed d held free used) (none : ¬ held.length < msgboxsz) :
    d.listmsg = some (d, Option.none) := by
  have total := mailed.places.length_eq
  simp only [List.length_append, List.length_finRange] at total
  have no_free : free = [] := List.eq_nil_of_length_eq_zero (by omega)
  have no_used : used = [] := List.eq_nil_of_length_eq_zero (by omega)
  unfold CanDevice.listmsg
  rw [if_neg (not_not.mpr (mailed.freelist_isEmpty.mpr no_free)),
    if_neg (not_not.mpr (mailed.uselist_isEmpty.mpr no_used))]

/-- **A message is stored** for its bank. -/
theorem store (mailed : Mailed d (held ++ [i]) free used) (tmpmsg : RtCanMsg) {bank : Fin maxhdr}
    (inside : bankOf maxhdr tmpmsg.hdrIndex.toInt = some bank) :
    ∃ d', d.store i tmpmsg = some d' ∧ Mailed d' held free (used ++ [i]) ∧
      d'.data = Function.update d.data i tmpmsg ∧
      d'.owner = Function.update d.owner i (if (d.hdr bank).connected then some bank else none) ∧
      d'.settings = d.settings ∧ d'.rcvpkg = d.rcvpkg ∧ d'.dropedrcvpkg = d.dropedrcvpkg := by
  have lone := mailed.unowned mailed.outside.2
  have placed := mailed.put tmpmsg
  unfold CanDevice.store
  rw [inside]
  by_cases connected : (d.hdr bank).connected = true
  · refine ⟨(d.put i tmpmsg).own i bank, congrArg some (if_pos connected),
      placed.own lone connected, rfl, by rw [if_pos connected]; rfl, ?_, rfl, rfl⟩
    unfold CanDevice.settings
    congr 1
    funext bank'
    by_cases same : bank' = bank
    · subst same
      show ((Function.update d.hdr bank' _ bank').connected, _) = _
      simp [CanDevice.own, CanDevice.put]
    · simp [CanDevice.own, CanDevice.put, same]
  · refine ⟨d.put i tmpmsg, congrArg some (if_neg connected), placed, rfl, ?_, rfl, rfl, rfl⟩
    rw [if_neg connected, Function.update_eq_self_iff.mpr lone.symm]
    rfl

/-- **The callback** is called with the number of messages that wait. -/
theorem indicate (mailed : Mailed d held free (used ++ [i])) {bank : Fin maxhdr}
    (owned : (d.hdr bank).connected = true → d.owner i = some bank) :
    d.indicate bank = some ((d.view held (used ++ [i])).indicate bank) := by
  have counted : ((used ++ [i]).map fun i => (d.owner i, d.data i)).filter (·.1 = some bank) =
      (banked d.owner (used ++ [i]) bank).map fun i => (d.owner i, d.data i) := by
    rw [List.filter_map]
    rfl
  unfold CanDevice.indicate Mailbox.indicate
  show _ = some (if (d.hdr bank).connected = true ∧ (d.hdr bank).ind = true then _ else
    if d.rxIndicate = true then _ else _)
  split
  · next both =>
    have some : (d.hdr bank).msgs ≠ 0 := by
      rw [mailed.msgs]
      have member : i ∈ banked d.owner (used ++ [i]) bank :=
        mem_banked.mpr ⟨List.mem_append_right _ (List.mem_singleton_self i), owned both.1⟩
      exact (List.length_pos_of_mem member).ne'
    rw [if_pos some, mailed.msgs]
    show _ = Option.some [Event.ind bank (List.filter _ (List.map _ _)).length]
    rw [counted, List.length_map]
  · split
    · have total := mailed.places.length_eq
      simp only [List.length_append, List.length_finRange] at total
      have same : (lists d.owner free (used ++ [i]) .uselist).length = (used ++ [i]).length :=
        List.length_map _
      have enough : (lists d.owner free (used ++ [i]) .uselist).length < msgboxsz + 1 := by
        rw [same, List.length_append]
        omega
      rw [mailed.arranged.lenFrom .uselist enough]
      have some : (used ++ [i]).length ≠ 0 := by simp
      show Option.some (if (lists d.owner free (used ++ [i]) .uselist).length ≠ 0 then _ else _) = _
      rw [same, if_pos some]
      show _ = Option.some [Event.rxIndicate (List.map _ _).length]
      rw [List.length_map]
    · rfl

/-- **A message arrives** at the device as at the mailbox. -/
theorem rxInd (mailed : Mailed d held free used) (tmpmsg : RtCanMsg) :
    Option.Rel (fun next next' => (∃ free used, Mailed next.1 held free used ∧
        next'.1 = next.1.view held used) ∧ next.2 = next'.2)
      (d.rxInd tmpmsg) ((d.view held used).rxInd msgboxsz tmpmsg) := by
  have counted : Mailed { d with rcvpkg := d.rcvpkg + 1 } held free used :=
    ⟨mailed.arranged, mailed.places, mailed.freenumbers, mailed.msgs, mailed.owned⟩
  have lent : (d.view held used).lent.length = held.length := List.length_map _
  unfold CanDevice.rxInd Mailbox.rxInd
  rw [lent]
  by_cases room : held.length < msgboxsz
  · rw [if_pos room]
    obtain ⟨d₂, i, free', used', taken, mailed₂, data₂, owner₂, settings₂, rcvpkg₂, how⟩ :=
      counted.listmsg room
    rw [taken]
    cases inside : bankOf maxhdr tmpmsg.hdrIndex.toInt with
    | none =>
      have failed : d₂.store i tmpmsg = none := by
        unfold CanDevice.store
        rw [inside]
        rfl
      show Option.Rel _ ((d₂.store i tmpmsg).bind _) none
      rw [failed]
      exact .none
    | some bank =>
      obtain ⟨d₃, stored, mailed₃, data₃, owner₃, settings₃, rcvpkg₃, droped₃⟩ :=
        mailed₂.store tmpmsg inside
      have connected : (d₃.hdr bank).connected = (d₂.hdr bank).connected :=
        congrArg (fun settings => (settings.1 bank).1) settings₃
      have owned : (d₃.hdr bank).connected = true → d₃.owner i = some bank := fun on => by
        rw [owner₃, Function.update_self, if_pos (connected ▸ on)]
      have told := mailed₃.indicate owned
      have fresh : i ∉ held := fun member => List.disjoint_of_nodup_append
        mailed₂.once.of_append_right member (List.mem_singleton_self i)
      have waiting : (used' ++ [i]).map (fun j => (d₃.owner j, d₃.data j)) =
          used'.map (fun j => (d.owner j, d.data j)) ++
            [(if (d.hdr bank).connected then some bank else none, tmpmsg)] := by
        have old : (d₂.hdr bank).connected = (d.hdr bank).connected :=
          congrArg (fun settings => (settings.1 bank).1) settings₂
        rw [data₃, owner₃, data₂, owner₂, old, List.map_append, List.map_singleton,
          Function.update_self, Function.update_self]
        refine congrArg (· ++ _) (List.map_congr_left fun j member => ?_)
        have other : j ≠ i := fun same => mailed₂.outside.2 (same ▸ member)
        simp only [Function.update_of_ne other]
      have lent : held.map d₃.data = held.map d.data := by
        refine List.map_congr_left fun j member => ?_
        have other : j ≠ i := fun same => fresh (same ▸ member)
        rw [data₃, data₂, Function.update_of_ne other]
      have shown : (d.view held used).receive msgboxsz bank tmpmsg =
          d₃.view held (used' ++ [i]) := by
        unfold CanDevice.view
        rw [waiting, lent, settings₃, settings₂, rcvpkg₃, rcvpkg₂, droped₃]
        obtain ⟨space, rfl, drops⟩ | ⟨full, rfl, drops⟩ := how
        · rw [drops]
          simp [Mailbox.receive, CanDevice.settings, space]
          rfl
        · rw [List.length_cons, not_lt] at full
          rw [drops]
          simp [Mailbox.receive, CanDevice.settings, full]
          rfl
      show Option.Rel _ ((d₂.store i tmpmsg).bind _) (some _)
      rw [stored]
      show Option.Rel _ ((d₃.indicate bank).bind _) (some _)
      rw [told]
      show Option.Rel _ _ (some (_, Mailbox.indicate ((d.view held used).receive _ _ _) bank))
      rw [shown]
      exact .some ⟨⟨free', used' ++ [i], mailed₃, rfl⟩, rfl⟩
  · rw [if_neg room, counted.listmsg_none room]
    exact .none

/-- **An interrupt** at the device is one at the mailbox. -/
theorem isr_shows (mailed : Mailed d held free used) (overflow : Bool)
    (recvmsg : Option RtCanMsg) :
    Option.Rel (fun next next' => Shows next.1 next'.1 ∧ next.2 = next'.2)
      (canDriver.step ⟨d, held⟩ (.isr overflow recvmsg))
      ((mailbox maxhdr msgboxsz).step (d.view held used) (.isr overflow recvmsg)) := by
  have counted : Mailed { d with dropedrcvpkg := d.dropedrcvpkg + 1 } held free used :=
    ⟨mailed.arranged, mailed.places, mailed.freenumbers, mailed.msgs, mailed.owned⟩
  cases recvmsg with
  | none =>
    cases overflow with
    | false => exact .some ⟨⟨free, used, mailed, rfl⟩, rfl⟩
    | true => exact .some ⟨⟨free, used, counted, rfl⟩, rfl⟩
  | some tmpmsg =>
    have arrives {d : CanDevice maxhdr msgboxsz} (mailed : Mailed d held free used) :
        Option.Rel (fun next next' => Shows next.1 next'.1 ∧ next.2 = next'.2)
          ((d.rxInd tmpmsg).map fun next => ((⟨next.1, held⟩ : Reading maxhdr msgboxsz), next.2))
          ((d.view held used).rxInd msgboxsz tmpmsg) := by
      have both := mailed.rxInd tmpmsg
      generalize d.rxInd tmpmsg = here at both ⊢
      generalize (d.view held used).rxInd msgboxsz tmpmsg = there at both ⊢
      cases both with
      | none => exact .none
      | some both => exact .some both
    cases overflow with
    | false => exact arrives mailed
    | true => exact arrives counted

/-- **A reader takes** from the device as from the mailbox. -/
theorem take_shows (mailed : Mailed d held free used) (hdrIndex : Int8) :
    Option.Rel (fun next next' => Shows next.1 next'.1 ∧ next.2 = next'.2)
      (canDriver.step ⟨d, held⟩ (.take hdrIndex))
      ((mailbox maxhdr msgboxsz).step (d.view held used) (.take hdrIndex)) := by
  have asked : (d.view held used).waiting.find? (fun mail => Wanted maxhdr mail.1 hdrIndex) =
      (used.find? fun i => Wanted maxhdr (d.owner i) hdrIndex).map
        fun i => (d.owner i, d.data i) := List.find?_map
  show Option.Rel _ ((d.take hdrIndex).map _) (some ((d.view held used).take hdrIndex))
  unfold Mailbox.take
  rw [mailed.take, asked]
  cases found : used.find? fun i => Wanted maxhdr (d.owner i) hdrIndex with
  | none => exact .some ⟨⟨free, used, mailed, rfl⟩, rfl⟩
  | some i =>
    have here : i ∈ used := List.mem_of_find?_eq_some found
    refine .some ⟨⟨free, used.erase i, mailed.detach_used here, ?_⟩, rfl⟩
    have waiting : (d.view held used).waiting.eraseP (fun mail => Wanted maxhdr mail.1 hdrIndex) =
        (used.erase i).map fun j => (Function.update d.owner i none j, d.data j) := by
      unfold CanDevice.view
      rw [List.eraseP_map]
      show (used.eraseP fun i => Wanted maxhdr (d.owner i) hdrIndex).map _ = _
      rw [eraseP_of_find found]
      refine List.map_congr_left fun j member => ?_
      have other : j ≠ i := fun same => mailed.used_once.not_mem_erase (same ▸ member)
      rw [Function.update_of_ne other]
    rw [waiting]
    unfold CanDevice.view
    rw [d.detach_settings, List.map_append]
    rfl

/-- **A reader gives** a node back, and has read its message. -/
theorem give_shows (mailed : Mailed d held free used) (reader : ℕ) :
    Option.Rel (fun next next' => Shows next.1 next'.1 ∧ next.2 = next'.2)
      (canDriver.step ⟨d, held⟩ (.give reader))
      ((mailbox maxhdr msgboxsz).step (d.view held used) (.give reader)) := by
  show Option.Rel _ (held[reader]?.bind _) ((held.map d.data)[reader]?.map _)
  rw [List.getElem?_map]
  cases inside : held[reader]? with
  | none => exact .none
  | some i =>
    obtain ⟨place, rfl⟩ := List.getElem?_eq_some_iff.mp inside
    have last := (List.getElem_cons_eraseIdx_perm place).symm.trans
      (List.perm_append_singleton _ _).symm
    obtain ⟨d', given, mailed', data, owner, settings, rcvpkg, droped⟩ := (mailed.hands last).give
    show Option.Rel _ ((d.give held[reader]).bind _) _
    rw [given]
    have lent : (d.view held used).lent.eraseIdx reader =
        (held.eraseIdx reader).map d.data := List.eraseIdx_map _ _ _
    refine .some ⟨⟨_, used, mailed', ?_⟩, rfl⟩
    show Mailbox.mk _ ((d.view held used).lent.eraseIdx reader) _ _ _ = Mailbox.mk _ _ _ _ _
    rw [lent, data, owner, settings, rcvpkg, droped]
    rfl

/-- **A filter is set** for the device as for the mailbox. -/
theorem setFilter_view (hdrBank : ℤ) (ind : Bool) :
    (d.setFilter hdrBank ind).view held used = (d.view held used).setFilter hdrBank ind := by
  unfold CanDevice.setFilter Mailbox.setFilter
  cases bankOf maxhdr hdrBank with
  | none => rfl
  | some bank =>
    show (if (d.hdr bank).connected = true then d else _).view held used =
      if (d.hdr bank).connected = true then _ else _
    split
    · rfl
    · have settings : (fun bank' => ((Function.update d.hdr bank ⟨true, 0, ind⟩ bank').connected,
          (Function.update d.hdr bank ⟨true, 0, ind⟩ bank').ind)) =
          Function.update d.settings.1 bank (true, ind) := by
        funext bank'
        by_cases same : bank' = bank
        · subst same
          rw [Function.update_self, Function.update_self]
        · rw [Function.update_of_ne same, Function.update_of_ne same]
          rfl
      exact congrArg (fun settings => Mailbox.mk _ _ (settings, d.rxIndicate) _ _) settings

end Mailed

/-- **One step** of a device is one of the mailbox that it shows. -/
theorem step_shows {s : Reading maxhdr msgboxsz} {m : Mailbox maxhdr} (input : Input)
    (shows : Shows s m) :
    Option.Rel (fun next next' => Shows next.1 next'.1 ∧ next.2 = next'.2)
      (canDriver.step s input) ((mailbox maxhdr msgboxsz).step m input) := by
  obtain ⟨free, used, mailed, rfl⟩ := shows
  cases input with
  | isr overflow recvmsg => exact mailed.isr_shows overflow recvmsg
  | take hdrIndex => exact mailed.take_shows hdrIndex
  | give reader => exact mailed.give_shows reader
  | setFilter hdrBank ind =>
    exact .some ⟨⟨free, used, mailed.setFilter hdrBank ind, (Mailed.setFilter_view _ _).symm⟩, rfl⟩
  | setRxIndicate =>
    exact .some ⟨⟨free, used, ⟨mailed.arranged, mailed.places, mailed.freenumbers, mailed.msgs,
      mailed.owned⟩, rfl⟩, rfl⟩

/-- **The device is a mailbox**: from `rt_can_open` on it does what a mailbox does, in any order of
interrupts and readers. -/
theorem device_is_mailbox (inputs : List Input) (events : List (Event maxhdr)) :
    (∃ final : Reading maxhdr msgboxsz, canDriver.Run ⟨.opened, []⟩ inputs events final) ↔
      ∃ final, (mailbox maxhdr msgboxsz).Run .empty inputs events final :=
  Machine.Run.bisimilar Shows (fun _ _ input shows => step_shows input shows) shows_opened

end Robocon.Can
