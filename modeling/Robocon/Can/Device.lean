/-
**The receive FIFO of a CAN device (`can.c`).**

The messages of a device wait in nodes that are linked twice: all nodes are in `freelist` or in
`uselist`, and the used ones of a connected filter bank also in the list of that bank. The interrupt
takes a free node for a message, or else the oldest used one; a reader takes the oldest node of a
bank, or of all of them, and copies it before it gives it back. Interrupts and other readers may
come between these two.

* `CanDevice.rtHwCanIsr`, `take`, `give` — the interrupt and the two halves of a turn of
  `_can_int_rx`; `canDriver` is the machine of them.
* `Mailed` — which nodes are free, used and in the hands of readers, and what the links say then.
* `Mailed.detach_used`, `Mailed.put`, `Mailed.own`, `Mailed.give` — what is done to a node.

An assertion that fails is a failed step, and so is a read of a variable that was not set. The
counts of nodes are numbers: they do not exceed `msgboxsz`. The device has banks, its filters are
not taken back, and the interrupt is one step: what it interrupts does not go on before it ends.
-/

import Robocon.Lib.Linked
import Robocon.Lib.Run

namespace Robocon.Can

open Lib

/-! ### The device -/

/-- `struct rt_can_msg`, less the bits that receiving does not set. -/
structure RtCanMsg where
  id : BitVec 29
  ide : Bool
  rtr : Bool
  len : UInt8
  hdrIndex : Int8
  rxfifo : BitVec 2
  data : Vector UInt8 8
  deriving DecidableEq

/-- The lists of a device. -/
inductive Anchor (maxhdr : ℕ)
  | freelist
  | uselist
  | hdr (bank : Fin maxhdr)
  deriving DecidableEq

/-- An `rt_list_t *`: a list, or one of the two nodes of a `struct rt_can_msg_list`. -/
inductive Ptr (maxhdr msgboxsz : ℕ)
  | head (anchor : Anchor maxhdr)
  | list (i : Fin msgboxsz)
  | hdrlist (i : Fin msgboxsz)
  deriving DecidableEq

/-- `struct rt_can_hdr`, less its list; of the filter it is kept whether there is an `ind`. -/
structure RtCanHdr where
  connected : Bool
  msgs : ℕ
  ind : Bool

/-- What `struct rt_can_device` has for receiving, with the FIFO `can_rx`. -/
structure CanDevice (maxhdr msgboxsz : ℕ) where
  links : Links (Ptr maxhdr msgboxsz)
  data : Fin msgboxsz → RtCanMsg
  owner : Fin msgboxsz → Option (Fin maxhdr)
  freenumbers : ℕ
  hdr : Fin maxhdr → RtCanHdr
  rxIndicate : Bool
  rcvpkg : UInt32
  dropedrcvpkg : UInt32

/-- What the device calls, and what a reader gets. Lengths are counted in messages. -/
inductive Event (maxhdr : ℕ)
  | ind (hdr : Fin maxhdr) (rxLength : ℕ)
  | rxIndicate (rxLength : ℕ)
  | empty
  | read (data : RtCanMsg)
  deriving DecidableEq

variable {maxhdr msgboxsz : ℕ}

variable (maxhdr) in
/-- The bank of an index, if there is one. -/
def bankOf (hdr : ℤ) : Option (Fin maxhdr) :=
  if inside : 0 ≤ hdr ∧ hdr < maxhdr then
    some ⟨hdr.toNat, (Int.toNat_lt inside.1).mpr inside.2⟩
  else none

/-- `rt_list_entry(.., list)`. -/
def Ptr.entry : Ptr maxhdr msgboxsz → Option (Fin msgboxsz)
  | .list i => some i
  | _ => none

/-- `rt_list_entry(.., hdrlist)`. -/
def Ptr.hdrEntry : Ptr maxhdr msgboxsz → Option (Fin msgboxsz)
  | .hdrlist i => some i
  | _ => none

namespace CanDevice

/-- The FIFO of `rt_can_open`. -/
def opened : CanDevice maxhdr msgboxsz where
  links := (List.finRange msgboxsz).foldl
    (fun links i => links.insertBefore (.head .freelist) (.list i)) .alone
  data _ := ⟨0, false, false, 0, 0, 0, .replicate 8 0⟩
  owner _ := none
  freenumbers := msgboxsz
  hdr _ := ⟨false, 0, false⟩
  rxIndicate := false
  rcvpkg := 0
  dropedrcvpkg := 0

/-- A node is taken out of both of its lists, and its owner has a message less. -/
def detach (d : CanDevice maxhdr msgboxsz) (listmsg : Fin msgboxsz) : CanDevice maxhdr msgboxsz :=
  { d with
    links := (d.links.remove (.list listmsg)).remove (.hdrlist listmsg)
    hdr :=
      match d.owner listmsg with
      | none => d.hdr
      | some owner =>
        if (d.hdr owner).msgs ≠ 0 then
          Function.update d.hdr owner { d.hdr owner with msgs := (d.hdr owner).msgs - 1 }
        else d.hdr
    owner := Function.update d.owner listmsg none }

theorem detach_hdr (d : CanDevice maxhdr msgboxsz) (i : Fin msgboxsz) (bank : Fin maxhdr) :
    (d.detach i).hdr bank = { d.hdr bank with
      msgs := (d.hdr bank).msgs - if d.owner i = some bank then 1 else 0 } := by
  unfold detach
  cases owner : d.owner i with
  | none => simp
  | some bank' =>
    by_cases same : bank = bank'
    · subst same
      by_cases none : (d.hdr bank).msgs = 0
      · simp only [none, ne_eq, not_true_eq_false, if_false, if_true]
        rw [Nat.zero_sub, ← none]
      · simp [none]
    · simp [Ne.symm same, apply_ite (fun hdr : Fin maxhdr → RtCanHdr => hdr bank), same]

theorem detach_owned {d : CanDevice maxhdr msgboxsz} {i : Fin msgboxsz} {hdr : Fin maxhdr}
    (owned : d.owner i = some hdr) :
    d.detach i =
      { d with
        links := (d.links.remove (.list i)).remove (.hdrlist i)
        hdr :=
          if (d.hdr hdr).msgs ≠ 0 then
            Function.update d.hdr hdr { d.hdr hdr with msgs := (d.hdr hdr).msgs - 1 }
          else d.hdr
        owner := Function.update d.owner i none } := by
  unfold detach
  rw [owned]

/-- The node of `rt_hw_can_isr`: a free one, or else the oldest used one. -/
def listmsg (d : CanDevice maxhdr msgboxsz) :
    Option (CanDevice maxhdr msgboxsz × Option (Fin msgboxsz)) :=
  if ¬ d.links.isEmpty (.head .freelist) then do
    let i ← (d.links.next (.head .freelist)).entry
    let d := d.detach i
    if d.freenumbers > 0 then some ({ d with freenumbers := d.freenumbers - 1 }, some i) else none
  else if ¬ d.links.isEmpty (.head .uselist) then do
    let i ← (d.links.next (.head .uselist)).entry
    some ({ d.detach i with dropedrcvpkg := d.dropedrcvpkg + 1 }, some i)
  else some (d, none)

/-- The message is copied to the node, and the node appended to `uselist`. -/
def put (d : CanDevice maxhdr msgboxsz) (i : Fin msgboxsz) (tmpmsg : RtCanMsg) :
    CanDevice maxhdr msgboxsz :=
  { d with
    data := Function.update d.data i tmpmsg
    links := d.links.insertBefore (.head .uselist) (.list i) }

/-- The node is appended to the list of its bank. -/
def own (d : CanDevice maxhdr msgboxsz) (i : Fin msgboxsz) (hdr : Fin maxhdr) :
    CanDevice maxhdr msgboxsz :=
  { d with
    links := d.links.insertBefore (.head (.hdr hdr)) (.hdrlist i)
    owner := Function.update d.owner i (some hdr)
    hdr := Function.update d.hdr hdr { d.hdr hdr with msgs := (d.hdr hdr).msgs + 1 } }

/-- The message is stored, for its bank if that is connected. -/
def store (d : CanDevice maxhdr msgboxsz) (i : Fin msgboxsz) (tmpmsg : RtCanMsg) :
    Option (CanDevice maxhdr msgboxsz) :=
  (bankOf maxhdr tmpmsg.hdrIndex.toInt).map fun hdr =>
    if (d.hdr hdr).connected then (d.put i tmpmsg).own i hdr else d.put i tmpmsg

/-- The callback: the one of the bank, or else the one of the device. -/
def indicate (d : CanDevice maxhdr msgboxsz) (hdr : Fin maxhdr) : Option (List (Event maxhdr)) :=
  if (d.hdr hdr).connected ∧ (d.hdr hdr).ind then
    some (if (d.hdr hdr).msgs ≠ 0 then [.ind hdr (d.hdr hdr).msgs] else [])
  else if d.rxIndicate then
    (d.links.lenFrom (.head .uselist) (msgboxsz + 1) (.head .uselist)).map fun rxLength =>
      if rxLength ≠ 0 then [.rxIndicate rxLength] else []
  else some []

/-- `rt_hw_can_isr` for a message that `recvmsg` has. -/
def rxInd (d : CanDevice maxhdr msgboxsz) (tmpmsg : RtCanMsg) :
    Option (CanDevice maxhdr msgboxsz × List (Event maxhdr)) := do
  let (d, listmsg) ← { d with rcvpkg := d.rcvpkg + 1 }.listmsg
  -- without a node, `hdr` is read before it is set
  let i ← listmsg
  let d ← d.store i tmpmsg
  let hdr ← bankOf maxhdr tmpmsg.hdrIndex.toInt
  let events ← d.indicate hdr
  return (d, events)

/-- `rt_hw_can_isr` for `RT_CAN_EVENT_RX_IND`, or for `RT_CAN_EVENT_RXOF_IND`, which goes on with
it. -/
def rtHwCanIsr (d : CanDevice maxhdr msgboxsz) (overflow : Bool) (recvmsg : Option RtCanMsg) :
    Option (CanDevice maxhdr msgboxsz × List (Event maxhdr)) :=
  let d := if overflow then { d with dropedrcvpkg := d.dropedrcvpkg + 1 } else d
  match recvmsg with
  | none => some (d, [])
  | some tmpmsg => d.rxInd tmpmsg

/-- The first half of a turn of `_can_int_rx`: a node is taken. -/
def take (d : CanDevice maxhdr msgboxsz) (hdrIndex : Int8) :
    Option (CanDevice maxhdr msgboxsz × Option (Fin msgboxsz)) :=
  match bankOf maxhdr hdrIndex.toInt with
  | some hdr =>
    if ¬ d.links.isEmpty (.head (.hdr hdr)) then
      (d.links.next (.head (.hdr hdr))).hdrEntry.map fun i =>
        ({ d with
            links := (d.links.remove (.list i)).remove (.hdrlist i)
            hdr :=
              if (d.hdr hdr).msgs ≠ 0 then
                Function.update d.hdr hdr { d.hdr hdr with msgs := (d.hdr hdr).msgs - 1 }
              else d.hdr
            owner := Function.update d.owner i none }, some i)
    else some (d, none)
  | none =>
    if hdrIndex = -1 ∧ ¬ d.links.isEmpty (.head .uselist) then
      (d.links.next (.head .uselist)).entry.map fun i => (d.detach i, some i)
    else some (d, none)

/-- The second half: the node is given back. -/
def give (d : CanDevice maxhdr msgboxsz) (i : Fin msgboxsz) :
    Option (CanDevice maxhdr msgboxsz) :=
  if d.freenumbers + 1 ≤ msgboxsz then
    some { d with
      links := d.links.insertBefore (.head .freelist) (.list i)
      freenumbers := d.freenumbers + 1 }
  else none

/-- `RT_CAN_CMD_SET_FILTER` for one item that is activated. -/
def setFilter (d : CanDevice maxhdr msgboxsz) (hdrBank : ℤ) (ind : Bool) :
    CanDevice maxhdr msgboxsz :=
  match bankOf maxhdr hdrBank with
  | none => d
  | some hdr =>
    if (d.hdr hdr).connected then d
    else
      { d with
        hdr := Function.update d.hdr hdr ⟨true, 0, ind⟩
        links := d.links.init (.head (.hdr hdr)) }

/-- The callbacks that are set: those of the banks that are connected, and that of the device. -/
def settings (d : CanDevice maxhdr msgboxsz) : (Fin maxhdr → Bool × Bool) × Bool :=
  (fun bank => ((d.hdr bank).connected, (d.hdr bank).ind), d.rxIndicate)

theorem detach_settings (d : CanDevice maxhdr msgboxsz) (i : Fin msgboxsz) :
    (d.detach i).settings = d.settings := by
  unfold settings
  simp only [detach_hdr]
  rfl

end CanDevice

/-- A device, and the nodes that readers have taken and not yet given back. -/
structure Reading (maxhdr msgboxsz : ℕ) where
  device : CanDevice maxhdr msgboxsz
  held : List (Fin msgboxsz)

/-- What happens next. A reader is known by its place among those that hold a node. -/
inductive Input
  | isr (overflow : Bool) (recvmsg : Option RtCanMsg)
  | take (hdrIndex : Int8)
  | give (reader : ℕ)
  | setFilter (hdrBank : ℤ) (ind : Bool)
  | setRxIndicate

/-- The device with its interrupts and readers, in any order. -/
def canDriver : Machine (Reading maxhdr msgboxsz) Input (Event maxhdr) where
  step s
    | .isr overflow recvmsg =>
      (s.device.rtHwCanIsr overflow recvmsg).map fun next => ({ s with device := next.1 }, next.2)
    | .take hdrIndex =>
      (s.device.take hdrIndex).map fun next =>
        match next.2 with
        | none => (⟨next.1, s.held⟩, [.empty])
        | some i => (⟨next.1, s.held ++ [i]⟩, [])
    | .give reader => do
      let i ← s.held[reader]?
      let device ← s.device.give i
      return (⟨device, s.held.eraseIdx reader⟩, [.read (s.device.data i)])
    | .setFilter hdrBank ind => some ({ s with device := s.device.setFilter hdrBank ind }, [])
    | .setRxIndicate => some ({ s with device := { s.device with rxIndicate := true } }, [])

/-! ### Where the nodes are -/

/-- The used nodes of a bank. -/
def banked (owner : Fin msgboxsz → Option (Fin maxhdr)) (used : List (Fin msgboxsz))
    (bank : Fin maxhdr) : List (Fin msgboxsz) :=
  used.filter (owner · = some bank)

/-- The lists, by the free nodes, the used ones and their owners. -/
def lists (owner : Fin msgboxsz → Option (Fin maxhdr)) (free used : List (Fin msgboxsz)) :
    Anchor maxhdr → List (Ptr maxhdr msgboxsz)
  | .freelist => free.map .list
  | .uselist => used.map .list
  | .hdr bank => (banked owner used bank).map .hdrlist

/-- The nodes in the hands of readers, the free ones and the used ones, the oldest first. -/
structure Mailed (d : CanDevice maxhdr msgboxsz) (held free used : List (Fin msgboxsz)) : Prop where
  arranged : d.links.Arranged Ptr.head (lists d.owner free used)
  places : (free ++ used ++ held).Perm (List.finRange msgboxsz)
  freenumbers : d.freenumbers = free.length
  msgs : ∀ bank, (d.hdr bank).msgs = (banked d.owner used bank).length
  owned : ∀ i bank, d.owner i = some bank → i ∈ used ∧ (d.hdr bank).connected = true

section Banks

variable {owner : Fin msgboxsz → Option (Fin maxhdr)} {i : Fin msgboxsz}
  {free used : List (Fin msgboxsz)}

theorem list_injective : Function.Injective (Ptr.list : Fin msgboxsz → Ptr maxhdr msgboxsz) :=
  fun _ _ same => Ptr.list.inj same

theorem hdrlist_injective : Function.Injective (Ptr.hdrlist : Fin msgboxsz → Ptr maxhdr msgboxsz) :=
  fun _ _ same => Ptr.hdrlist.inj same

theorem mem_banked {bank : Fin maxhdr} :
    i ∈ banked owner used bank ↔ i ∈ used ∧ owner i = some bank := by
  rw [banked, List.mem_filter, decide_eq_true_iff]

theorem banked_update (outside : i ∉ used) (new : Option (Fin maxhdr)) (bank : Fin maxhdr) :
    banked (Function.update owner i new) used bank = banked owner used bank := by
  apply List.filter_congr
  intro j member
  rw [Function.update_of_ne]
  rintro rfl
  exact outside member

variable (owner i) in
/-- The nodes of a bank after a node was taken out. -/
theorem banked_erase (once : used.Nodup) (bank : Fin maxhdr) :
    banked (Function.update owner i none) (used.erase i) bank =
      (banked owner used bank).erase i := by
  rw [banked_update once.not_mem_erase, banked, banked, once.erase_eq_filter,
    (once.filter _).erase_eq_filter, List.filter_filter, List.filter_filter]
  exact List.filter_congr fun _ _ => Bool.and_comm _ _

theorem erase_banked_of_ne {bank : Fin maxhdr} (other : owner i ≠ some bank) :
    (banked owner used bank).erase i = banked owner used bank :=
  List.erase_of_not_mem fun member => other (mem_banked.mp member).2

/-- The nodes of a bank after a node was appended. -/
theorem banked_append (outside : i ∉ used) (bank bank' : Fin maxhdr) :
    banked (Function.update owner i (some bank)) (used ++ [i]) bank' =
      banked owner used bank' ++ if bank' = bank then [i] else [] := by
  have first : banked (Function.update owner i (some bank)) used bank' = banked owner used bank' :=
    banked_update outside _ _
  unfold banked at first ⊢
  rw [List.filter_append, first]
  by_cases same : bank = bank'
  · simp [same]
  · simp [same, Ne.symm same]

theorem banked_lone (lone : owner i = none) (bank : Fin maxhdr) :
    banked owner (used ++ [i]) bank = banked owner used bank := by
  unfold banked
  rw [List.filter_append, List.filter_singleton, lone]
  exact List.append_nil _

/-- The second node of an element without owner is in no list. -/
theorem hdrlist_fresh (lone : owner i = none) (anchor : Anchor maxhdr) :
    Ptr.hdrlist i ∉ Ptr.head anchor :: lists owner free used anchor := by
  cases anchor with
  | freelist => simp [lists]
  | uselist => simp [lists]
  | hdr bank => simp [lists, mem_banked, lone]

theorem list_fresh (not_free : i ∉ free) (not_used : i ∉ used) (anchor : Anchor maxhdr) :
    Ptr.list i ∉ Ptr.head anchor :: lists owner free used anchor := by
  cases anchor with
  | freelist => simp [lists, not_free]
  | uselist => simp [lists, not_used]
  | hdr bank => simp [lists]

/-- The lists after a node without owner was taken out. -/
theorem lists_erase_use (once : used.Nodup) (lone : owner i = none) :
    Function.update (lists owner free used) .uselist ((lists owner free used .uselist).erase
      (.list i)) = lists owner free (used.erase i) := by
  funext anchor
  cases anchor with
  | freelist => rfl
  | uselist =>
    rw [Function.update_self]
    exact (List.map_erase list_injective _).symm
  | hdr bank =>
    rw [Function.update_of_ne (by simp)]
    have same := banked_erase owner i once bank
    rw [Function.update_eq_self_iff.mpr lone.symm, erase_banked_of_ne (by simp [lone])] at same
    exact congrArg (List.map Ptr.hdrlist) same.symm

/-- The lists after a node of a bank was taken out. -/
theorem lists_erase_hdr (once : used.Nodup) {bank : Fin maxhdr} (owned : owner i = some bank) :
    Function.update (Function.update (lists owner free used) .uselist
        ((lists owner free used .uselist).erase (.list i)))
      (.hdr bank) ((lists owner free used (.hdr bank)).erase (.hdrlist i)) =
      lists (Function.update owner i none) free (used.erase i) := by
  funext anchor
  cases anchor with
  | freelist => rfl
  | uselist =>
    rw [Function.update_of_ne (by simp), Function.update_self]
    exact (List.map_erase list_injective _).symm
  | hdr bank' =>
    have here := banked_erase owner i once bank'
    by_cases same : bank' = bank
    · subst same
      rw [Function.update_self]
      exact (List.map_erase hdrlist_injective _).symm.trans
        (congrArg (List.map Ptr.hdrlist) here.symm)
    · rw [Function.update_of_ne (by simpa using same), Function.update_of_ne (by simp)]
      have other : owner i ≠ some bank' := fun equal =>
        same (Option.some.inj (equal.symm.trans owned))
      rw [erase_banked_of_ne other] at here
      exact congrArg (List.map Ptr.hdrlist) here.symm

end Banks

namespace Mailed

variable {d : CanDevice maxhdr msgboxsz} {held free used : List (Fin msgboxsz)}
  {i : Fin msgboxsz}

theorem once (mailed : Mailed d held free used) : (free ++ used ++ held).Nodup :=
  mailed.places.nodup_iff.mpr (List.nodup_finRange msgboxsz)

theorem used_once (mailed : Mailed d held free used) : used.Nodup :=
  mailed.once.of_append_left.of_append_right

theorem hands (mailed : Mailed d held free used) {held' : List (Fin msgboxsz)}
    (same : held.Perm held') : Mailed d held' free used :=
  { mailed with places := (same.symm.append_left (free ++ used)).trans mailed.places }

theorem unowned (mailed : Mailed d held free used) (outside : i ∉ used) : d.owner i = none := by
  cases owner : d.owner i with
  | none => rfl
  | some bank => exact absurd (mailed.owned i bank owner).1 outside

/-- **A used node is taken out** of its lists. -/
theorem remove_used (mailed : Mailed d held free used) (here : i ∈ used) :
    ((d.links.remove (.list i)).remove (.hdrlist i)).Arranged Ptr.head
      (lists (Function.update d.owner i none) free (used.erase i)) := by
  have first := mailed.arranged.remove (h := .uselist) (List.mem_map_of_mem here)
  cases owner : d.owner i with
  | none =>
    rw [lists_erase_use mailed.used_once owner] at first
    have lone := first.alone (.hdrlist i) (hdrlist_fresh owner)
    rw [Links.remove_alone lone.1 lone.2, Function.update_eq_self_iff.mpr owner.symm]
    exact first
  | some bank =>
    have member : Ptr.hdrlist i ∈ lists d.owner free used (.hdr bank) :=
      List.mem_map_of_mem (mem_banked.mpr ⟨here, owner⟩)
    have second := first.remove (h := .hdr bank) (n := .hdrlist i)
      (by rwa [Function.update_of_ne (by simp)])
    rwa [Function.update_of_ne (by simp), lists_erase_hdr mailed.used_once owner] at second

/-- **A free node is taken out** of its list. -/
theorem remove_free (mailed : Mailed d held (i :: free) used) :
    ((d.links.remove (.list i)).remove (.hdrlist i)).Arranged Ptr.head
      (lists d.owner free used) := by
  have first := mailed.arranged.remove (h := .freelist) (n := .list i) List.mem_cons_self
  have same : Function.update (lists d.owner (i :: free) used) .freelist
      ((lists d.owner (i :: free) used .freelist).erase (.list i)) =
      lists d.owner free used := by
    funext anchor
    cases anchor with
    | freelist =>
      rw [Function.update_self]
      show (Ptr.list i :: free.map Ptr.list).erase (Ptr.list i) = free.map Ptr.list
      rw [List.erase_cons_head]
    | uselist => rfl
    | hdr bank => rfl
  rw [same] at first
  have once := mailed.once
  rw [List.append_assoc, List.cons_append] at once
  have owner := mailed.unowned fun member =>
    (List.nodup_cons.mp once).1 (List.mem_append_right _ (List.mem_append_left _ member))
  have lone := first.alone (.hdrlist i) (hdrlist_fresh owner)
  rw [Links.remove_alone lone.1 lone.2]
  exact first

/-- **A used node** goes into the hands of a reader. -/
theorem detach_used (mailed : Mailed d held free used) (here : i ∈ used) :
    Mailed (d.detach i) (held ++ [i]) free (used.erase i) where
  arranged := mailed.remove_used here
  places := by
    refine List.Perm.trans ?_ mailed.places
    rw [List.append_assoc, List.append_assoc]
    refine List.Perm.append_left free ?_
    have moved := (List.perm_cons_erase here).symm.append_right held
    refine List.Perm.trans ?_ moved
    rw [← List.append_assoc]
    exact List.perm_append_singleton i _
  freenumbers := mailed.freenumbers
  msgs bank := by
    show ((d.detach i).hdr bank).msgs =
      (banked (Function.update d.owner i none) (used.erase i) bank).length
    rw [banked_erase d.owner i mailed.used_once, CanDevice.detach_hdr]
    show (d.hdr bank).msgs - _ = _
    by_cases owner : d.owner i = some bank
    · have member : i ∈ banked d.owner used bank := mem_banked.mpr ⟨here, owner⟩
      rw [if_pos owner, mailed.msgs, List.length_erase_of_mem member]
    · rw [if_neg owner, erase_banked_of_ne owner, mailed.msgs, Nat.sub_zero]
  owned j bank owner := by
    have owner : Function.update d.owner i none j = some bank := owner
    have other : j ≠ i := by
      rintro rfl
      rw [Function.update_self] at owner
      cases owner
    rw [Function.update_of_ne other] at owner
    obtain ⟨member, connected⟩ := mailed.owned j bank owner
    rw [CanDevice.detach_hdr]
    exact ⟨(List.mem_erase_of_ne other).mpr member, connected⟩

/-- A node in the hands of a reader is neither free nor used. -/
theorem outside (mailed : Mailed d (held ++ [i]) free used) : i ∉ free ∧ i ∉ used := by
  have apart := List.disjoint_of_nodup_append mailed.once
  have last : i ∈ held ++ [i] := List.mem_append_right _ (List.mem_singleton_self i)
  exact ⟨fun member => apart (List.mem_append_left _ member) last,
    fun member => apart (List.mem_append_right _ member) last⟩

/-- **A node is given back.** -/
theorem give (mailed : Mailed d (held ++ [i]) free used) :
    ∃ d', d.give i = some d' ∧ Mailed d' held (free ++ [i]) used ∧ d'.data = d.data ∧
      d'.owner = d.owner ∧ d'.settings = d.settings ∧ d'.rcvpkg = d.rcvpkg ∧
      d'.dropedrcvpkg = d.dropedrcvpkg := by
  obtain ⟨not_free, not_used⟩ := mailed.outside
  have total := mailed.places.length_eq
  simp only [List.length_append, List.length_singleton, List.length_finRange] at total
  have room : d.freenumbers + 1 ≤ msgboxsz := by
    rw [mailed.freenumbers]
    omega
  refine ⟨_, if_pos room, ?_, rfl, rfl, rfl, rfl, rfl⟩
  have arranged := mailed.arranged.insertBefore .freelist (list_fresh not_free not_used)
  have same : Function.update (lists d.owner free used) .freelist
      (lists d.owner free used .freelist ++ [.list i]) = lists d.owner (free ++ [i]) used := by
    funext anchor
    cases anchor with
    | freelist =>
      rw [Function.update_self]
      show free.map Ptr.list ++ [i].map Ptr.list = (free ++ [i]).map Ptr.list
      rw [List.map_append]
    | uselist => rfl
    | hdr bank => rfl
  rw [same] at arranged
  refine ⟨arranged, List.Perm.trans ?_ mailed.places, ?_, mailed.msgs, mailed.owned⟩
  · simp only [List.append_assoc]
    refine List.Perm.append_left free ?_
    rw [← List.append_assoc used]
    exact List.perm_append_comm
  · rw [List.length_append, List.length_singleton, ← mailed.freenumbers]

/-- **A message is put** into a node, which becomes the latest used one. -/
theorem put (mailed : Mailed d (held ++ [i]) free used) (tmpmsg : RtCanMsg) :
    Mailed (d.put i tmpmsg) held free (used ++ [i]) := by
  obtain ⟨not_free, not_used⟩ := mailed.outside
  have lone := mailed.unowned not_used
  have arranged := mailed.arranged.insertBefore .uselist (list_fresh not_free not_used)
  have same : Function.update (lists d.owner free used) .uselist
      (lists d.owner free used .uselist ++ [.list i]) = lists d.owner free (used ++ [i]) := by
    funext anchor
    cases anchor with
    | freelist => rfl
    | uselist =>
      rw [Function.update_self]
      show used.map Ptr.list ++ [i].map Ptr.list = (used ++ [i]).map Ptr.list
      rw [List.map_append]
    | hdr bank => exact congrArg (List.map Ptr.hdrlist) (banked_lone lone bank).symm
  rw [same] at arranged
  refine ⟨arranged, List.Perm.trans ?_ mailed.places, mailed.freenumbers, fun bank => ?_,
    fun j bank owner => ?_⟩
  · simp only [List.append_assoc]
    exact (List.perm_append_comm.append_left used).append_left free
  · show (d.hdr bank).msgs = (banked d.owner (used ++ [i]) bank).length
    rw [banked_lone lone, mailed.msgs]
  · obtain ⟨member, connected⟩ := mailed.owned j bank owner
    exact ⟨List.mem_append_left _ member, connected⟩

/-- **The latest node** gets an owner. -/
theorem own (mailed : Mailed d held free (used ++ [i])) (lone : d.owner i = none)
    {bank : Fin maxhdr} (connected : (d.hdr bank).connected = true) :
    Mailed (d.own i bank) held free (used ++ [i]) := by
  have not_used : i ∉ used := fun member =>
    List.disjoint_of_nodup_append mailed.used_once member (List.mem_singleton_self i)
  have arranged := mailed.arranged.insertBefore (.hdr bank) (hdrlist_fresh lone)
  have banks (bank' : Fin maxhdr) :
      banked (Function.update d.owner i (some bank)) (used ++ [i]) bank' =
        banked d.owner (used ++ [i]) bank' ++ if bank' = bank then [i] else [] := by
    rw [banked_append not_used, banked_lone lone]
  have same : Function.update (lists d.owner free (used ++ [i])) (.hdr bank)
      (lists d.owner free (used ++ [i]) (.hdr bank) ++ [.hdrlist i]) =
      lists (Function.update d.owner i (some bank)) free (used ++ [i]) := by
    funext anchor
    cases anchor with
    | freelist => rfl
    | uselist => rfl
    | hdr bank' =>
      have here := congrArg (List.map (Ptr.hdrlist : Fin msgboxsz → Ptr maxhdr msgboxsz))
        (banks bank').symm
      by_cases equal : bank' = bank
      · subst equal
        rw [Function.update_self]
        rw [if_pos rfl, List.map_append] at here
        exact here
      · rw [Function.update_of_ne (by simpa using equal)]
        rw [if_neg equal, List.append_nil] at here
        exact here
  rw [same] at arranged
  refine ⟨arranged, mailed.places, mailed.freenumbers, fun bank' => ?_, fun j bank' owner => ?_⟩
  · show (Function.update d.hdr bank _ bank').msgs =
      (banked (Function.update d.owner i (some bank)) (used ++ [i]) bank').length
    rw [banks]
    by_cases equal : bank' = bank
    · subst equal
      rw [Function.update_self, if_pos rfl, List.length_append, ← mailed.msgs]
      rfl
    · rw [Function.update_of_ne equal, if_neg equal, List.append_nil, mailed.msgs]
  · have owner : Function.update d.owner i (some bank) j = some bank' := owner
    have kept : (d.hdr bank').connected = true →
        (Function.update d.hdr bank
          { d.hdr bank with msgs := (d.hdr bank).msgs + 1 } bank').connected = true := by
      by_cases equal : bank' = bank
      · subst equal
        exact fun _ => by rwa [Function.update_self]
      · exact fun connected => by rwa [Function.update_of_ne equal]
    by_cases here : j = i
    · subst here
      rw [Function.update_self] at owner
      obtain rfl := Option.some.inj owner
      exact ⟨List.mem_append_right _ (List.mem_singleton_self j), kept connected⟩
    · rw [Function.update_of_ne here] at owner
      obtain ⟨member, connected⟩ := mailed.owned j bank' owner
      exact ⟨member, kept connected⟩

end Mailed

end Robocon.Can
