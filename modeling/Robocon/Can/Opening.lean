/-
**What the links of a CAN device say.**

All nodes are free after `rt_can_open`, and a filter moves none. The links then lead to the node
that a reader asks for, and to the one that the interrupt may take.

* `mailed_opened`, `Mailed.setFilter` — the device after `rt_can_open` and after
  `RT_CAN_CMD_SET_FILTER`.
* `Mailed.take` — a reader takes the oldest node that it asks for.
* `Mailed.listmsg` — the node of a message is a free one, or else the oldest used one.
-/

import Robocon.Can.Device

namespace Robocon.Can

open Lib

variable {maxhdr msgboxsz : ℕ}

/-! ### Opening and filters -/

/-- Nodes that are appended to the free ones one after the other. -/
theorem arranged_free (nodes : List (Fin msgboxsz)) :
    ∀ {front : List (Fin msgboxsz)} {links : Links (Ptr maxhdr msgboxsz)},
      links.Arranged Ptr.head (lists (fun _ => none) front []) → (front ++ nodes).Nodup →
      (nodes.foldl (fun links i => links.insertBefore (.head .freelist) (.list i)) links).Arranged
        Ptr.head (lists (fun _ => none) (front ++ nodes) []) := by
  induction nodes with
  | nil =>
    intro front links arranged _
    rwa [List.append_nil]
  | cons i nodes ih =>
    intro front links arranged once
    have outside : i ∉ front := fun member =>
      List.disjoint_of_nodup_append once member List.mem_cons_self
    have next := arranged.insertBefore .freelist (list_fresh outside List.not_mem_nil)
    let unowned : Fin msgboxsz → Option (Fin maxhdr) := fun _ => none
    have same : Function.update (lists unowned front []) .freelist
        (lists unowned front [] .freelist ++ [.list i]) = lists unowned (front ++ [i]) [] := by
      funext anchor
      cases anchor with
      | freelist =>
        rw [Function.update_self]
        show front.map Ptr.list ++ [i].map Ptr.list = (front ++ [i]).map Ptr.list
        rw [List.map_append]
      | uselist => rfl
      | hdr bank => rfl
    have next := same ▸ next
    rw [List.append_cons] at once ⊢
    exact ih next once

/-- **After `rt_can_open`** all nodes are free. -/
theorem mailed_opened :
    Mailed (CanDevice.opened : CanDevice maxhdr msgboxsz) [] (List.finRange msgboxsz) [] where
  arranged := by
    have empty : (Links.alone : Links (Ptr maxhdr msgboxsz)).Arranged Ptr.head
        (lists (fun _ => none) [] []) := by
      have alone := Links.Arranged.init
        (fun _ _ same => Ptr.head.inj same :
          Function.Injective (Ptr.head : Anchor maxhdr → Ptr maxhdr msgboxsz))
      have same : (fun _ => [] : Anchor maxhdr → List (Ptr maxhdr msgboxsz)) =
          lists (fun _ => none) [] [] := by
        funext anchor
        cases anchor <;> rfl
      rwa [same] at alone
    exact arranged_free _ empty (List.nodup_finRange msgboxsz)
  places := by
    rw [List.append_nil, List.append_nil]
  freenumbers := (List.length_finRange).symm
  msgs _ := rfl
  owned _ _ owner := by cases owner

namespace Mailed

variable {d : CanDevice maxhdr msgboxsz} {held free used : List (Fin msgboxsz)}
  {i : Fin msgboxsz}

theorem banked_nil (mailed : Mailed d held free used) {bank : Fin maxhdr}
    (lone : (d.hdr bank).connected = false) : banked d.owner used bank = [] := by
  apply List.eq_nil_iff_forall_not_mem.mpr
  intro i member
  have connected := (mailed.owned i bank (mem_banked.mp member).2).2
  rw [lone] at connected
  cases connected

/-- **A filter is set.** A bank that is connected already stays as it is. -/
theorem setFilter (mailed : Mailed d held free used) (hdrBank : ℤ) (ind : Bool) :
    Mailed (d.setFilter hdrBank ind) held free used := by
  unfold CanDevice.setFilter
  split
  · exact mailed
  · next bank inside =>
    split
    · exact mailed
    · next lone =>
      have lone : (d.hdr bank).connected = false := by simpa using lone
      have none := mailed.banked_nil lone
      have ring := mailed.arranged.ring (.hdr bank)
      rw [show lists d.owner free used (.hdr bank) = [] from congrArg (List.map _) none] at ring
      refine ⟨?_, mailed.places, mailed.freenumbers, fun bank' => ?_, fun i bank' owner => ?_⟩
      · show (d.links.init (.head (.hdr bank))).Arranged Ptr.head _
        rw [Links.init_alone ring.1 ring.2]
        exact mailed.arranged
      · by_cases same : bank' = bank
        · subst same
          show (Function.update d.hdr bank' _ bank').msgs = (banked d.owner used bank').length
          rw [Function.update_self, none]
          rfl
        · show (Function.update d.hdr bank _ bank').msgs = _
          rw [Function.update_of_ne same]
          exact mailed.msgs bank'
      · obtain ⟨member, connected⟩ := mailed.owned i bank' owner
        have other : bank' ≠ bank := by
          rintro rfl
          rw [lone] at connected
          cases connected
        refine ⟨member, ?_⟩
        show (Function.update d.hdr bank _ bank').connected = true
        rwa [Function.update_of_ne other]

/-! ### What is taken -/

theorem uselist_isEmpty (mailed : Mailed d held free used) :
    d.links.isEmpty (.head .uselist) = true ↔ used = [] :=
  (mailed.arranged.isEmpty_iff .uselist).trans List.map_eq_nil_iff

theorem freelist_isEmpty (mailed : Mailed d held free used) :
    d.links.isEmpty (.head .freelist) = true ↔ free = [] :=
  (mailed.arranged.isEmpty_iff .freelist).trans List.map_eq_nil_iff

theorem hdr_isEmpty (mailed : Mailed d held free used) (bank : Fin maxhdr) :
    d.links.isEmpty (.head (.hdr bank)) = true ↔ banked d.owner used bank = [] :=
  (mailed.arranged.isEmpty_iff (.hdr bank)).trans List.map_eq_nil_iff

variable (maxhdr) in
/-- The nodes that a reader asks for: those of a bank, or all of them. -/
def Wanted (owner : Option (Fin maxhdr)) (hdrIndex : Int8) : Bool :=
  match bankOf maxhdr hdrIndex.toInt with
  | some bank => owner = some bank
  | none => hdrIndex = -1

/-- **The oldest node that is asked for** is taken. -/
theorem take (mailed : Mailed d held free used) (hdrIndex : Int8) :
    d.take hdrIndex =
      match used.find? fun i => Wanted maxhdr (d.owner i) hdrIndex with
      | none => some (d, none)
      | some i => some (d.detach i, some i) := by
  unfold CanDevice.take
  cases inside : bankOf maxhdr hdrIndex.toInt with
  | some bank =>
    have wanted : (fun i => Wanted maxhdr (d.owner i) hdrIndex) =
        fun i => decide (d.owner i = some bank) := by
      funext i
      simp only [Wanted, inside]
    rw [wanted, ← List.head?_filter]
    show _ = match (banked d.owner used bank).head? with | none => _ | some i => _
    cases nodes : banked d.owner used bank with
    | nil => exact if_neg (not_not.mpr ((mailed.hdr_isEmpty bank).mpr nodes))
    | cons i rest =>
      have nonempty : ¬ d.links.isEmpty (.head (.hdr bank)) = true := fun empty => by
        rw [(mailed.hdr_isEmpty bank).mp empty] at nodes
        cases nodes
      have first : d.links.next (.head (.hdr bank)) = .hdrlist i := by
        have next := mailed.arranged.next_anchor (.hdr bank)
        rw [show lists d.owner free used (.hdr bank) = (i :: rest).map Ptr.hdrlist from
          congrArg (List.map _) nodes] at next
        exact next
      have owner : d.owner i = some bank :=
        (mem_banked.mp (nodes ▸ List.mem_cons_self)).2
      refine (if_pos nonempty).trans ?_
      rw [first]
      show some (_, some i) = some (d.detach i, some i)
      rw [CanDevice.detach_owned owner]
  | none =>
    have wanted : (fun i => Wanted maxhdr (d.owner i) hdrIndex) =
        fun _ => decide (hdrIndex = -1) := by
      funext i
      simp only [Wanted, inside]
    rw [wanted]
    show (if hdrIndex = -1 ∧ _ then _ else _) = _
    by_cases all : hdrIndex = -1
    · cases used with
      | nil => exact if_neg fun both => both.2 (mailed.uselist_isEmpty.mpr rfl)
      | cons i rest =>
        have some : ¬ d.links.isEmpty (.head .uselist) = true := fun empty => by
          cases mailed.uselist_isEmpty.mp empty
        have first : d.links.next (.head .uselist) = .list i :=
          mailed.arranged.next_anchor .uselist
        refine (if_pos ⟨all, some⟩).trans ?_
        have taken : (i :: rest).find? (fun _ => decide (hdrIndex = -1)) = Option.some i :=
          List.find?_cons_of_pos (decide_eq_true all)
        rw [first, taken]
        rfl
    · have nothing : used.find? (fun _ => decide (hdrIndex = -1)) = none :=
        List.find?_eq_none.mpr fun _ _ => by simpa using all
      rw [if_neg fun both => all both.1, nothing]

/-- **The node of a message** is a free one, or else the oldest used one. -/
theorem listmsg (mailed : Mailed d held free used) (room : held.length < msgboxsz) :
    ∃ d' i free' used', d.listmsg = some (d', some i) ∧ Mailed d' (held ++ [i]) free' used' ∧
      d'.data = d.data ∧ d'.owner = Function.update d.owner i none ∧ d'.settings = d.settings ∧
      d'.rcvpkg = d.rcvpkg ∧
      (used.length + held.length < msgboxsz ∧ used' = used ∧ d'.dropedrcvpkg = d.dropedrcvpkg ∨
        ¬ used.length + held.length < msgboxsz ∧ used = i :: used' ∧
          d'.dropedrcvpkg = d.dropedrcvpkg + 1) := by
  have total := mailed.places.length_eq
  simp only [List.length_append, List.length_finRange] at total
  cases free with
  | cons i free =>
    have some : ¬ d.links.isEmpty (.head .freelist) = true := fun empty => by
      cases mailed.freelist_isEmpty.mp empty
    have first : d.links.next (.head .freelist) = .list i :=
      mailed.arranged.next_anchor .freelist
    have counted : (d.detach i).freenumbers > 0 := by
      show d.freenumbers > 0
      rw [mailed.freenumbers]
      exact Nat.succ_pos _
    have once := mailed.once
    rw [List.append_assoc, List.cons_append] at once
    have lone := mailed.unowned fun member =>
      (List.nodup_cons.mp once).1 (List.mem_append_right _ (List.mem_append_left _ member))
    have owner : Function.update d.owner i none = d.owner :=
      Function.update_eq_self_iff.mpr lone.symm
    refine ⟨{ d.detach i with freenumbers := d.freenumbers - 1 }, i, free, used, ?_, ?_, rfl, rfl,
      d.detach_settings i, rfl, Or.inl ⟨?_, rfl, rfl⟩⟩
    · unfold CanDevice.listmsg
      rw [if_pos some, first]
      exact if_pos counted
    · refine ⟨?_, ?_, ?_, fun bank => ?_, fun j bank owned => ?_⟩
      · show Links.Arranged _ _ (lists (Function.update d.owner i none) free used)
        rw [owner]
        exact mailed.remove_free
      · refine List.Perm.trans ?_ mailed.places
        rw [← List.append_assoc]
        exact List.perm_append_singleton i _
      · show d.freenumbers - 1 = free.length
        rw [mailed.freenumbers]
        rfl
      · show ((d.detach i).hdr bank).msgs =
          (banked (Function.update d.owner i none) used bank).length
        rw [d.detach_hdr, owner]
        show (d.hdr bank).msgs - _ = _
        rw [if_neg (by simp [lone]), mailed.msgs, Nat.sub_zero]
      · have owned : Function.update d.owner i none j = Option.some bank := owned
        rw [owner] at owned
        show _ ∧ ((d.detach i).hdr bank).connected = true
        rw [d.detach_hdr]
        exact mailed.owned j bank owned
    · rw [List.length_cons] at total
      omega
  | nil =>
    rw [List.length_nil] at total
    cases used with
    | nil =>
      rw [List.length_nil] at total
      omega
    | cons i used =>
      have some : ¬ d.links.isEmpty (.head .uselist) = true := fun empty => by
        cases mailed.uselist_isEmpty.mp empty
      have first : d.links.next (.head .uselist) = .list i :=
        mailed.arranged.next_anchor .uselist
      have after := mailed.detach_used (i := i) List.mem_cons_self
      rw [List.erase_cons_head] at after
      refine ⟨{ d.detach i with dropedrcvpkg := d.dropedrcvpkg + 1 }, i, [], used, ?_,
        ⟨after.arranged, after.places, after.freenumbers, after.msgs, after.owned⟩, rfl, rfl,
        d.detach_settings i, rfl, Or.inr ⟨?_, rfl, rfl⟩⟩
      · unfold CanDevice.listmsg
        rw [if_neg (not_not.mpr (mailed.freelist_isEmpty.mpr rfl)), if_pos some, first]
        rfl
      · omega

end Mailed

end Robocon.Can
