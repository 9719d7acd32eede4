import RuCCL.Library.Ring
import Mathlib.Data.List.Nodup
import Mathlib.Data.Fintype.Card

/-!
# Orders of rings

A ring goes through different members in some order.  A member's place is its
position in that order, counted around the ring.
-/

namespace RuCCL.Library

/-- Different members, one for each place of a ring. -/
structure RingOrder (ρ : Type) (size : Nat) where
  members : List ρ
  length_members : members.length = size
  nodup : members.Nodup

namespace RingOrder

variable {ρ : Type} {size : Nat}

instance [DecidableEq ρ] (ring : RingOrder ρ size) (rank : ρ) : Decidable (rank ∈ ring.members) :=
  inferInstance

section Places

variable [NeZero size] (ring : RingOrder ρ size)

/-- `ring[index % size]` -/
def memberAt (index : Nat) : ρ :=
  ring.members.get ⟨index % size, by
    rw [ring.length_members]
    exact Nat.mod_lt index (NeZero.pos size)⟩

/-- The member at a place. -/
def member (place : ZMod size) : ρ := ring.memberAt place.val

theorem memberAt_eq (index : Nat) : ring.memberAt index = ring.member (index : ZMod size) := by
  simp only [member, memberAt, ZMod.val_natCast, Nat.mod_mod]

/-- The members in their order. -/
theorem members_eq_map : ring.members = (List.range size).map ring.memberAt := by
  apply List.ext_getElem?
  intro index
  rw [List.getElem?_map]
  by_cases inside : index < size
  · rw [List.getElem?_range inside, List.getElem?_eq_getElem (ring.length_members.symm ▸ inside)]
    simp only [Option.map_some, memberAt, Nat.mod_eq_of_lt inside, List.get_eq_getElem]
  · rw [List.getElem?_eq_none (by rw [ring.length_members]; omega),
      List.getElem?_eq_none (by rw [List.length_range]; omega)]
    rfl

theorem member_mem (place : ZMod size) : ring.member place ∈ ring.members := List.get_mem ..

theorem member_injective : Function.Injective ring.member := by
  intro left right same
  have indices := (List.nodup_iff_injective_get.mp ring.nodup) same
  have values := congrArg Fin.val indices
  simp only [Nat.mod_eq_of_lt (ZMod.val_lt _)] at values
  exact ZMod.val_injective size values

end Places

section Positions

variable [DecidableEq ρ] (ring : RingOrder ρ size)

/-- Where a member stands in the order. -/
def position (rank : ρ) : Nat := ring.members.idxOf rank

/-- The place of a member. -/
def place (rank : ρ) : ZMod size := (ring.position rank : ZMod size)

theorem position_lt {rank : ρ} (among : rank ∈ ring.members) : ring.position rank < size := by
  have inside := List.idxOf_lt_length_of_mem among
  rwa [ring.length_members] at inside

variable [NeZero size]

theorem memberAt_position {rank : ρ} (among : rank ∈ ring.members) :
    ring.memberAt (ring.position rank) = rank := by
  have bounded := ring.position_lt among
  simp only [memberAt, Nat.mod_eq_of_lt bounded]
  exact List.getElem_idxOf (List.idxOf_lt_length_of_mem among)

@[simp]
theorem member_place {rank : ρ} (among : rank ∈ ring.members) :
    ring.member (ring.place rank) = rank := by
  rw [place, ← memberAt_eq]
  exact ring.memberAt_position among

@[simp]
theorem place_member (place : ZMod size) : ring.place (ring.member place) = place :=
  ring.member_injective (ring.member_place (ring.member_mem place))

/-- The member behind another one. -/
def next (rank : ρ) : ρ := ring.member (ring.place rank + 1)

/-- The member before another one. -/
def previous (rank : ρ) : ρ := ring.member (ring.place rank - 1)

theorem next_mem (rank : ρ) : ring.next rank ∈ ring.members := ring.member_mem _

theorem previous_mem (rank : ρ) : ring.previous rank ∈ ring.members := ring.member_mem _

theorem next_previous {rank : ρ} (among : rank ∈ ring.members) :
    ring.next (ring.previous rank) = rank := by
  rw [next, previous, place_member, sub_add_cancel, ring.member_place among]

theorem previous_next {rank : ρ} (among : rank ∈ ring.members) :
    ring.previous (ring.next rank) = rank := by
  rw [next, previous, place_member, add_sub_cancel_right, ring.member_place among]

/-- The member so many places behind another one. -/
def ahead (shift : ZMod size) (rank : ρ) : ρ := ring.member (ring.place rank + shift)

/-- The member so many places before another one. -/
def behind (shift : ZMod size) (rank : ρ) : ρ := ring.member (ring.place rank - shift)

theorem ahead_mem (shift : ZMod size) (rank : ρ) : ring.ahead shift rank ∈ ring.members :=
  ring.member_mem _

theorem behind_mem (shift : ZMod size) (rank : ρ) : ring.behind shift rank ∈ ring.members :=
  ring.member_mem _

theorem ahead_behind (shift : ZMod size) {rank : ρ} (among : rank ∈ ring.members) :
    ring.ahead shift (ring.behind shift rank) = rank := by
  simp [ahead, behind, among]

theorem behind_ahead (shift : ZMod size) {rank : ρ} (among : rank ∈ ring.members) :
    ring.behind shift (ring.ahead shift rank) = rank := by
  simp [ahead, behind, among]

/-- A member that moves leaves its place. -/
theorem ahead_ne {shift : ZMod size} (moves : shift ≠ 0) (rank : ρ) :
    ring.ahead shift rank ≠ rank := by
  intro same
  have places := congrArg ring.place same
  rw [ahead, place_member, add_eq_left] at places
  exact moves places

theorem place_behind (shift : ZMod size) (rank : ρ) :
    ring.place (ring.behind shift rank) = ring.place rank - shift :=
  ring.place_member _

/-- Going round the ring without leaving the naturals. -/
theorem memberAt_back {rank : ρ} {ahead back : Nat}
    (near : back ≤ ring.position rank + ahead * size) :
    ring.memberAt (ring.position rank + ahead * size - back) =
      ring.member (ring.place rank - (back : ZMod size)) := by
  rw [memberAt_eq, Nat.cast_sub near, place]
  simp

/-- `ring[(position + 1) % size]` -/
theorem memberAt_ahead (rank : ρ) : ring.memberAt (ring.position rank + 1) = ring.next rank := by
  rw [memberAt_eq, next, place, Nat.cast_succ]

/-- `ring[(position + size - 1) % size]` -/
theorem memberAt_behind (rank : ρ) :
    ring.memberAt (ring.position rank + size - 1) = ring.previous rank := by
  have positive := NeZero.pos size
  have back := @memberAt_back _ _ _ ring _ rank 1 1 (by omega)
  rwa [Nat.one_mul, Nat.cast_one] at back

/-- `ring[(position + distance) % size]` -/
theorem memberAt_forward (rank : ρ) (distance : Nat) :
    ring.memberAt (ring.position rank + distance) = ring.ahead (distance : ZMod size) rank := by
  rw [memberAt_eq, ahead, place, Nat.cast_add]

/-- `ring[(position + size - distance) % size]` -/
theorem memberAt_backward (rank : ρ) {distance : Nat} (near : distance ≤ size) :
    ring.memberAt (ring.position rank + size - distance) =
      ring.behind (distance : ZMod size) rank := by
  have back := @memberAt_back _ _ _ ring _ rank 1 distance (by omega)
  rwa [Nat.one_mul] at back

/-- Every member stands behind another one at some distance. -/
theorem exists_behind (rank : ρ) {other : ρ} (among : other ∈ ring.members) :
    ∃ distance < size, ring.behind (distance : ZMod size) rank = other := by
  refine ⟨(ring.place rank - ring.place other).val, ZMod.val_lt _, ?_⟩
  rw [ZMod.natCast_zmod_val, behind, sub_sub_cancel, ring.member_place among]

/-- What goes round a ring is the reduction of what its members have. -/
theorem reduceAll_members {α : Type} (op : α → α → α)
    [Std.Associative op] [Std.Commutative op] (values : ρ → α)
    (start : ZMod size) :
    reduceAll op (ring.members.map values) =
      some (ringTotal op (fun place => values (ring.member place)) start (size - 1)) := by
  have distinct : (ring.members.map ring.place).Nodup := by
    refine ring.nodup.map_on ?_
    intro rank among other otherAmong same
    rw [← ring.member_place among, same, ring.member_place otherAmong]
  have complete (place : ZMod size) : place ∈ ring.members.map ring.place :=
    List.mem_map.mpr ⟨_, ring.member_mem place, ring.place_member place⟩
  rw [← ringTotal_eq_reduceAll op _ start distinct complete, List.map_map]
  congr 1
  refine List.map_congr_left fun rank among => ?_
  rw [Function.comp_apply, ring.member_place among]

end Positions

/-- An order of as many ranks as there are goes through all of them. -/
theorem mem_members [NeZero size] (ring : RingOrder (Fin size) size)
    (rank : Fin size) : rank ∈ ring.members := by
  have bijective : Function.Bijective ring.member :=
    (Fintype.bijective_iff_injective_and_card _).mpr
      ⟨ring.member_injective, by rw [ZMod.card, Fintype.card_fin]⟩
  obtain ⟨place, same⟩ := bijective.surjective rank
  rw [← same]
  exact ring.member_mem place

/-- The order of a ring rearranges the ranks. -/
theorem members_perm [NeZero size] (ring : RingOrder (Fin size) size) :
    ring.members.Perm (List.finRange size) :=
  (List.perm_ext_iff_of_nodup ring.nodup (List.nodup_finRange size)).mpr
    fun rank => iff_of_true (ring.mem_members rank) (List.mem_finRange rank)

/-- The places of a ring and the ranks that stand there. -/
def order [NeZero size] (ring : RingOrder (Fin size) size) :
    ZMod size ≃ Fin size where
  toFun := ring.member
  invFun := ring.place
  left_inv := ring.place_member
  right_inv := fun rank => ring.member_place (ring.mem_members rank)

end RingOrder

/-- The places of a ring in the order of their numbers. -/
def placeOrder (size : Nat) [NeZero size] : ZMod size ≃ Fin size where
  toFun := fun place => ⟨place.val, ZMod.val_lt place⟩
  invFun := fun index => (index.val : ZMod size)
  left_inv := fun place => ZMod.natCast_zmod_val place
  right_inv := fun index =>
    Fin.ext (ZMod.val_cast_of_lt index.isLt)

theorem placeOrder_natCast {size : Nat} [NeZero size] (index : Nat) :
    (placeOrder size (index : ZMod size)).val = index % size :=
  ZMod.val_natCast size index

end RuCCL.Library
