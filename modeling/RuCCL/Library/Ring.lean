import RuCCL.Library.Result
import RuCCL.Library.Slice
import Mathlib.Data.ZMod.Basic
import Mathlib.Data.List.Perm.Basic
import Mathlib.Tactic.LinearCombination
import Mathlib.Tactic.Ring

/-!
# Rings of positions

Each position of a ring passes values on to the next one.  A reduction collects
the values of all positions on one way round; a spread carries the value of one
position to all the others.
-/

namespace RuCCL.Library

section Reduction

variable {α : Type*}

/-- The values combined from left to right. -/
def reduceAll (op : α → α → α) : List α → Option α
  | [] => none
  | first :: rest => some (rest.foldl op first)

theorem reduceAll_append_singleton (op : α → α → α) (values : List α) (last total : α)
    (reduced : reduceAll op values = some total) :
    reduceAll op (values ++ [last]) = some (op total last) := by
  cases values with
  | nil => cases reduced
  | cons first rest =>
      simp only [reduceAll, Option.some.injEq] at reduced
      simp [reduceAll, reduced]

/-- Under an associative and commutative operation the order of the values does
not matter. -/
theorem reduceAll_perm (op : α → α → α) [Std.Associative op] [Std.Commutative op]
    {first second : List α} (permuted : first.Perm second) :
    reduceAll op first = reduceAll op second := by
  induction permuted with
  | nil => rfl
  | cons head tail _ => exact congrArg some tail.foldl_op_eq
  | swap left right rest =>
      simp only [reduceAll, List.foldl_cons]
      have commuted : op right left = op left right := Std.Commutative.comm right left
      rw [commuted]
  | trans _ _ firstHypothesis secondHypothesis => exact firstHypothesis.trans secondHypothesis

/-- A reduced block counts as its total. -/
theorem foldl_eq_op (op : α → α → α) [Std.Associative op] {block : List α} {total : α}
    (reduced : reduceAll op block = some total) (start : α) :
    block.foldl op start = op start total := by
  cases block with
  | nil => cases reduced
  | cons first rest =>
      cases reduced
      rw [List.foldl_cons, List.foldl_assoc]

/-- Under an associative operation blocks can be reduced on their own. -/
theorem reduceAll_flatMap {ι : Type*} (op : α → α → α) [Std.Associative op] {sources : List ι}
    {blocks : ι → List α} {totals : ι → α}
    (reduced : ∀ source ∈ sources, reduceAll op (blocks source) = some (totals source)) :
    reduceAll op (sources.flatMap blocks) = reduceAll op (sources.map totals) := by
  have folded (rest : List ι) (among : ∀ source ∈ rest, source ∈ sources) :
      ∀ start, (rest.flatMap blocks).foldl op start = (rest.map totals).foldl op start := by
    induction rest with
    | nil =>
        intro start
        rfl
    | cons source rest ih =>
        intro start
        have block := reduced source (among source List.mem_cons_self)
        rw [List.flatMap_cons, List.foldl_append, foldl_eq_op op block,
          List.map_cons, List.foldl_cons]
        exact ih (fun other member => among other (List.mem_cons_of_mem _ member)) _
  cases sources with
  | nil => rfl
  | cons source rest =>
      have block := reduced source List.mem_cons_self
      cases listed : blocks source with
      | nil =>
          rw [listed] at block
          cases block
      | cons first others =>
          rw [listed, reduceAll] at block
          rw [List.flatMap_cons, listed, List.cons_append, reduceAll,
            List.foldl_append, Option.some.inj block,
            folded rest fun other member => List.mem_cons_of_mem _ member]
          rfl

/-- Buffers combined element by element, one after the other. -/
def reduceBuffers {ι : Type*} {length : Nat} (op : α → α → α)
    (values : ι → Buffer α length) (first : ι) (others : List ι) :
    Buffer α length :=
  fun element =>
    others.foldl (fun total other => op total (values other element)) (values first element)

theorem reduceAll_reduceBuffers {ι : Type*} {length : Nat} (op : α → α → α)
    (values : ι → Buffer α length) (first : ι) (others : List ι)
    (element : Fin length) :
    reduceAll op ((first :: others).map fun source =>
      values source element) =
      some (reduceBuffers op values first others element) := by
  rw [List.map_cons, reduceAll, List.foldl_map]
  rfl

/-- Merging whole buffers one after the other reduces them. -/
theorem foldl_mergeAt_ofFn {ι : Type*} {length : Nat} (op : α → α → α)
    (values : ι → Buffer α length) (others : List ι)
    (start : Buffer α length) :
    others.foldl (fun total other =>
      mergeAt op 0 (List.ofFn (values other)) total) start =
      fun element =>
        others.foldl (fun total other => op total (values other element)) (start element) := by
  induction others generalizing start with
  | nil => rfl
  | cons first rest ih =>
      have merged := mergeAt_readAt op ⟨0, length⟩ (values first) start
      rw [readAt_all] at merged
      rw [List.foldl_cons, ih, merged]
      funext element
      have covered : (⟨0, length⟩ : Span).Covers element := ⟨Nat.zero_le _, element.isLt⟩
      dsimp only
      rw [List.foldl_cons, if_pos covered]

end Reduction

section Ring

variable {size : Nat} {α ι : Type*}

/-- How many places `position` lies behind `start`. -/
def ringDistance (start position : ZMod size) : Nat := (position - start).val

variable [NeZero size]

theorem ringDistance_lt (start position : ZMod size) : ringDistance start position < size :=
  ZMod.val_lt _

theorem ringDistance_eq_iff {start position : ZMod size} {count : Nat} (bounded : count < size) :
    ringDistance start position = count ↔ position = start + count := by
  constructor
  · intro distance
    have back : ((ringDistance start position : Nat) : ZMod size) =
        position - start := ZMod.natCast_zmod_val _
    rw [distance] at back
    rw [back]
    ring
  · intro place
    rw [place, ringDistance, add_sub_cancel_left, ZMod.val_cast_of_lt bounded]

/-- The position before one that is not the start lies one place nearer. -/
theorem ringDistance_pred {start position : ZMod size} {count : Nat}
    (distance : ringDistance start position = count + 1) :
    ringDistance start (position - 1) = count := by
  have bounded : count + 1 < size := distance ▸ ringDistance_lt start position
  rw [ringDistance_eq_iff bounded] at distance
  rw [ringDistance_eq_iff (Nat.lt_of_succ_lt bounded), distance]
  push_cast
  ring

/-- The values of `start` and of the `count` positions behind it, each combined
with what arrived there. -/
def ringTotal (op : α → α → α) (values : ZMod size → α) (start : ZMod size) : Nat → α
  | 0 => values start
  | count + 1 =>
      op (values (start + ((count + 1 : Nat) : ZMod size))) (ringTotal op values start count)

/-- What a position holds once the value of `start` has moved `time` places. -/
def reducing (op : α → α → α) (values : ZMod size → α)
    (start : ZMod size) (time : Nat) (position : ZMod size) : α :=
  if ringDistance start position ≤ time then
    ringTotal op values start (ringDistance start position)
  else values position

theorem reducing_zero (op : α → α → α) (values : ZMod size → α) (start position : ZMod size) :
    reducing op values start 0 position = values position := by
  unfold reducing
  split
  · rename_i near
    have distance : ringDistance start position = 0 := by omega
    have place := (ringDistance_eq_iff (NeZero.pos size)).mp distance
    rw [distance, ringTotal, place]
    simp
  · rfl

/-- One more place: the next position takes the total that has come to the one
before it. -/
theorem reducing_succ (op : α → α → α) (values : ZMod size → α)
    (start : ZMod size) (time : Nat) (bounded : time + 1 < size)
    (position : ZMod size) :
    reducing op values start (time + 1) position =
      if position = start + ((time + 1 : Nat) : ZMod size) then
        op (reducing op values start time position) (reducing op values start time (position - 1))
      else reducing op values start time position := by
  by_cases place : position = start + ((time + 1 : Nat) : ZMod size)
  · have distance := (ringDistance_eq_iff bounded).mpr place
    have before := ringDistance_pred distance
    rw [if_pos place]
    unfold reducing
    rw [distance, before, if_pos le_rfl, if_neg (by omega), if_pos le_rfl,
      ringTotal, ← place]
  · have distance : ringDistance start position ≠ time + 1 :=
      fun same => place ((ringDistance_eq_iff bounded).mp same)
    rw [if_neg place]
    unfold reducing
    have same : ringDistance start position ≤ time + 1 ↔ ringDistance start position ≤ time := by
      omega
    simp only [same]

/-- The position before the start ends with the whole total. -/
theorem reducing_last (op : α → α → α) (values : ZMod size → α) (start : ZMod size) :
    reducing op values start (size - 1) (start - 1) = ringTotal op values start (size - 1) := by
  have positive := NeZero.pos size
  have wrapped : ((size - 1 : Nat) : ZMod size) = -1 := by
    rw [Nat.cast_pred positive]
    simp
  have distance : ringDistance start (start - 1) = size - 1 := by
    rw [ringDistance_eq_iff (by omega), wrapped]
    ring
  rw [reducing, distance, if_pos le_rfl]

omit [NeZero size] in
/-- The total is the reduction of the values in the order of the ring. -/
theorem reduceAll_ring (op : α → α → α) [Std.Commutative op]
    (values : ZMod size → α) (start : ZMod size) (count : Nat) :
    reduceAll op ((List.range (count + 1)).map fun place : Nat =>
      values (start + (place : ZMod size))) =
      some (ringTotal op values start count) := by
  induction count with
  | zero => simp [reduceAll, ringTotal]
  | succ before ih =>
      rw [List.range_succ, List.map_append, List.map_singleton,
        reduceAll_append_singleton _ _ _ _ ih, ringTotal]
      exact congrArg some (Std.Commutative.comm _ _)

/-- The places of the ring, counted from `start`, are all its positions. -/
theorem perm_places {order : List (ZMod size)} (distinct : order.Nodup)
    (complete : ∀ position, position ∈ order) (start : ZMod size) :
    ((List.range size).map fun place : Nat =>
      start + (place : ZMod size)).Perm order := by
  have separate : ((List.range size).map fun place : Nat =>
      start + (place : ZMod size)).Nodup := by
    refine List.Nodup.map_on ?_ List.nodup_range
    intro left leftMember right rightMember same
    have equal := congrArg ZMod.val (add_left_cancel same)
    rwa [ZMod.val_cast_of_lt (List.mem_range.mp leftMember),
      ZMod.val_cast_of_lt (List.mem_range.mp rightMember)] at equal
  rw [List.perm_ext_iff_of_nodup separate distinct]
  intro position
  constructor
  · intro _
    exact complete position
  · intro _
    refine List.mem_map.mpr ⟨ringDistance start position,
      List.mem_range.mpr (ringDistance_lt start position), ?_⟩
    exact ((ringDistance_eq_iff (ringDistance_lt start position)).mp rfl).symm

/-- Under an associative and commutative operation the total is the reduction in
any order of the positions. -/
theorem ringTotal_eq_reduceAll (op : α → α → α) [Std.Associative op] [Std.Commutative op]
    (values : ZMod size → α) (start : ZMod size)
    {order : List (ZMod size)} (distinct : order.Nodup)
    (complete : ∀ position, position ∈ order) :
    reduceAll op (order.map values) = some (ringTotal op values start (size - 1)) := by
  have positive := NeZero.pos size
  have permuted := (perm_places distinct complete start).map values
  rw [← reduceAll_perm op permuted, List.map_map, ← reduceAll_ring op values start (size - 1),
    Nat.sub_add_cancel positive]
  rfl

/-- What a position holds once the value of `start` has been copied `time` places
on. -/
def spreading (values : ZMod size → α) (start : ZMod size) (time : Nat)
    (position : ZMod size) : α :=
  if ringDistance start position ≤ time then values start
  else values position

theorem spreading_zero (values : ZMod size → α) (start position : ZMod size) :
    spreading values start 0 position = values position := by
  unfold spreading
  split
  · rename_i near
    have distance : ringDistance start position = 0 := by omega
    have place := (ringDistance_eq_iff (NeZero.pos size)).mp distance
    rw [place]
    simp
  · rfl

theorem spreading_succ (values : ZMod size → α) (start : ZMod size) (time : Nat)
    (bounded : time + 1 < size) (position : ZMod size) :
    spreading values start (time + 1) position =
      if position = start + ((time + 1 : Nat) : ZMod size) then
        spreading values start time (position - 1)
      else spreading values start time position := by
  by_cases place : position = start + ((time + 1 : Nat) : ZMod size)
  · have distance := (ringDistance_eq_iff bounded).mpr place
    have before := ringDistance_pred distance
    rw [if_pos place]
    unfold spreading
    rw [distance, before, if_pos le_rfl, if_pos le_rfl]
  · have distance : ringDistance start position ≠ time + 1 :=
      fun same => place ((ringDistance_eq_iff bounded).mp same)
    rw [if_neg place]
    unfold spreading
    have same : ringDistance start position ≤ time + 1 ↔ ringDistance start position ≤ time := by
      omega
    simp only [same]

theorem spreading_last (values : ZMod size → α) (start position : ZMod size) :
    spreading values start (size - 1) position = values start := by
  have bounded := ringDistance_lt start position
  rw [spreading, if_pos (by omega)]

/-! ## Rounds

The values are spread over slots, and in a round every position passes one slot
on.  With lead `lead`, position `p` sends slot `p + lead - time` at `time`. -/

/-- What the positions hold after a round: the element of the passed slot is
combined with the one that arrived. -/
def ringRound (combine : α → α → α) (slot : ι → ZMod size)
    (lead : ZMod size) (time : Nat) (values : ZMod size → ι → α) :
    ZMod size → ι → α :=
  fun position element =>
    if slot element = position - 1 + lead - (time : ZMod size) then
      combine (values position element) (values (position - 1) element)
    else values position element

omit [NeZero size] in
theorem passed_iff (slot lead position : ZMod size) (time : Nat) :
    slot = position - 1 + lead - (time : ZMod size) ↔
      position = slot - lead + ((time + 1 : Nat) : ZMod size) := by
  push_cast
  constructor
  · intro same
    rw [same]
    ring
  · intro same
    rw [same]
    ring

theorem ringRound_reducing (op : α → α → α) (slot : ι → ZMod size) (lead : ZMod size)
    (time : Nat) (bounded : time + 1 < size)
    (values : ZMod size → ι → α) :
    ringRound op slot lead time (fun position element =>
      reducing op (values · element) (slot element - lead) time position) =
      fun position element =>
        reducing op (values · element) (slot element - lead) (time + 1)
          position := by
  funext position element
  rw [reducing_succ _ _ _ _ bounded, ringRound]
  simp only [passed_iff]

theorem ringRound_spreading (slot : ι → ZMod size) (lead : ZMod size)
    (time : Nat) (bounded : time + 1 < size)
    (values : ZMod size → ι → α) :
    ringRound (fun _ arrived => arrived) slot lead time
      (fun position element =>
        spreading (values · element) (slot element - lead) time position) =
      fun position element =>
        spreading (values · element) (slot element - lead) (time + 1)
          position := by
  funext position element
  rw [spreading_succ _ _ _ bounded, ringRound]
  simp only [passed_iff]

/-! A round can be run one position after the other: what a position sends has not
been changed by the position before it. -/

/-- One position passes its slot on to the next one. -/
def passOn (combine : α → α → α) (slot : ι → ZMod size)
    (lead : ZMod size) (time : Nat) (source : ZMod size)
    (values : ZMod size → ι → α) : ZMod size → ι → α :=
  fun position element =>
    if position = source + 1 ∧ slot element = source + lead - (time : ZMod size) then
      combine (values position element) (values source element)
    else values position element

/-- A round in which the first `count` positions have passed their slots on. -/
def partialRound (combine : α → α → α) (slot : ι → ZMod size)
    (lead : ZMod size) (time count : Nat) (values : ZMod size → ι → α) :
    ZMod size → ι → α :=
  fun position element =>
    if (position - 1).val < count ∧ slot element = position - 1 + lead - (time : ZMod size) then
      combine (values position element) (values (position - 1) element)
    else values position element

omit [NeZero size] in
theorem partialRound_zero (combine : α → α → α) (slot : ι → ZMod size)
    (lead : ZMod size) (time : Nat) (values : ZMod size → ι → α) :
    partialRound combine slot lead time 0 values = values := by
  funext position element
  exact if_neg fun both => Nat.not_lt_zero _ both.1

theorem partialRound_all (combine : α → α → α) (slot : ι → ZMod size)
    (lead : ZMod size) (time : Nat) (values : ZMod size → ι → α) :
    partialRound combine slot lead time size values =
      ringRound combine slot lead time values := by
  funext position element
  rw [partialRound, ringRound]
  simp only [ZMod.val_lt, true_and]

theorem passOn_partialRound (combine : α → α → α) (slot : ι → ZMod size)
    (lead : ZMod size) (time : Nat) {count : Nat} (several : 1 < size)
    (within : count < size) (values : ZMod size → ι → α) :
    passOn combine slot lead time (count : ZMod size)
        (partialRound combine slot lead time count values) =
      partialRound combine slot lead time (count + 1) values := by
  funext position element
  by_cases target : position = (count : ZMod size) + 1
  · have before : position - 1 = (count : ZMod size) := by
      rw [target, add_sub_cancel_right]
    have place : (position - 1).val = count := by
      rw [before, ZMod.val_cast_of_lt within]
    have untouched : partialRound combine slot lead time count values
        position element = values position element :=
      if_neg fun both => Nat.lt_irrefl _ (place ▸ both.1)
    by_cases sent : slot element = (count : ZMod size) + lead - (time : ZMod size)
    · have fresh : partialRound combine slot lead time count values (count : ZMod size) element =
            values (count : ZMod size) element := by
        refine if_neg fun both => ?_
        have same := both.2.symm.trans sent
        have apart : (1 : ZMod size) ≠ 0 := by
          have := Fact.mk several
          exact one_ne_zero
        refine apart ?_
        linear_combination -same
      rw [passOn, if_pos ⟨target, sent⟩, untouched, fresh, partialRound,
        if_pos ⟨by omega, by rw [before]; exact sent⟩, before]
    · rw [passOn, if_neg fun both => sent both.2, untouched, partialRound,
        if_neg fun both => sent (before ▸ both.2)]
  · have elsewhere : (position - 1).val ≠ count := by
      intro same
      refine target ?_
      rw [← same, ZMod.natCast_zmod_val, sub_add_cancel]
    have sameBound : (position - 1).val < count + 1 ↔ (position - 1).val < count := by
      omega
    rw [passOn, if_neg fun both => target both.1, partialRound, partialRound]
    simp only [sameBound]

/-- A reduction with lead `lead`, spread with the next lead, leaves every
position with the totals of all slots. -/
theorem spreading_reducing (op : α → α → α) (values : ZMod size → α)
    (slot lead position : ZMod size) :
    spreading (reducing op values (slot - lead) (size - 1))
      (slot - (lead + 1)) (size - 1) position =
      ringTotal op values (slot - lead) (size - 1) := by
  rw [spreading_last, ← reducing_last op values (slot - lead)]
  congr 1
  ring

/-- The values of all positions in their order. -/
def ranked (values : ZMod size → α) : List α :=
  (List.range size).map fun rank : Nat => values (rank : ZMod size)

omit [NeZero size] in
@[simp]
theorem length_ranked (values : ZMod size → α) : (ranked values).length = size := by
  simp [ranked]

omit [NeZero size] in
theorem map_ranked (values : ZMod size → α) (change : α → ι) :
    (ranked values).map change = ranked fun rank => change (values rank) := by
  simp only [ranked, List.map_map]
  rfl

omit [NeZero size] in
theorem getElem?_ranked (values : ZMod size → α) {rank : Nat} (within : rank < size) :
    (ranked values)[rank]? = some (values (rank : ZMod size)) := by
  simp [ranked, List.getElem?_range within]

theorem getElem?_ranked_val (values : ZMod size → α) (position : ZMod size) :
    (ranked values)[position.val]? = some (values position) := by
  rw [getElem?_ranked values (ZMod.val_lt position), ZMod.natCast_zmod_val]

theorem set_ranked (values : ZMod size → α) (position : ZMod size) (value : α) :
    (ranked values).set position.val value = ranked (Function.update values position value) := by
  apply List.ext_getElem?
  intro index
  by_cases inside : index < size
  · have place : index = (index : ZMod size).val := (ZMod.val_cast_of_lt inside).symm
    rw [getElem?_ranked _ inside, List.getElem?_set, length_ranked,
      if_pos (ZMod.val_lt position), getElem?_ranked _ inside]
    by_cases same : position = (index : ZMod size)
    · rw [same, ← place, if_pos rfl, Function.update_self]
    · rw [if_neg fun equal => same (ZMod.val_injective size
        (equal.trans place)), Function.update_of_ne (Ne.symm same)]
  · rw [List.getElem?_eq_none (by simpa using inside),
      List.getElem?_eq_none (by simpa using inside)]

omit [NeZero size] in
/-- Going `back` places, without leaving the naturals. -/
theorem cast_back {rank back : Nat} (near : back ≤ rank + size) :
    ((rank + size - back : Nat) : ZMod size) = (rank : ZMod size) - (back : ZMod size) := by
  rw [Nat.cast_sub near]
  simp

omit [NeZero size] in
theorem zipIdx_ranked (values : ZMod size → α) :
    (ranked values).zipIdx = (List.range size).map fun rank : Nat =>
        (values (rank : ZMod size), rank) := by
  apply List.ext_getElem?
  intro index
  rw [List.getElem?_zipIdx]
  by_cases inside : index < size
  · rw [getElem?_ranked values inside]
    simp [List.getElem?_range inside]
  · rw [List.getElem?_eq_none (by simpa using inside),
      List.getElem?_eq_none (by simpa using inside)]
    rfl

theorem exists_ranked {entries : List α} (known : entries.length = size) :
    ∃ values : ZMod size → α, entries = ranked values := by
  have bound (position : ZMod size) : position.val < entries.length :=
    known ▸ ZMod.val_lt position
  refine ⟨fun position => entries.get ⟨position.val, bound position⟩, ?_⟩
  apply List.ext_getElem?
  intro index
  by_cases inside : index < size
  · rw [getElem?_ranked _ inside]
    simp only [List.get_eq_getElem, ZMod.val_cast_of_lt inside]
    exact List.getElem?_eq_getElem (known ▸ inside)
  · rw [List.getElem?_eq_none (by omega),
      List.getElem?_eq_none (by simpa using inside)]

omit [NeZero size] in
theorem mapM_range_eq_ranked {ε β : Type} {action : Nat → Except ε β} (values : ZMod size → β)
    (each : ∀ rank, rank < size → action rank = .ok (values (rank : ZMod size))) :
    (List.range size).mapM action = .ok (ranked values) := by
  rw [mapM_eq_ok_iff, ranked, List.map_map]
  refine List.map_congr_left ?_
  intro rank member
  exact each rank (List.mem_range.mp member)

omit [NeZero size] in
theorem nodup_ranked : (ranked (id : ZMod size → ZMod size)).Nodup := by
  refine List.Nodup.map_on ?_ List.nodup_range
  intro left leftMember right rightMember same
  have equal := congrArg ZMod.val same
  simpa only [id, ZMod.val_cast_of_lt (List.mem_range.mp leftMember),
    ZMod.val_cast_of_lt (List.mem_range.mp rightMember)] using equal

theorem mem_ranked (position : ZMod size) : position ∈ ranked id :=
  List.mem_map.mpr ⟨position.val, List.mem_range.mpr (ZMod.val_lt position),
    ZMod.natCast_zmod_val position⟩

/-- A shift of the ring changes the order of its values only. -/
theorem ranked_shift_perm (values : ZMod size → α) (shift : ZMod size) :
    (ranked fun position => values (position - shift)).Perm (ranked values) := by
  have places := (perm_places nodup_ranked mem_ranked (-shift)).map values
  rw [map_ranked, List.map_map] at places
  refine List.Perm.trans (List.Perm.of_eq ?_) places
  refine List.map_congr_left ?_
  intro rank _
  simp only [Function.comp_apply]
  congr 1
  ring

/-- The total of a ring is the reduction in the order of the positions. -/
theorem reduceAll_ranked (op : α → α → α) [Std.Associative op] [Std.Commutative op]
    (values : ZMod size → α) (start : ZMod size) :
    reduceAll op (ranked values) = some (ringTotal op values start (size - 1)) := by
  rw [← ringTotal_eq_reduceAll op values start nodup_ranked mem_ranked, map_ranked]
  rfl

variable {length : Nat}

/-- The span of a slot when slot `index` starts at `offset index`. -/
def slotSpan (offset : Nat → Nat) (slot : ZMod size) : Span :=
  ⟨offset slot.val, offset (slot.val + 1)⟩

/-- The slot of an element. -/
def slotAt (offset : Nat → Nat) (element : Fin length) : ZMod size :=
  (slotOf offset size element : ZMod size)

theorem slotSpan_covers_iff {offset : Nat → Nat} (cut : Cut offset size length)
    (slot : ZMod size) (element : Fin length) :
    (slotSpan offset slot).Covers element ↔ slotAt offset element = slot := by
  have within : element.val < offset size := cut.whole ▸ element.isLt
  have bounded := slotOf_lt offset element (NeZero.pos size)
  rw [slotSpan, covers_iff_slotOf cut.begins cut.growing within, slotAt]
  constructor
  · intro same
    rw [same]
    exact ZMod.natCast_zmod_val slot
  · intro same
    rw [← same, ZMod.val_cast_of_lt bounded]

/-- A round on buffers: every position merges the slot that the one before it
sends. -/
theorem mergeAt_slot {offset : Nat → Nat} (cut : Cut offset size length)
    (combine : α → α → α) (lead : ZMod size) (time : Nat)
    (values : ZMod size → Buffer α length) (position : ZMod size) :
    mergeAt combine (slotSpan offset (position - 1 + lead - (time : ZMod size))).start
      (readAt (slotSpan offset (position - 1 + lead - (time : ZMod size)))
        (values (position - 1))) (values position) =
      ringRound combine (slotAt offset) lead time values position := by
  rw [mergeAt_readAt]
  funext element
  rw [ringRound]
  simp only [slotSpan_covers_iff cut]

theorem slotSpan_stop_le {offset : Nat → Nat} (cut : Cut offset size length)
    (slot : ZMod size) : (slotSpan offset slot).stop ≤ length :=
  cut.whole ▸ cut.growing (Nat.succ_le_of_lt (ZMod.val_lt slot))

omit [NeZero size] in
theorem slotSpan_start_le {offset : Nat → Nat} (cut : Cut offset size length) (slot : ZMod size) :
    (slotSpan offset slot).start ≤ (slotSpan offset slot).stop :=
  cut.growing (Nat.le_succ _)

omit [NeZero size] in
/-- The slots together make up the whole. -/
theorem sum_ranked_slotSpan {offset : Nat → Nat} (cut : Cut offset size length) :
    (ranked fun slot : ZMod size => (slotSpan offset slot).length).sum =
      length := by
  have parts : (ranked fun slot : ZMod size =>
      (slotSpan offset slot).length) =
      (List.range size).map fun index =>
        offset (index + 1) - offset index := by
    refine List.map_congr_left ?_
    intro index member
    simp only [slotSpan, Span.length, ZMod.val_cast_of_lt (List.mem_range.mp member)]
  rw [parts, sum_parts cut.begins cut.growing, cut.whole]

/-! ## Relays

Every position starts with an item of its own and passes on what it got last. -/

section Relays

/-- Whether a position has the item of a slot after so many rounds. -/
def relayed (items : ZMod size → α) (time : Nat) (position slot : ZMod size) :
    Option α :=
  spreading (fun place => if place = slot then some (items slot) else none) slot time position

theorem relayed_zero (items : ZMod size → α) (position slot : ZMod size) :
    relayed items 0 position slot =
      if position = slot then some (items slot) else none :=
  spreading_zero ..

/-- What a position passes on in a round is there. -/
theorem relayed_sent (items : ZMod size → α) {time : Nat}
    (bounded : time < size) (position : ZMod size) :
    relayed items time position (position - (time : ZMod size)) =
      some (items (position - (time : ZMod size))) := by
  have distance := (@ringDistance_eq_iff size _
    (position - (time : ZMod size)) position time bounded).mpr (by ring)
  rw [relayed, spreading, if_pos (Nat.le_of_eq distance), if_pos rfl]

theorem relayed_succ (items : ZMod size → α) {time : Nat}
    (early : time + 1 < size) (position slot : ZMod size) :
    relayed items (time + 1) position slot =
      if slot = position - 1 - (time : ZMod size) then some (items slot)
      else relayed items time position slot := by
  have place : position = slot + ((time + 1 : Nat) : ZMod size) ↔
      slot = position - 1 - (time : ZMod size) := by
    push_cast
    constructor
    · intro same
      rw [same]
      ring
    · intro same
      rw [same]
      ring
  rw [relayed, spreading_succ _ _ _ early]
  by_cases arrived : slot = position - 1 - (time : ZMod size)
  · have sent := relayed_sent items (Nat.lt_of_succ_lt early) (position - 1)
    rw [if_pos (place.mpr arrived), if_pos arrived, ← relayed, arrived]
    exact sent
  · rw [if_neg fun same => arrived (place.mp same), if_neg arrived, relayed]

theorem relayed_last (items : ZMod size → α) (position slot : ZMod size) :
    relayed items (size - 1) position slot = some (items slot) := by
  rw [relayed, spreading_last, if_pos rfl]

end Relays

end Ring

end RuCCL.Library
