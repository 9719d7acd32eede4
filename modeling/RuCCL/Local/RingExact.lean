import RuCCL.Library.Ring
import RuCCL.Local.SliceRanges
import RuCCL.Local.StrategiesExact

/-!
# What the ring strategy computes

The slices of all peers are a grid of tensors, one row for each peer.  A cycle sends
one slice of every row to the next row, in place and one row after the other; with
exact elements it is a round of the ring of positions.
-/

namespace RuCCL.Local

open RuCCL.Library RuCCL.Global

variable {Tensor Device Element : Type} {B : Backend Tensor Device}
  {content : Tensor → Index → Element} [AddCommMonoid Element]
  {divide : Element → Nat → Element} {size : Nat} [NeZero size]

/-- The slices of each peer. -/
def gridRows (ids : ZMod size → PeerId)
    (grid : ZMod size → ZMod size → Tensor) : List (PeerId × List Tensor) :=
  ranked fun position => (ids position, ranked (grid position))

/-- Every slice of a grid is on the device of its row, with these values. -/
def GridHolds (B : Backend Tensor Device)
    (content : Tensor → Index → Element) (devices : ZMod size → Device)
    (shapes : ZMod size → List Nat)
    (values : ZMod size → ZMod size × Index → Element)
    (grid : ZMod size → ZMod size → Tensor) : Prop :=
  ∀ position slot, Holds B content (grid position slot) (devices position)
    (shapes slot) fun index => values position (slot, index)

/-- What a phase does with the slice that arrives. -/
def phaseCombine (isPhaseOne : Bool) (own arrived : Element) : Element :=
  if isPhaseOne then own + arrived else arrived

/-- How far the slice that is sent in the first cycle is ahead of its row. -/
def phaseLead (isPhaseOne : Bool) : ZMod size :=
  if isPhaseOne then 0 else 1

theorem sliceIndex_eq (isPhaseOne : Bool) (cycle source : Nat) :
    (if isPhaseOne then (source + (size - 1) * cycle) % size
      else (source + 1 + (size - 1) * cycle) % size) =
      ((source : ZMod size) + phaseLead isPhaseOne - (cycle : ZMod size)).val := by
  have wrapped : ((size - 1 : Nat) : ZMod size) = -1 := by
    rw [Nat.cast_pred (NeZero.pos size)]
    simp
  cases isPhaseOne with
  | true =>
      rw [if_pos rfl, ← ZMod.val_natCast, phaseLead, if_pos rfl]
      congr 1
      push_cast
      rw [wrapped]
      ring
  | false =>
      rw [if_neg Bool.false_ne_true, ← ZMod.val_natCast, phaseLead, if_neg Bool.false_ne_true]
      congr 1
      push_cast
      rw [wrapped]
      ring

/-- The values after some cycles of the first phase. -/
def collected (values : ZMod size → ZMod size × Index → Element)
    (time : Nat) : ZMod size → ZMod size × Index → Element :=
  fun position element => reducing (phaseCombine true)
    (values · element) (element.1 - phaseLead true) time position

/-- The values after some cycles of the second phase. -/
def shared (values : ZMod size → ZMod size × Index → Element)
    (time : Nat) : ZMod size → ZMod size × Index → Element :=
  fun position element => spreading (values · element) (element.1 - phaseLead false) time position

instance : Std.Associative (@phaseCombine Element _ true) :=
  ⟨fun first second third => add_assoc first second third⟩

instance : Std.Commutative (@phaseCombine Element _ true) :=
  ⟨fun first second => add_comm first second⟩

theorem foldl_phaseCombine (first : Element) (rest : List Element) :
    rest.foldl (phaseCombine true) first = first + rest.sum := by
  induction rest generalizing first with
  | nil => rw [List.foldl_nil, List.sum_nil, add_zero]
  | cons next rest ih =>
      rw [List.foldl_cons, ih, List.sum_cons, phaseCombine, if_pos rfl, add_assoc]

theorem reduceAll_phaseCombine {values : List Element} (present : values ≠ []) :
    reduceAll (phaseCombine true) values = some values.sum := by
  cases values with
  | nil => exact absurd rfl present
  | cons first rest => rw [reduceAll, foldl_phaseCombine, List.sum_cons]

/-- Both phases together leave the total everywhere. -/
theorem shared_collected (values : ZMod size → ZMod size × Index → Element)
    (position : ZMod size) (element : ZMod size × Index) :
    shared (collected values (size - 1)) (size - 1) position element =
      (ranked fun position => values position element).sum := by
  have next : (phaseLead false : ZMod size) = phaseLead true + 1 := by
    rw [phaseLead, phaseLead, if_neg Bool.false_ne_true, if_pos rfl, zero_add]
  have total := reduceAll_ranked (phaseCombine true) (values · element)
    (element.1 - phaseLead true)
  rw [reduceAll_phaseCombine (List.ne_nil_of_length_pos (by
    rw [length_ranked]
    exact NeZero.pos size)), Option.some.injEq] at total
  rw [total, shared, next]
  exact spreading_reducing (phaseCombine true) (values · element) element.1
    (phaseLead true) position

section Cycles

variable (exact : Exact B content divide) {ids : ZMod size → PeerId}
  {devices : ZMod size → Device} {shapes : ZMod size → List Nat}

include exact

/-- One slice goes to the next row. -/
theorem ringCycle_holds {values : ZMod size → ZMod size × Index → Element}
    {grid : ZMod size → ZMod size → Tensor}
    (held : GridHolds B content devices shapes values grid)
    (isPhaseOne : Bool) (cycle : Nat) {source : Nat}
    (within : source < size) :
    ∃ next, ringCycle B isPhaseOne size cycle source (gridRows ids grid) =
        .ok (gridRows ids next) ∧
      GridHolds B content devices shapes
        (passOn (phaseCombine isPhaseOne) Prod.fst (phaseLead isPhaseOne)
          cycle (source : ZMod size) values) next := by
  generalize placed : (source : ZMod size) = position
  generalize sent : position + phaseLead isPhaseOne - (cycle : ZMod size) = slot
  have destination : (source + 1) % size = (position + 1).val := by
    rw [← ZMod.val_natCast, ← placed]
    push_cast
    rfl
  have sliceIndex := @sliceIndex_eq size _ isPhaseOne cycle source
  rw [placed, sent] at sliceIndex
  have atSource : (gridRows ids grid)[source]? = some (ids position, ranked (grid position)) := by
    rw [gridRows, getElem?_ranked _ within, placed]
  generalize updated : (if isPhaseOne then
      B.floatAdd (grid (position + 1) slot)
        (B.floatToDevice (grid position slot) (B.floatDevice (grid (position + 1) slot)))
    else B.floatSliceAssign (grid (position + 1) slot)
      ((B.shape (grid (position + 1) slot)).map fun size => (0, size))
      (B.floatToDevice (grid position slot) (B.floatDevice (grid (position + 1) slot)))) = tensor
  have arrives : Holds B content tensor (devices (position + 1))
      (shapes slot) fun index => phaseCombine isPhaseOne (values (position + 1) (slot, index))
        (values position (slot, index)) := by
    have own := held (position + 1) slot
    have moved := (held position slot).moved exact (devices (position + 1))
    rw [own.located] at updated
    rw [← updated]
    cases isPhaseOne with
    | true => exact own.add exact moved
    | false => exact own.replaced exact moved
  refine ⟨Function.update grid (position + 1)
    (Function.update (grid (position + 1)) slot tensor), ?_, ?_⟩
  · rw [ringCycle, destination, sliceIndex, atSource]
    simp only [okOr_some, ok_bind, getElem?_ranked_val, updated, set_ranked, gridRows]
    refine congrArg Except.ok (congrArg ranked ?_)
    funext other
    by_cases same : other = position + 1
    · rw [same, Function.update_self, Function.update_self]
    · rw [Function.update_of_ne same, Function.update_of_ne same]
  · intro other otherSlot
    by_cases same : other = position + 1
    · subst same
      rw [Function.update_self]
      by_cases chosen : otherSlot = slot
      · subst chosen
        rw [Function.update_self]
        refine arrives.congr fun index _ => ?_
        rw [passOn, if_pos ⟨rfl, sent.symm⟩]
      · rw [Function.update_of_ne chosen]
        refine (held (position + 1) otherSlot).congr fun index _ => ?_
        rw [passOn, if_neg fun both => chosen (both.2.trans sent)]
    · rw [Function.update_of_ne same]
      refine (held other otherSlot).congr fun index _ => ?_
      rw [passOn, if_neg fun both => same both.1]

/-- A cycle is a round. -/
theorem ringRound_holds {values : ZMod size → ZMod size × Index → Element}
    {grid : ZMod size → ZMod size → Tensor}
    (held : GridHolds B content devices shapes values grid)
    (isPhaseOne : Bool) (cycle : Nat) (several : 1 < size) :
    ∃ next, (List.range size).foldlM
        (fun sliced source =>
          ringCycle B isPhaseOne size cycle source sliced)
        (gridRows ids grid) = .ok (gridRows ids next) ∧
      GridHolds B content devices shapes
        (ringRound (phaseCombine isPhaseOne) Prod.fst
          (phaseLead isPhaseOne) cycle values) next := by
  have loop : ∃ final, (List.range size).foldlM
        (fun sliced source =>
          ringCycle B isPhaseOne size cycle source sliced)
        (gridRows ids grid) = .ok final ∧
      ∃ next, final = gridRows ids next ∧ GridHolds B content devices shapes
          (partialRound (phaseCombine isPhaseOne) Prod.fst
            (phaseLead isPhaseOne) cycle size values) next := by
    refine foldlM_range_invariant (fun count sliced => ∃ next,
      sliced = gridRows ids next ∧ GridHolds B content devices shapes
        (partialRound (phaseCombine isPhaseOne) Prod.fst
          (phaseLead isPhaseOne) cycle count values) next)
      ⟨grid, rfl, by rw [partialRound_zero]; exact held⟩ ?_
    rintro source sliced within ⟨before, rfl, now⟩
    obtain ⟨next, stepped, holds⟩ := ringCycle_holds exact now isPhaseOne cycle within
    rw [passOn_partialRound _ _ _ _ several within] at holds
    exact ⟨_, stepped, next, rfl, holds⟩
  obtain ⟨final, computed, next, rfl, holds⟩ := loop
  rw [partialRound_all] at holds
  exact ⟨next, computed, holds⟩

/-- The cycles of a phase keep what its rounds lead to. -/
theorem ringCycles_holds {grid : ZMod size → ZMod size → Tensor} (isPhaseOne : Bool)
    (values : Nat → ZMod size → ZMod size × Index → Element)
    (rounds : ∀ time, time + 1 < size →
      ringRound (phaseCombine isPhaseOne) Prod.fst (phaseLead isPhaseOne)
        time (values time) = values (time + 1))
    (held : GridHolds B content devices shapes (values 0) grid) :
    ∃ next, ringCycles B isPhaseOne (gridRows ids grid) = .ok (gridRows ids next) ∧
      GridHolds B content devices shapes (values (size - 1)) next := by
  have count : (gridRows ids grid).length = size := length_ranked _
  rw [ringCycles, count]
  have loop : ∃ final, (List.range (size - 1)).foldlM
        (fun sliced cycle => (List.range size).foldlM
          (fun sliced source =>
            ringCycle B isPhaseOne size cycle source sliced) sliced)
        (gridRows ids grid) = .ok final ∧
      ∃ next, final = gridRows ids next ∧
        GridHolds B content devices shapes (values (size - 1)) next := by
    refine foldlM_range_invariant (fun time sliced => ∃ next, sliced = gridRows ids next ∧
        GridHolds B content devices shapes (values time) next)
      ⟨grid, rfl, held⟩ ?_
    rintro cycle sliced within ⟨before, rfl, now⟩
    obtain ⟨next, stepped, holds⟩ := ringRound_holds exact now isPhaseOne cycle (by omega)
    rw [rounds cycle (by omega)] at holds
    exact ⟨_, stepped, next, rfl, holds⟩
  obtain ⟨final, computed, next, rfl, holds⟩ := loop
  exact ⟨next, computed, holds⟩

/-- After both phases every slice is the total of its column. -/
theorem bothPhases_hold {values : ZMod size → ZMod size × Index → Element}
    {grid : ZMod size → ZMod size → Tensor}
    (held : GridHolds B content devices shapes values grid) :
    ∃ reduced gathered, ringCycles B true (gridRows ids grid) = .ok (gridRows ids reduced) ∧
      ringCycles B false (gridRows ids reduced) = .ok (gridRows ids gathered) ∧
      GridHolds B content devices shapes
        (fun _ element => (ranked fun position =>
          values position element).sum) gathered := by
  have starts : GridHolds B content devices shapes (collected values 0) grid := by
    intro position slot
    refine (held position slot).congr fun index _ => ?_
    exact (reducing_zero (phaseCombine true) (values · (slot, index))
      (slot - phaseLead true) position).symm
  obtain ⟨reduced, first, between⟩ := ringCycles_holds exact true (collected values)
    (fun time bounded => ringRound_reducing _ _ _ time bounded values)
    starts
  have again : GridHolds B content devices shapes
      (shared (collected values (size - 1)) 0) reduced := by
    intro position slot
    refine (between position slot).congr fun index _ => ?_
    exact (spreading_zero (collected values (size - 1) · (slot, index))
      (slot - phaseLead false) position).symm
  obtain ⟨gathered, second, holds⟩ := ringCycles_holds exact false
    (shared (collected values (size - 1)))
    (fun time bounded => ringRound_spreading _ _ time bounded _) again
  refine ⟨reduced, gathered, first, second, ?_⟩
  intro position slot
  refine (holds position slot).congr fun index _ => ?_
  rw [shared_collected]

end Cycles

section Axis

/-- The whole of every dimension but one. -/
def axisRanges (shape : List Nat) (axis : Nat) (range : Nat × Nat) : List (Nat × Nat) :=
  shape.zipIdx.map fun dimension =>
    if dimension.2 = axis then range else (0, dimension.1)

variable {shape : List Nat} {axis : Nat} {range : Nat × Nat}

theorem getElem?_axisRanges (dimension : Nat) :
    (axisRanges shape axis range)[dimension]? = shape[dimension]?.map fun size =>
        if dimension = axis then range else (0, size) := by
  rw [axisRanges, List.getElem?_map, List.getElem?_zipIdx, Option.map_map]
  congr 1
  funext size
  simp

theorem rangesFit_axisRanges {extent : Nat}
    (along : shape[axis]? = some extent) (ordered : range.1 ≤ range.2)
    (bounded : range.2 ≤ extent) :
    RangesFit (axisRanges shape axis range) shape := by
  refine ⟨?_, ?_⟩
  · rw [axisRanges, List.length_map, List.length_zipIdx]
  · intro dimension found size located sized
    rw [getElem?_axisRanges, sized] at located
    cases located
    by_cases same : dimension = axis
    · rw [same, along] at sized
      cases sized
      dsimp only
      rw [if_pos same]
      exact ⟨ordered, bounded⟩
    · dsimp only
      rw [if_neg same]
      exact ⟨Nat.zero_le _, Nat.le_refl _⟩

theorem lengths_axisRanges :
    (axisRanges shape axis range).map (fun range => range.2 - range.1) =
      shape.set axis (range.2 - range.1) := by
  apply List.ext_getElem?
  intro dimension
  rw [List.getElem?_map, getElem?_axisRanges, List.getElem?_set]
  cases located : shape[dimension]? with
  | none =>
      have outside := List.getElem?_eq_none_iff.mp located
      by_cases same : axis = dimension
      · subst same
        rw [if_pos rfl, if_neg (by omega)]
        rfl
      · rw [if_neg same]
        rfl
  | some size =>
      have inside := (List.getElem?_eq_some_iff.mp located).1
      by_cases same : axis = dimension
      · subst same
        simp [inside]
      · simp [same, Ne.symm same]

theorem shifted_axisRanges (within : axis < shape.length) (index : Index) :
    shifted (axisRanges shape axis range) index =
      Function.update index axis (range.1 + index axis) := by
  funext dimension
  rw [shifted, List.getD_eq_getElem?_getD, getElem?_axisRanges]
  by_cases same : dimension = axis
  · subst same
    rw [List.getElem?_eq_getElem within, Function.update_self]
    simp
  · rw [Function.update_of_ne same]
    cases shape[dimension]? with
    | none => simp
    | some size => simp [same]

end Axis

section Join

variable {shape : List Nat} {axis extent : Nat} {offset : Nat → Nat}

omit [NeZero size] in
theorem lengthAlong_take {slices : ZMod size → Tensor}
    (cut : Cut offset size extent) (within : axis < shape.length)
    (shaped : ∀ slot, B.shape (slices slot) = shape.set axis (slotSpan offset slot).length)
    {count : Nat} (bounded : count ≤ size) :
    lengthAlong B axis ((ranked slices).take count) = offset count := by
  have parts : ((ranked slices).take count).map (fun part => (B.shape part).getD axis 0) =
      (List.range count).map fun index =>
        offset (index + 1) - offset index := by
    rw [ranked, ← List.map_take, List.take_range, Nat.min_eq_left bounded, List.map_map]
    refine List.map_congr_left fun index among => ?_
    have small := List.mem_range.mp among
    rw [Function.comp_apply, shaped, List.getD_eq_getElem?_getD,
      List.getElem?_set_self within, Option.getD_some, slotSpan,
      Span.length, ZMod.val_cast_of_lt (Nat.lt_of_lt_of_le small bounded)]
  rw [lengthAlong, parts, sum_parts cut.begins cut.growing]

/-- Slices that were cut along an axis make up a whole tensor again. -/
theorem floatCat_holds (exact : Exact B content divide)
    {slices : ZMod size → Tensor} {device : Device}
    {entries : Index → Element} (cut : Cut offset size extent)
    (along : shape[axis]? = some extent)
    (held : ∀ slot, Holds B content (slices slot) device
      (shape.set axis (slotSpan offset slot).length) fun index =>
        entries (Function.update index axis (offset slot.val + index axis))) :
    Holds B content (B.floatCat (ranked slices) axis) device shape
      entries := by
  have within : axis < shape.length := (List.getElem?_eq_some_iff.mp along).1
  have placed : ∀ part ∈ ranked slices, B.floatDevice part = device ∧
      ∃ size, B.shape part = shape.set axis size := by
    intro part among
    obtain ⟨rank, _, rfl⟩ := List.mem_map.mp among
    exact ⟨(held _).located, _, (held _).shaped⟩
  have upTo : ∀ {count : Nat}, count ≤ size →
      lengthAlong B axis ((ranked slices).take count) = offset count :=
    lengthAlong_take cut within fun slot => (held slot).shaped
  have present : ranked slices ≠ [] := List.ne_nil_of_length_pos (by
    rw [length_ranked]
    exact NeZero.pos size)
  obtain ⟨located, shaped⟩ := exact.catPlaced (ranked slices) axis shape
    device present within placed
  refine ⟨located, ?_, ?_⟩
  · have whole := upTo (Nat.le_refl size)
    rw [List.take_of_length_le (by rw [length_ranked]), cut.whole] at whole
    obtain ⟨_, value⟩ := List.getElem?_eq_some_iff.mp along
    rw [shaped, whole, ← value, List.set_getElem_self]
  · intro index inside
    have below : index axis < offset size := by
      rw [cut.whole]
      exact inside axis extent along
    have covered := slotOf_covers cut.begins below
    have bounded := slotOf_lt offset (index axis) (NeZero.pos size)
    generalize slotOf offset size (index axis) = slot at covered bounded
    obtain ⟨starts, stops⟩ := covered
    dsimp only at starts stops
    have place : (slot : ZMod size).val = slot := ZMod.val_cast_of_lt bounded
    -- the slice of this index lies between those before and behind it
    have split : ranked slices = (ranked slices).take slot ++
        slices (slot : ZMod size) :: (ranked slices).drop (slot + 1) := by
      have found := getElem?_ranked slices bounded
      obtain ⟨inRange, value⟩ := List.getElem?_eq_some_iff.mp found
      rw [← value, List.getElem_cons_drop, List.take_append_drop]
    have own := held (slot : ZMod size)
    rw [slotSpan, Span.length, place] at own
    have insideSlice : Inside (shape.set axis (offset (slot + 1) - offset slot))
        (Function.update index axis (index axis - offset slot)) := by
      intro dimension size sized
      by_cases same : dimension = axis
      · subst same
        rw [List.getElem?_set_self within] at sized
        cases sized
        rw [Function.update_self]
        omega
      · rw [List.getElem?_set_ne (Ne.symm same)] at sized
        rw [Function.update_of_ne same]
        exact inside dimension size sized
    have joins := exact.catEntries ((ranked slices).take slot)
      (slices (slot : ZMod size)) ((ranked slices).drop (slot + 1)) axis
      shape device within (by rw [← split]; exact placed)
      (Function.update index axis (index axis - offset slot))
      (by rw [own.shaped]; exact insideSlice)
    have back : Function.update (Function.update index axis (index axis - offset slot)) axis
        (offset slot + Function.update index axis (index axis - offset slot) axis) = index := by
      rw [Function.update_idem, Function.update_self,
        Nat.add_sub_cancel' starts, Function.update_eq_self]
    rw [← split, upTo bounded.le, back] at joins
    rw [joins, own.filled _ insideSlice, back]

end Join

section Whole

variable {shape : List Nat} {axis extent : Nat}

/-- The slice of a tensor that a slot stands for. -/
def slotSlice (B : Backend Tensor Device) (shape : List Nat)
    (axis extent : Nat) (tensor : Tensor) (slot : ZMod size) : Tensor :=
  B.floatSlice tensor (axisRanges shape axis
    (sliceOffset extent size slot.val, sliceOffset extent size (slot.val + 1)))

theorem sliceTensors_eq {tensors : CollectiveTensorMap Tensor}
    (counted : tensors.keys.length = size)
    (inside : (size - 1) * sliceSize extent size < extent)
    {entries : ZMod size → PeerId × Tensor}
    (listed : pairs tensors = ranked entries) :
    sliceTensors B tensors shape axis extent =
      .ok (gridRows (fun position => (entries position).1) fun position =>
        slotSlice B shape axis extent (entries position).2) := by
  have ranges : offsetRanges extent size =
      ranked fun slot : ZMod size => (sliceOffset extent size slot.val,
        sliceOffset extent size (slot.val + 1)) := by
    refine List.map_congr_left fun index among => ?_
    dsimp only
    rw [ZMod.val_cast_of_lt (List.mem_range.mp among)]
  rw [sliceTensors, counted,
    getRingReduceSliceRanges_eq_offsets (NeZero.pos size) inside, ok_bind,
    ranges, listed, map_ranked]
  refine congrArg Except.ok (congrArg ranked ?_)
  funext position
  rw [map_ranked]
  rfl

variable (exact : Exact B content divide)

include exact

theorem slotSlice_holds {tensor : Tensor} (shaped : B.shape tensor = shape)
    (along : shape[axis]? = some extent) (slot : ZMod size) :
    Holds B content (slotSlice B shape axis extent tensor slot) (B.floatDevice tensor)
      (shape.set axis (slotSpan (sliceOffset extent size) slot).length)
      fun index => content tensor (Function.update index axis
        (sliceOffset extent size slot.val + index axis)) := by
  have cut := @Cut.slices extent size (NeZero.pos size)
  have fits := @rangesFit_axisRanges shape axis
    (sliceOffset extent size slot.val, sliceOffset extent size (slot.val + 1)) extent along
    (slotSpan_start_le cut slot) (slotSpan_stop_le cut slot)
  rw [← shaped] at fits
  have sliced := exact.slice tensor _ fits
  rw [shaped, lengths_axisRanges] at sliced
  refine sliced.congr fun index _ => ?_
  rw [shifted_axisRanges (List.getElem?_eq_some_iff.mp along).1]

/-- Both phases on the slices of some tensors, and the slices joined. -/
theorem ring_delivers {entries : ZMod size → PeerId × Tensor}
    (shaped : ∀ position, B.shape (entries position).2 = shape)
    (along : shape[axis]? = some extent) :
    ∃ reduced gathered,
      ringCycles B true (gridRows (fun position => (entries position).1)
        fun position => slotSlice B shape axis extent (entries position).2) = .ok reduced ∧
      ringCycles B false reduced = .ok gathered ∧
      Delivered B content (placements B (ranked entries)) shape
        (total content ((ranked entries).map Prod.snd))
        (gathered.map fun pair => (pair.1, B.floatCat pair.2 axis)) := by
  have cut := @Cut.slices extent size (NeZero.pos size)
  obtain ⟨reduced, gathered, first, second, holds⟩ :=
    @bothPhases_hold _ _ _ B content _ divide size _ exact (fun position => (entries position).1)
      (fun position => B.floatDevice (entries position).2)
      (fun slot => shape.set axis (slotSpan (sliceOffset extent size) slot).length)
      (fun position element => content (entries position).2
        (Function.update element.2 axis (sliceOffset extent size element.1.val + element.2 axis)))
      (fun position => slotSlice B shape axis extent (entries position).2)
      (fun position slot =>
        slotSlice_holds exact (shaped position) along slot)
  have joins : ∀ position, Holds B content (B.floatCat (ranked (gathered position)) axis)
      (B.floatDevice (entries position).2) shape
      (total content ((ranked entries).map Prod.snd)) := by
    intro position
    refine floatCat_holds exact cut along fun slot => ?_
    refine (holds position slot).congr fun index _ => ?_
    rw [total, map_ranked, map_ranked]
  refine ⟨gridRows _ reduced, gridRows _ gathered, first, second, ?_, ?_⟩
  · refine List.Perm.of_eq ?_
    rw [placements, placements, gridRows, map_ranked, map_ranked, map_ranked]
    refine congrArg ranked ?_
    funext position
    exact congrArg (Prod.mk (entries position).1) (joins position).located
  · intro entry among
    rw [gridRows, map_ranked] at among
    obtain ⟨rank, _, rfl⟩ := List.mem_map.mp among
    have joined := joins (rank : ZMod size)
    dsimp only
    rw [joined.located]
    exact joined

end Whole

/-- The ring finds an axis that is too short for its slices, or that they
partition. -/
def RingSliceable (shape : List Nat) (count : Nat) : Prop :=
  ∃ axis extent, getSliceDim shape = some axis ∧ shape[axis]? = some extent ∧
      (extent < count ∨ SlicesPartition extent count)

theorem allReduceSumRing_serves (exact : Exact B content divide)
    {shape : List Nat} {tensors : CollectiveTensorMap Tensor}
    (present : tensors.keys ≠ [])
    (same : ∀ tensor ∈ values tensors, B.shape tensor = shape)
    (sliceable : RingSliceable shape tensors.keys.length) :
    ∃ output, allReduceSumRing B tensors = .ok output ∧
      Served B content (getPeerDevices B tensors) shape
        (total content (values tensors)) output := by
  obtain ⟨axis, extent, chosen, along, either⟩ := sliceable
  rw [allReduceSumRing, getCommonShape_eq B present same, okOr_some,
    ok_bind, chosen, okOr_some, ok_bind, along, okOr_some, ok_bind]
  split
  case isTrue => exact allReduceSumTree_serves exact (by decide) same
  case isFalse long =>
    have partitions := either.resolve_left long
    have positive : 0 < tensors.keys.length := List.length_pos_iff.mpr present
    have inside := partitions.inside positive
    generalize counted : tensors.keys.length = count at *
    have nonzero : NeZero count := ⟨Nat.pos_iff_ne_zero.mp positive⟩
    have length : (pairs tensors).length = count := by
      rw [← counted, ← map_fst_pairs, List.length_map]
    obtain ⟨entries, listed⟩ := exists_ranked length
    have shaped : ∀ position, B.shape (entries position).2 = shape := by
      intro position
      refine same _ ?_
      rw [← map_snd_pairs, listed]
      exact List.mem_map_of_mem (List.mem_of_getElem? (getElem?_ranked_val entries position))
    obtain ⟨reduced, gathered, first, second, delivered⟩ := ring_delivers exact shaped along
    rw [← listed, map_snd_pairs] at delivered
    refine ⟨_, ?_, delivered.served (pairs_getPeerDevices tensors).symm⟩
    rw [sliceTensors_eq counted inside listed, ok_bind, first, ok_bind, second, ok_bind]

end RuCCL.Local
