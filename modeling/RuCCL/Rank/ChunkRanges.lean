import RuCCL.Rank.RingPass

/-!
# Chunks of channels

A buffer is cut into channels and every channel into chunks.  Each element belongs to
one chunk of one channel.
-/

namespace RuCCL.Rank

open RuCCL.Library

/-- `ranges[index]` -/
def rangeAt (ranges : List Span) (index : Nat) : Span := ranges.getD index ⟨0, 0⟩

/-- The chunks of a channel, where they lie in the buffer. -/
def channelChunks (channelRange : Span) (parts : Nat) : List Span :=
  (balancedRanges channelRange.length parts).map fun range =>
    range.shift channelRange.start

/-- One thread for each range, with the channel that it serves. -/
def forkChannels {Thread : Type} (ranges : List Span)
    (thread : Span → Nat → Thread) : List Thread :=
  ranges.zipIdx.map fun entry => thread entry.1 entry.2

/-- Where a channel lies. -/
def channelSpan (length channels channel : Nat) : Span :=
  ⟨balancedOffset length channels channel, balancedOffset length channels (channel + 1)⟩

/-- Where a chunk of a channel lies. -/
def chunkSpan (length channels parts channel chunk : Nat) : Span :=
  (channelSpan (channelSpan length channels channel).length parts
    chunk).shift (channelSpan length channels channel).start

theorem rangeAt_balancedRanges {length partitions index : Nat} (inside : index < partitions) :
    rangeAt (balancedRanges length partitions) index =
      channelSpan length partitions index := by
  rw [rangeAt, List.getD_eq_getElem?_getD, getElem?_balancedRanges _ _ _ inside]
  rfl

theorem rangeAt_channelChunks {length channels parts channel chunk : Nat}
    (inside : chunk < parts) :
    rangeAt (channelChunks (channelSpan length channels channel) parts) chunk =
      chunkSpan length channels parts channel chunk := by
  rw [rangeAt, List.getD_eq_getElem?_getD, channelChunks, List.getElem?_map,
    getElem?_balancedRanges _ _ _ inside]
  rfl

theorem forkChannels_balancedRanges {Thread : Type}
    (length channels : Nat) (thread : Span → Nat → Thread) :
    forkChannels (balancedRanges length channels) thread =
      (List.range channels).map fun channel =>
        thread (channelSpan length channels channel) channel := by
  apply List.ext_getElem?
  intro index
  rw [forkChannels, List.getElem?_map, List.getElem?_zipIdx, List.getElem?_map]
  by_cases inside : index < channels
  · rw [getElem?_balancedRanges _ _ _ inside, List.getElem?_range inside]
    simp only [Option.map_some, Nat.zero_add]
    rfl
  · rw [List.getElem?_eq_none (by simpa using inside),
      List.getElem?_eq_none (by simpa using inside)]
    rfl

section Chunks

variable {length channels parts : Nat}

/-- The channel of an element. -/
def channelOf (length channels element : Nat) : Nat :=
  slotOf (balancedOffset length channels) channels element

/-- The chunk of an element within its channel. -/
def chunkWithin (length channels parts element : Nat) : Nat :=
  let channel := channelSpan length channels (channelOf length channels element)
  slotOf (balancedOffset channel.length parts) parts (element - channel.start)

theorem channelOf_lt (positive : 0 < channels) (length element : Nat) :
    channelOf length channels element < channels :=
  slotOf_lt _ _ positive

theorem chunkWithin_lt (positive : 0 < parts) (length channels element : Nat) :
    chunkWithin length channels parts element < parts :=
  slotOf_lt _ _ positive

/-- A chunk is a part of the cut of its channel. -/
theorem chunkSpan_eq (length channels parts channel chunk : Nat) :
    chunkSpan length channels parts channel chunk =
      nestedSpan (balancedOffset length channels) parts channel chunk :=
  rfl

end Chunks

/-- A nested part of a cut lies in the buffer. -/
theorem nestedSpan_within {offset : Nat → Nat}
    {count length parts outer inner : Nat} (cut : Cut offset count length)
    (inside : outer < count) (among : inner < parts) :
    DeviceCollective.Within length (nestedSpan offset parts outer inner) := by
  have bounds := @nestedSpan_bounds _ _ outer _ cut.growing among
  have whole : offset (outer + 1) ≤ length := by
    rw [← cut.whole]
    exact cut.growing inside
  exact ⟨bounds.2.1, bounds.2.2.trans whole⟩

theorem channelSpan_within {length channels channel : Nat} (inside : channel < channels) :
    DeviceCollective.Within length (channelSpan length channels channel) := by
  have cut := Cut.balanced length (lt_of_le_of_lt (Nat.zero_le _) inside)
  have last := cut.growing (Nat.succ_le_of_lt inside)
  rw [cut.whole] at last
  exact ⟨cut.growing (Nat.le_succ channel), last⟩

/-- Different channels do not overlap. -/
theorem channelSpan_apart {length channels channel other : Nat} (different : channel ≠ other) :
    (channelSpan length channels channel).Apart (channelSpan length channels other) := by
  rcases Nat.lt_or_gt_of_ne different with before | behind
  · exact Or.inl (balancedOffset_mono before)
  · exact Or.inr (balancedOffset_mono behind)

/-- How the elements of a buffer are divided among channels, and those of a channel
among the slots of a ring. -/
structure ChannelLayout (length channels count : Nat) where
  span : Nat → ZMod count → Span
  channelOf : Fin length → Nat
  slotOf : Fin length → ZMod count
  bounded : ∀ element, channelOf element < channels
  covers_iff : ∀ channel slot (element : Fin length), channel < channels →
    ((span channel slot).Covers element ↔ channelOf element = channel ∧ slotOf element = slot)
  within : ∀ channel < channels, ∀ slot, DeviceCollective.Within length (span channel slot)
  apart : ∀ channel < channels, ∀ other < channels, channel ≠ other →
    ∀ slot another, (span channel slot).Apart (span other another)

namespace ChannelLayout

variable {length channels count : Nat}

/-- The slot of an element, where it belongs to the channel. -/
def owner (layout : ChannelLayout length channels count) (channel : Nat)
    (element : Fin length) : Option (ZMod count) :=
  if layout.channelOf element = channel then some (layout.slotOf element)
  else none

theorem owns (layout : ChannelLayout length channels count) {channel : Nat}
    (inside : channel < channels) :
    Owns (layout.span channel) (layout.owner channel) := by
  intro slot element
  rw [layout.covers_iff channel slot element inside, owner]
  split
  case isTrue own =>
    rw [Option.some.injEq]
    exact and_iff_right own
  case isFalse other => exact ⟨fun both => absurd both.1 other, fun none => nomatch none⟩

/-- Every channel is cut into chunks, and a chunk belongs to each slot. -/
def chunks (length channels : Nat) [NeZero count] (positive : 0 < channels)
    (order : Nat → ZMod count ≃ Fin count) :
    ChannelLayout length channels count where
  span channel slot := chunkSpan length channels count channel (order channel slot)
  channelOf element := RuCCL.Rank.channelOf length channels element
  slotOf element := (order (RuCCL.Rank.channelOf length channels element)).symm
      ⟨chunkWithin length channels count element,
        chunkWithin_lt (NeZero.pos count) length channels element⟩
  bounded element := channelOf_lt positive length element
  covers_iff := by
    intro channel slot element _
    rw [chunkSpan_eq, nestedSpan_covers_iff (Cut.balanced length positive)
      element.isLt (order channel slot).isLt]
    refine and_congr_right fun own => ?_
    rw [Equiv.symm_apply_eq, Fin.ext_iff, ← own]
    rfl
  within channel inside slot := nestedSpan_within (Cut.balanced length positive) inside
      (order channel slot).isLt
  apart channel _ other _ different slot another :=
    nestedSpan_apart (monotone_balancedOffset length channels)
      (order channel slot).isLt (order other another).isLt
      (Or.inl different)

/-- The buffer is cut into blocks, every block into channels, and a block belongs to
each slot. -/
def blocks {offset : Nat → Nat} {length channels : Nat} [NeZero count]
    (cut : Cut offset count length) (positive : 0 < channels)
    (order : Nat → ZMod count ≃ Fin count) :
    ChannelLayout length channels count where
  span channel slot := nestedSpan offset channels (order channel slot) channel
  channelOf element := innerSlot offset count channels element
  slotOf element := (order (innerSlot offset count channels element)).symm
      ⟨RuCCL.Library.slotOf offset count element, slotOf_lt offset element (NeZero.pos count)⟩
  bounded element := slotOf_lt _ _ positive
  covers_iff := by
    intro channel slot element inside
    rw [nestedSpan_covers_iff cut element.isLt inside, and_comm]
    refine and_congr_right fun own => ?_
    rw [Equiv.symm_apply_eq, Fin.ext_iff, ← own]
  within channel inside slot := nestedSpan_within cut (order channel slot).isLt inside
  apart channel inside other otherInside different _ _ :=
    nestedSpan_apart cut.growing inside otherInside (Or.inr different)

end ChannelLayout

end RuCCL.Rank
