import Mathlib.Data.List.Basic

/-!
# Encodings that tell where they end

A value is read back from what begins with its encoding, together with the rest.
Lists of a known length, lists behind their length and optional sections behind a
marker inherit this from their items.
-/

namespace RuCCL.Library

section PrefixFree

variable {α β : Type}

/-- The encodings of valid values are told apart whatever follows them. -/
def PrefixFree (valid : α → Prop) (encode : α → List β) : Prop :=
  ∀ ⦃first second : α⦄, valid first → valid second → ∀ ⦃behindFirst behindSecond : List β⦄,
      encode first ++ behindFirst = encode second ++ behindSecond →
        first = second ∧ behindFirst = behindSecond

variable {valid : α → Prop} {encode : α → List β} {behindFirst behindSecond : List β}

/-- Lists of one length. -/
theorem PrefixFree.flatMap (free : PrefixFree valid encode)
    {first second : List α} (length : first.length = second.length)
    (firstValid : ∀ item ∈ first, valid item)
    (secondValid : ∀ item ∈ second, valid item)
    (same : first.flatMap encode ++ behindFirst = second.flatMap encode ++ behindSecond) :
    first = second ∧ behindFirst = behindSecond := by
  induction first generalizing second with
  | nil =>
      rw [List.eq_nil_of_length_eq_zero length.symm] at same ⊢
      exact ⟨rfl, same⟩
  | cons head tail ih =>
      cases second with
      | nil => cases length
      | cons other others =>
          rw [List.flatMap_cons, List.flatMap_cons, List.append_assoc, List.append_assoc] at same
          obtain ⟨rfl, later⟩ := free (firstValid _ List.mem_cons_self)
            (secondValid _ List.mem_cons_self) same
          obtain ⟨rfl, rest⟩ := ih (Nat.succ.inj length)
            (fun item among => firstValid item (List.mem_cons_of_mem _ among))
            (fun item among =>
              secondValid item (List.mem_cons_of_mem _ among)) later
          exact ⟨rfl, rest⟩

/-- Lists of any length, when nothing follows them and no item has an empty
encoding. -/
theorem PrefixFree.flatMap_end (free : PrefixFree valid encode)
    (written : ∀ item, encode item ≠ [])
    {first second : List α} (firstValid : ∀ item ∈ first, valid item)
    (secondValid : ∀ item ∈ second, valid item)
    (same : first.flatMap encode = second.flatMap encode) :
    first = second := by
  induction first generalizing second with
  | nil =>
      cases second with
      | nil => rfl
      | cons other others =>
          rw [List.flatMap_nil, List.flatMap_cons] at same
          exact absurd (List.append_eq_nil_iff.mp same.symm).1 (written other)
  | cons head tail ih =>
      cases second with
      | nil =>
          rw [List.flatMap_nil, List.flatMap_cons] at same
          exact absurd (List.append_eq_nil_iff.mp same).1 (written head)
      | cons other others =>
          obtain ⟨rfl, later⟩ := free (firstValid _ List.mem_cons_self)
            (secondValid _ List.mem_cons_self) same
          rw [ih (fun item among => firstValid item (List.mem_cons_of_mem _ among))
            (fun item among =>
              secondValid item (List.mem_cons_of_mem _ among)) later]

/-- Lists behind their length. -/
theorem PrefixFree.counted {encode : α → List Nat} (free : PrefixFree valid encode) :
    PrefixFree (fun items : List α => ∀ item ∈ items, valid item)
      (fun items => items.length :: items.flatMap encode) := by
  intro first second firstValid secondValid behindFirst behindSecond same
  obtain ⟨length, same⟩ := List.cons.inj same
  exact free.flatMap length firstValid secondValid same

/-- A word is its own encoding. -/
theorem prefixFree_singleton (valid : β → Prop) : PrefixFree valid (fun word : β => [word]) := by
  intro first second _ _ behindFirst behindSecond same
  exact List.cons.inj same

/-- Tables that are listed by the same keys agree at all of them. -/
theorem PrefixFree.table {Key : Type} (free : PrefixFree valid encode)
    (header : Key → List β) {keys : List Key} {first second : Key → α}
    (firstValid : ∀ key ∈ keys, valid (first key))
    (secondValid : ∀ key ∈ keys, valid (second key))
    (same : (keys.flatMap fun key => header key ++ encode (first key)) ++ behindFirst =
      (keys.flatMap fun key => header key ++ encode (second key)) ++ behindSecond) :
    (∀ key ∈ keys, first key = second key) ∧ behindFirst = behindSecond := by
  induction keys with
  | nil => exact ⟨fun key among => (by cases among), same⟩
  | cons head tail ih =>
      rw [List.flatMap_cons, List.flatMap_cons, List.append_assoc,
        List.append_assoc, List.append_assoc, List.append_assoc] at same
      obtain ⟨own, later⟩ := free (firstValid _ List.mem_cons_self)
        (secondValid _ List.mem_cons_self) (List.append_cancel_left same)
      obtain ⟨others, rest⟩ := ih (fun key among => firstValid key (List.mem_cons_of_mem _ among))
        (fun key among => secondValid key (List.mem_cons_of_mem _ among))
        later
      refine ⟨fun key among => ?_, rest⟩
      rcases List.mem_cons.mp among with rfl | behind
      · exact own
      · exact others key behind

/-- What is written only under a condition, behind a marker. -/
def markedSection (marker : β) : Option (List β) → List β
  | none => []
  | some body => marker :: body

/-- A marked section is there or not, as long as nothing behind it looks like its
marker. -/
theorem markedSection_inj {marker : β} {first second : Option (List β)}
    (firstUnmarked : behindFirst.head? ≠ some marker)
    (secondUnmarked : behindSecond.head? ≠ some marker)
    (same : markedSection marker first ++ behindFirst =
      markedSection marker second ++ behindSecond) :
    (first = none ∧ second = none ∧ behindFirst = behindSecond) ∨
      ∃ firstBody secondBody, first = some firstBody ∧ second = some secondBody ∧
        firstBody ++ behindFirst = secondBody ++ behindSecond := by
  cases first with
  | none =>
      cases second with
      | none => exact Or.inl ⟨rfl, rfl, same⟩
      | some secondBody =>
          rw [markedSection, List.nil_append] at same
          rw [same] at firstUnmarked
          exact absurd rfl firstUnmarked
  | some firstBody =>
      cases second with
      | none =>
          rw [markedSection, markedSection, List.nil_append] at same
          rw [← same] at secondUnmarked
          exact absurd rfl secondUnmarked
      | some secondBody =>
          exact Or.inr ⟨firstBody, secondBody, rfl, rfl, (List.cons.inj same).2⟩

end PrefixFree

end RuCCL.Library
