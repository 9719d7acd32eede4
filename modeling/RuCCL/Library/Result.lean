import Mathlib.Algebra.GroupWithZero.Nat
import Mathlib.Data.List.Forall2
import Mathlib.Data.List.OfFn
import Mathlib.Data.Nat.Basic

/-!
# Fallible computations

Early returns are written as a chain of `Except` steps.  The lemmas below invert
one step of such a chain, so a caller never unfolds the whole chain to learn
which checks it passed.

Checked arithmetic on sixty-four bit words is stated on naturals: a product or a
sum is present exactly when it is below `2 ^ 64`.
-/

namespace RuCCL.Library

universe u v

/-- Stop with `error` exactly when `condition` holds. -/
def rejectIf {ε : Type u} (condition : Prop) [Decidable condition] (error : ε) : Except ε Unit :=
  if condition then .error error else .ok ()

/-- Turn an absent value into `error`. -/
def okOr {ε α : Type u} (value : Option α) (error : ε) : Except ε α :=
  match value with
  | some present => .ok present
  | none => .error error

section Inversion

variable {ε α β : Type u}

theorem bind_eq_ok_iff (computation : Except ε α) (rest : α → Except ε β) (result : β) :
    (computation >>= rest) = .ok result ↔
      ∃ value, computation = .ok value ∧ rest value = .ok result := by
  cases computation with
  | error failure => simp [bind, Except.bind]
  | ok value => simp [bind, Except.bind]

/-- What a computation that succeeds has found on the way. -/
theorem of_bind {computation : Except ε α} {rest : α → Except ε β}
    {result : β} (ran : (computation >>= rest) = .ok result) :
    ∃ value, computation = .ok value ∧ rest value = .ok result :=
  (bind_eq_ok_iff ..).mp ran

theorem estate_bind_eq_ok_iff {ε σ α β : Type} (computation : EStateM ε σ α)
    (rest : α → EStateM ε σ β) (state final : σ) (result : β) :
    (computation >>= rest) state = .ok result final ↔
      ∃ value between, computation state = .ok value between ∧
        rest value between = .ok result final := by
  simp only [bind, EStateM.bind]
  cases computation state with
  | error failure between => simp
  | ok value between => simp

@[simp]
theorem ok_bind (value : α) (rest : α → Except ε β) :
    ((Except.ok value : Except ε α) >>= rest) = rest value :=
  rfl

@[simp]
theorem error_bind (failure : ε) (rest : α → Except ε β) :
    ((Except.error failure : Except ε α) >>= rest) = .error failure :=
  rfl

@[simp]
theorem pure_eq_ok (value : α) : (pure value : Except ε α) = .ok value :=
  rfl

@[simp]
theorem rejectIf_eq_ok_iff {ε : Type u} (condition : Prop) [Decidable condition]
    (error : ε) (passed : Unit) :
    rejectIf condition error = .ok passed ↔ ¬condition := by
  unfold rejectIf
  by_cases holds : condition <;> simp [holds]

@[simp]
theorem okOr_eq_ok_iff (value : Option α) (error : ε) (result : α) :
    okOr value error = .ok result ↔ value = some result := by
  cases value <;> simp [okOr]

@[simp]
theorem okOr_some (value : α) (error : ε) : okOr (some value) error = .ok value :=
  rfl

theorem mapM_eq_ok_iff {action : α → Except ε β} {items : List α} {values : List β} :
    items.mapM action = .ok values ↔ items.map action = values.map .ok := by
  induction items generalizing values with
  | nil => cases values <;> simp
  | cons item rest ih =>
      rw [List.mapM_cons, bind_eq_ok_iff]
      constructor
      · rintro ⟨value, first, later⟩
        obtain ⟨others, all, same⟩ := of_bind later
        cases same
        rw [List.map_cons, first, ih.mp all]
        rfl
      · intro all
        cases values with
        | nil => cases all
        | cons value others =>
            rw [List.map_cons, List.map_cons, List.cons.injEq] at all
            refine ⟨value, all.1, ?_⟩
            rw [ih.mpr all.2]
            rfl

/-- A loop whose steps succeed and keep an invariant. -/
theorem foldlM_range_invariant {action : β → Nat → Except ε β} {count : Nat}
    (invariant : Nat → β → Prop) {start : β} (initial : invariant 0 start)
    (steps : ∀ time state, time < count → invariant time state →
      ∃ next, action state time = .ok next ∧ invariant (time + 1) next) :
    ∃ final, (List.range count).foldlM action start = .ok final ∧
      invariant count final := by
  induction count with
  | zero => exact ⟨start, rfl, initial⟩
  | succ before ih =>
      obtain ⟨state, reached, holds⟩ := ih fun time state early =>
          steps time state (Nat.lt_succ_of_lt early)
      obtain ⟨final, stepped, kept⟩ := steps before state (Nat.lt_succ_self before) holds
      refine ⟨final, ?_, kept⟩
      rw [List.range_succ, List.foldlM_append, reached, ok_bind, List.foldlM_cons, stepped]
      rfl

/-- The same for a loop over the entries of a list with their positions. -/
theorem foldlM_zipIdx_invariant {ι : Type u} {action : β → ι × Nat → Except ε β} {items : List ι}
    (invariant : Nat → β → Prop) {start : β} (initial : invariant 0 start)
    (steps : ∀ index item state, items[index]? = some item → invariant index state →
      ∃ next, action state (item, index) = .ok next ∧ invariant (index + 1) next) :
    ∃ final, items.zipIdx.foldlM action start = .ok final ∧
      invariant items.length final := by
  suffices general : ∀ (rest : List ι) (before : Nat) (state : β),
      (∀ index item, rest[index]? = some item → items[before + index]? = some item) →
      invariant before state →
      ∃ final, (rest.zipIdx before).foldlM action state = .ok final ∧
        invariant (before + rest.length) final by
    obtain ⟨final, ran, holds⟩ := general items 0 start
      (fun index item found => by rwa [Nat.zero_add]) initial
    exact ⟨final, ran, by rwa [Nat.zero_add] at holds⟩
  intro rest
  induction rest with
  | nil =>
      intro before state _ holds
      exact ⟨state, rfl, holds⟩
  | cons item rest ih =>
      intro before state located holds
      obtain ⟨next, stepped, kept⟩ := steps before item state (located 0 item rfl) holds
      obtain ⟨final, ran, ended⟩ := ih (before + 1) next
        (fun index other found => by
          have place := located (index + 1) other found
          rwa [Nat.add_comm index, ← Nat.add_assoc] at place) kept
      refine ⟨final, ?_, ?_⟩
      · rw [List.zipIdx_cons, List.foldlM_cons, stepped]
        exact ran
      · rw [List.length_cons, Nat.add_comm rest.length, ← Nat.add_assoc]
        exact ended

/-- A loop that succeeded has kept what each of its steps keeps. -/
theorem foldlM_ok_invariant {ι : Type u} {action : β → ι → Except ε β} {items : List ι}
    (invariant : Nat → β → Prop) {start final : β}
    (ran : items.foldlM action start = .ok final)
    (initial : invariant 0 start)
    (steps : ∀ index item state next, items[index]? = some item →
      invariant index state → action state item = .ok next →
      invariant (index + 1) next) :
    invariant items.length final := by
  induction items generalizing start invariant with
  | nil =>
      cases ran
      exact initial
  | cons item rest ih =>
      rw [List.foldlM_cons] at ran
      obtain ⟨next, stepped, later⟩ := of_bind ran
      exact ih (fun index => invariant (index + 1)) later
        (steps 0 item start next rfl initial stepped)
        (fun index other state following found =>
          steps (index + 1) other state following found)

/-- What each result of a traversal says about its item. -/
theorem map_of_mapM_ok {γ : Type u} {action : α → Except ε β} {items : List α}
    {values : List β} (ran : items.mapM action = .ok values)
    {seen : β → γ} {expected : α → γ}
    (each : ∀ item ∈ items, ∀ value, action item = .ok value → seen value = expected item) :
    values.map seen = items.map expected := by
  rw [mapM_eq_ok_iff] at ran
  apply List.ext_getElem?
  intro index
  have same := congrArg (·[index]?) ran
  simp only [List.getElem?_map] at same ⊢
  cases found : items[index]? with
  | none =>
      rw [found] at same
      cases absent : values[index]? with
      | none => rfl
      | some value =>
          rw [absent] at same
          cases same
  | some item =>
      rw [found] at same
      cases present : values[index]? with
      | none =>
          rw [present] at same
          cases same
      | some value =>
          rw [present] at same
          simp only [Option.map_some, Option.some.injEq] at same ⊢
          exact each item (List.mem_of_getElem? found) value same

theorem forM_eq_ok_iff {ε α : Type} {action : α → Except ε Unit} {items : List α} :
    items.forM action = .ok () ↔ ∀ item ∈ items, action item = .ok () := by
  induction items with
  | nil => exact ⟨fun _ _ absent => (List.not_mem_nil absent).elim, fun _ => rfl⟩
  | cons item rest ih =>
      rw [List.forM_eq_forM] at ih ⊢
      rw [List.forM_cons, List.forall_mem_cons, ← ih, bind_eq_ok_iff]
      constructor
      · rintro ⟨_, first, later⟩
        exact ⟨first, later⟩
      · rintro ⟨first, later⟩
        exact ⟨(), first, later⟩

theorem mapM_eq_error {action : α → Except ε β} {items : List α} {failure : ε}
    (failed : items.mapM action = .error failure) :
    ∃ item ∈ items, action item = .error failure := by
  induction items with
  | nil => cases failed
  | cons item rest ih =>
      rw [List.mapM_cons] at failed
      cases first : action item with
      | error cause =>
          rw [first] at failed
          cases failed
          exact ⟨item, List.mem_cons_self, first⟩
      | ok value =>
          rw [first, ok_bind] at failed
          cases later : rest.mapM action with
          | error cause =>
              rw [later] at failed
              cases failed
              obtain ⟨other, member, cause⟩ := ih later
              exact ⟨other, List.mem_cons_of_mem _ member, cause⟩
          | ok values =>
              rw [later] at failed
              cases failed

/-- A list of actions that all succeed succeeds. -/
theorem exists_mapM_ok {action : α → Except ε β} {items : List α}
    (each : ∀ item ∈ items, ∃ value, action item = .ok value) :
    ∃ values, items.mapM action = .ok values := by
  induction items with
  | nil => exact ⟨[], rfl⟩
  | cons item rest ih =>
      obtain ⟨value, ran⟩ := each item List.mem_cons_self
      obtain ⟨values, later⟩ := ih fun other among =>
        each other (List.mem_cons_of_mem _ among)
      refine ⟨value :: values, ?_⟩
      rw [List.mapM_cons, ran, ok_bind, later]
      rfl

theorem exists_ok_of_mapM_ok {action : α → Except ε β} {items : List α} {values : List β}
    (ran : items.mapM action = .ok values) {item : α} (among : item ∈ items) :
    ∃ value, action item = .ok value := by
  have found : action item ∈ items.map action := List.mem_map_of_mem among
  rw [mapM_eq_ok_iff.mp ran] at found
  obtain ⟨value, _, same⟩ := List.mem_map.mp found
  exact ⟨value, same.symm⟩

/-- A loop over all indices, when each step has one possible value. -/
theorem mapM_ofFn_eq_ok_iff {α β : Type u} {size : Nat} {items : Fin size → α}
    {action : α → Except ε β} {passes : Fin size → Prop}
    {value : Fin size → β}
    (each : ∀ index result, action (items index) = .ok result ↔
      passes index ∧ result = value index) (values : List β) :
    (List.ofFn items).mapM action = .ok values ↔
      (∀ index, passes index) ∧ values = List.ofFn value := by
  rw [mapM_eq_ok_iff, List.map_ofFn]
  constructor
  · intro all
    have sized : values.length = size := by
      have lengths := congrArg List.length all
      rw [List.length_ofFn, List.length_map] at lengths
      exact lengths.symm
    have found (index : Fin size) : ∃ result, values[index.val]? = some result ∧
          action (items index) = .ok result := by
      have here := congrArg (·[index.val]?) all
      rw [List.getElem?_ofFn, dif_pos index.isLt, List.getElem?_map] at here
      cases got : values[index.val]? with
      | none =>
          rw [got] at here
          cases here
      | some result =>
          rw [got] at here
          exact ⟨result, rfl, Option.some.inj here⟩
    refine ⟨fun index => ?_, ?_⟩
    · obtain ⟨result, _, ran⟩ := found index
      exact ((each index result).mp ran).1
    · refine List.ext_getElem? fun index => ?_
      rw [List.getElem?_ofFn]
      split
      case isTrue inside =>
        obtain ⟨result, got, ran⟩ := found ⟨index, inside⟩
        rw [got, ((each _ result).mp ran).2]
      case isFalse outside =>
        rw [List.getElem?_eq_none_iff, sized]
        exact Nat.le_of_not_lt outside
  · rintro ⟨all, rfl⟩
    rw [List.map_ofFn]
    refine congrArg List.ofFn (funext fun index => ?_)
    exact (each index _).mpr ⟨all index, rfl⟩

theorem mapM_ofFn_ok {α β : Type u} {size : Nat} {items : Fin size → α}
    {action : α → Except ε β} {value : Fin size → β}
    (each : ∀ index, action (items index) = .ok (value index)) :
    (List.ofFn items).mapM action = .ok (List.ofFn value) := by
  rw [mapM_eq_ok_iff, List.map_ofFn, List.map_ofFn]
  exact congrArg List.ofFn (funext each)

theorem zipIdx_ofFn {α : Type u} {size : Nat} (items : Fin size → α) :
    (List.ofFn items).zipIdx = List.ofFn fun index => (items index, index.val) := by
  refine List.ext_getElem? fun index => ?_
  rw [List.getElem?_zipIdx, List.getElem?_ofFn, List.getElem?_ofFn]
  split <;> simp

theorem range_eq_ofFn (size : Nat) :
    List.range size = List.ofFn fun index : Fin size => index.val := by
  refine List.ext_getElem? fun index => ?_
  rw [List.getElem?_ofFn]
  split
  case isTrue inside => exact List.getElem?_range inside
  case isFalse outside =>
    rw [List.getElem?_eq_none_iff, List.length_range]
    exact Nat.le_of_not_lt outside

end Inversion

/-- A computation either fails in an `allowed` way or its value meets `post`. -/
def Ends {ε α : Type} (allowed : ε → Prop) (post : α → Prop) :
    Except ε α → Prop
  | .ok value => post value
  | .error failure => allowed failure

namespace Ends

variable {ε α β : Type} {allowed : ε → Prop}

theorem ok {post : α → Prop} {value : α} (holds : post value) : Ends allowed post (.ok value) :=
  holds

theorem mono {weaker stronger : α → Prop} {computation : Except ε α}
    (ends : Ends allowed stronger computation)
    (implies : ∀ value, stronger value → weaker value) :
    Ends allowed weaker computation := by
  cases computation with
  | error failure => exact ends
  | ok value => exact implies value ends

theorem bind {middle : α → Prop} {post : β → Prop}
    {computation : Except ε α} {rest : α → Except ε β}
    (first : Ends allowed middle computation)
    (second : ∀ value, middle value → Ends allowed post (rest value)) :
    Ends allowed post (computation >>= rest) := by
  cases computation with
  | error failure => exact first
  | ok value => exact second value first

theorem okOr {value : Option α} {error : ε} (admissible : value = none → allowed error) :
    Ends allowed (fun result => value = some result) (RuCCL.Library.okOr value error) := by
  cases value with
  | none => exact admissible rfl
  | some present => rfl

/-- Collecting results keeps the pointwise postcondition. -/
theorem mapM {post : α → β → Prop} {action : α → Except ε β} {items : List α}
    (each : ∀ item ∈ items, Ends allowed (post item) (action item)) :
    Ends allowed (List.Forall₂ post items) (items.mapM action) := by
  induction items with
  | nil => exact List.Forall₂.nil
  | cons item rest ih =>
      rw [List.mapM_cons]
      apply bind (each item List.mem_cons_self)
      intro value itemHolds
      apply bind (ih fun other member =>
        each other (List.mem_cons_of_mem item member))
      intro values restHolds
      exact List.Forall₂.cons itemHolds restHolds

theorem forM {post : α → Prop} {action : α → Except ε PUnit} {items : List α}
    (each : ∀ item ∈ items, Ends allowed (fun _ => post item) (action item)) :
    Ends allowed (fun _ => ∀ item ∈ items, post item) (items.forM action) := by
  induction items with
  | nil => exact ok (by simp)
  | cons item rest ih =>
      apply bind (each item List.mem_cons_self)
      intro _ itemHolds
      apply mono (ih fun other member =>
        each other (List.mem_cons_of_mem item member))
      intro _ restHolds other member
      rcases List.mem_cons.mp member with same | later
      · rw [same]
        exact itemHolds
      · exact restHolds other later

end Ends

/-- A traversal that finds every value keeps the positions. -/
theorem getElem?_of_mapM {α β : Type} {find : α → Option β} (values : List α) :
    ∀ {found : List β}, values.mapM find = some found → found.length = values.length ∧
      ∀ (index : Nat) (value : α), values[index]? = some value → found[index]? = find value := by
  induction values with
  | nil =>
      intro found all
      cases all
      simp
  | cons head tail ih =>
      intro found all
      rw [List.mapM_cons] at all
      simp only [Option.pure_def, Option.bind_eq_bind,
        Option.bind_eq_some_iff, Option.some.injEq] at all
      obtain ⟨first, headFound, rest, tailFound, split⟩ := all
      obtain ⟨lengths, positions⟩ := ih tailFound
      rw [← split]
      refine ⟨by simp [lengths], ?_⟩
      intro index value located
      cases index with
      | zero =>
          simp only [List.getElem?_cons_zero, Option.some.injEq] at located
          rw [← located, headFound]
          rfl
      | succ index => exact positions index value located

/-- A traversal that finds every value finds the same with a function that finds
at least as much. -/
theorem mapM_of_finds {α β : Type} {find other : α → Option β} {values : List α}
    (finds : ∀ value ∈ values, ∀ result, find value = some result → other value = some result) :
    ∀ {found : List β}, values.mapM find = some found → values.mapM other = some found := by
  induction values with
  | nil =>
      intro found all
      exact all
  | cons head tail ih =>
      intro found all
      rw [List.mapM_cons] at all ⊢
      simp only [Option.pure_def, Option.bind_eq_bind,
        Option.bind_eq_some_iff, Option.some.injEq] at all ⊢
      obtain ⟨first, headFound, rest, tailFound, split⟩ := all
      exact ⟨first, finds head List.mem_cons_self first headFound, rest,
        ih (fun value member =>
          finds value (List.mem_cons_of_mem head member)) tailFound, split⟩

/-- A traversal that finds every value. -/
theorem mapM_eq_map {α β : Type} {find : α → Option β} {value : α → β} {values : List α}
    (finds : ∀ item ∈ values, find item = some (value item)) :
    values.mapM find = some (values.map value) := by
  induction values with
  | nil => rfl
  | cons head tail ih =>
      rw [List.mapM_cons, finds head List.mem_cons_self, ih fun item member =>
          finds item (List.mem_cons_of_mem head member)]
      rfl

/-- The number of values of a sixty-four bit word. -/
def wordSize : Nat := 2 ^ 64

/-- `checked_add` on sixty-four bit words. -/
def checkedAdd (left right : Nat) : Option Nat :=
  if left + right < wordSize then some (left + right) else none

/-- `checked_mul` on sixty-four bit words. -/
def checkedMul (left right : Nat) : Option Nat :=
  if left * right < wordSize then some (left * right) else none

theorem checkedAdd_eq_some_iff (left right result : Nat) :
    checkedAdd left right = some result ↔
      left + right < wordSize ∧ result = left + right := by
  unfold checkedAdd
  by_cases fits : left + right < wordSize
  · simp [fits, eq_comm]
  · simp [fits]

theorem checkedMul_eq_some_iff (left right result : Nat) :
    checkedMul left right = some result ↔
      left * right < wordSize ∧ result = left * right := by
  unfold checkedMul
  by_cases fits : left * right < wordSize
  · simp [fits, eq_comm]
  · simp [fits]

/-- A checked sum that fits is the sum. -/
theorem foldlM_checkedAdd {counts : List Nat} (start : Nat)
    (fits : start + counts.sum < wordSize) :
    counts.foldlM checkedAdd start = some (start + counts.sum) := by
  induction counts generalizing start with
  | nil => rfl
  | cons count rest ih =>
      rw [List.sum_cons, ← Nat.add_assoc] at fits ⊢
      have added : checkedAdd start count = some (start + count) :=
        (checkedAdd_eq_some_iff ..).mpr ⟨lt_of_le_of_lt (Nat.le_add_right _ _) fits, rfl⟩
      rw [List.foldlM_cons, added]
      exact ih (start + count) fits

theorem eq_add_sum_of_checkedAdd
    {counts : List Nat} {start total : Nat} (small : start < wordSize)
    (summed : counts.foldlM checkedAdd start = some total) :
    total = start + counts.sum ∧ total < wordSize := by
  induction counts generalizing start with
  | nil =>
      cases summed
      exact ⟨rfl, small⟩
  | cons count rest ih =>
      rw [List.foldlM_cons, Option.bind_eq_bind, Option.bind_eq_some_iff] at summed
      obtain ⟨next, added, later⟩ := summed
      rw [checkedAdd_eq_some_iff] at added
      obtain ⟨same, bounded⟩ := ih (added.2 ▸ added.1) later
      rw [List.sum_cons, ← Nat.add_assoc, ← added.2]
      exact ⟨same, bounded⟩

end RuCCL.Library
