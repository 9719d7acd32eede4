import Mathlib.Data.List.Basic
import Mathlib.Data.List.Perm.Basic

/-!
# Two queues that are matched on arrival

Offers and wants arrive in any order.  An arrival takes the earliest entry of
the other queue that it fits, and joins its own queue when there is none.  A
class of entries that fit the same partners is served in its order of arrival.
-/

namespace RuCCL.Library

section Queue

variable {α : Type}

/-- Entries of a class that the search cannot tell apart keep their order when
the first hit is taken out. -/
theorem filter_eq_find_append_eraseP {hit selected : α → Bool} {queue : List α} {first : α}
    (uniform : ∀ left right, selected left = true → selected right = true → hit left = hit right)
    (found : queue.find? hit = some first) :
    queue.filter selected = [first].filter selected ++ (queue.eraseP hit).filter selected := by
  obtain ⟨hits, before, after, rfl, misses⟩ := List.find?_eq_some_iff_append.mp found
  have missed : ∀ entry ∈ before, ¬hit entry = true := by
    intro entry member
    simpa using misses entry member
  rw [List.eraseP_append_right _ missed, List.eraseP_cons_of_pos hits]
  cases chosen : selected first with
  | false => simp [List.filter_append, chosen]
  | true =>
      have none_before : before.filter selected = [] := by
        rw [List.filter_eq_nil_iff]
        intro entry member picked
        have same := uniform entry first picked chosen
        rw [hits] at same
        exact missed entry member same
      simp [List.filter_append, chosen, none_before]

end Queue

variable {σ ρ : Type}

/-- The two queues, the pairs handed over so far and everything that arrived. -/
structure Desk (σ ρ : Type) where
  offers : List σ
  wants : List ρ
  pairs : List (σ × ρ)
  offered : List σ
  wanted : List ρ

namespace Desk

/-- The desk seen from the other side. -/
def swap (desk : Desk σ ρ) : Desk ρ σ where
  offers := desk.wants
  wants := desk.offers
  pairs := desk.pairs.map Prod.swap
  offered := desk.wanted
  wanted := desk.offered

def offer (fits : σ → ρ → Bool) (desk : Desk σ ρ) (item : σ) :
    Desk σ ρ :=
  match desk.wants.find? (fits item) with
  | some partner =>
      { desk with
        wants := desk.wants.eraseP (fits item)
        pairs := desk.pairs ++ [(item, partner)]
        offered := desk.offered ++ [item] }
  | none =>
      { desk with
        offers := desk.offers ++ [item]
        offered := desk.offered ++ [item] }

def want (fits : σ → ρ → Bool) (desk : Desk σ ρ) (item : ρ) :
    Desk σ ρ :=
  match desk.offers.find? (fun partner => fits partner item) with
  | some partner =>
      { desk with
        offers := desk.offers.eraseP (fun partner => fits partner item)
        pairs := desk.pairs ++ [(partner, item)]
        wanted := desk.wanted ++ [item] }
  | none =>
      { desk with
        wants := desk.wants ++ [item]
        wanted := desk.wanted ++ [item] }

theorem want_swap (fits : σ → ρ → Bool) (desk : Desk σ ρ) (item : ρ) :
    (desk.want fits item).swap = desk.swap.offer (fun want offer => fits offer want) item := by
  unfold want offer
  cases found : desk.offers.find? (fun partner => fits partner item) with
  | none => simp [swap, found]
  | some partner => simp [swap, found]

/-- A class of offers that fit the same wants. -/
def Uniform (fits : σ → ρ → Bool) (selected : σ → Bool) : Prop :=
  ∀ left right, selected left = true → selected right = true →
    ∀ partner, fits left partner = fits right partner

/-- Every arrival of a class was handed over or waits, in order of arrival. -/
def Served (fits : σ → ρ → Bool) (arrived handed waiting : List σ) : Prop :=
  ∀ selected : σ → Bool, Uniform fits selected → arrived.filter selected =
      handed.filter selected ++ waiting.filter selected

structure Fair (fits : σ → ρ → Bool) (desk : Desk σ ρ) : Prop where
  apart : ∀ item ∈ desk.offers, ∀ partner ∈ desk.wants, fits item partner = false
  offers : Served fits desk.offered (desk.pairs.map Prod.fst) desk.offers
  wants : Served (fun want offer => fits offer want)
    desk.wanted (desk.pairs.map Prod.snd) desk.wants
  fitting : ∀ pair ∈ desk.pairs, fits pair.1 pair.2 = true

variable {fits : σ → ρ → Bool} {desk : Desk σ ρ}

theorem Fair.empty : Fair fits (⟨[], [], [], [], []⟩ : Desk σ ρ) where
  apart := by simp
  offers := by
    intro selected uniform
    rfl
  wants := by
    intro selected uniform
    rfl
  fitting := by simp

theorem Fair.swap (fair : Fair fits desk) :
    Fair (fun want offer => fits offer want) desk.swap where
  apart := by
    intro item offered partner wanted
    exact fair.apart partner wanted item offered
  offers := by
    have served := fair.wants
    simpa [Desk.swap, Function.comp_def] using served
  wants := by
    have served := fair.offers
    simpa [Desk.swap, Function.comp_def] using served
  fitting := by
    intro pair handed
    obtain ⟨original, member, rfl⟩ := List.mem_map.mp handed
    exact fair.fitting original member

/-- No offer of a class waits once one of its members fits a queued want. -/
theorem Fair.filter_offers_eq_nil (fair : Fair fits desk) {item : σ} {partner : ρ}
    {selected : σ → Bool} (uniform : Uniform fits selected)
    (queued : partner ∈ desk.wants) (fitting : fits item partner = true)
    (chosen : selected item = true) :
    desk.offers.filter selected = [] := by
  rw [List.filter_eq_nil_iff]
  intro other waiting picked
  have same := uniform other item picked chosen partner
  rw [fair.apart other waiting partner queued, fitting] at same
  cases same

theorem Fair.offer (fair : Fair fits desk) (item : σ) : Fair fits (desk.offer fits item) := by
  unfold Desk.offer
  cases found : desk.wants.find? (fits item) with
  | none =>
      have misfit := List.find?_eq_none.mp found
      refine ⟨?_, ?_, fair.wants, fair.fitting⟩
      · intro offer offered partner wanted
        rcases List.mem_append.mp offered with earlier | new
        · exact fair.apart offer earlier partner wanted
        · rw [List.mem_singleton] at new
          subst new
          simpa using misfit partner wanted
      · intro selected uniform
        simp only [List.filter_append, fair.offers selected uniform, List.append_assoc]
  | some partner =>
      have fitting := List.find?_some found
      have queued := List.mem_of_find?_eq_some found
      refine ⟨?_, ?_, ?_, ?_⟩
      · intro offer offered want wanted
        exact fair.apart offer offered want (List.mem_of_mem_eraseP wanted)
      · intro selected uniform
        simp only [List.map_append, List.map_cons, List.map_nil,
          List.filter_append, fair.offers selected uniform,
          List.append_assoc]
        cases chosen : selected item with
        | false => simp [chosen]
        | true =>
            -- an earlier member of the class would have been matched before
            rw [fair.filter_offers_eq_nil uniform queued fitting chosen]
            simp
      · intro selected uniform
        have split := filter_eq_find_append_eraseP
          (fun left right leftChosen rightChosen =>
            uniform left right leftChosen rightChosen item) found
        simp only [List.map_append, List.map_cons, List.map_nil,
          List.filter_append, fair.wants selected uniform,
          List.append_assoc, split]
      · intro pair handed
        rcases List.mem_append.mp handed with earlier | new
        · exact fair.fitting pair earlier
        · rw [List.mem_singleton.mp new]
          exact fitting

theorem Fair.want (fair : Fair fits desk) (item : ρ) : Fair fits (desk.want fits item) := by
  have swapped := fair.swap.offer item
  rw [← want_swap] at swapped
  simpa [Desk.swap, Function.comp_def] using swapped.swap

section Identity

variable [DecidableEq σ]

theorem Served.perm {arrived handed waiting : List σ}
    (served : Served fits arrived handed waiting) :
    arrived.Perm (handed ++ waiting) := by
  rw [List.perm_iff_count]
  intro item
  have split := served (· == item) (by
    intro left right leftSame rightSame partner
    rw [eq_of_beq leftSame, eq_of_beq rightSame])
  have lengths := congrArg List.length split
  rw [List.length_append] at lengths
  rw [List.count_append]
  simpa only [List.count_eq_length_filter] using lengths

/-- Distinct arrivals are handed over at most once and never kept as well. -/
theorem Served.nodup {arrived handed waiting : List σ}
    (served : Served fits arrived handed waiting)
    (distinct : arrived.Nodup) :
    handed.Nodup ∧ waiting.Nodup ∧ ∀ left ∈ handed, ∀ right ∈ waiting, left ≠ right :=
  List.nodup_append.mp (served.perm.nodup_iff.mp distinct)

end Identity

end Desk

end RuCCL.Library
