import Libpreempt.Transition.Machine
import Mathlib.Data.List.Nodup
import Mathlib.Data.List.Perm.Basic
import Mathlib.Data.List.Range
import Mathlib.Logic.Equiv.Basic

/-! Resources in the custody of places, each of which holds at most one. A
resource is acquired at a place, changes places by exchanges, and is released
once. -/

set_option autoImplicit false

namespace Libpreempt.Ownership

open Libpreempt.Transition

variable {Place Way : Type*}

/-- A resource is named by a number that is never used twice. -/
structure Custody (Place Way : Type*) where
  holder : Place → Option ℕ
  acquired : ℕ
  /-- The latest first, with the way each was released. -/
  released : List (ℕ × Way)

inductive Action (Place Way : Type*) where
  | acquire (place : Place)
  | exchange (left right : Place)
  | release (place : Place) (way : Way)

namespace Custody

def empty : Custody Place Way := ⟨fun _ => none, 0, []⟩

def releasedIds (custody : Custody Place Way) : List ℕ := custody.released.map Prod.fst

/-- Every acquired resource is at one place or was released once. -/
structure Accounted (custody : Custody Place Way) : Prop where
  covers : ∀ id, id < custody.acquired ↔
    (∃ place, custody.holder place = some id) ∨ id ∈ custody.releasedIds
  alone : ∀ id left right, custody.holder left = some id → custody.holder right = some id →
    left = right
  apart : ∀ id place, custody.holder place = some id → id ∉ custody.releasedIds
  once : custody.releasedIds.Nodup

theorem accounted_empty : Accounted (empty : Custody Place Way) where
  covers id := by simp [empty, releasedIds]
  alone id left right known := by cases known
  apart id place known := by cases known
  once := List.nodup_nil

variable {custody : Custody Place Way}

theorem Accounted.fresh (accounted : Accounted custody) (place : Place) :
    custody.holder place ≠ some custody.acquired := by
  intro known
  exact Nat.lt_irrefl _ ((accounted.covers custody.acquired).mpr (.inl ⟨place, known⟩))

/-- Where nothing is held, all that was acquired is released. -/
theorem Accounted.released_perm (accounted : Accounted custody)
    (vacant : ∀ place, custody.holder place = none) :
    custody.releasedIds.Perm (List.range custody.acquired) := by
  refine (List.perm_ext_iff_of_nodup accounted.once List.nodup_range).mpr ?_
  intro id
  rw [List.mem_range, accounted.covers id]
  constructor
  · exact .inr
  · rintro (⟨place, known⟩ | gone)
    · cases (vacant place).symm.trans known
    · exact gone

section Actions

variable [DecidableEq Place]

def acquire (custody : Custody Place Way) (place : Place) : Custody Place Way :=
  { custody with
    holder := Function.update custody.holder place (some custody.acquired)
    acquired := custody.acquired + 1 }

def exchange (custody : Custody Place Way) (left right : Place) : Custody Place Way :=
  { custody with holder := custody.holder ∘ Equiv.swap left right }

def release (custody : Custody Place Way) (place : Place) (id : ℕ) (way : Way) :
    Custody Place Way :=
  { custody with
    holder := Function.update custody.holder place none
    released := (id, way) :: custody.released }

def perform (custody : Custody Place Way) : Action Place Way → Option (Custody Place Way)
  | .acquire place => if custody.holder place = none then some (custody.acquire place) else none
  | .exchange left right => some (custody.exchange left right)
  | .release place way => (custody.holder place).map fun id => custody.release place id way

def machine : Machine (Custody Place Way) (Action Place Way) where
  initial := empty
  step := perform

theorem Accounted.acquire (accounted : Accounted custody) {place : Place}
    (free : custody.holder place = none) : Accounted (custody.acquire place) where
  covers id := by
    have before := accounted.covers id
    constructor
    · intro bound
      rcases Nat.lt_succ_iff_lt_or_eq.mp bound with old | rfl
      · rcases before.mp old with ⟨other, known⟩ | gone
        · have different : other ≠ place := by
            rintro rfl
            cases free.symm.trans known
          exact .inl ⟨other, (Function.update_of_ne different _ _).trans known⟩
        · exact .inr gone
      · exact .inl ⟨place, Function.update_self ..⟩
    · rintro (⟨other, known⟩ | gone)
      · by_cases same : other = place
        · subst same
          have new := (Function.update_self (f := custody.holder) ..).symm.trans known
          exact Nat.lt_succ_of_le (Option.some.inj new).ge
        · have old := (Function.update_of_ne same _ _).symm.trans known
          exact Nat.lt_succ_of_lt (before.mpr (.inl ⟨other, old⟩))
      · exact Nat.lt_succ_of_lt (before.mpr (.inr gone))
  alone id left right first second := by
    by_cases leftSame : left = place
    · by_cases rightSame : right = place
      · rw [leftSame, rightSame]
      · subst leftSame
        have new := (Function.update_self (f := custody.holder) ..).symm.trans first
        cases new
        exact absurd ((Function.update_of_ne rightSame _ _).symm.trans second)
          (accounted.fresh right)
    · by_cases rightSame : right = place
      · subst rightSame
        have new := (Function.update_self (f := custody.holder) ..).symm.trans second
        cases new
        exact absurd ((Function.update_of_ne leftSame _ _).symm.trans first)
          (accounted.fresh left)
      · exact accounted.alone id left right
          ((Function.update_of_ne leftSame _ _).symm.trans first)
          ((Function.update_of_ne rightSame _ _).symm.trans second)
  apart id other known gone := by
    by_cases same : other = place
    · subst same
      have new := (Function.update_self (f := custody.holder) ..).symm.trans known
      cases new
      exact Nat.lt_irrefl _ ((accounted.covers _).mpr (.inr gone))
    · exact accounted.apart id other ((Function.update_of_ne same _ _).symm.trans known) gone
  once := accounted.once

/-- An exchange only renames the places. -/
theorem Accounted.exchange (accounted : Accounted custody) (left right : Place) :
    Accounted (custody.exchange left right) where
  covers id := by
    rw [show (custody.exchange left right).acquired = custody.acquired from rfl,
      accounted.covers id]
    exact or_congr (Equiv.swap left right).surjective.exists Iff.rfl
  alone id first second atFirst atSecond :=
    (Equiv.swap left right).injective (accounted.alone id _ _ atFirst atSecond)
  apart id place known := accounted.apart id _ known
  once := accounted.once

theorem Accounted.release (accounted : Accounted custody) {place : Place} {id : ℕ}
    (held : custody.holder place = some id) (way : Way) :
    Accounted (custody.release place id way) := by
  have kept : ∀ other, (custody.release place id way).holder other =
      if other = place then none else custody.holder other := fun other =>
    Function.update_apply ..
  have ids : (custody.release place id way).releasedIds = id :: custody.releasedIds := rfl
  have still : ∀ other some, (custody.release place id way).holder other = Option.some some →
      other ≠ place ∧ custody.holder other = Option.some some := by
    intro other some known
    rw [kept] at known
    split at known
    · cases known
    · next different => exact ⟨different, known⟩
  constructor
  · intro other
    rw [show (custody.release place id way).acquired = custody.acquired from rfl,
      accounted.covers other, ids, List.mem_cons]
    constructor
    · rintro (⟨somewhere, known⟩ | gone)
      · by_cases same : somewhere = place
        · subst same
          exact .inr (.inl (Option.some.inj (known.symm.trans held)))
        · exact .inl ⟨somewhere, by rw [kept, if_neg same, known]⟩
      · exact .inr (.inr gone)
    · rintro (⟨somewhere, known⟩ | rfl | gone)
      · exact .inl ⟨somewhere, (still somewhere other known).2⟩
      · exact .inl ⟨place, held⟩
      · exact .inr gone
  · intro other left right first second
    exact accounted.alone other left right (still left other first).2 (still right other second).2
  · intro other somewhere known gone
    obtain ⟨different, before⟩ := still somewhere other known
    rcases List.mem_cons.mp (ids ▸ gone) with rfl | earlier
    · exact different (accounted.alone _ _ _ before held)
    · exact accounted.apart other somewhere before earlier
  · rw [ids, List.nodup_cons]
    exact ⟨accounted.apart id place held, accounted.once⟩

theorem Accounted.perform (accounted : Accounted custody) {action : Action Place Way}
    {after : Custody Place Way} (performed : custody.perform action = some after) :
    Accounted after := by
  cases action with
  | acquire place =>
      obtain ⟨free, same⟩ := Option.ite_none_right_eq_some.mp performed
      cases same
      exact accounted.acquire free
  | exchange left right =>
      cases performed
      exact accounted.exchange left right
  | release place way =>
      obtain ⟨id, held, rfl⟩ := Option.map_eq_some_iff.mp performed
      exact accounted.release held way

theorem Accounted.run (accounted : Accounted custody) {actions : List (Action Place Way)}
    {after : Custody Place Way} (ran : machine.run custody actions = some after) :
    Accounted after :=
  machine.run_preserves Accounted (fun _ _ _ valid stepped => valid.perform stepped) accounted ran

theorem acquired_le_of_run {actions : List (Action Place Way)} {after : Custody Place Way}
    (ran : machine.run custody actions = some after) : custody.acquired ≤ after.acquired := by
  refine machine.run_preserves (fun later => custody.acquired ≤ later.acquired) ?_
    (Nat.le_refl _) ran
  intro source action target bound performed
  refine Nat.le_trans bound ?_
  cases action with
  | acquire place =>
      obtain ⟨_, same⟩ := Option.ite_none_right_eq_some.mp performed
      cases same
      exact Nat.le_succ _
  | exchange left right =>
      cases performed
      exact Nat.le_refl _
  | release place way =>
      obtain ⟨id, _, rfl⟩ := Option.map_eq_some_iff.mp performed
      exact Nat.le_refl _

end Actions

end Custody

end Libpreempt.Ownership
