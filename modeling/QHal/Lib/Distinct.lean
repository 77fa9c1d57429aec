/-
Module: QHal.Lib.Distinct
Purpose: A list of limited length that is extended by batches, from which only those values are
  taken that the list does not hold yet.
Trusted boundary: none
Main exports: Distinct.extend, Distinct.Fresh, Distinct.nodup_eraseDups,
  Distinct.take_eq_take_eraseDups, Distinct.extendAll_eq_iff
-/
import Mathlib.Data.List.Induction
import Mathlib.Data.List.Nodup
import Mathlib.Data.List.TakeDrop

namespace QHal.Distinct

variable {α : Type} [BEq α] [LawfulBEq α]

/-- The values of a batch that are not in the list, as many as there is room for. -/
def extend (capacity : Nat) (listed batch : List α) : List α :=
  listed ++ (batch.removeAll listed).take (capacity - listed.length)

/-- Of the values of a batch that were in no batch before it, those for which there is room when
each value takes room once differ from each other. -/
def Fresh (capacity : Nat) (earlier : List (List α)) (batch : List α) : Prop :=
  ((batch.removeAll earlier.flatten).take (capacity - earlier.flatten.eraseDups.length)).Nodup

/-! ## First occurrences -/

theorem nodup_eraseDups (values : List α) : values.eraseDups.Nodup := by
  induction h : values.length using Nat.strongRecOn generalizing values with
  | _ length ih =>
      cases values with
      | nil => exact List.nodup_nil
      | cons value values =>
          rw [List.eraseDups_cons, List.nodup_cons]
          have shorter : (values.filter fun other => !other == value).length < length := by
            rw [← h, List.length_cons]
            exact Nat.lt_succ_of_le (List.length_filter_le _ _)
          refine ⟨fun again => ?_, ih _ shorter _ rfl⟩
          have kept := (List.mem_filter.mp (List.mem_eraseDups.mp again)).2
          simp at kept

/-- A front part without a value stays in front when the value is taken out. -/
theorem take_filter_ne {value : α} {values : List α} {count : Nat}
    (absent : value ∉ values.take count) :
    (values.filter fun other => !other == value).take count = values.take count := by
  induction values generalizing count with
  | nil => rfl
  | cons first values ih =>
      cases count with
      | zero => rfl
      | succ count =>
          rw [List.take_succ_cons, List.mem_cons, not_or] at absent
          have kept : (!first == value) = true := by simp [Ne.symm absent.1]
          rw [List.filter_cons, if_pos kept, List.take_succ_cons, List.take_succ_cons,
            ih absent.2]

/-- A front part without repetitions is the front part of the first occurrences. -/
theorem take_eq_take_eraseDups {values : List α} {count : Nat}
    (distinct : (values.take count).Nodup) : values.take count = values.eraseDups.take count := by
  induction count generalizing values with
  | zero => rfl
  | succ count ih =>
      cases values with
      | nil => rfl
      | cons value values =>
          rw [List.take_succ_cons, List.nodup_cons] at distinct
          have front := take_filter_ne distinct.1
          rw [List.eraseDups_cons, List.take_succ_cons, List.take_succ_cons, ← front]
          congr 1
          apply ih
          rw [front]
          exact distinct.2

theorem removeAll_congr {batch first second : List α}
    (same : ∀ value, value ∈ first ↔ value ∈ second) :
    batch.removeAll first = batch.removeAll second := by
  unfold List.removeAll
  apply List.filter_congr
  intro value _
  simp [same]

/-! ## Batches -/

/-- What is added to the first occurrences so far. -/
theorem added_eq (capacity : Nat) (before batch : List α) :
    (batch.removeAll (before.eraseDups.take capacity)).take
        (capacity - (before.eraseDups.take capacity).length) =
      (batch.removeAll before).take (capacity - before.eraseDups.length) := by
  by_cases full : capacity ≤ before.eraseDups.length
  · have length : (before.eraseDups.take capacity).length = capacity := by
      rw [List.length_take, Nat.min_eq_left full]
    rw [length, Nat.sub_self, Nat.sub_eq_zero_of_le full, List.take_zero, List.take_zero]
  · have all : before.eraseDups.take capacity = before.eraseDups :=
      List.take_of_length_le (Nat.le_of_not_le full)
    rw [all, removeAll_congr fun value => List.mem_eraseDups]

/-- A fresh batch extends the first occurrences so far to the first occurrences. -/
theorem extend_eq {capacity : Nat} {earlier : List (List α)} {batch : List α}
    (fresh : Fresh capacity earlier batch) :
    extend capacity (earlier.flatten.eraseDups.take capacity) batch =
      (earlier ++ [batch]).flatten.eraseDups.take capacity := by
  rw [extend, added_eq, take_eq_take_eraseDups fresh, List.flatten_append, List.flatten_singleton,
    List.eraseDups_append, List.take_append]

variable (capacity : Nat)

/-- The list after some batches. -/
def extendAll (batches : List (List α)) : List α := batches.foldl (extend capacity) []

omit [LawfulBEq α] in
theorem extendAll_append (batches : List (List α)) (batch : List α) :
    extendAll capacity (batches ++ [batch]) = extend capacity (extendAll capacity batches) batch :=
  List.foldl_append

/-- All batches are fresh. -/
def AllFresh (batches : List (List α)) : Prop :=
  ∀ earlier batch later, batches = earlier ++ batch :: later → Fresh capacity earlier batch

omit [LawfulBEq α] in
theorem allFresh_append {batches : List (List α)} {batch : List α} :
    AllFresh capacity (batches ++ [batch]) ↔
      AllFresh capacity batches ∧ Fresh capacity batches batch := by
  constructor
  · intro all
    refine ⟨fun earlier first later split => ?_, all batches batch [] rfl⟩
    apply all earlier first (later ++ [batch])
    rw [split, List.append_assoc, List.cons_append]
  · rintro ⟨all, last⟩ earlier first later split
    rcases List.eq_nil_or_concat later with rfl | ⟨front, behind, rfl⟩
    · obtain ⟨same, one⟩ := List.append_inj' split rfl
      cases one
      rw [← same]
      exact last
    · rw [List.concat_eq_append, ← List.cons_append, ← List.append_assoc] at split
      exact all earlier first front (List.append_inj' split rfl).1

theorem extendAll_of_allFresh {batches : List (List α)} (all : AllFresh capacity batches) :
    extendAll capacity batches = batches.flatten.eraseDups.take capacity := by
  induction batches using List.reverseRecOn with
  | nil => simp [extendAll]
  | append_singleton batches batch ih =>
      obtain ⟨before, last⟩ := (allFresh_append capacity).mp all
      rw [extendAll_append, ih before, extend_eq last]

/-- A list without repetitions is made by fresh batches. -/
theorem allFresh_of_nodup {batches : List (List α)}
    (distinct : (extendAll capacity batches).Nodup) : AllFresh capacity batches := by
  induction batches using List.reverseRecOn with
  | nil =>
      intro earlier batch later split
      simp at split
  | append_singleton batches batch ih =>
      rw [extendAll_append, extend, List.nodup_append] at distinct
      have before := ih distinct.1
      refine (allFresh_append capacity).mpr ⟨before, ?_⟩
      have added := distinct.2.1
      rw [extendAll_of_allFresh capacity before, added_eq] at added
      exact added

/-- The list is the first occurrences in all batches exactly if all batches are fresh. -/
theorem extendAll_eq_iff {batches : List (List α)} :
    extendAll capacity batches = batches.flatten.eraseDups.take capacity ↔
      AllFresh capacity batches := by
  constructor
  · intro same
    apply allFresh_of_nodup
    rw [same]
    exact (nodup_eraseDups _).sublist (List.take_sublist _ _)
  · exact extendAll_of_allFresh capacity

end QHal.Distinct
