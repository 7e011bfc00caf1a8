import Mathlib.Order.Basic
import Mathlib.Tactic

namespace Foundation.FieldMap

variable {K F V : Type}

/-- Two keys are the same when they fold to one value, and every key has at most one entry. -/
def Distinct (fold : K → F) (fields : List (K × V)) : Prop :=
  fields.Pairwise fun first second => fold first.1 ≠ fold second.1

variable [LinearOrder F] (fold : K → F)

/-- The entries stand in the strict order of their folded keys. -/
def Ordered (fields : List (K × V)) : Prop := fields.Pairwise fun first second => fold first.1 < fold second.1

/-- The first entry of a key counts. -/
def valueOf : List (K × V) → K → Option V
  | [], _ => none
  | field :: rest, key => if fold field.1 = fold key then some field.2 else valueOf rest key

/-- An update replaces the value of a key and keeps the spelling that the key has there. -/
def update : List (K × V) → K → V → List (K × V)
  | [], key, value => [(key, value)]
  | field :: rest, key, value =>
      if fold key < fold field.1 then (key, value) :: field :: rest
      else if fold field.1 = fold key then (field.1, value) :: rest
      else field :: update rest key value

variable {fold} {fields : List (K × V)} {key : K} {value : V}

theorem Ordered.distinct (ordered : Ordered fold fields) : Distinct fold fields :=
  ordered.imp fun below => ne_of_lt below

/-- The entries in front win. -/
theorem valueOf_append (later : List (K × V)) :
    valueOf fold (fields ++ later) key = (valueOf fold fields key).or (valueOf fold later key) := by
  induction fields with
  | nil => rfl
  | cons field rest inductionHypothesis =>
      rw [List.cons_append, valueOf, valueOf, inductionHypothesis]
      split <;> rfl

/-- A value of a key comes from an entry. -/
theorem exists_of_valueOf (found : valueOf fold fields key = some value) :
    ∃ field ∈ fields, fold field.1 = fold key ∧ field.2 = value := by
  induction fields with
  | nil => cases found
  | cons field rest inductionHypothesis =>
      rw [valueOf] at found
      by_cases same : fold field.1 = fold key
      · rw [if_pos same, Option.some_inj] at found
        exact ⟨field, List.mem_cons_self, same, found⟩
      · rw [if_neg same] at found
        obtain ⟨other, member, own, value⟩ := inductionHypothesis found
        exact ⟨other, List.mem_cons_of_mem _ member, own, value⟩

/-- With one entry for each key every entry gives the value of its key. -/
theorem valueOf_of_mem (distinct : Distinct fold fields) {field : K × V} (member : field ∈ fields)
    (same : fold field.1 = fold key) : valueOf fold fields key = some field.2 := by
  induction fields with
  | nil => cases member
  | cons head rest inductionHypothesis =>
      obtain ⟨apart, tail⟩ := List.pairwise_cons.mp distinct
      rw [valueOf]
      obtain rfl | later := List.mem_cons.mp member
      · rw [if_pos same]
      · have other : fold head.1 ≠ fold key := by
          rw [← same]
          exact apart field later
        rw [if_neg other]
        exact inductionHypothesis tail later

/-- An update decides the value of its key. -/
theorem valueOf_update_of_eq {other : K} (same : fold key = fold other) :
    valueOf fold (update fold fields key value) other = some value := by
  induction fields with
  | nil => rw [update, valueOf, if_pos same]
  | cons field rest inductionHypothesis =>
      rw [update]
      split
      · rw [valueOf, if_pos same]
      · split
        case isTrue own => rw [valueOf, if_pos (own.trans same)]
        case isFalse foreign => rw [valueOf, if_neg (same ▸ foreign), inductionHypothesis]

/-- An update keeps the values of all other keys. -/
theorem valueOf_update_of_ne {other : K} (apart : fold key ≠ fold other) :
    valueOf fold (update fold fields key value) other = valueOf fold fields other := by
  induction fields with
  | nil => exact if_neg apart
  | cons field rest inductionHypothesis =>
      rw [update]
      split
      · rw [valueOf, if_neg apart]
      · split
        case isTrue own =>
          rw [← own] at apart
          rw [valueOf, valueOf, if_neg apart, if_neg apart]
        case isFalse => rw [valueOf, valueOf, inductionHypothesis]

/-- After many writes the last write to a key wins, and a key without a write keeps its value. -/
theorem valueOf_foldl {S : Type} (read : S → List (K × V)) (write : S → K × V → S)
    (wins : ∀ state field key, fold field.1 = fold key → valueOf fold (read (write state field)) key = some field.2)
    (keeps : ∀ state field key, fold field.1 ≠ fold key →
      valueOf fold (read (write state field)) key = valueOf fold (read state) key)
    (writes : List (K × V)) (state : S) (key : K) :
    valueOf fold (read (writes.foldl write state)) key =
      (valueOf fold writes.reverse key).or (valueOf fold (read state) key) := by
  induction writes generalizing state with
  | nil => rfl
  | cons field rest inductionHypothesis =>
      rw [List.foldl_cons, inductionHypothesis, List.reverse_cons, valueOf_append, Option.or_assoc, valueOf, valueOf]
      by_cases same : fold field.1 = fold key
      · rw [if_pos same, wins state field key same, Option.some_or]
      · rw [if_neg same, keeps state field key same, Option.none_or]

/-- An update adds no key but its own. -/
theorem mem_update {field : K × V} (member : field ∈ update fold fields key value) :
    fold field.1 = fold key ∨ field ∈ fields := by
  induction fields with
  | nil =>
      left
      rw [List.mem_singleton.mp member]
  | cons head rest inductionHypothesis =>
      rw [update] at member
      split at member
      · obtain rfl | old := List.mem_cons.mp member
        · exact Or.inl rfl
        · exact Or.inr old
      · split at member
        case isTrue same =>
          obtain rfl | old := List.mem_cons.mp member
          · exact Or.inl same
          · exact Or.inr (List.mem_cons_of_mem _ old)
        case isFalse =>
          obtain rfl | old := List.mem_cons.mp member
          · exact Or.inr List.mem_cons_self
          · exact (inductionHypothesis old).imp_right (List.mem_cons_of_mem _)

/-- An update keeps the order. -/
theorem Ordered.update (ordered : Ordered fold fields) (key : K) (value : V) :
    Ordered fold (update fold fields key value) := by
  induction fields with
  | nil => exact List.pairwise_singleton _ _
  | cons head rest inductionHypothesis =>
      obtain ⟨below, tail⟩ := List.pairwise_cons.mp ordered
      rw [FieldMap.update]
      by_cases before : fold key < fold head.1
      · rw [if_pos before]
        refine List.pairwise_cons.mpr ⟨?_, ordered⟩
        intro field member
        obtain rfl | later := List.mem_cons.mp member
        · exact before
        · exact before.trans (below field later)
      · rw [if_neg before]
        by_cases same : fold head.1 = fold key
        · rw [if_pos same]
          exact List.pairwise_cons.mpr ⟨below, tail⟩
        · rw [if_neg same]
          refine List.pairwise_cons.mpr ⟨?_, inductionHypothesis tail⟩
          intro field member
          obtain own | old := mem_update member
          · rw [own]
            exact lt_of_le_of_ne (not_lt.mp before) same
          · exact below field old

end Foundation.FieldMap
