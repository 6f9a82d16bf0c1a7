import RowInference.Types.Basic
import Mathlib.Data.List.Induction
import Mathlib.Tactic.ByContra

/-! # Rows as finite maps

A row whose names increase is determined by the types that `Row.get?` finds in it. Insertion, extension and
restriction are described through `Row.get?`, so that equations between rows reduce to equations between
look-ups.
-/

namespace RowInference

open Std (TransCmp OrientedCmp ReflCmp LawfulEqCmp)

namespace Row

/-- The names come in strictly increasing order. -/
def Sorted : Row → Prop
  | empty => True
  | field name _ rest => rest.Sorted ∧ ∀ entry ∈ rest.toList, compare name entry.1 = .lt

/-- Names that are compared as different are different. -/
theorem name_ne_of_lt {first second : String} (less : compare first second = .lt) : first ≠ second := by
  rintro rfl
  have same : compare first first = .eq := ReflCmp.compare_self
  rw [same] at less
  cases less

theorem mem_toList_of_get? {row : Row} {key : String} {type : Ty} (found : row.get? key = some type) :
    (key, type) ∈ row.toList := by
  induction row using Row.induction with
  | empty => simp [get?] at found
  | field name head rest ih =>
    simp only [get?] at found
    split at found
    · next same =>
      cases found
      simp [toList, same]
    · simp [toList, ih found]

/-- A name before all others is not in the row. -/
theorem get?_eq_none_of_below {row : Row} {key : String}
    (below : ∀ entry ∈ row.toList, compare key entry.1 = .lt) : row.get? key = none := by
  cases found : row.get? key with
  | none => rfl
  | some type => exact absurd rfl (name_ne_of_lt (below _ (mem_toList_of_get? found)))

/-- In a sorted row every entry is found under its name. -/
theorem get?_of_mem_toList {row : Row} (sorted : row.Sorted) {key : String} {type : Ty}
    (member : (key, type) ∈ row.toList) : row.get? key = some type := by
  induction row using Row.induction with
  | empty => simp [toList] at member
  | field name head rest ih =>
    simp only [toList, List.mem_cons, Prod.mk.injEq] at member
    rcases member with ⟨rfl, rfl⟩ | member
    · simp [get?]
    · have different : key ≠ name := (name_ne_of_lt (sorted.2 _ member)).symm
      rw [get?, if_neg different]
      exact ih sorted.1 member

/-- Sorted rows with the same look-ups are equal. -/
theorem ext_get? {left right : Row} (leftSorted : left.Sorted) (rightSorted : right.Sorted)
    (same : ∀ key, left.get? key = right.get? key) : left = right := by
  induction left using Row.induction generalizing right with
  | empty =>
    cases right with
    | empty => rfl
    | field name type rest =>
      have := same name
      simp [get?] at this
  | field name type rest ih =>
    cases right with
    | empty =>
      have := same name
      simp [get?] at this
    | field other type' rest' =>
      have firstSame : name = other := by
        by_contra different
        have inRight : rest'.get? name = some type := by
          have := same name
          simpa [get?, different] using this.symm
        have inLeft : rest.get? other = some type' := by
          have := same other
          simpa [get?, Ne.symm different] using this
        have less : compare name other = .lt := leftSorted.2 _ (mem_toList_of_get? inLeft)
        have greater : compare other name = .lt := rightSorted.2 _ (mem_toList_of_get? inRight)
        exact name_ne_of_lt (TransCmp.lt_trans less greater) rfl
      subst firstSame
      have typesSame : type = type' := by
        have := same name
        simpa [get?] using this
      subst typesSame
      have restsSame : rest = rest' := by
        apply ih leftSorted.1 rightSorted.1
        intro key
        by_cases first : key = name
        · subst first
          rw [get?_eq_none_of_below leftSorted.2, get?_eq_none_of_below rightSorted.2]
        · have := same key
          simpa [get?, first] using this
      rw [restsSame]

/-! ## Insertion and extension -/

@[simp] theorem get?_insert (key other : String) (value : Ty) (row : Row) :
    (row.insert key value).get? other = if other = key then some value else row.get? other := by
  induction row using Row.induction with
  | empty => simp [insert, get?]
  | field name type rest ih =>
    simp only [insert]
    split
    · simp [get?]
    · next equal =>
      obtain rfl := LawfulEqCmp.eq_of_compare equal
      by_cases same : other = key <;> simp [get?, same]
    · next greater =>
      by_cases same : other = name
      · have different : name ≠ key := name_ne_of_lt (OrientedCmp.lt_of_gt greater)
        subst same
        simp [get?, different]
      · simp [get?, same, ih]

theorem mem_toList_insert {key : String} {value : Ty} {row : Row} {entry : String × Ty}
    (member : entry ∈ (row.insert key value).toList) : entry = (key, value) ∨ entry ∈ row.toList := by
  induction row using Row.induction with
  | empty => simpa [insert, toList] using member
  | field name type rest ih =>
    simp only [insert] at member
    split at member
    · simpa [toList] using member
    · rcases List.mem_cons.mp member with first | later
      · exact .inl first
      · exact .inr (List.mem_cons_of_mem _ later)
    · rcases List.mem_cons.mp member with first | later
      · exact .inr (first ▸ List.mem_cons_self ..)
      · exact (ih later).imp id (List.mem_cons_of_mem _)

/-- Inserting keeps a row sorted. -/
theorem Sorted.insert {row : Row} (sorted : row.Sorted) (key : String) (value : Ty) :
    (row.insert key value).Sorted := by
  induction row using Row.induction with
  | empty => simp [Row.insert, Sorted, toList]
  | field name type rest ih =>
    simp only [Row.insert]
    split
    · next less =>
      refine ⟨sorted, ?_⟩
      intro entry member
      rcases List.mem_cons.mp member with rfl | later
      · exact less
      · exact TransCmp.lt_trans less (sorted.2 entry later)
    · next equal =>
      obtain rfl := LawfulEqCmp.eq_of_compare equal
      exact sorted
    · next greater =>
      refine ⟨ih sorted.1, ?_⟩
      intro entry member
      rcases mem_toList_insert member with rfl | old
      · exact OrientedCmp.lt_of_gt greater
      · exact sorted.2 entry old

/-- Extending keeps a row sorted. -/
theorem Sorted.extend {row : Row} (sorted : row.Sorted) (other : Row) : (row.extend other).Sorted := by
  induction other using Row.induction generalizing row with
  | empty => exact sorted
  | field name type rest ih => exact ih (sorted.insert name type)

/-- Fields of the second row win. -/
theorem get?_extend (row : Row) {other : Row} (sorted : other.Sorted) (key : String) :
    (row.extend other).get? key = (other.get? key).or (row.get? key) := by
  induction other using Row.induction generalizing row with
  | empty => simp [Row.extend, get?]
  | field name type rest ih =>
    rw [Row.extend, ih _ sorted.1, get?_insert, get?]
    by_cases same : key = name
    · subst same
      simp [get?_eq_none_of_below sorted.2]
    · simp [same]

theorem mem_toList_extend {row other : Row} {entry : String × Ty}
    (member : entry ∈ (row.extend other).toList) : entry ∈ other.toList ∨ entry ∈ row.toList := by
  induction other using Row.induction generalizing row with
  | empty => exact .inr member
  | field name type rest ih =>
    rcases ih member with inRest | inRow
    · exact .inl (List.mem_cons_of_mem _ inRest)
    · rcases mem_toList_insert inRow with rfl | old
      · exact .inl (List.mem_cons_self ..)
      · exact .inr old

/-- Extension is associative. -/
theorem extend_extend {first second third : Row} (firstSorted : first.Sorted)
    (secondSorted : second.Sorted) (thirdSorted : third.Sorted) :
    (first.extend second).extend third = first.extend (second.extend third) := by
  apply ext_get? ((firstSorted.extend _).extend _) (firstSorted.extend _)
  intro key
  rw [get?_extend _ thirdSorted, get?_extend _ secondSorted, get?_extend _ (secondSorted.extend _),
    get?_extend _ thirdSorted, Option.or_assoc]

/-- A sorted row is what comes of extending the empty row by it. -/
theorem empty_extend {row : Row} (sorted : row.Sorted) : empty.extend row = row := by
  have emptySorted : empty.Sorted := trivial
  apply ext_get? (emptySorted.extend row) sorted
  intro key
  rw [get?_extend _ sorted]
  simp [get?]

theorem ofList_sorted (fields : List (String × Ty)) : (ofList fields).Sorted := by
  have general : ∀ row : Row, row.Sorted →
      (fields.foldl (fun row entry => row.insert entry.1 entry.2) row).Sorted := by
    induction fields with
    | nil => exact fun _ sorted => sorted
    | cons entry rest ih => exact fun row sorted => ih _ (sorted.insert _ _)
  exact general empty trivial

theorem mem_toList_ofList {fields : List (String × Ty)} {entry : String × Ty}
    (member : entry ∈ (ofList fields).toList) : entry ∈ fields := by
  have general : ∀ row : Row,
      entry ∈ (fields.foldl (fun row entry => row.insert entry.1 entry.2) row).toList →
        entry ∈ fields ∨ entry ∈ row.toList := by
    clear member
    induction fields with
    | nil => exact fun _ member => .inr member
    | cons head rest ih =>
      intro row member
      rcases ih _ member with inRest | inRow
      · exact .inl (List.mem_cons_of_mem _ inRest)
      · rcases mem_toList_insert inRow with rfl | old
        · exact .inl (List.mem_cons_self ..)
        · exact .inr old
  rcases general empty member with present | impossible
  · exact present
  · simp [toList] at impossible

/-- The row of fields with different names has each of them. -/
theorem get?_ofList_of_mem {fields : List (String × Ty)} (distinct : (fields.map Prod.fst).Nodup)
    {entry : String × Ty} (member : entry ∈ fields) : (ofList fields).get? entry.1 = some entry.2 := by
  induction fields using List.reverseRecOn with
  | nil => cases member
  | append_singleton init last ih =>
    have pushed : ofList (init ++ [last]) = (ofList init).insert last.1 last.2 := by simp [ofList]
    rw [List.map_append, List.nodup_append] at distinct
    obtain ⟨initDistinct, _, apart⟩ := distinct
    rw [pushed, get?_insert]
    rcases List.mem_append.mp member with inInit | isLast
    · rw [if_neg (apart _ (List.mem_map_of_mem inInit) _ (List.mem_singleton_self _)), ih initDistinct inInit]
    · obtain rfl := List.mem_singleton.mp isLast
      rw [if_pos rfl]

/-! ## Restriction and common fields -/

@[simp] theorem get?_without (row other : Row) (key : String) :
    (row.without other).get? key = if other.contains key then none else row.get? key := by
  induction row using Row.induction with
  | empty => simp [without, get?]
  | field name type rest ih =>
    simp only [without]
    by_cases present : other.contains name
    · rw [if_pos present, ih]
      by_cases same : key = name
      · simp [same, present]
      · simp [get?, same]
    · rw [if_neg present, get?, ih]
      by_cases same : key = name
      · simp [same, present, get?]
      · simp [get?, same]

theorem mem_toList_without {row other : Row} {entry : String × Ty}
    (member : entry ∈ (row.without other).toList) : entry ∈ row.toList := by
  induction row using Row.induction with
  | empty => simpa [without] using member
  | field name type rest ih =>
    simp only [without] at member
    split at member
    · exact List.mem_cons_of_mem _ (ih member)
    · rcases List.mem_cons.mp member with first | later
      · exact first ▸ List.mem_cons_self ..
      · exact List.mem_cons_of_mem _ (ih later)

/-- Dropping fields keeps a row sorted. -/
theorem Sorted.without {row : Row} (sorted : row.Sorted) (other : Row) : (row.without other).Sorted := by
  induction row using Row.induction with
  | empty => simpa [Row.without] using sorted
  | field name type rest ih =>
    simp only [Row.without]
    split
    · exact ih sorted.1
    · exact ⟨ih sorted.1, fun entry member => sorted.2 entry (mem_toList_without member)⟩

theorem isEmpty_iff {row : Row} : row.isEmpty = true ↔ row = empty := by
  cases row <;> simp [isEmpty]

/-- The pairs that two rows have in common come from equal names. -/
theorem mem_common {left right : Row} {pair : Ty × Ty} (member : pair ∈ left.common right) :
    ∃ key, (key, pair.1) ∈ left.toList ∧ right.get? key = some pair.2 := by
  induction left using Row.induction with
  | empty => simp [common] at member
  | field name type rest ih =>
    simp only [common] at member
    split at member
    · next partner found =>
      rcases List.mem_cons.mp member with rfl | later
      · exact ⟨name, List.mem_cons_self .., found⟩
      · obtain ⟨key, inRest, inRight⟩ := ih later
        exact ⟨key, List.mem_cons_of_mem _ inRest, inRight⟩
    · obtain ⟨key, inRest, inRight⟩ := ih member
      exact ⟨key, List.mem_cons_of_mem _ inRest, inRight⟩

theorem mem_common_of_get? {left right : Row} {key : String} {type partner : Ty}
    (inLeft : left.get? key = some type) (inRight : right.get? key = some partner) :
    (type, partner) ∈ left.common right := by
  induction left using Row.induction with
  | empty => simp [get?] at inLeft
  | field name head rest ih =>
    simp only [get?] at inLeft
    simp only [common]
    split at inLeft
    · next same =>
      cases inLeft
      rw [← same, inRight]
      exact List.mem_cons_self ..
    · have later := ih inLeft
      split
      · exact List.mem_cons_of_mem _ later
      · exact later

end Row

end RowInference
