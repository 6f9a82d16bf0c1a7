import RowInference.Proofs.Types.Variants
import RowInference.Proofs.Types.Relabelling
import Mathlib.Data.List.Nodup

/-! # Numbers by first appearance

Normal forms and printed types give numbers to variables as they meet them, each sort of variables with a count of its
own. The number of a variable is then its place among the variables of its sort, in order of first appearance.
-/

namespace RowInference

/-! ## Places -/

section Place

variable {α β σ : Type} [DecidableEq α] [DecidableEq β] [DecidableEq σ] {sort : α → σ} {elements others : List α}
  {element other : α}

/-- How many elements of its sort stand before an element. -/
def place (sort : α → σ) (elements : List α) (element : α) : Nat :=
  (elements.filter fun other => sort other = sort element).idxOf element

/-- Elements that come later do not change a place. -/
theorem place_append_of_mem (member : element ∈ elements) :
    place sort (elements ++ others) element = place sort elements element := by
  rw [place, List.filter_append, List.idxOf_append_of_mem (List.mem_filter.mpr ⟨member, by simp⟩), place]

/-- A new element comes after all elements of its sort. -/
theorem place_append_singleton (new : element ∉ elements) : place sort (elements ++ [element]) element =
    (elements.filter fun other => sort other = sort element).length := by
  have absent : element ∉ elements.filter fun other => sort other = sort element :=
    fun member => new (List.mem_filter.mp member).1
  rw [place, List.filter_append, List.idxOf_append_of_notMem absent]
  simp

/-- The place of an element is below the number of elements of its sort. -/
theorem place_lt (member : element ∈ elements) :
    place sort elements element < (elements.filter fun other => sort other = sort element).length :=
  List.idxOf_lt_length_iff.mpr (List.mem_filter.mpr ⟨member, by simp⟩)

/-- Different elements of one sort have different places. -/
theorem eq_of_place_eq (member : element ∈ elements) (sameSort : sort element = sort other)
    (samePlace : place sort elements element = place sort elements other) : element = other := by
  rw [place, place, ← sameSort] at samePlace
  exact (List.idxOf_inj (List.mem_filter.mpr ⟨member, by simp⟩)).mp samePlace

theorem idxOf_map {change : α → β} (injective : Function.Injective change) (elements : List α) (element : α) :
    (elements.map change).idxOf (change element) = elements.idxOf element := by
  induction elements with
  | nil => rfl
  | cons head rest ih => simp only [List.map_cons, List.idxOf_cons, ih, beq_eq_decide, injective.eq_iff]

/-- Places do not depend on what the elements are called. -/
theorem place_map {change : α → β} {sort' : β → σ} (injective : Function.Injective change)
    (sorts : ∀ element, sort' (change element) = sort element) :
    place sort' (elements.map change) (change element) = place sort elements element := by
  rw [place, List.filter_map, idxOf_map injective, place]
  simp only [Function.comp_def, sorts]

/-- A list begins another one if its elements have the same positions in both. -/
theorem prefix_of_idxOf_eq (distinct : elements.Nodup) (sub : ∀ element ∈ elements, element ∈ others)
    (same : ∀ element ∈ elements, elements.idxOf element = others.idxOf element) : elements <+: others := by
  refine List.prefix_iff_getElem?.mpr fun index bounded => ?_
  have member := List.getElem_mem bounded
  have position : others.idxOf elements[index] = index := by rw [← same _ member, distinct.idxOf_getElem index bounded]
  have found := List.getElem?_idxOf (sub _ member)
  rwa [position] at found

/-- Fewer elements keep their places just if, sort by sort, only last ones were dropped. -/
theorem forall_place_eq_iff (distinct : elements.Nodup) (sub : ∀ element ∈ elements, element ∈ others) :
    (∀ element ∈ elements, place sort elements element = place sort others element) ↔
      ∀ kind, elements.filter (fun other => sort other = kind) <+: others.filter fun other => sort other = kind := by
  constructor
  · intro same kind
    refine prefix_of_idxOf_eq (distinct.filter _) ?_ ?_
    · intro element member
      obtain ⟨inElements, ofKind⟩ := List.mem_filter.mp member
      exact List.mem_filter.mpr ⟨sub element inElements, ofKind⟩
    · intro element member
      obtain ⟨inElements, ofKind⟩ := List.mem_filter.mp member
      have places := same element inElements
      rw [place, place, of_decide_eq_true ofKind] at places
      exact places
  · intro begins element member
    obtain ⟨rest, whole⟩ := begins (sort element)
    rw [place, place, ← whole, List.idxOf_append_of_mem (List.mem_filter.mpr ⟨member, by simp⟩)]

end Place

/-! ## Lists without repetitions -/

theorem nodup_eraseDups {α : Type} [DecidableEq α] (elements : List α) : elements.eraseDups.Nodup := by
  match elements with
  | [] => exact List.nodup_nil
  | element :: rest =>
    rw [List.eraseDups_cons, List.nodup_cons, List.mem_eraseDups]
    exact ⟨by simp, nodup_eraseDups _⟩
termination_by elements.length
decreasing_by exact Nat.lt_succ_of_le (List.length_filter_le _ _)

theorem eraseDups_sublist {α : Type} [DecidableEq α] (elements : List α) : elements.eraseDups.Sublist elements := by
  match elements with
  | [] => exact List.Sublist.slnil
  | element :: rest =>
    rw [List.eraseDups_cons]
    exact ((eraseDups_sublist _).trans List.filter_sublist).cons_cons element
termination_by elements.length
decreasing_by exact Nat.lt_succ_of_le (List.length_filter_le _ _)

theorem eraseDups_of_nodup {α : Type} [DecidableEq α] {elements : List α} (distinct : elements.Nodup) :
    elements.eraseDups = elements := by
  induction elements with
  | nil => rfl
  | cons element rest ih =>
    obtain ⟨new, others⟩ := List.nodup_cons.mp distinct
    have kept : rest.filter (fun other => !other == element) = rest := by
      refine List.filter_eq_self.mpr fun other member => ?_
      have different : other ≠ element := by
        rintro rfl
        exact new member
      simpa using different
    rw [List.eraseDups_cons, kept, ih others]

/-- An element at the end counts if it is new. -/
theorem eraseDups_append_singleton {α : Type} [DecidableEq α] (elements : List α) (element : α) :
    (elements ++ [element]).eraseDups =
      if element ∈ elements then elements.eraseDups else elements.eraseDups ++ [element] := by
  rw [List.eraseDups_append]
  split
  · next known => simp [List.removeAll, known]
  · next new => simp [List.removeAll, new, List.eraseDups_cons]

/-- Where no identity is used under two constraints, different variables have different identities. -/
theorem Uniform.nodup_ids {vars : List TypeVar} (uniform : Uniform vars) : (vars.eraseDups.map TypeVar.id).Nodup := by
  refine (nodup_eraseDups vars).map_on fun v inVars u inVars' same => ?_
  exact uniform.eq (List.mem_eraseDups.mp inVars) (List.mem_eraseDups.mp inVars') same

/-! ## Tables -/

theorem getElem?_insert {Given : Type} (map : Std.ExtTreeMap VarId Given) (key id : VarId) (value : Given) :
    (map.insert key value)[id]? = if id = key then some value else map[id]? := by
  rw [Std.ExtTreeMap.getElem?_insert]
  by_cases same : id = key
  · rw [if_pos same, if_pos (Std.LawfulEqCmp.compare_eq_iff_eq.mpr same.symm)]
  · rw [if_neg same, if_neg fun equal => same (Std.LawfulEqCmp.compare_eq_iff_eq.mp equal).symm]

theorem contains_eq_true {Given : Type} {map : Std.ExtTreeMap VarId Given} {id : VarId} :
    map.contains id = true ↔ map[id]? ≠ none := by
  rw [← Std.ExtTreeMap.isSome_getElem?_eq_contains, Option.isSome_iff_ne_none]

/-- A table of what was given to the identities met so far: a new variable gets the next number of its sort, and a
variable whose identity is known changes nothing. -/
structure Numbering (Table Kind Given : Type) [DecidableEq Kind] where
  sort : TypeVar → Kind
  given : TypeVar → Nat → Given
  meet : Table → TypeVar → Table
  find : Table → VarId → Option Given
  count : Table → Kind → Nat
  meet_known : ∀ {table v}, find table v.id ≠ none → meet table v = table
  find_meet : ∀ {table v}, find table v.id = none → ∀ id,
    find (meet table v) id = if id = v.id then some (given v (count table (sort v))) else find table id
  count_meet : ∀ {table v}, find table v.id = none → ∀ kind,
    count (meet table v) kind = if kind = sort v then count table kind + 1 else count table kind

namespace Numbering

variable {Table Kind Given : Type} [DecidableEq Kind] {numbering : Numbering Table Kind Given} {table : Table}
  {vars : List TypeVar} {v : TypeVar}

/-- The table lists exactly these variables, by their places. -/
structure Lists (numbering : Numbering Table Kind Given) (table : Table) (vars : List TypeVar) : Prop where
  found : ∀ v ∈ vars, numbering.find table v.id = some (numbering.given v (place numbering.sort vars v))
  missing : ∀ id, (∀ v ∈ vars, v.id ≠ id) → numbering.find table id = none
  counted : ∀ kind, numbering.count table kind = (vars.filter fun v => numbering.sort v = kind).length

/-- A known variable changes nothing. -/
theorem Lists.meet_known (lists : numbering.Lists table vars) (known : v ∈ vars) : numbering.meet table v = table :=
  numbering.meet_known (by rw [lists.found v known]; exact Option.some_ne_none _)

/-- A new variable is listed behind the others. -/
theorem Lists.meet_new (lists : numbering.Lists table vars) (new : ∀ u ∈ vars, u.id ≠ v.id) :
    numbering.Lists (numbering.meet table v) (vars ++ [v]) := by
  have missing := lists.missing v.id new
  have absent : v ∉ vars := fun member => new v member rfl
  refine ⟨?_, ?_, ?_⟩
  · intro u member
    rw [numbering.find_meet missing]
    rcases List.mem_append.mp member with old | last
    · rw [if_neg (new u old), lists.found u old, place_append_of_mem old]
    · obtain rfl := List.mem_singleton.mp last
      rw [if_pos rfl, lists.counted, place_append_singleton absent]
  · intro id other
    rw [numbering.find_meet missing, if_neg fun same => other v (by simp) same.symm]
    exact lists.missing id fun u member => other u (List.mem_append_left _ member)
  · intro kind
    rw [numbering.count_meet missing, lists.counted, List.filter_append, List.length_append]
    by_cases same : numbering.sort v = kind
    · simp [same]
    · simp [same, Ne.symm same]

/-- Meeting variables one after the other lists them without repetitions. -/
theorem lists_foldl (empty : numbering.Lists table []) (uniform : Uniform vars) :
    numbering.Lists (vars.foldl numbering.meet table) vars.eraseDups := by
  induction vars using List.reverseRecOn with
  | nil => exact empty
  | append_singleton init last ih =>
    have lists := ih (uniform.mono fun v member => List.mem_append_left _ member)
    rw [List.foldl_append, List.foldl_cons, List.foldl_nil, eraseDups_append_singleton]
    split
    · next known =>
      rw [lists.meet_known (List.mem_eraseDups.mpr known)]
      exact lists
    · next new =>
      refine lists.meet_new fun u member same => new ?_
      have inInit := List.mem_eraseDups.mp member
      rwa [← uniform.eq (List.mem_append_left _ inInit) (List.mem_append_right _ (List.mem_singleton_self _)) same]

/-- Further variables do not change what was given. -/
theorem find_foldl (numbering : Numbering Table Kind Given) {id : VarId} (known : numbering.find table id ≠ none)
    (vars : List TypeVar) :
    numbering.find (vars.foldl numbering.meet table) id = numbering.find table id := by
  induction vars generalizing table with
  | nil => rfl
  | cons v rest ih =>
    have step : numbering.find (numbering.meet table v) id = numbering.find table id := by
      by_cases new : numbering.find table v.id = none
      · have different : id ≠ v.id := by
          rintro rfl
          exact known new
        rw [numbering.find_meet new, if_neg different]
      · rw [numbering.meet_known new]
    rw [List.foldl_cons, ih (by rwa [step]), step]

/-- Every variable that was met has been given something. -/
theorem find_foldl_of_mem (numbering : Numbering Table Kind Given) (member : v ∈ vars) :
    numbering.find (vars.foldl numbering.meet table) v.id ≠ none := by
  obtain ⟨before, after, rfl⟩ := List.append_of_mem member
  have met : numbering.find (numbering.meet (before.foldl numbering.meet table) v) v.id ≠ none := by
    by_cases new : numbering.find (before.foldl numbering.meet table) v.id = none
    · rw [numbering.find_meet new, if_pos rfl]
      exact Option.some_ne_none _
    · rwa [numbering.meet_known new]
  rwa [List.foldl_append, List.foldl_cons, numbering.find_foldl met]

end Numbering

end RowInference
