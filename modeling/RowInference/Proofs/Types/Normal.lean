import RowInference.Proofs.Types.Letters
import RowInference.Proofs.Types.Numbering

/-! # Normal forms of schemes

The normal form of a scheme is a relabelling of it, by numbers in order of first appearance, and it does not depend on
the identities that the scheme uses. Hence two flat schemes have one normal form just if they differ in the choice of
variables.

Numbers are given in the order of the body as it is, and putting rows together afterwards may change that order. The
normal form of a scheme with records over records is a normal form itself just if it does not.
-/

namespace RowInference

variable {label other : VarId → VarId}

/-! ## New identities -/

/-- The identity with a number among those of the same sort. -/
def VarId.numbered (number : Nat) : VarId → VarId
  | generated _ => generated number
  | named _ => named (letterName number)

/-- The sort of a variable in normal forms. -/
abbrev TypeVar.isGenerated (v : TypeVar) : Bool := v.id.isGenerated

namespace VarId

@[simp] theorem isGenerated_numbered (number : Nat) (id : VarId) :
    (id.numbered number).isGenerated = id.isGenerated := by
  cases id <;> rfl

theorem numbered_congr {left right : VarId} (sameSort : left.isGenerated = right.isGenerated) (number : Nat) :
    left.numbered number = right.numbered number := by
  cases left <;> cases right <;> simp_all [isGenerated, numbered]

/-- Different numbers of one sort are different identities. -/
theorem numbered_inj {id : VarId} {number number' : Nat} :
    id.numbered number = id.numbered number' ↔ number = number' := by
  cases id <;> simp [numbered, letterName_injective.eq_iff]

/-- An exchange of two identities of one sort keeps sorts. -/
theorem isGenerated_swap (left right : VarId) (sameSort : left.isGenerated = right.isGenerated) (id : VarId) :
    (Equiv.swap left right id).isGenerated = id.isGenerated := by
  rw [Equiv.swap_apply_def]
  split
  · next isLeft => rw [isLeft, sameSort]
  · split
    · next isRight => rw [isRight, sameSort]
    · rfl

end VarId

namespace Renaming

/-- The table of new variables, with one count for generated and one for named variables. -/
def numbering : Numbering Renaming Bool TypeVar where
  sort := TypeVar.isGenerated
  given v number := ⟨v.id.numbered number, v.constraint⟩
  meet := meet
  find table id := table.chosen[id]?
  count table generated := if generated then table.generated else table.named
  meet_known known := if_pos (contains_eq_true.mpr known)
  find_meet {table v} missing id := by
    obtain ⟨key, constraint⟩ := v
    rw [meet, if_neg (contains_eq_true.not_left.mpr missing)]
    cases key <;> exact getElem?_insert ..
  count_meet {table v} missing kind := by
    obtain ⟨key, constraint⟩ := v
    rw [meet, if_neg (contains_eq_true.not_left.mpr missing)]
    cases key <;> cases kind <;> rfl

theorem lists_nil : numbering.Lists {} [] where
  found _ member := by cases member
  missing _ _ := by simp [numbering]
  counted kind := by cases kind <;> rfl

end Renaming

/-! ## Labels by first appearance -/

namespace Ty

variable {type : Ty} {v u : TypeVar}

theorem mem_freeVars : v ∈ type.freeVars ↔ v ∈ type.occurrences := List.mem_eraseDups

theorem nodup_freeVars (type : Ty) : type.freeVars.Nodup := nodup_eraseDups _

/-- The variables of a type, met in order, are numbered by their places. -/
theorem lists_freeVars (uniform : Uniform type.occurrences) :
    Renaming.numbering.Lists (type.freeVars.foldl Renaming.meet {}) type.freeVars := by
  have ofFree : Uniform type.freeVars := uniform.mono fun v => mem_freeVars.mp
  have lists := Numbering.lists_foldl Renaming.lists_nil ofFree
  rwa [eraseDups_of_nodup type.nodup_freeVars] at lists

/-- The identity that a variable of the type has in normal forms. -/
def canonicalLabel (type : Ty) (id : VarId) : VarId :=
  ((type.freeVars.foldl Renaming.meet {}).rename ⟨id, none⟩).id

theorem find_freeVars (uniform : Uniform type.occurrences) (member : v ∈ type.occurrences) :
    (type.freeVars.foldl Renaming.meet {}).chosen[v.id]? =
      some ⟨v.id.numbered (place TypeVar.isGenerated type.freeVars v), v.constraint⟩ :=
  (lists_freeVars uniform).found v (mem_freeVars.mpr member)

/-- The label of a variable in normal forms is its place among those of its sort. -/
theorem canonicalLabel_eq (uniform : Uniform type.occurrences) (member : v ∈ type.occurrences) :
    type.canonicalLabel v.id = v.id.numbered (place TypeVar.isGenerated type.freeVars v) := by
  rw [canonicalLabel, Renaming.rename, find_freeVars uniform member, Option.getD_some]

theorem canonicalLabel_isGenerated (uniform : Uniform type.occurrences) (member : v ∈ type.occurrences) :
    (type.canonicalLabel v.id).isGenerated = v.id.isGenerated := by
  rw [canonicalLabel_eq uniform member, VarId.isGenerated_numbered]

/-- Different variables have different labels. -/
theorem id_eq_of_canonicalLabel_eq (uniform : Uniform type.occurrences) (inType : v ∈ type.occurrences)
    (inType' : u ∈ type.occurrences) (same : type.canonicalLabel v.id = type.canonicalLabel u.id) : v.id = u.id := by
  have sameSort : v.id.isGenerated = u.id.isGenerated := by
    rw [← canonicalLabel_isGenerated uniform inType, same, canonicalLabel_isGenerated uniform inType']
  rw [canonicalLabel_eq uniform inType, canonicalLabel_eq uniform inType', ← VarId.numbered_congr sameSort,
    VarId.numbered_inj] at same
  exact congrArg TypeVar.id (eq_of_place_eq (mem_freeVars.mpr inType) sameSort same)

/-- The free variables of a relabelled type are the relabelled ones, in the same order. -/
theorem freeVars_relabel (injective : Function.Injective label) (type : Ty) :
    (type.relabel label).freeVars = type.freeVars.map (TypeVar.relabel label) := by
  rw [freeVars, freeVars, occurrences_relabel, eraseDups_map (TypeVar.relabel_injective injective)]

/-- Labels do not depend on the identities that the type uses. -/
theorem canonicalLabel_relabel (injective : Function.Injective label)
    (sorts : ∀ id, (label id).isGenerated = id.isGenerated) (uniform : Uniform type.occurrences)
    (member : v ∈ type.occurrences) : (type.relabel label).canonicalLabel (label v.id) = type.canonicalLabel v.id := by
  have uniform' : Uniform (type.relabel label).occurrences := by
    rw [occurrences_relabel]
    exact uniform.relabel injective.injOn
  have member' : v.relabel label ∈ (type.relabel label).occurrences := by
    rw [occurrences_relabel]
    exact List.mem_map_of_mem member
  have placed := canonicalLabel_eq uniform' member'
  rw [freeVars_relabel injective, place_map (TypeVar.relabel_injective injective) fun v => sorts v.id] at placed
  rw [canonicalLabel_eq uniform member, ← VarId.numbered_congr (sorts v.id)]
  exact placed

end Ty

/-! ## Sorted lists of variables -/

namespace TypeVar

theorem compare_eq_lex : TypeVar.compare = compareLex (compareOn TypeVar.id)
    (compareOn fun v => Constraint.rank v.constraint) := rfl

instance : Std.TransCmp TypeVar.compare := by
  rw [compare_eq_lex]
  infer_instance

theorem le_trans (first second third : TypeVar) (below : first.le second = true) (above : second.le third = true) :
    first.le third = true := Std.TransCmp.isLE_trans below above

theorem le_total (left right : TypeVar) : (left.le right || right.le left) = true := by
  have swapped : right.compare left = (left.compare right).swap := Std.OrientedCmp.eq_swap
  rw [le, le, swapped]
  cases left.compare right <;> rfl

/-- The order of variables tells different ones apart. -/
theorem le_antisymm (left right : TypeVar) (below : left.le right = true) (above : right.le left = true) :
    left = right := by
  have equal : left.compare right = .eq := Std.OrientedCmp.isLE_antisymm below above
  obtain ⟨sameId, sameRank⟩ := Ordering.then_eq_eq.mp equal
  have ids : left.id = right.id := Std.LawfulEqCmp.eq_of_compare sameId
  have ranks : Constraint.rank left.constraint = Constraint.rank right.constraint :=
    Std.LawfulEqCmp.eq_of_compare sameRank
  obtain ⟨id, constraint⟩ := left
  obtain ⟨id', constraint'⟩ := right
  have constraints : constraint = constraint' := by
    rcases constraint with _ | _ | _ <;> rcases constraint' with _ | _ | _ <;> simp_all [Constraint.rank]
  rw [show id = id' from ids, constraints]

/-- The sorted list of some variables, each once, depends only on which variables they are. -/
theorem sort_congr {left right : List TypeVar} (same : ∀ v, v ∈ left ↔ v ∈ right) :
    (left.mergeSort TypeVar.le).eraseDups = (right.mergeSort TypeVar.le).eraseDups := by
  have sorted : ∀ vars : List TypeVar, ((vars.mergeSort TypeVar.le).eraseDups).Pairwise fun v u => v.le u = true :=
    fun vars => (List.pairwise_mergeSort le_trans le_total vars).sublist (eraseDups_sublist _)
  have members : ∀ (vars : List TypeVar) (v : TypeVar), v ∈ (vars.mergeSort TypeVar.le).eraseDups ↔ v ∈ vars := by
    intro vars v
    rw [List.mem_eraseDups, List.mem_mergeSort]
  refine List.Perm.eq_of_pairwise ?_ (sorted left) (sorted right) ?_
  · intro v u _ _
    exact le_antisymm v u
  · refine (List.perm_ext_iff_of_nodup (nodup_eraseDups _) (nodup_eraseDups _)).mpr fun v => ?_
    rw [members, members, same]

end TypeVar

/-! ## Relabelled schemes -/

namespace Scheme

variable {scheme left middle right : Scheme}

/-- No identity is used under two constraints, and every binder occurs in the body. -/
structure Tidy (scheme : Scheme) : Prop where
  uniform : Uniform (scheme.binders ++ scheme.body.occurrences)
  used : ∀ binder ∈ scheme.binders, scheme.body.occurs binder.id = true

/-- The second scheme is the first one with other identities. Different identities stay different, generated ones are
generated and named ones named. The binders are the same ones, in any order. -/
structure Relabels (label : VarId → VarId) (left right : Scheme) : Prop where
  injective : Function.Injective label
  sorts : ∀ id, (label id).isGenerated = id.isGenerated
  body : left.body.relabel label = right.body
  binders : ∀ v, v ∈ right.binders ↔ ∃ u ∈ left.binders, u.relabel label = v

theorem Tidy.uniform_body (tidy : scheme.Tidy) : Uniform scheme.body.occurrences :=
  tidy.uniform.mono fun _ => List.mem_append_right _

theorem Tidy.mem_occurrences (tidy : scheme.Tidy) {binder : TypeVar} (member : binder ∈ scheme.binders) :
    binder ∈ scheme.body.occurrences := by
  obtain ⟨v, inBody, same⟩ := Ty.occurs_iff.mp (tidy.used binder member)
  rwa [tidy.uniform.eq (List.mem_append_left _ member) (List.mem_append_right _ inBody) same.symm]

/-- Relabellings can be made one after the other. -/
theorem Relabels.trans (first : left.Relabels label middle) (second : middle.Relabels other right) :
    left.Relabels (other ∘ label) right where
  injective := second.injective.comp first.injective
  sorts id := (second.sorts (label id)).trans (first.sorts id)
  body := by rw [← Ty.relabel_relabel, first.body, second.body]
  binders v := by
    rw [second.binders]
    constructor
    · rintro ⟨u, inMiddle, rfl⟩
      obtain ⟨w, inLeft, rfl⟩ := (first.binders u).mp inMiddle
      exact ⟨w, inLeft, rfl⟩
    · rintro ⟨w, inLeft, rfl⟩
      exact ⟨w.relabel label, (first.binders _).mpr ⟨w, inLeft, rfl⟩, rfl⟩

theorem Relabels.symm {perm : Equiv.Perm VarId} (relabels : left.Relabels perm right) :
    right.Relabels perm.symm left where
  injective := perm.symm.injective
  sorts id := by rw [← relabels.sorts, perm.apply_symm_apply]
  body := by rw [← relabels.body, Ty.relabel_relabel, perm.symm_comp_self, Ty.relabel_id]
  binders v := by
    constructor
    · intro inLeft
      exact ⟨v.relabel perm, (relabels.binders _).mpr ⟨v, inLeft, rfl⟩, by simp [TypeVar.relabel]⟩
    · rintro ⟨u, inRight, rfl⟩
      obtain ⟨w, inLeft, rfl⟩ := (relabels.binders u).mp inRight
      simpa [TypeVar.relabel] using inLeft

/-- A relabelled tidy scheme is tidy. -/
theorem Relabels.tidy (relabels : left.Relabels label right) (tidy : left.Tidy) : right.Tidy where
  uniform := by
    refine (tidy.uniform.relabel relabels.injective.injOn).mono fun v member => ?_
    rw [List.map_append]
    rcases List.mem_append.mp member with isBinder | inBody
    · obtain ⟨u, inLeft, rfl⟩ := (relabels.binders v).mp isBinder
      exact List.mem_append_left _ (List.mem_map_of_mem inLeft)
    · rw [← relabels.body, Ty.occurrences_relabel] at inBody
      exact List.mem_append_right _ inBody
  used binder member := by
    obtain ⟨u, inLeft, rfl⟩ := (relabels.binders binder).mp member
    rw [← relabels.body, Ty.occurs_iff, Ty.occurrences_relabel]
    exact ⟨u.relabel label, List.mem_map_of_mem (tidy.mem_occurrences inLeft), rfl⟩

/-! ## Normal forms -/

/-- The normal form gives the variables of the body their labels. -/
theorem rename_canonicalNames (uniform : Uniform scheme.body.occurrences) {v : TypeVar}
    (member : v ∈ scheme.body.occurrences) : scheme.canonicalNames.rename v = v.relabel scheme.body.canonicalLabel := by
  have found := Ty.find_freeVars uniform member
  -- the binders come after the body and change nothing
  have kept : scheme.canonicalNames.chosen[v.id]? = (scheme.body.freeVars.foldl Renaming.meet {}).chosen[v.id]? :=
    Renaming.numbering.find_foldl (Option.ne_none_iff_exists'.mpr ⟨_, found⟩) scheme.binders
  rw [Renaming.rename, kept, found, Option.getD_some, TypeVar.relabel, Ty.canonicalLabel_eq uniform member]

/-- The body of a normal form is the flattened body with the labels of normal forms. -/
theorem normalize_body (uniform : Uniform scheme.body.occurrences) :
    scheme.normalize.body = scheme.body.flattened.relabel scheme.body.canonicalLabel :=
  Ty.mapVars_eq_relabel fun _ => rename_canonicalNames uniform

/-- The normal form relabels the binders and what flattening leaves of the body. -/
theorem Tidy.normalize_eq (tidy : scheme.Tidy) : scheme.normalize =
    ⟨((scheme.binders.map (TypeVar.relabel scheme.body.canonicalLabel)).mergeSort TypeVar.le).eraseDups,
      scheme.body.flattened.relabel scheme.body.canonicalLabel⟩ := by
  have binders : scheme.binders.map scheme.canonicalNames.rename
      = scheme.binders.map (TypeVar.relabel scheme.body.canonicalLabel) :=
    List.map_congr_left fun _ member => rename_canonicalNames tidy.uniform_body (tidy.mem_occurrences member)
  rw [← normalize_body tidy.uniform_body, ← binders]
  rfl

/-- Schemes that differ in the choice of variables have one normal form. -/
theorem Relabels.normalize_eq (relabels : left.Relabels label right) (tidy : left.Tidy) :
    left.normalize = right.normalize := by
  have labels : ∀ v ∈ left.body.occurrences,
      right.body.canonicalLabel (label v.id) = left.body.canonicalLabel v.id := by
    intro v member
    rw [← relabels.body]
    exact Ty.canonicalLabel_relabel relabels.injective relabels.sorts tidy.uniform_body member
  have binders : ∀ v, v ∈ left.binders.map (TypeVar.relabel left.body.canonicalLabel) ↔
      v ∈ right.binders.map (TypeVar.relabel right.body.canonicalLabel) := by
    intro v
    have relabelled : ∀ u ∈ left.binders,
        (u.relabel label).relabel right.body.canonicalLabel = u.relabel left.body.canonicalLabel :=
      fun u member => congrArg (TypeVar.mk · u.constraint) (labels u (tidy.mem_occurrences member))
    simp only [List.mem_map, relabels.binders]
    constructor
    · rintro ⟨u, member, rfl⟩
      exact ⟨u.relabel label, ⟨u, member, rfl⟩, relabelled u member⟩
    · rintro ⟨_, ⟨u, member, rfl⟩, rfl⟩
      exact ⟨u, member, (relabelled u member).symm⟩
  have body : left.body.flattened.relabel left.body.canonicalLabel
      = right.body.flattened.relabel right.body.canonicalLabel := by
    conv_rhs => arg 2; rw [← relabels.body]
    rw [Ty.flattened_relabel, Ty.relabel_relabel]
    exact Ty.relabel_congr _ fun v member => (labels v (Ty.mem_occurrences_of_flattened member)).symm
  rw [tidy.normalize_eq, (relabels.tidy tidy).normalize_eq, TypeVar.sort_congr binders, body]

/-- The scheme with the rows of its body put together. -/
def flattened (scheme : Scheme) : Scheme := ⟨scheme.binders, scheme.body.flattened⟩

/-- The normal form is a relabelling of the flattened scheme. -/
theorem Tidy.relabels_normalize (tidy : scheme.Tidy) :
    ∃ perm : Equiv.Perm VarId, scheme.flattened.Relabels perm scheme.normalize := by
  have injective : Set.InjOn scheme.body.canonicalLabel (identities scheme.body.occurrences) := by
    rintro _ ⟨v, member, rfl⟩ _ ⟨u, member', rfl⟩ same
    exact Ty.id_eq_of_canonicalLabel_eq tidy.uniform_body member member' same
  have sorts : ∀ id ∈ identities scheme.body.occurrences,
      (scheme.body.canonicalLabel id).isGenerated = id.isGenerated := by
    rintro _ ⟨v, member, rfl⟩
    exact Ty.canonicalLabel_isGenerated tidy.uniform_body member
  obtain ⟨perm, permSorts, extending⟩ := VarId.exists_perm_extending _ (identities_finite _) injective sorts
  have agrees : ∀ v ∈ scheme.body.occurrences, perm v.id = scheme.body.canonicalLabel v.id :=
    fun v member => extending v.id ⟨v, member, rfl⟩
  refine ⟨perm, perm.injective, permSorts, ?_, fun v => ?_⟩ <;> rw [tidy.normalize_eq]
  · exact Ty.relabel_congr _ fun v member => agrees v (Ty.mem_occurrences_of_flattened member)
  · rw [List.mem_eraseDups, List.mem_mergeSort, List.mem_map]
    refine exists_congr fun u => and_congr_right fun member => ?_
    rw [TypeVar.relabel, TypeVar.relabel, agrees u (tidy.mem_occurrences member)]

/-- Two flat schemes have the same normal form just if one is the other with other identities. -/
theorem alphaEq_iff (leftTidy : left.Tidy) (rightTidy : right.Tidy) (leftFlat : left.body.Flat)
    (rightFlat : right.body.Flat) : left.alphaEq right = true ↔ ∃ label, left.Relabels label right := by
  rw [alphaEq, decide_eq_true_eq]
  constructor
  · intro same
    obtain ⟨toNormal, leftRelabels⟩ := leftTidy.relabels_normalize
    obtain ⟨ofNormal, rightRelabels⟩ := rightTidy.relabels_normalize
    rw [flattened, leftFlat.flattened, same] at leftRelabels
    rw [flattened, rightFlat.flattened] at rightRelabels
    exact ⟨_, leftRelabels.trans rightRelabels.symm⟩
  · rintro ⟨label, relabels⟩
    exact relabels.normalize_eq leftTidy

/-- An accessor of a record with an open rest, which is not quantified. -/
def accessor : Scheme where
  binders := [.generated 4, ⟨.generated 9, some .number⟩]
  body := .function (.extension (.var (.named "rest")) (.field "x" (.var (.generated 4))
    (.field "y" (.var ⟨.generated 9, some .number⟩) .empty))) (.var (.generated 4))

/-- The same accessor with other identities. -/
def accessor' : Scheme where
  binders := [⟨.generated 2, some .number⟩, .generated 3]
  body := .function (.extension (.var (.named "r")) (.field "x" (.var (.generated 3))
    (.field "y" (.var ⟨.generated 2, some .number⟩) .empty))) (.var (.generated 3))

/-- The identities of the one accessor exchanged for those of the other. -/
def accessorLabel : Equiv.Perm VarId :=
  ((Equiv.swap (.named "rest") (.named "r")).trans (Equiv.swap (.generated 4) (.generated 3))).trans
    (Equiv.swap (.generated 9) (.generated 2))

theorem accessor_relabels : accessor.Relabels accessorLabel accessor' where
  injective := accessorLabel.injective
  sorts id := by
    rw [accessorLabel, Equiv.trans_apply, Equiv.trans_apply, VarId.isGenerated_swap (.generated 9) (.generated 2) rfl,
      VarId.isGenerated_swap (.generated 4) (.generated 3) rfl, VarId.isGenerated_swap (.named "rest") (.named "r") rfl]
  body := by decide
  binders v := by
    have renamed : accessor.binders.map (TypeVar.relabel accessorLabel)
        = [.generated 3, ⟨.generated 2, some .number⟩] := by decide
    rw [← List.mem_map, renamed]
    simp [accessor', or_comm]

theorem alphaEq_iff_accessor : accessor.alphaEq accessor' = true ∧ ∃ label, accessor.Relabels label accessor' := by
  have tidy : accessor.Tidy := ⟨by decide, by decide⟩
  have tidy' : accessor'.Tidy := ⟨by decide, by decide⟩
  have flat : accessor.body.Flat := by simp [accessor, Ty.Flat, Row.Flat, Ty.isRecord]
  have flat' : accessor'.body.Flat := by simp [accessor', Ty.Flat, Row.Flat, Ty.isRecord]
  exact ⟨(alphaEq_iff tidy tidy' flat flat').mpr ⟨_, accessor_relabels⟩, _, accessor_relabels⟩

/-! ## Normal forms of normal forms -/

/-- Flattening the body drops or moves no first appearance of a variable before the last ones, neither among the
generated variables nor among the named ones. -/
def KeepsOrder (scheme : Scheme) : Prop := ∀ generated : Bool,
  scheme.body.flattened.freeVars.filter (fun v => v.isGenerated = generated) <+:
    scheme.body.freeVars.filter fun v => v.isGenerated = generated

/-- Flattening a flat body changes nothing, so it keeps the order. -/
theorem keepsOrder_of_flat (flat : scheme.body.Flat) : scheme.KeepsOrder := by
  intro generated
  rw [flat.flattened]

/-- Flattening keeps the order just if it keeps the labels. -/
theorem keepsOrder_iff (uniform : Uniform scheme.body.occurrences) : scheme.KeepsOrder ↔
    ∀ v ∈ scheme.body.flattened.occurrences,
      scheme.body.flattened.canonicalLabel v.id = scheme.body.canonicalLabel v.id := by
  have ofFlattened : Uniform scheme.body.flattened.occurrences := uniform.mono fun _ => Ty.mem_occurrences_of_flattened
  have sub : ∀ v ∈ scheme.body.flattened.freeVars, v ∈ scheme.body.freeVars := fun v member =>
    Ty.mem_freeVars.mpr (Ty.mem_occurrences_of_flattened (Ty.mem_freeVars.mp member))
  rw [KeepsOrder, ← forall_place_eq_iff (Ty.nodup_freeVars _) sub]
  refine forall_congr' fun v => ?_
  rw [Ty.mem_freeVars]
  refine imp_congr_right fun member => ?_
  rw [Ty.canonicalLabel_eq ofFlattened member, Ty.canonicalLabel_eq uniform (Ty.mem_occurrences_of_flattened member),
    VarId.numbered_inj]

theorem Tidy.uniform_flattened (tidy : scheme.Tidy) : Uniform scheme.body.flattened.occurrences :=
  tidy.uniform_body.mono fun _ => Ty.mem_occurrences_of_flattened

/-- The body of the second normal form has the labels of the flattened body. -/
theorem Tidy.normalize_normalize_body (tidy : scheme.Tidy) :
    scheme.normalize.normalize.body = scheme.body.flattened.relabel scheme.body.flattened.canonicalLabel := by
  obtain ⟨perm, relabels⟩ := tidy.relabels_normalize
  have body : scheme.normalize.body = scheme.body.flattened.relabel perm := relabels.body.symm
  have uniform : Uniform scheme.normalize.body.occurrences := by
    rw [body, Ty.occurrences_relabel]
    exact tidy.uniform_flattened.relabel perm.injective.injOn
  rw [normalize_body uniform, body, Ty.flattened_relabel, (Ty.flattened_flat _).flattened, Ty.relabel_relabel]
  exact Ty.relabel_congr _ fun v member =>
    Ty.canonicalLabel_relabel perm.injective relabels.sorts tidy.uniform_flattened member

/-- The body of a normal form is its own normal form just if flattening keeps the order. -/
theorem Tidy.normalize_body_stable_iff (tidy : scheme.Tidy) :
    scheme.normalize.normalize.body = scheme.normalize.body ↔ scheme.KeepsOrder := by
  rw [tidy.normalize_normalize_body, normalize_body tidy.uniform_body, Ty.relabel_eq_relabel_iff,
    keepsOrder_iff tidy.uniform_body]

/-- Flattening keeps a scheme tidy if no binder is lost. -/
theorem Tidy.flattened (tidy : scheme.Tidy)
    (kept : ∀ binder ∈ scheme.binders, scheme.body.flattened.occurs binder.id = true) : scheme.flattened.Tidy := by
  refine ⟨tidy.uniform.mono fun v member => ?_, kept⟩
  exact List.mem_append.mpr ((List.mem_append.mp member).imp_right Ty.mem_occurrences_of_flattened)

/-- The binders follow the body. -/
theorem Tidy.normalize_stable (tidy : scheme.Tidy)
    (kept : ∀ binder ∈ scheme.binders, scheme.body.flattened.occurs binder.id = true) (order : scheme.KeepsOrder) :
    scheme.normalize.normalize = scheme.normalize := by
  have flattenedTidy := tidy.flattened kept
  obtain ⟨perm, relabels⟩ := tidy.relabels_normalize
  have agrees := (keepsOrder_iff tidy.uniform_body).mp order
  have binders : scheme.binders.map (TypeVar.relabel scheme.body.flattened.canonicalLabel)
      = scheme.binders.map (TypeVar.relabel scheme.body.canonicalLabel) :=
    List.map_congr_left fun binder member =>
      congrArg (TypeVar.mk · binder.constraint) (agrees binder (flattenedTidy.mem_occurrences member))
  have body : scheme.flattened.body.flattened = scheme.body.flattened := (Ty.flattened_flat _).flattened
  rw [← relabels.normalize_eq flattenedTidy, flattenedTidy.normalize_eq, tidy.normalize_eq, body, ← binders,
    ← Ty.relabel_congr _ agrees]
  rfl

/-- The body of the normal form of a scheme is in normal form just if flattening keeps the order of first appearance. If
flattening drops no binder, then this decides whether the normal form is a normal form itself, and whether the scheme
has the same normal form as its normal form. For flat schemes both hold. -/
theorem normalize_stable_iff (tidy : scheme.Tidy) :
    (scheme.normalize.normalize.body = scheme.normalize.body ↔ scheme.KeepsOrder) ∧
      ((∀ binder ∈ scheme.binders, scheme.body.flattened.occurs binder.id = true) →
        (scheme.normalize.normalize = scheme.normalize ↔ scheme.KeepsOrder) ∧
        (scheme.alphaEq scheme.normalize = true ↔ scheme.KeepsOrder)) ∧
      (scheme.body.Flat → scheme.normalize.normalize = scheme.normalize ∧ scheme.alphaEq scheme.normalize = true) := by
  have alphaEq_normalize : scheme.alphaEq scheme.normalize = true ↔ scheme.normalize.normalize = scheme.normalize := by
    rw [alphaEq, decide_eq_true_eq, eq_comm]
  refine ⟨tidy.normalize_body_stable_iff, fun kept => ?_, fun flat => ?_⟩
  · have stable : scheme.normalize.normalize = scheme.normalize ↔ scheme.KeepsOrder :=
      ⟨fun same => tidy.normalize_body_stable_iff.mp (congrArg body same), tidy.normalize_stable kept⟩
    exact ⟨stable, alphaEq_normalize.trans stable⟩
  · have kept : ∀ binder ∈ scheme.binders, scheme.body.flattened.occurs binder.id = true := by
      rw [flat.flattened]
      exact tidy.used
    have stable := tidy.normalize_stable kept (keepsOrder_of_flat flat)
    exact ⟨stable, alphaEq_normalize.mpr stable⟩

/-- The scheme `{ { m | a : t5 } | b : t6 } -> t6`: both rows are in order, so flattening keeps the order. -/
def stackedInOrder : Scheme where
  binders := [.generated 6, .named "m", .generated 5]
  body := .function (.extension (.extension (.var (.named "m")) (.field "a" (.var (.generated 5)) .empty))
    (.field "b" (.var (.generated 6)) .empty)) (.var (.generated 6))

theorem normalize_stable_stackedInOrder :
    stackedInOrder.normalize.normalize = stackedInOrder.normalize ∧ stackedInOrder.KeepsOrder := by
  have tidy : stackedInOrder.Tidy := ⟨by decide, by decide⟩
  have order : stackedInOrder.KeepsOrder := by
    intro generated
    cases generated <;> decide
  exact ⟨((normalize_stable_iff tidy).2.1 (by decide)).1.mpr order, order⟩

/-- The scheme of the record `{ { b : t5 } | a : t6 }`, in which flattening puts the second variable first. -/
def stackedOutOfOrder : Scheme where
  binders := [.generated 5, .generated 6]
  body := .extension (.record (.field "b" (.var (.generated 5)) .empty)) (.field "a" (.var (.generated 6)) .empty)

/-- A scheme need not have the same normal form as its normal form. -/
theorem normalize_unstable_stackedOutOfOrder : stackedOutOfOrder.Tidy ∧
    stackedOutOfOrder.normalize.normalize ≠ stackedOutOfOrder.normalize ∧
    stackedOutOfOrder.alphaEq stackedOutOfOrder.normalize = false := by
  have tidy : stackedOutOfOrder.Tidy := ⟨by decide, by decide⟩
  have disorder : ¬stackedOutOfOrder.KeepsOrder := fun order => absurd (order true) (by decide)
  have unstable : stackedOutOfOrder.normalize.normalize ≠ stackedOutOfOrder.normalize :=
    fun same => disorder (tidy.normalize_body_stable_iff.mp (congrArg body same))
  refine ⟨tidy, unstable, ?_⟩
  rw [alphaEq, decide_eq_false_iff_not]
  exact unstable.symm

end Scheme

end RowInference
