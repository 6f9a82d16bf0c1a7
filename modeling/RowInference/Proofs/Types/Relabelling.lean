import RowInference.Proofs.Types.Reading
import RowInference.Types.Scheme
import Mathlib.SetTheory.Cardinal.Arithmetic

/-! # Other identities for variables

Relabelling a type gives other identities to its variables. All else stays: the constraint of each variable, and every
record as it is, stacked or flat. Types that differ in the choice of variables are relabellings of each other, by a
permutation of all identities: only finitely many occur, so an injection between those can always be completed to one.
-/

namespace RowInference

variable {label other : VarId → VarId}

/-- Whether inference issued the identity. -/
def VarId.isGenerated : VarId → Bool
  | generated _ => true
  | named _ => false

/-- No identity is used under two constraints. -/
def Uniform (vars : List TypeVar) : Prop := ∀ v ∈ vars, ∀ u ∈ vars, v.id = u.id → v.constraint = u.constraint

instance (vars : List TypeVar) : Decidable (Uniform vars) :=
  inferInstanceAs (Decidable (∀ v ∈ vars, ∀ u ∈ vars, v.id = u.id → v.constraint = u.constraint))

/-- Where no identity is used under two constraints, the identity determines the variable. -/
theorem Uniform.eq {vars : List TypeVar} (uniform : Uniform vars) {v u : TypeVar} (inVars : v ∈ vars)
    (inVars' : u ∈ vars) (same : v.id = u.id) : v = u := by
  have sameConstraint := uniform v inVars u inVars' same
  cases v
  cases u
  simp_all

theorem Uniform.mono {vars wider : List TypeVar} (uniform : Uniform wider) (sub : ∀ v ∈ vars, v ∈ wider) :
    Uniform vars :=
  fun v inVars u inVars' => uniform v (sub v inVars) u (sub u inVars')

/-- The identities of variables. -/
def identities (vars : List TypeVar) : Set VarId := {id | ∃ v ∈ vars, v.id = id}

theorem identities_finite (vars : List TypeVar) : (identities vars).Finite := by
  refine (vars.map TypeVar.id).finite_toSet.subset ?_
  rintro _ ⟨v, member, rfl⟩
  exact List.mem_map_of_mem member

/-- Give a variable another identity; the constraint stays. -/
def TypeVar.relabel (label : VarId → VarId) (v : TypeVar) : TypeVar := { v with id := label v.id }

@[simp] theorem TypeVar.relabel_id (v : TypeVar) : (v.relabel label).id = label v.id := rfl

@[simp] theorem TypeVar.relabel_constraint (v : TypeVar) : (v.relabel label).constraint = v.constraint := rfl

@[simp] theorem TypeVar.relabel_relabel (v : TypeVar) :
    (v.relabel label).relabel other = v.relabel (other ∘ label) := rfl

theorem TypeVar.relabel_injective (injective : Function.Injective label) :
    Function.Injective (TypeVar.relabel label) := by
  rintro ⟨left, constraint⟩ ⟨right, constraint'⟩ same
  obtain ⟨sameId, sameConstraint⟩ := TypeVar.mk.inj same
  exact congrArg₂ TypeVar.mk (injective sameId) sameConstraint

/-- Identities that stay different are still used under one constraint each. -/
theorem Uniform.relabel {vars : List TypeVar} (uniform : Uniform vars)
    (injective : Set.InjOn label (identities vars)) : Uniform (vars.map (TypeVar.relabel label)) := by
  intro v inVars u inVars' same
  obtain ⟨v, member, rfl⟩ := List.mem_map.mp inVars
  obtain ⟨u, member', rfl⟩ := List.mem_map.mp inVars'
  exact uniform v member u member' (injective ⟨v, member, rfl⟩ ⟨u, member', rfl⟩ same)

mutual

def Ty.relabel (label : VarId → VarId) : Ty → Ty
  | .var v => .var (v.relabel label)
  | .tuple first second => .tuple (first.relabel label) (second.relabel label)
  | .triple first second third => .triple (first.relabel label) (second.relabel label) (third.relabel label)
  | .list element => .list (element.relabel label)
  | .function source target => .function (source.relabel label) (target.relabel label)
  | .record fields => .record (fields.relabel label)
  | .extension base fields => .extension (base.relabel label) (fields.relabel label)
  | type => type

def Row.relabel (label : VarId → VarId) : Row → Row
  | .empty => .empty
  | .field name type rest => .field name (type.relabel label) (rest.relabel label)

end

/-! ## Rows -/

namespace Row

theorem relabel_insert (row : Row) (key : String) (value : Ty) :
    (row.insert key value).relabel label = (row.relabel label).insert key (value.relabel label) := by
  induction row using Row.induction with
  | empty => rfl
  | field name type rest ih =>
    rw [relabel, insert, insert]
    cases compare key name <;> simp only [relabel, ih]

theorem relabel_extend (row other : Row) :
    (row.extend other).relabel label = (row.relabel label).extend (other.relabel label) := by
  induction other using Row.induction generalizing row with
  | empty => rfl
  | field name type rest ih => rw [extend, ih, relabel_insert, relabel, extend]

end Row

/-- Relabelling goes through flattening. -/
theorem Ty.relabel_flatten (fields : Row) (base : Ty) :
    (base.flatten fields).relabel label = (base.relabel label).flatten (fields.relabel label) := by
  cases base <;> simp [flatten, relabel, Row.relabel_extend]

/-! ## Variables -/

mutual

@[simp] theorem Ty.occurrences_relabel :
    ∀ type : Ty, (type.relabel label).occurrences = type.occurrences.map (TypeVar.relabel label)
  | .unit | .bool | .char | .string | .int | .float | .var _ => rfl
  | .tuple first second => by
    simp [Ty.relabel, Ty.occurrences, Ty.occurrences_relabel first, Ty.occurrences_relabel second]
  | .triple first second third => by
    simp [Ty.relabel, Ty.occurrences, Ty.occurrences_relabel first, Ty.occurrences_relabel second,
      Ty.occurrences_relabel third]
  | .list element => by simp [Ty.relabel, Ty.occurrences, Ty.occurrences_relabel element]
  | .function source target => by
    simp [Ty.relabel, Ty.occurrences, Ty.occurrences_relabel source, Ty.occurrences_relabel target]
  | .record fields => by simp [Ty.relabel, Ty.occurrences, Row.occurrences_relabel fields]
  | .extension base fields => by
    simp [Ty.relabel, Ty.occurrences, Ty.occurrences_relabel base, Row.occurrences_relabel fields]

theorem Row.occurrences_relabel :
    ∀ row : Row, (row.relabel label).occurrences = row.occurrences.map (TypeVar.relabel label)
  | .empty => rfl
  | .field _ type rest => by
    simp [Row.relabel, Row.occurrences, Ty.occurrences_relabel type, Row.occurrences_relabel rest]

end

mutual

/-- Only the labels of the variables in a type matter. -/
theorem Ty.relabel_congr : ∀ type : Ty, (∀ v ∈ type.occurrences, label v.id = other v.id) →
    type.relabel label = type.relabel other
  | .unit, _ | .bool, _ | .char, _ | .string, _ | .int, _ | .float, _ => rfl
  | .var v, same => by rw [Ty.relabel, Ty.relabel, TypeVar.relabel, same v (List.mem_singleton_self v)]; rfl
  | .tuple first second, same => by
    obtain ⟨left, right⟩ := List.forall_mem_append.mp same
    rw [Ty.relabel, Ty.relabel, Ty.relabel_congr first left, Ty.relabel_congr second right]
  | .triple first second third, same => by
    obtain ⟨left, others⟩ := List.forall_mem_append.mp same
    obtain ⟨middle, right⟩ := List.forall_mem_append.mp others
    rw [Ty.relabel, Ty.relabel, Ty.relabel_congr first left, Ty.relabel_congr second middle,
      Ty.relabel_congr third right]
  | .list element, same => by rw [Ty.relabel, Ty.relabel, Ty.relabel_congr element same]
  | .function source target, same => by
    obtain ⟨left, right⟩ := List.forall_mem_append.mp same
    rw [Ty.relabel, Ty.relabel, Ty.relabel_congr source left, Ty.relabel_congr target right]
  | .record fields, same => by rw [Ty.relabel, Ty.relabel, Row.relabel_congr fields same]
  | .extension base fields, same => by
    obtain ⟨left, right⟩ := List.forall_mem_append.mp same
    rw [Ty.relabel, Ty.relabel, Ty.relabel_congr base left, Row.relabel_congr fields right]

theorem Row.relabel_congr : ∀ row : Row, (∀ v ∈ row.occurrences, label v.id = other v.id) →
    row.relabel label = row.relabel other
  | .empty, _ => rfl
  | .field _ type rest, same => by
    obtain ⟨here, there⟩ := List.forall_mem_append.mp same
    rw [Row.relabel, Row.relabel, Ty.relabel_congr type here, Row.relabel_congr rest there]

end

/-- Two relabellings of a type are equal just if they agree on its variables. -/
theorem Ty.relabel_eq_relabel_iff {type : Ty} :
    type.relabel label = type.relabel other ↔ ∀ v ∈ type.occurrences, label v.id = other v.id := by
  refine ⟨fun same v member => ?_, Ty.relabel_congr type⟩
  have occurrences := congrArg Ty.occurrences same
  rw [Ty.occurrences_relabel, Ty.occurrences_relabel, List.map_inj_left] at occurrences
  exact congrArg TypeVar.id (occurrences v member)

mutual

/-- Relabelling twice is relabelling once. -/
@[simp] theorem Ty.relabel_relabel : ∀ type : Ty, (type.relabel label).relabel other = type.relabel (other ∘ label)
  | .unit | .bool | .char | .string | .int | .float | .var _ => rfl
  | .tuple first second => by simp [Ty.relabel, Ty.relabel_relabel first, Ty.relabel_relabel second]
  | .triple first second third => by
    simp [Ty.relabel, Ty.relabel_relabel first, Ty.relabel_relabel second, Ty.relabel_relabel third]
  | .list element => by simp [Ty.relabel, Ty.relabel_relabel element]
  | .function source target => by simp [Ty.relabel, Ty.relabel_relabel source, Ty.relabel_relabel target]
  | .record fields => by simp [Ty.relabel, Row.relabel_relabel fields]
  | .extension base fields => by simp [Ty.relabel, Ty.relabel_relabel base, Row.relabel_relabel fields]

theorem Row.relabel_relabel : ∀ row : Row, (row.relabel label).relabel other = row.relabel (other ∘ label)
  | .empty => rfl
  | .field _ type rest => by simp [Row.relabel, Ty.relabel_relabel type, Row.relabel_relabel rest]

end

mutual

@[simp] theorem Ty.relabel_id : ∀ type : Ty, type.relabel id = type
  | .unit | .bool | .char | .string | .int | .float | .var _ => rfl
  | .tuple first second => by simp [Ty.relabel, Ty.relabel_id first, Ty.relabel_id second]
  | .triple first second third => by
    simp [Ty.relabel, Ty.relabel_id first, Ty.relabel_id second, Ty.relabel_id third]
  | .list element => by simp [Ty.relabel, Ty.relabel_id element]
  | .function source target => by simp [Ty.relabel, Ty.relabel_id source, Ty.relabel_id target]
  | .record fields => by simp [Ty.relabel, Row.relabel_id fields]
  | .extension base fields => by simp [Ty.relabel, Ty.relabel_id base, Row.relabel_id fields]

theorem Row.relabel_id : ∀ row : Row, row.relabel id = row
  | .empty => rfl
  | .field _ type rest => by simp [Row.relabel, Ty.relabel_id type, Row.relabel_id rest]

end

/-- A relabelling that keeps identities apart keeps types apart. -/
theorem Ty.relabel_injective (injective : Function.Injective label) : Function.Injective (Ty.relabel label) := by
  obtain ⟨inverse, undone⟩ := injective.hasLeftInverse
  refine Function.LeftInverse.injective (g := Ty.relabel inverse) fun type => ?_
  rw [Ty.relabel_relabel, Function.LeftInverse.id undone, Ty.relabel_id]

/-! ## Relabelling and replacing variables -/

mutual

/-- Replacing the variables of a relabelled type. -/
theorem Ty.mapVars_relabel (replace : TypeVar → Ty) :
    ∀ type : Ty, (type.relabel label).mapVars replace = type.mapVars fun v => replace (v.relabel label)
  | .unit | .bool | .char | .string | .int | .float | .var _ => rfl
  | .tuple first second => by
    simp [Ty.relabel, Ty.mapVars, Ty.mapVars_relabel replace first, Ty.mapVars_relabel replace second]
  | .triple first second third => by
    simp [Ty.relabel, Ty.mapVars, Ty.mapVars_relabel replace first, Ty.mapVars_relabel replace second,
      Ty.mapVars_relabel replace third]
  | .list element => by simp [Ty.relabel, Ty.mapVars, Ty.mapVars_relabel replace element]
  | .function source target => by
    simp [Ty.relabel, Ty.mapVars, Ty.mapVars_relabel replace source, Ty.mapVars_relabel replace target]
  | .record fields => by simp [Ty.relabel, Ty.mapVars, Row.mapVars_relabel replace fields]
  | .extension base fields => by
    simp [Ty.relabel, Ty.mapVars, Ty.mapVars_relabel replace base, Row.mapVars_relabel replace fields]

theorem Row.mapVars_relabel (replace : TypeVar → Ty) :
    ∀ row : Row, (row.relabel label).mapVars replace = row.mapVars fun v => replace (v.relabel label)
  | .empty => rfl
  | .field _ type rest => by
    simp [Row.relabel, Row.mapVars, Ty.mapVars_relabel replace type, Row.mapVars_relabel replace rest]

end

mutual

/-- Relabelling a type whose variables have been replaced. -/
theorem Ty.relabel_mapVars (replace : TypeVar → Ty) :
    ∀ type : Ty, (type.mapVars replace).relabel label = type.mapVars fun v => (replace v).relabel label
  | .unit | .bool | .char | .string | .int | .float | .var _ => rfl
  | .tuple first second => by
    simp [Ty.relabel, Ty.mapVars, Ty.relabel_mapVars replace first, Ty.relabel_mapVars replace second]
  | .triple first second third => by
    simp [Ty.relabel, Ty.mapVars, Ty.relabel_mapVars replace first, Ty.relabel_mapVars replace second,
      Ty.relabel_mapVars replace third]
  | .list element => by simp [Ty.relabel, Ty.mapVars, Ty.relabel_mapVars replace element]
  | .function source target => by
    simp [Ty.relabel, Ty.mapVars, Ty.relabel_mapVars replace source, Ty.relabel_mapVars replace target]
  | .record fields => by simp [Ty.relabel, Ty.mapVars, Row.relabel_mapVars replace fields]
  | .extension base fields => by
    rw [Ty.mapVars, Ty.relabel_flatten, Ty.relabel_mapVars replace base, Row.relabel_mapVars replace fields, Ty.mapVars]

theorem Row.relabel_mapVars (replace : TypeVar → Ty) :
    ∀ row : Row, (row.mapVars replace).relabel label = row.mapVars fun v => (replace v).relabel label
  | .empty => rfl
  | .field _ type rest => by
    simp [Row.relabel, Row.mapVars, Ty.relabel_mapVars replace type, Row.relabel_mapVars replace rest]

end

/-- The type with every row over a record put together. -/
def Ty.flattened (type : Ty) : Ty := type.mapVars .var

namespace Ty

theorem flattened_flat (type : Ty) : type.flattened.Flat := mapVars_flat type fun _ => trivial

theorem Flat.flattened {type : Ty} (flat : type.Flat) : type.flattened = type := mapVars_var flat

/-- Flattening brings in no variables. -/
theorem mem_occurrences_of_flattened {type : Ty} {v : TypeVar} (member : v ∈ type.flattened.occurrences) :
    v ∈ type.occurrences := by
  obtain ⟨u, inType, isVar⟩ := mem_occurrences_mapVars member
  rwa [List.mem_singleton.mp isVar]

/-- Relabelling and flattening can be interchanged. -/
theorem flattened_relabel (type : Ty) : (type.relabel label).flattened = type.flattened.relabel label := by
  rw [flattened, flattened, mapVars_relabel, relabel_mapVars]
  rfl

/-- Replacing variables by variables flattens and relabels. -/
theorem mapVars_eq_relabel {type : Ty} {rename : TypeVar → TypeVar}
    (renames : ∀ v ∈ type.occurrences, rename v = v.relabel label) :
    (type.mapVars fun v => .var (rename v)) = type.flattened.relabel label := by
  rw [flattened, relabel_mapVars]
  exact mapVars_congr fun v member => congrArg var (renames v member)

end Ty

/-! ## Permutations -/

instance : Infinite VarId := .of_injective VarId.generated fun _ _ => VarId.generated.inj

/-- An injection between finitely many elements of an infinite type is part of a permutation. -/
theorem exists_perm_extending {α : Type} [Infinite α] {known : Set α} (finite : known.Finite) (change : known → α)
    (injective : Function.Injective change) :
    ∃ perm : Equiv.Perm α, ∀ element : known, perm element = change element := by
  refine Cardinal.extend_function_of_lt ⟨change, injective⟩ ?_ ⟨Equiv.refl α⟩
  exact (Cardinal.lt_aleph0_iff_set_finite.mpr finite).trans_le (Cardinal.aleph0_le_mk α)

/-- An injection between finitely many identities that keeps the generated ones apart from the named ones is part of
such a permutation. -/
theorem VarId.exists_perm_extending (label : VarId → VarId) {known : Set VarId} (finite : known.Finite)
    (injective : Set.InjOn label known) (sorts : ∀ id ∈ known, (label id).isGenerated = id.isGenerated) :
    ∃ perm : Equiv.Perm VarId, (∀ id, (perm id).isGenerated = id.isGenerated) ∧ ∀ id ∈ known, perm id = label id := by
  have infinite : ∀ sort : Bool, Infinite {id : VarId // id.isGenerated = sort}
    | true => .of_injective (fun index => ⟨.generated index, rfl⟩) fun _ _ same => generated.inj (Subtype.mk.inj same)
    | false => .of_injective (fun name => ⟨.named name, rfl⟩) fun _ _ same => named.inj (Subtype.mk.inj same)
  have ofSort : ∀ sort : Bool, ∃ perm : Equiv.Perm {id : VarId // id.isGenerated = sort},
      ∀ id, id.1 ∈ known → (perm id).1 = label id.1 := by
    intro sort
    have ofKnown : {id : {id : VarId // id.isGenerated = sort} | id.1 ∈ known}.Finite :=
      finite.preimage Subtype.val_injective.injOn
    obtain ⟨perm, extending⟩ := RowInference.exists_perm_extending ofKnown
      (fun id => ⟨label id.1.1, (sorts id.1.1 id.2).trans id.1.2⟩)
      fun left right same => Subtype.ext (Subtype.ext (injective left.2 right.2 (Subtype.mk.inj same)))
    exact ⟨perm, fun id member => congrArg Subtype.val (extending ⟨id, member⟩)⟩
  choose perm extending using ofSort
  refine ⟨(Equiv.sigmaFiberEquiv isGenerated).permCongr (Equiv.sigmaCongrRight perm), fun id => ?_, fun id => ?_⟩
  · exact (perm id.isGenerated ⟨id, rfl⟩).2
  · exact extending id.isGenerated ⟨id, rfl⟩

end RowInference
