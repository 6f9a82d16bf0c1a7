import RowInference.Proofs.Inference.Completion
import RowInference.Proofs.Unification.Principal

/-! # How inference uses rows

The second discipline: a variable is introduced either as a type or as the tail of certain fields, and types in play
follow these kinds. What is learnt carries them to kinds of the variables that are left. Hence a tail is only ever used
below its own fields, and what it resolves to never repeats one of them.
-/

namespace RowInference

/-- The kinds with which variables were introduced, and the kinds of the unbound ones after what has been learnt. -/
structure Layout extends Knowledge where
  declared : Kinding
  current : Kinding

namespace Layout

variable {layout later : Layout} {issued : Nat}

instance : Preorder Layout where
  le layout later := layout.toKnowledge ≤ later.toKnowledge ∧ layout.declared.Sub later.declared
  le_refl layout := ⟨le_refl layout.toKnowledge, fun _ _ isKind => isKind⟩
  le_trans _ _ _ first second :=
    ⟨le_trans first.1 second.1, fun _ _ isKind => second.2 (first.2 isKind)⟩

theorem knowledge_of_le (le : layout ≤ later) : layout.toKnowledge ≤ later.toKnowledge := le.1

theorem declared_of_le (le : layout ≤ later) : layout.declared.Sub later.declared := le.2

/-- The type followed kinds that have been carried to now. -/
def Carried (layout : Layout) (type : Ty) : Prop :=
  ∃ (kinds : Kinding) (replace : TypeVar → Ty), kinds.Carries replace layout.current ∧ type.Usable kinds ∧
    ∀ v ∈ type.occurrences, replace v = layout.subst.value v

/-- What has been learnt carries the kinds of variables from their introduction to now. The same goes for the types that
variables were bound to. -/
structure Sound (layout : Layout) (issued : Nat) : Prop where
  knowledge : layout.toKnowledge.Sound issued
  declaredKnown : layout.declared.signature.Sub layout.sig
  currentKnown : layout.current.signature.Sub layout.sig
  unbound : ∀ ⦃id : VarId⦄, layout.current id ≠ none → layout.subst[id]? = none
  carries : layout.declared.Carries layout.subst.value layout.current
  bound : ∀ ⦃id : VarId⦄ ⦃type : Ty⦄, layout.subst[id]? = some type → layout.Carried type

theorem Sound.within (sound : layout.Sound issued) {type : Ty} (kinded : type.Kinded layout.declared) :
    type.Within layout.sig := kinded.within.mono sound.declaredKnown

/-- Under what has been learnt a type follows the kinds of the variables that are left. -/
theorem Sound.apply_kinded (sound : layout.Sound issued) {type : Ty} (kinded : type.Kinded layout.declared) :
    (layout.subst.apply type).Kinded layout.current := by
  rw [Substitution.apply_eq_mapVars kinded.within.flat]
  exact sound.carries.kinded kinded

theorem Sound.currentBelow (sound : layout.Sound issued) : layout.current.signature.Issued issued := by
  intro index known
  obtain ⟨constraint, isKnown⟩ := Option.ne_none_iff_exists'.mp known
  exact sound.knowledge.below index (by rw [sound.currentKnown isKnown]; exact Option.some_ne_none _)

theorem Sound.mono (sound : layout.Sound issued) {issued' : Nat} (le : issued ≤ issued') : layout.Sound issued' :=
  { sound with knowledge := { sound.knowledge with below := sound.knowledge.below.mono le } }

/-! ## New variables -/

def widen (layout : Layout) (sig : Signature) (declared : Kinding) : Layout where
  sig := sig
  subst := layout.subst
  declared := declared
  current id := if layout.sig id = none then (declared id).map (Kind.mapVars layout.subst.value) else layout.current id

section Widen

variable {sig : Signature} {declared : Kinding} {issued' : Nat} (sound : layout.Sound issued)
  (sub : layout.sig.Sub sig) (below : sig.Issued issued') (known : declared.signature.Sub sig)
  (old : ∀ ⦃id : VarId⦄, layout.sig id ≠ none → declared id = layout.declared id)

theorem widen_current_of_new {id : VarId} (new : layout.sig id = none) :
    (layout.widen sig declared).current id = (declared id).map (Kind.mapVars layout.subst.value) := if_pos new

theorem widen_current_of_old {id : VarId} (inPlay : layout.sig id ≠ none) :
    (layout.widen sig declared).current id = layout.current id := if_neg inPlay

include sound in
/-- Introducing variables does not change the kinds of those in play. -/
theorem Sound.current_sub_widen : layout.current.Sub (layout.widen sig declared).current := by
  intro id kind isKind
  have inPlay : layout.sig id ≠ none := by
    rw [sound.currentKnown (Kinding.signature_of_some isKind)]
    exact Option.some_ne_none _
  rw [widen_current_of_old inPlay, isKind]

include sound in
/-- A variable that is not in play is not bound. -/
theorem Sound.unbound_of_new {id : VarId} (new : layout.sig id = none) : layout.subst[id]? = none := by
  cases bound : layout.subst[id]? with
  | none => rfl
  | some type => exact absurd new (sound.knowledge.respects.key bound)

include sound old in
/-- What has been learnt carries the kinds of the new variables, too. -/
theorem Sound.carries_widen : declared.Carries layout.subst.value (layout.widen sig declared).current where
  canonical := sound.carries.canonical
  flat := sound.carries.flat
  plain v isPlain := by
    by_cases new : layout.sig v.id = none
    · rw [Substitution.value_of_none (sound.unbound_of_new new), Ty.Kinded, widen_current_of_new new, isPlain]
      rfl
    · rw [old new] at isPlain
      exact (sound.carries.plain isPlain).mono sound.current_sub_widen
  tail id fields isTail canonical flat := by
    by_cases new : layout.sig id = none
    · rw [Substitution.value_of_none (sound.unbound_of_new new)]
      refine ⟨rfl, ?_⟩
      rw [widen_current_of_new new, isTail]
      rfl
    · rw [old new] at isTail
      exact (sound.carries.tail isTail canonical flat).mono sound.current_sub_widen

include sound sub old in
theorem Sound.le_widen : layout ≤ layout.widen sig declared := by
  refine ⟨⟨sub, fun _ solved => solved⟩, fun id kind isKind => ?_⟩
  rw [← isKind]
  refine old ?_
  rw [sound.declaredKnown (Kinding.signature_of_some isKind)]
  exact Option.some_ne_none _

include sound sub below known old in
/-- Introducing variables keeps a layout sound. -/
theorem Sound.widen : (layout.widen sig declared).Sound issued' where
  knowledge := (sound.knowledge.widen sub below).2
  declaredKnown := known
  currentKnown := by
    intro id constraint isKnown
    obtain ⟨kind, isKind, rfl⟩ := Option.map_eq_some_iff.mp isKnown
    by_cases new : layout.sig id = none
    · rw [widen_current_of_new new] at isKind
      obtain ⟨own, isOwn, rfl⟩ := Option.map_eq_some_iff.mp isKind
      rw [Kind.constraint_mapVars]
      exact known (Kinding.signature_of_some isOwn)
    · rw [widen_current_of_old new] at isKind
      exact sub (sound.currentKnown (Kinding.signature_of_some isKind))
  unbound id isKnown := by
    by_cases new : layout.sig id = none
    · exact sound.unbound_of_new new
    · rw [widen_current_of_old new] at isKnown
      exact sound.unbound isKnown
  carries := sound.carries_widen old
  bound id type isBound := by
    obtain ⟨kinds, replace, carries, usable, same⟩ := sound.bound isBound
    exact ⟨kinds, replace, carries.mono sound.current_sub_widen, usable, same⟩

end Widen

def add (layout : Layout) (id : VarId) (kind : Kind) : Layout :=
  layout.widen (layout.sig.add ⟨id, kind.constraint⟩) (layout.declared.add id kind)

theorem Sound.add (sound : layout.Sound issued) (kind : Kind) :
    layout ≤ layout.add (.generated issued) kind ∧ (layout.add (.generated issued) kind).Sound (issued + 1) := by
  have new : layout.sig (.generated issued) = none := sound.knowledge.below.fresh
  have sub : layout.sig.Sub (layout.sig.add ⟨.generated issued, kind.constraint⟩) := .add new
  have old : ∀ ⦃id : VarId⦄, layout.sig id ≠ none →
      layout.declared.add (.generated issued) kind id = layout.declared id := by
    intro id inPlay
    refine Kinding.add_of_ne kind ?_
    rintro rfl
    exact inPlay new
  refine ⟨sound.le_widen sub old, sound.widen sub (sound.knowledge.below.add kind.constraint) ?_ old⟩
  intro id constraint isKnown
  obtain ⟨found, isFound, rfl⟩ := Option.map_eq_some_iff.mp isKnown
  by_cases isNew : id = .generated issued
  · subst isNew
    rw [Kinding.add_self] at isFound
    cases isFound
    exact Signature.add_self layout.sig ⟨_, _⟩
  · rw [Kinding.add_of_ne kind isNew] at isFound
    exact sub (sound.declaredKnown (Kinding.signature_of_some isFound))

/-! ## Schemes -/

end Layout

/-- A scheme that follows a kinding: it quantifies nothing, or else it quantifies all its variables, and they have kinds
of their own. -/
def Scheme.Kinded (kinds : Kinding) (scheme : Scheme) : Prop :=
  scheme.binders = [] ∧ scheme.body.Kinded kinds ∨
    scheme = Scheme.closed scheme.body ∧ ∃ own : Kinding, scheme.body.Kinded own

theorem Scheme.Kinded.mono {kinds wider : Kinding} {scheme : Scheme} (kinded : scheme.Kinded kinds)
    (sub : kinds.Sub wider) : scheme.Kinded wider :=
  kinded.imp (fun ⟨plain, bodyKinded⟩ => ⟨plain, bodyKinded.mono sub⟩) id

/-- The kinds of the variables that a use of a scheme is made with. -/
def Kinding.addUse (kinds own : Kinding) (scheme : Scheme) (supply : Supply) : Kinding
  | .generated index =>
    if index < supply.issued then kinds (.generated index)
    else scheme.binders[index - supply.issued]?.bind fun binder =>
      (own binder.id).map (Kind.mapVars fun v => .var (scheme.rename supply v))
  | .named name => kinds (.named name)

section Use

variable {kinds own : Kinding} {type : Ty} {supply : Supply}

/-- The variable for a binder has the kind of the binder, with the variables of the use in it. -/
theorem Kinding.addUse_new {scheme : Scheme} {index : Nat} {binder : TypeVar}
    (isBinder : scheme.binders[index]? = some binder) :
    kinds.addUse own scheme supply (.generated (supply.issued + index))
      = (own binder.id).map (Kind.mapVars fun v => .var (scheme.rename supply v)) := by
  rw [addUse, if_neg (by omega), Nat.add_sub_cancel_left, isBinder, Option.bind_some]

/-- A variable of a kinded type has a kind with its constraint. -/
theorem Ty.Kinded.kind_of_occurs (kinded : type.Kinded own) {v : TypeVar} (inType : v ∈ type.occurrences) :
    ∃ kind, own v.id = some kind ∧ kind.constraint = v.constraint :=
  Option.map_eq_some_iff.mp (kinded.within.known v inType)

/-- Renaming the variables of a type for a use carries their kinds over. -/
theorem Scheme.carries_rename (kinded : type.Kinded own) :
    Kinding.Carries (fun id => if (Scheme.closed type).binds id then own id else none)
      (fun v => .var ((Scheme.closed type).rename supply v)) (kinds.addUse own (Scheme.closed type) supply) := by
  have renamed : ∀ (v : TypeVar) {kind : Kind},
    (if (Scheme.closed type).binds v.id then own v.id else none) = some kind →
      ∃ index, (Scheme.closed type).rename supply v = ⟨.generated index, kind.constraint⟩ ∧
        kinds.addUse own (Scheme.closed type) supply (.generated index)
          = some (kind.mapVars fun v => .var ((Scheme.closed type).rename supply v)) := by
    intro v kind isKind
    obtain ⟨bound, isKind⟩ := Option.ite_none_right_eq_some.mp isKind
    obtain ⟨index, binder, isBinder, sameId, isRenamed⟩ := rename_of_bound supply bound
    have inType : binder ∈ type.occurrences := List.mem_eraseDups.mp (List.mem_of_getElem? isBinder)
    obtain ⟨own, isOwn, sameConstraint⟩ := kinded.kind_of_occurs inType
    rw [sameId, isKind] at isOwn
    cases isOwn
    refine ⟨supply.issued + index, by rw [isRenamed, sameConstraint], ?_⟩
    rw [Kinding.addUse_new isBinder, sameId, isKind, Option.map_some]
  refine ⟨fun _ => trivial, fun _ => trivial, ?_, ?_⟩
  · intro v isPlain
    obtain ⟨index, isRenamed, isKind⟩ := renamed v isPlain
    rw [isRenamed]
    exact isKind
  · intro id fields isTail _ _
    obtain ⟨index, isRenamed, isKind⟩ := renamed ⟨id, none⟩ isTail
    rw [isRenamed]
    exact ⟨rfl, isKind⟩

/-- A use of a scheme that quantifies all its variables. -/
theorem Scheme.instantiate_kinded (kinded : type.Kinded own) :
    ((Scheme.closed type).instantiate supply).1.Kinded (kinds.addUse own (Scheme.closed type) supply) := by
  rw [instantiate_type kinded.within.flat]
  refine (Scheme.carries_rename kinded).kinded (kinded.of_agree fun v inType kind isKind => ?_)
  rw [if_pos (closed_binds type v inType), isKind]

/-- In a kinded type no two variables of one name differ. -/
theorem Ty.Kinded.coherent (kinded : type.Kinded own) : (Scheme.closed type).Coherent := by
  intro binder member other otherMember same
  have known := kinded.within.known binder (List.mem_eraseDups.mp member)
  rw [same, kinded.within.known other (List.mem_eraseDups.mp otherMember)] at known
  exact (Option.some.inj known).symm

theorem Scheme.instantiate_plain {scheme : Scheme} (plain : scheme.binders = []) (supply : Supply) :
    scheme.instantiate supply = (scheme.body, supply) := by
  have isMono : scheme.isMono = true := List.isEmpty_iff.mpr plain
  rw [Scheme.instantiate, if_pos isMono]

theorem Scheme.yields_plain {scheme : Scheme} (plain : scheme.binders = []) {free : TypeVar → Ty} :
    scheme.Yields free (scheme.body.mapVars free) := by
  have isMono : scheme = Scheme.mono scheme.body := by rw [Scheme.mono, ← plain]
  rw [isMono]
  exact yields_mono

/-- The kinds of a use have the constraints that the use brings into play. -/
theorem Kinding.signature_addUse {sig : Signature} (known : kinds.signature.Sub sig) (kinded : type.Kinded own) :
    (kinds.addUse own (Scheme.closed type) supply).signature.Sub
      (sig.addAll supply.issued (Scheme.closed type).binders) := by
  intro id constraint isKnown
  obtain ⟨kind, isKind, rfl⟩ := Option.map_eq_some_iff.mp isKnown
  cases id with
  | named name => exact known (Kinding.signature_of_some isKind)
  | generated index =>
    rw [Kinding.addUse] at isKind
    rw [Signature.addAll]
    split at isKind
    · next old => rw [if_pos old, known (Kinding.signature_of_some isKind)]
    · next new =>
      obtain ⟨binder, isBinder, isKind⟩ := Option.bind_eq_some_iff.mp isKind
      obtain ⟨kind, isOwn, rfl⟩ := Option.map_eq_some_iff.mp isKind
      have inType : binder ∈ type.occurrences := List.mem_eraseDups.mp (List.mem_of_getElem? isBinder)
      obtain ⟨_, isOwn', sameConstraint⟩ := kinded.kind_of_occurs inType
      rw [isOwn] at isOwn'
      cases isOwn'
      rw [if_neg new, isBinder, Kind.constraint_mapVars, Option.map_some, sameConstraint]

end Use

/-- The kinds of the variables in schemes of the prelude. -/
def Prelude.kinds : Kinding
  | .named "number" => some (.plain (some .number))
  | .named "appendable" => some (.plain (some .appendable))
  | _ => some (.plain none)

/-- All variables have a kind as types, none as tails. -/
def Kinding.Plain (kinds : Kinding) : Prop := ∀ ⦃id : VarId⦄ ⦃kind : Kind⦄, kinds id = some kind →
  ∃ constraint, kind = .plain constraint

theorem Prelude.kinds_plain : Prelude.kinds.Plain := by
  intro id kind isKind
  rw [Prelude.kinds.eq_def] at isKind
  split at isKind <;> exact ⟨_, (Option.some.inj isKind).symm⟩

/-- The scheme quantifies all its variables, and none of them is a tail. -/
def Scheme.Tailless (scheme : Scheme) : Prop :=
  scheme = Scheme.closed scheme.body ∧ ∃ own : Kinding, own.Plain ∧ scheme.body.Kinded own

/-- A scheme without tails follows every kinding. -/
theorem Scheme.Tailless.kinded {scheme : Scheme} (tailless : scheme.Tailless) (kinds : Kinding) :
    scheme.Kinded kinds := by
  obtain ⟨isClosed, own, _, bodyKinded⟩ := tailless
  exact .inr ⟨isClosed, own, bodyKinded⟩

namespace Prelude

/-- The schemes of operators have no tails. -/
theorem operatorScheme_tailless (op : Operator) : (operatorScheme op).Tailless := by
  refine ⟨?_, kinds, kinds_plain, ?_⟩
  · obtain ⟨type, isClosed⟩ := operatorScheme_closed op
    rw [isClosed]
    rfl
  · cases op <;> simp [operatorScheme, polymorphic, Scheme.closed, Ty.curried, number, appendable, anyType,
      TypeVar.named, Ty.Kinded, kinds]

/-- Nor have those of the named values. -/
theorem values_tailless : ∀ entry ∈ values, entry.2.Tailless := by
  intro entry member
  simp only [values, List.mem_cons, List.not_mem_nil, or_false] at member
  rcases member with rfl | rfl | rfl | rfl | rfl | rfl | rfl | rfl | rfl | rfl | rfl
  all_goals
    refine ⟨rfl, kinds, kinds_plain, ?_⟩
    simp [Scheme.mono, polymorphic, Scheme.closed, Ty.curried, number, anyType, TypeVar.named, Ty.Kinded, kinds]

end Prelude

namespace Layout

variable {layout : Layout}

/-! ## Equations -/

/-- Variables that are left or new are unbound. -/
theorem Sound.unbound_grow {issued issued' : Nat} (sound : layout.Sound issued) {id : VarId}
    (known : layout.current.signature.grow issued issued' id ≠ none) : layout.subst[id]? = none := by
  by_cases old : layout.current id = none
  · have absent : layout.current.signature id = none := by rw [Kinding.signature, old, Option.map_none]
    refine sound.unbound_of_new ?_
    cases id with
    | named name => exact absurd absent known
    | generated index =>
      by_contra inPlay
      have := sound.knowledge.below index inPlay
      rw [Signature.grow, if_neg (by omega)] at known
      exact known absent
  · exact sound.unbound old

section Equation

variable {found : Substitution} {supply after : Supply} {expected actual : Ty}
  (sound : layout.Sound supply.issued) (expectedKinded : expected.Kinded layout.declared)
  (actualKinded : actual.Kinded layout.declared)
  (success : unify (layout.subst.apply expected) (layout.subst.apply actual) supply = (.ok found, after))

include sound expectedKinded actualKinded success

/-- What is learnt from an equation carries the kinds of unbound variables on. -/
theorem Sound.advance : ∃ kinds, Advance layout.current [⟨layout.subst.apply expected, layout.subst.apply actual⟩]
    supply.issued found after.issued kinds [] := by
  obtain ⟨kinds, advance, _⟩ := (unified_of_run.1 _ _ _ supply.issued found after success).advance sound.currentBelow
    (sound.apply_kinded expectedKinded) (sound.apply_kinded actualKinded)
  exact ⟨kinds, advance⟩

/-- A layout stays sound when an equation is solved: what is found carries the kinds of the unbound variables on. -/
theorem Sound.learn {kinds : Kinding} (advance : Advance layout.current
      [⟨layout.subst.apply expected, layout.subst.apply actual⟩] supply.issued found after.issued kinds []) :
    let later : Layout := { layout with
      sig := layout.sig.grow supply.issued after.issued, subst := layout.subst.extend found, current := kinds }
    layout ≤ later ∧ later.Sound after.issued ∧
      ∀ valuation, later.Models valuation → expected.read valuation = actual.read valuation := by
  intro later
  have expectedWithin := sound.within expectedKinded
  have actualWithin := sound.within actualKinded
  obtain ⟨le, knowledge, same⟩ := sound.knowledge.learn expectedWithin actualWithin success
  have apart := sound.knowledge.apart expectedWithin actualWithin success
  have proper := sound.knowledge.respects.proper
  have grown := sound.currentKnown.grow supply.issued after.issued
  have values : (layout.subst.extend found).value = fun v => (layout.subst.value v).mapVars found.value := by
    funext v
    rw [(Substitution.joined_extend _ _).value apart sound.knowledge.acyclic advance.settled.acyclic proper.canonical
      advance.respects.proper.canonical, Substitution.apply_eq_mapVars (Substitution.value_flat _ v)]
  refine ⟨⟨le, fun _ _ isKind => isKind⟩, ⟨knowledge, sound.declaredKnown.trans (Knowledge.sub_of_le le),
    advance.known.trans grown, ?_, ?_, ?_⟩, same⟩
  · intro id isKnown
    rw [Substitution.getElem?_extend, advance.unbound isKnown, Option.or_none]
    obtain ⟨kind, isKind⟩ := Option.ne_none_iff_exists'.mp isKnown
    exact sound.unbound_grow (by
      rw [advance.known (Kinding.signature_of_some isKind)]
      exact Option.some_ne_none _)
  · rw [show later.subst.value = _ from values]
    exact sound.carries.compose advance.carries
  · intro id type isBound
    rw [Substitution.getElem?_extend] at isBound
    rcases Option.or_eq_some_iff.mp isBound with old | ⟨_, new⟩
    · obtain ⟨own, replace, carries, usable, agrees⟩ := sound.bound old
      refine ⟨own, _, carries.compose advance.carries, usable, fun v inType => ?_⟩
      rw [show later.subst.value = _ from values, agrees v inType]
    · refine ⟨kinds, _, carries_empty, advance.usable new, fun v inType => ?_⟩
      rw [Substitution.value_empty, Substitution.value_of_none]
      rw [Substitution.getElem?_extend, apart.unmentioned new v inType, advance.settled new v inType, Option.or_none]

end Equation

/-! ## The discipline -/

/-- A use of a kinded scheme keeps a layout sound. -/
theorem Sound.use {supply : Supply} {type : Ty} {own : Kinding} (sound : layout.Sound supply.issued)
    (kinded : type.Kinded own) :
    let later := layout.widen (layout.sig.addAll supply.issued (Scheme.closed type).binders)
      (layout.declared.addUse own (Scheme.closed type) supply)
    layout ≤ later ∧ later.Sound ((Scheme.closed type).instantiate supply).2.issued := by
  have sub := Signature.sub_addAll sound.knowledge.below (Scheme.closed type).binders
  have old : ∀ ⦃id : VarId⦄, layout.sig id ≠ none →
      layout.declared.addUse own (Scheme.closed type) supply id = layout.declared id := by
    intro id inPlay
    cases id with
    | named name => rfl
    | generated index => exact if_pos (sound.knowledge.below index inPlay)
  rw [Scheme.instantiate_issued]
  exact ⟨sound.le_widen sub old, sound.widen sub (Signature.issued_addAll _ _ _)
    (Kinding.signature_addUse sound.declaredKnown kinded) old⟩

/-- Inference keeps to the kinds of variables. -/
def discipline : Discipline where
  World := Layout
  Holds layout subst issued := subst = layout.subst ∧ layout.Sound issued
  Fine layout type := type.Kinded layout.declared
  FineScheme layout scheme := scheme.Kinded layout.declared
  Models layout := layout.Models
  proper kinded := ⟨kinded.within.canonical, kinded.within.flat⟩
  fine_mono le kinded := kinded.mono (declared_of_le le)
  fineScheme_mono le kinded := kinded.mono (declared_of_le le)
  models_anti le models := models.anti (knowledge_of_le le)
  fine_atom _ type basic := by cases type <;> simp_all [Ty.isAtom, Ty.Kinded]
  fine_tuple first second := ⟨first, second⟩
  fine_triple first second third := ⟨first, second, third⟩
  fine_list element := element
  fine_function source target := ⟨source, target⟩
  fine_record sorted types := Row.kinded_iff.mpr ⟨sorted, types⟩
  fine_mono_scheme kinded := .inl ⟨rfl, kinded⟩
  fine_operator _ op := (Prelude.operatorScheme_tailless op).kinded _
  issue := by
    rintro layout _ issued constraint ⟨rfl, sound⟩
    obtain ⟨le, wider⟩ := sound.add (.plain constraint)
    exact ⟨_, le, ⟨rfl, wider⟩, Kinding.add_self .., fun valuation models => models.meets _ (Signature.add_self ..)⟩
  issueBase := by
    rintro layout _ issued fields ⟨rfl, sound⟩ canonical flat
    obtain ⟨le, wider⟩ := sound.add (.tail fields)
    refine ⟨_, le, ⟨rfl, wider⟩, fun latest later types => ?_⟩
    exact ⟨⟨_, rfl, later.2 (Kinding.add_self ..)⟩, Row.kinded_iff.mpr ⟨canonical.sorted, types⟩⟩
  use := by
    rintro layout _ supply scheme ⟨rfl, sound⟩ (⟨plain, kinded⟩ | ⟨isClosed, own, kinded⟩)
    · rw [Scheme.instantiate_plain plain]
      exact ⟨layout, le_refl layout, ⟨rfl, sound⟩, kinded, fun valuation _ => Scheme.yields_plain plain⟩
    · rw [isClosed]
      obtain ⟨le, wider⟩ := sound.use kinded
      refine ⟨_, le, ⟨rfl, wider⟩, Scheme.instantiate_kinded kinded, fun valuation models => ?_⟩
      refine Scheme.yields_instantiate kinded.coherent kinded.within.canonical kinded.within.flat
        fun index binder isBinder => ?_
      have new : layout.sig.addAll supply.issued (Scheme.closed scheme.body).binders
          (.generated (supply.issued + index)) = some binder.constraint := Signature.addAll_new isBinder
      exact models.meets ⟨_, binder.constraint⟩ new
  learn := by
    rintro layout _ found supply after expected actual ⟨rfl, sound⟩ expectedKinded actualKinded success
    obtain ⟨kinds, advance⟩ := sound.advance expectedKinded actualKinded success
    obtain ⟨le, wider, same⟩ := sound.learn expectedKinded actualKinded success advance
    exact ⟨_, le, ⟨rfl, wider⟩, same⟩
  refuse := by
    rintro layout _ supply after expected actual error ⟨rfl, sound⟩ failure
    have le := issued_le_unify (layout.subst.apply expected) (layout.subst.apply actual) supply
    rw [failure] at le
    exact ⟨layout, le_refl layout, rfl, sound.mono le⟩

end Layout

end RowInference
