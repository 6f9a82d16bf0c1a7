import RowInference.Proofs.Inference.Layout
import RowInference.Proofs.Unification.Completeness

/-! # What inference attains

A script issues variables, and what they stand for is open at first. If types can be chosen for them as they are issued,
such that all equations hold that the script poses, then the script does not fail: `Script.Attains` says which choices
there are to make, and `Script.Attains.succeeds` that a run follows them. The variables that unification adds on its own
account get their types along the way, and a type once chosen is kept.
-/

namespace RowInference

/-! ## Valuations along a run -/

/-- All variables of the type have been issued. -/
def Ty.Below (issued : Nat) (type : Ty) : Prop := ∀ v ∈ type.occurrences, v.Below issued

theorem Ty.Below.mono {issued issued' : Nat} {type : Ty} (below : type.Below issued) (le : issued ≤ issued') :
    type.Below issued' := fun v inType index same => Nat.lt_of_lt_of_le (below v inType index same) le

/-- A later valuation keeps the types of the variables issued before. -/
structure Valuation.Continues (valuation : Valuation) (issued : Nat) (later : Valuation) (issued' : Nat) : Prop where
  le : issued ≤ issued'
  agrees : later.AgreesBelow issued valuation
  flat : valuation.Flat → later.Flat

namespace Valuation.Continues

variable {valuation later last : Valuation} {issued issued' issued'' : Nat}

theorem refl (valuation : Valuation) (issued : Nat) : valuation.Continues issued valuation issued :=
  ⟨Nat.le_refl _, .refl _ _, id⟩

theorem trans (first : valuation.Continues issued later issued') (second : later.Continues issued' last issued'') :
    valuation.Continues issued last issued'' :=
  ⟨Nat.le_trans first.le second.le, .trans first.le first.agrees second.agrees, second.flat ∘ first.flat⟩

/-- Types whose variables have been issued keep their reading. -/
theorem read_eq (continues : valuation.Continues issued later issued') {type : Ty} (below : type.Below issued) :
    type.read later = type.read valuation :=
  Ty.mapVars_congr fun v inType => continues.agrees (below v inType)

end Valuation.Continues

/-- A use of the scheme can have this type. Schemes with tails are left out: nothing in the prelude has any. -/
def Scheme.Reaches (valuation : Valuation) (scheme : Scheme) (type : Ty) : Prop :=
  scheme.binders = [] ∧ scheme.body.read valuation = type ∨
    scheme.Tailless ∧ scheme.Instance type ∧ type.Canonical ∧ type.Flat

/-- What a script can end with, inside so many nodes, from a valuation and a scene, if types are chosen for the
variables that it issues. -/
@[simp] def Script.Attains : {α : Type} → {action : InferM α} → Script action → Nat → Valuation → Scene →
    (Valuation → Scene → α → Prop) → Prop
  | _, _, .done value, _, valuation, scene, ends => ends valuation scene value
  | _, _, .fail _ _, _, _, _, _ => False
  | _, _, .fresh constraint, _, valuation, scene, ends =>
    ∃ type : Ty, type.Canonical ∧ type.Flat ∧ type.Meets constraint ∧
      ∀ later, valuation.Continues scene.issued later (scene.issued + 1) →
        later.value ⟨.generated scene.issued, constraint⟩ = type →
        ends later { scene with issued := scene.issued + 1 } (.var ⟨.generated scene.issued, constraint⟩)
  | _, _, .rowBase fields, _, valuation, scene, ends =>
    ∃ type : Ty, type.Canonical ∧ type.Flat ∧ (Kind.tail (fields scene.issued)).Admits type ∧
      ∀ later, valuation.Continues scene.issued later (scene.issued + 1) →
        later.value (.generated scene.issued) = type →
        ends later { scene with issued := scene.issued + 1 } (.var (.generated scene.issued))
  | _, _, .instantiate op, _, valuation, scene, ends =>
    ∃ target, (Prelude.operatorScheme op).Reaches valuation target ∧
      ∀ later issued type, valuation.Continues scene.issued later issued → type.Below issued →
        type.read later = target → ends later { scene with issued } type
  | _, _, .lookup name _, _, valuation, scene, ends =>
    ∃ scheme target, scene.env.get? name = some scheme ∧ scheme.Reaches valuation target ∧
      ∀ later issued type, valuation.Continues scene.issued later issued → type.Below issued →
        type.read later = target → ends later { scene with issued } type
  | _, _, .equate expected actual _, _, valuation, scene, ends =>
    expected.read valuation = actual.read valuation ∧
      ∀ later issued, valuation.Continues scene.issued later issued → ends later { scene with issued } ()
  | _, _, .declare name scheme, _, valuation, scene, ends =>
    ends valuation { scene with env := scene.env.add name scheme } ()
  | _, _, .bindName name type _, _, valuation, scene, ends =>
    (∀ entry ∈ scene.bound, entry.1 ≠ name) ∧ ends valuation { scene with bound := scene.bound ++ [(name, type)] } ()
  | _, _, .report _, _, valuation, scene, ends => ends valuation scene ()
  | _, _, .forget, _, _, _, _ | _, _, .takeSubst, _, _, _, _ => False
  | _, _, .getState, _, valuation, scene, ends => ∀ state : InferState, state.scene = scene → ends valuation scene state
  | _, _, .andThen first rest, depth, valuation, scene, ends =>
    first.Attains depth valuation scene fun later scene value => (rest value).Attains depth later scene ends
  | _, _, @choose _ _ _ condition _ ifYes ifNo, depth, valuation, scene, ends =>
    (condition → ifYes.Attains depth valuation scene ends) ∧ (¬condition → ifNo.Attains depth valuation scene ends)
  | _, _, .group inner, depth, valuation, scene, ends =>
    inner.Attains depth valuation { scene with bound := [] } fun later scene value =>
      ends later scene (value, scene.bound)
  | _, _, .inScope inner, depth, valuation, scene, ends =>
    inner.Attains depth valuation { scene with env := scene.env.enter } fun later scene value =>
      ends later { scene with env := scene.env.exit } value
  | _, _, .node typeOf limit _ inner, depth, valuation, scene, ends =>
    depth < limit ∧ inner.Attains (depth + 1) valuation scene fun later scene value =>
      (typeOf value).Below scene.issued → ends later scene value

/-! ## Steps -/

namespace Layout

variable {layout : Layout} {valuation later : Valuation} {issued : Nat}

/-- The valuation solves what has been learnt, and it could be the meaning of the variables that are left. -/
structure SolvedBy (layout : Layout) (valuation : Valuation) : Prop where
  admits : layout.current.Admits valuation
  solved : layout.subst.SolvedBy valuation

/-- A type that follows the declared kinds has only variables that have been issued. -/
theorem Sound.below (sound : layout.Sound issued) {type : Ty} (kinded : type.Kinded layout.declared) :
    type.Below issued := by
  intro v inType index same
  refine sound.knowledge.below index ?_
  rw [← same, (sound.within kinded).known v inType]
  exact Option.some_ne_none _

/-- A valuation that solves what has been learnt reads a type the same way after it has been applied. -/
theorem Sound.read_apply (sound : layout.Sound issued) (solvedBy : layout.SolvedBy valuation) {type : Ty}
    (kinded : type.Kinded layout.declared) : (layout.subst.apply type).read valuation = type.read valuation :=
  Substitution.read_apply sound.knowledge.respects.proper solvedBy.solved kinded.within.canonical

/-- New variables with types that their kinds admit. -/
theorem SolvedBy.widen (solvedBy : layout.SolvedBy valuation) (sound : layout.Sound issued) (sig : Signature)
    {declared : Kinding} (agrees : later.AgreesBelow issued valuation) (flat : later.Flat)
    (new : ∀ ⦃id : VarId⦄ ⦃kind : Kind⦄, layout.sig id = none → declared id = some kind →
      (∀ constraint, later.value ⟨id, constraint⟩ = later.value ⟨id, kind.constraint⟩) ∧
        kind.Admits (later.value ⟨id, kind.constraint⟩)) : (layout.widen sig declared).SolvedBy later := by
  have known : ∀ {id : VarId} {kind : Kind}, layout.current id = some kind → ∀ constraint,
      (⟨id, constraint⟩ : TypeVar).Below issued := by
    intro id kind isKind constraint index same
    refine sound.currentBelow index ?_
    rw [← show id = .generated index from same, Kinding.signature_of_some isKind]
    exact Option.some_ne_none _
  -- A variable of the wider layout is one of the old ones or a new one.
  have split : ∀ {id : VarId} {kind : Kind}, (layout.widen sig declared).current id = some kind →
      layout.current id = some kind ∨
        layout.sig id = none ∧ ∃ own, declared id = some own ∧ own.mapVars layout.subst.value = kind := by
    intro id kind isKind
    by_cases isNew : layout.sig id = none
    · rw [widen_current_of_new isNew] at isKind
      exact .inr ⟨isNew, Option.map_eq_some_iff.mp isKind⟩
    · rw [widen_current_of_old isNew] at isKind
      exact .inl isKind
  refine ⟨⟨flat, ?_, ?_⟩, SolvedBy.congr sound.knowledge.respects sound.knowledge.below agrees solvedBy.solved⟩
  · rintro ⟨id, first⟩ ⟨_, second⟩ isKnown rfl
    obtain ⟨kind, isKind⟩ := Option.ne_none_iff_exists'.mp isKnown
    rcases split isKind with old | ⟨isNew, own, isOwn, _⟩
    · rw [agrees (known old first), agrees (known old second)]
      exact solvedBy.admits.uniform (by rw [show layout.current id = _ from old]; exact Option.some_ne_none _) rfl
    · rw [(new isNew isOwn).1 first, (new isNew isOwn).1 second]
  · intro id kind isKind
    rcases split isKind with old | ⟨isNew, own, isOwn, rfl⟩
    · rw [agrees (known old kind.constraint)]
      exact solvedBy.admits.values old
    · rw [Kind.constraint_mapVars, Kind.admits_mapVars]
      exact (new isNew isOwn).2

/-- A new variable takes any type that its kind admits. -/
theorem SolvedBy.add (solvedBy : layout.SolvedBy valuation) (sound : layout.Sound issued) (kind : Kind) {type : Ty}
    (canonical : type.Canonical) (flat : type.Flat) (admitted : kind.Admits type) :
    ∃ later, valuation.Continues issued later (issued + 1) ∧
      (∀ constraint, later.value ⟨.generated issued, constraint⟩ = type) ∧
      (layout.add (.generated issued) kind).SolvedBy later := by
  let later := valuation.update (.generated issued) type canonical
  have agrees : later.AgreesBelow issued valuation := Valuation.update_agreesBelow (Nat.le_refl _)
  have laterFlat : later.Flat := solvedBy.admits.flat.update flat
  refine ⟨later, ⟨Nat.le_succ _, agrees, fun _ => laterFlat⟩, fun _ => Valuation.update_self _,
    solvedBy.widen sound _ agrees laterFlat ?_⟩
  intro id own isNew isOwn
  by_cases isIssued : id = .generated issued
  · subst isIssued
    rw [Kinding.add_self] at isOwn
    cases isOwn
    refine ⟨fun _ => ?_, ?_⟩
    · rw [Valuation.update_self, Valuation.update_self]
    · rwa [Valuation.update_self]
  · rw [Kinding.add_of_ne kind isIssued] at isOwn
    rw [sound.declaredKnown (Kinding.signature_of_some isOwn)] at isNew
    cases isNew

/-- Types that read the same can be made equal, and the valuation goes on. -/
theorem SolvedBy.learn (solvedBy : layout.SolvedBy valuation) {expected actual : Ty} {supply : Supply}
    (sound : layout.Sound supply.issued) (expectedKinded : expected.Kinded layout.declared)
    (actualKinded : actual.Kinded layout.declared) (same : expected.read valuation = actual.read valuation) :
    ∃ found after, unify (layout.subst.apply expected) (layout.subst.apply actual) supply = (.ok found, after) ∧
      ∃ wider ≥ layout, wider.subst = layout.subst.extend found ∧ wider.Sound after.issued ∧
        ∃ later, valuation.Continues supply.issued later after.issued ∧ wider.SolvedBy later := by
  have applied : (layout.subst.apply expected).read valuation = (layout.subst.apply actual).read valuation := by
    rw [sound.read_apply solvedBy expectedKinded, sound.read_apply solvedBy actualKinded, same]
  obtain ⟨found, after, success⟩ := unify_succeeds sound.currentBelow (sound.apply_kinded expectedKinded)
    (sound.apply_kinded actualKinded) solvedBy.admits applied
  obtain ⟨kinds, advance⟩ := sound.advance expectedKinded actualKinded success
  obtain ⟨le, wider, _⟩ := sound.learn expectedKinded actualKinded success advance
  obtain ⟨later, agrees, admits, solved, _⟩ := advance.factors solvedBy.admits
    (List.forall_mem_singleton.mpr applied)
  have kept := SolvedBy.congr sound.knowledge.respects sound.knowledge.below agrees solvedBy.solved
  have apart := sound.knowledge.apart (sound.within expectedKinded) (sound.within actualKinded) success
  exact ⟨found, after, success, _, le, rfl, wider, later, ⟨advance.issues, agrees, fun _ => admits.flat⟩, admits,
    ((Substitution.joined_extend _ _).solvedBy_iff apart sound.knowledge.respects.proper.canonical
      advance.respects.proper).mpr ⟨kept, solved⟩⟩

end Layout

/-! ## Uses of schemes -/

/-- Types for the variables that a use of a scheme with these binders is made with. -/
def Valuation.addUse (valuation : Valuation) (issued : Nat) (binders : List TypeVar) (value : VarId → Ty)
    (proper : ∀ binder ∈ binders, (value binder.id).Canonical ∧ (value binder.id).Flat) : Valuation where
  value v := match v.id with
    | .generated index =>
      if index < issued then valuation.value v
      else (binders[index - issued]?.map fun binder => value binder.id).getD .unit
    | .named _ => valuation.value v
  canonical v := by
    split
    · split
      · exact valuation.canonical v
      · next index _ _ =>
        cases isBinder : binders[index - issued]? with
        | none => trivial
        | some binder => exact (proper binder (List.mem_of_getElem? isBinder)).1
    · exact valuation.canonical v

section AddUse

variable {valuation : Valuation} {issued : Nat} {binders : List TypeVar} {value : VarId → Ty}
  {proper : ∀ binder ∈ binders, (value binder.id).Canonical ∧ (value binder.id).Flat}

theorem Valuation.Flat.addUse (flat : valuation.Flat) : (valuation.addUse issued binders value proper).Flat := by
  intro v
  simp only [Valuation.addUse]
  split
  · split
    · exact flat v
    · next index _ _ =>
      cases isBinder : binders[index - issued]? with
      | none => trivial
      | some binder => exact (proper binder (List.mem_of_getElem? isBinder)).2
  · exact flat v

/-- A new variable has the type chosen for its binder. -/
theorem Valuation.addUse_new {index : Nat} {binder : TypeVar} (isBinder : binders[index]? = some binder)
    (constraint : Option Constraint) :
    (valuation.addUse issued binders value proper).value ⟨.generated (issued + index), constraint⟩ =
    value binder.id := by
  have above : ¬issued + index < issued := by omega
  simp [addUse, above, isBinder]

/-- Variables issued before keep their types. -/
theorem Valuation.addUse_agrees : (valuation.addUse issued binders value proper).AgreesBelow issued valuation := by
  rintro ⟨id, constraint⟩ below
  cases id with
  | named name => rfl
  | generated index => exact if_pos (below index rfl)

end AddUse

/-- Types for variables that stand for themselves are parts of the whole, so they are well-formed if it is. -/
theorem Ty.Kinded.proper_of_mapVars {own : Kinding} (isPlain : own.Plain) {replace : TypeVar → Ty} {type : Ty}
    (kinded : type.Kinded own) (canonical : (type.mapVars replace).Canonical) (flat : (type.mapVars replace).Flat) :
    ∀ v ∈ type.occurrences, (replace v).Canonical ∧ (replace v).Flat := by
  induction type using Ty.induction with
  | atom type basic => simp [occurrences_of_isAtom basic]
  | var u =>
    intro v inType
    obtain rfl := List.mem_singleton.mp inType
    exact ⟨canonical, flat⟩
  | tuple first second ih ih' =>
    intro v inType
    exact (List.mem_append.mp inType).elim (ih kinded.1 canonical.1 flat.1 v) (ih' kinded.2 canonical.2 flat.2 v)
  | triple first second third ih ih' ih'' =>
    intro v inType
    rcases List.mem_append.mp inType with inFirst | inRest
    · exact ih kinded.1 canonical.1 flat.1 v inFirst
    · exact (List.mem_append.mp inRest).elim (ih' kinded.2.1 canonical.2.1 flat.2.1 v)
        (ih'' kinded.2.2 canonical.2.2 flat.2.2 v)
  | list element ih => exact ih kinded canonical flat
  | function source target ih ih' =>
    intro v inType
    exact (List.mem_append.mp inType).elim (ih kinded.1 canonical.1 flat.1 v) (ih' kinded.2 canonical.2 flat.2 v)
  | record fields ih =>
    intro v inType
    obtain ⟨entry, member, inEntry⟩ := Row.mem_occurrences.mp inType
    have canonicalAll := (Row.all_mapVars replace).mp (Row.canonical_iff.mp canonical).2
    have flatAll := (Row.all_mapVars replace).mp (Row.flat_iff.mp flat)
    exact ih entry member (Row.Kinded.all kinded entry member) (canonicalAll entry member)
      (flatAll entry member) v inEntry
  | extension base fields _ _ =>
    obtain ⟨⟨id, _, isTail⟩, _⟩ := kinded
    obtain ⟨constraint, impossible⟩ := isPlain isTail
    cases impossible

/-- A scheme that quantifies nothing is as good as its type. -/
theorem Scheme.Kinded.body_of_plain {kinds : Kinding} {scheme : Scheme} (kinded : scheme.Kinded kinds)
    (plain : scheme.binders = []) : scheme.body.Kinded kinds := by
  rcases kinded with ⟨_, bodyKinded⟩ | ⟨isClosed, own, bodyKinded⟩
  · exact bodyKinded
  · refine bodyKinded.of_agree fun v inBody => ?_
    have isBinder : v ∈ scheme.binders := by
      rw [isClosed]
      exact List.mem_eraseDups.mpr inBody
    rw [plain] at isBinder
    cases isBinder

namespace Layout

variable {layout : Layout} {valuation : Valuation} {supply : Supply} {scheme : Scheme} {target : Ty}

/-- A use of a scheme without tails can be given any of its instances. -/
theorem SolvedBy.useClosed (solvedBy : layout.SolvedBy valuation) (sound : layout.Sound supply.issued) {own : Kinding}
    (isPlain : own.Plain) {type : Ty} (kinded : type.Kinded own) (isInstance : (Scheme.closed type).Instance target)
    (canonical : target.Canonical) (flat : target.Flat) :
    ∃ wider ≥ layout, wider.subst = layout.subst ∧ wider.Sound ((Scheme.closed type).instantiate supply).2.issued ∧
      ((Scheme.closed type).instantiate supply).1.Kinded wider.declared ∧
      ∃ later, valuation.Continues supply.issued later ((Scheme.closed type).instantiate supply).2.issued ∧
        ((Scheme.closed type).instantiate supply).1.read later = target ∧ wider.SolvedBy later := by
  obtain ⟨value, meets, rfl⟩ := isInstance
  have inType : ∀ binder ∈ (Scheme.closed type).binders, binder ∈ type.occurrences := fun _ => List.mem_eraseDups.mp
  have proper : ∀ binder ∈ (Scheme.closed type).binders, (value binder.id).Canonical ∧ (value binder.id).Flat := by
    intro binder member
    have shown := kinded.proper_of_mapVars isPlain canonical flat binder (inType binder member)
    rwa [if_pos (Scheme.closed_binds type binder (inType binder member))] at shown
  -- The new variables get the types of the instance, and those issued before keep theirs.
  let later := valuation.addUse supply.issued (Scheme.closed type).binders value proper
  have agrees : later.AgreesBelow supply.issued valuation := Valuation.addUse_agrees
  have laterFlat : later.Flat := solvedBy.admits.flat.addUse
  obtain ⟨le, wider⟩ := sound.use kinded
  refine ⟨_, le, rfl, wider, Scheme.instantiate_kinded kinded, later, ⟨?_, agrees, fun _ => laterFlat⟩, ?_, ?_⟩
  · rw [Scheme.instantiate_issued]
    exact Nat.le_add_right ..
  · have renamed : ∀ v, (Ty.var ((Scheme.closed type).rename supply v)).Canonical := fun _ => trivial
    rw [Scheme.instantiate_type kinded.within.flat, Ty.read]
    refine (Ty.mapVars_mapVars kinded.within.canonical renamed later.canonical).trans
      (Ty.mapVars_congr fun v inBody => ?_)
    have bound := Scheme.closed_binds type v inBody
    obtain ⟨index, binder, isBinder, sameId, renamed⟩ := Scheme.rename_of_bound supply bound
    rw [if_pos bound, renamed, ← sameId]
    exact Valuation.addUse_new isBinder binder.constraint
  -- Only the variables of this use are new, and each has the kind of its binder.
  · refine solvedBy.widen sound _ agrees laterFlat fun id kind isNew isKind => ?_
    cases id with
    | named name =>
      have isOld : layout.declared (.named name) = some kind := isKind
      rw [sound.declaredKnown (Kinding.signature_of_some isOld)] at isNew
      cases isNew
    | generated index =>
      rw [Kinding.addUse] at isKind
      split at isKind
      · rw [sound.declaredKnown (Kinding.signature_of_some isKind)] at isNew
        cases isNew
      · next above =>
        obtain ⟨offset, rfl⟩ := Nat.exists_eq_add_of_le (Nat.not_lt.mp above)
        rw [Nat.add_sub_cancel_left] at isKind
        obtain ⟨binder, isBinder, isKind⟩ := Option.bind_eq_some_iff.mp isKind
        obtain ⟨old, isOld, rfl⟩ := Option.map_eq_some_iff.mp isKind
        obtain ⟨_, isOld', sameConstraint⟩ := kinded.kind_of_occurs (inType binder (List.mem_of_getElem? isBinder))
        obtain rfl := Option.some.inj (isOld.symm.trans isOld')
        obtain ⟨constraint, rfl⟩ := isPlain isOld
        have values : ∀ constraint, later.value ⟨.generated (supply.issued + offset), constraint⟩ = value binder.id :=
          fun constraint => Valuation.addUse_new isBinder constraint
        refine ⟨fun constraint => by rw [values, values], ?_⟩
        rw [values]
        have isMet := meets binder (List.mem_of_getElem? isBinder)
        rw [← sameConstraint] at isMet
        exact isMet

/-- A use of a scheme can be given any type that the scheme reaches. -/
theorem SolvedBy.use (solvedBy : layout.SolvedBy valuation) (sound : layout.Sound supply.issued)
    (kinded : scheme.Kinded layout.declared) (reaches : scheme.Reaches valuation target) :
    ∃ wider ≥ layout, wider.subst = layout.subst ∧ wider.Sound (scheme.instantiate supply).2.issued ∧
      (scheme.instantiate supply).1.Kinded wider.declared ∧
      ∃ later, valuation.Continues supply.issued later (scheme.instantiate supply).2.issued ∧
        (scheme.instantiate supply).1.read later = target ∧ wider.SolvedBy later := by
  rcases reaches with ⟨plain, same⟩ | ⟨⟨isClosed, own, isPlain, bodyKinded⟩, isInstance, canonical, flat⟩
  · rw [Scheme.instantiate_plain plain]
    exact ⟨layout, le_refl layout, rfl, sound, kinded.body_of_plain plain, valuation, .refl _ _, same, solvedBy⟩
  · rw [isClosed] at isInstance ⊢
    exact solvedBy.useClosed sound isPlain bodyKinded isInstance canonical flat

end Layout

/-! ## Runs -/

/-- What is known of a run that attains an end: it succeeds, keeps to the kinds of variables, and ends with what the
script is safe to end with and with what it attains. -/
structure Script.Attained {α : Type} {action : InferM α} (script : Script action) (layout : Layout) (state : InferState)
    (safeEnds : Layout → Scene → α → Prop) (ends : Valuation → Scene → α → Prop) (value : α) (after : InferState)
    (last : Layout) (valuation : Valuation) : Prop where
  run : action state = (.ok value, after)
  depth : after.depth = state.depth
  le : layout ≤ last
  inv : Layout.discipline.Inv last after
  solvedBy : last.SolvedBy valuation
  safe : safeEnds last after.scene value
  attains : ends valuation after.scene value

/-- A run of a safe script attains what the script does. -/
theorem Script.Attains.succeeds {α : Type} {action : InferM α} (script : Script action) {layout : Layout}
    {state : InferState} {valuation : Valuation} {safeEnds : Layout → Scene → α → Prop}
    {ends : Valuation → Scene → α → Prop} (attains : script.Attains state.depth valuation state.scene ends)
    (safe : script.Safe Layout.discipline layout state.scene safeEnds) (inv : Layout.discipline.Inv layout state)
    (solvedBy : layout.SolvedBy valuation) :
    ∃ value after last later, script.Attained layout state safeEnds ends value after last later := by
  -- The valuation grows with the script: a step that issues variables chooses types for them, and an equation that
  -- holds under the valuation is solved without contradicting it.
  induction script generalizing layout state valuation with
  | done value =>
    exact ⟨value, state, layout, valuation, rfl, rfl, le_refl layout, inv, solvedBy, safe, attains⟩
  | fail fault span => exact attains.elim
  | fresh constraint =>
    obtain ⟨type, canonical, flat, meets, attains⟩ := attains
    obtain ⟨learnt, sound⟩ := inv.holds
    obtain ⟨le, wider⟩ := sound.add (.plain constraint)
    obtain ⟨later, continues, isType, solvedBy'⟩ := solvedBy.add sound (.plain constraint) canonical flat meets
    exact ⟨_, _, _, later, rfl, rfl, le, inv.step le ⟨learnt, wider⟩ rfl, solvedBy', safe _ le (Kinding.add_self ..),
      attains later continues (isType constraint)⟩
  | rowBase fields =>
    obtain ⟨type, canonical, flat, admitted, attains⟩ := attains
    obtain ⟨fieldsCanonical, _, safe⟩ := safe
    obtain ⟨learnt, sound⟩ := inv.holds
    obtain ⟨le, wider⟩ := sound.add (.tail (fields state.supply.issued))
    obtain ⟨later, continues, isType, solvedBy'⟩ := solvedBy.add sound (.tail _) canonical flat admitted
    refine ⟨_, _, _, later, rfl, rfl, le, inv.step le ⟨learnt, wider⟩ rfl, solvedBy', safe _ le ?_,
      attains later continues (isType none)⟩
    intro latest later types
    exact ⟨⟨_, rfl, later.2 (Kinding.add_self ..)⟩, Row.kinded_iff.mpr ⟨fieldsCanonical.sorted, types⟩⟩
  | instantiate op =>
    obtain ⟨target, reaches, attains⟩ := attains
    obtain ⟨learnt, sound⟩ := inv.holds
    obtain ⟨wider, le, sameSubst, widerSound, kinded, later, continues, isTarget, solvedBy'⟩ :=
      solvedBy.use sound ((Prelude.operatorScheme_tailless op).kinded _) reaches
    have holds : Layout.discipline.Holds wider state.subst _ := ⟨learnt.trans sameSubst.symm, widerSound⟩
    exact ⟨_, _, wider, later, rfl, rfl, le, inv.step le holds rfl, solvedBy', safe wider le _ _ kinded,
      attains later _ _ continues (widerSound.below kinded) isTarget⟩
  | lookup name span =>
    obtain ⟨scheme, target, found, reaches, attains⟩ := attains
    obtain ⟨learnt, sound⟩ := inv.holds
    have run := InferM.lookup_run_of_some span found
    obtain ⟨wider, le, sameSubst, widerSound, kinded, later, continues, isTarget, solvedBy'⟩ :=
      solvedBy.use sound (inv.env.get? found) reaches
    have holds : Layout.discipline.Holds wider state.subst _ := ⟨learnt.trans sameSubst.symm, widerSound⟩
    exact ⟨_, _, wider, later, run, rfl, le, inv.step le holds rfl, solvedBy', safe wider le _ _ kinded,
      attains later _ _ continues (widerSound.below kinded) isTarget⟩
  | equate expected actual span =>
    obtain ⟨same, attains⟩ := attains
    obtain ⟨expectedKinded, actualKinded, safe⟩ := safe
    obtain ⟨learnt, sound⟩ := inv.holds
    obtain ⟨found, supply, success, wider, le, isExtended, widerSound, later, continues, solvedBy'⟩ :=
      solvedBy.learn sound expectedKinded actualKinded same
    rw [← learnt] at success isExtended
    obtain ⟨events, run⟩ := InferM.equate_run_of_ok span success
    exact ⟨_, _, wider, later, run, rfl, le, inv.step le ⟨isExtended.symm, widerSound⟩ rfl, solvedBy', safe wider le _,
      attains later _ continues⟩
  | declare name scheme =>
    obtain ⟨fine, safe⟩ := safe
    exact ⟨_, _, layout, valuation, rfl, rfl, le_refl layout, ⟨inv.holds, inv.env.add name fine⟩, solvedBy,
      safe, attains⟩
  | bindName name type span =>
    obtain ⟨new, attains⟩ := attains
    have unknown : ¬(state.bound.any fun entry => entry.1 == name) = true := by
      intro known
      obtain ⟨entry, member, same⟩ := List.any_eq_true.mp known
      exact new entry member (beq_iff_eq.mp same)
    have run := InferM.bindName_run name type span state
    rw [if_neg unknown] at run
    exact ⟨_, _, layout, valuation, run, rfl, le_refl layout, ⟨inv.holds, inv.env⟩, solvedBy, safe, attains⟩
  | forget => exact attains.elim
  | takeSubst => exact attains.elim
  | report event =>
    exact ⟨_, _, layout, valuation, rfl, rfl, le_refl layout, ⟨inv.holds, inv.env⟩, solvedBy, safe, attains⟩
  | getState =>
    exact ⟨state, state, layout, valuation, rfl, rfl, le_refl layout, inv, solvedBy, safe state rfl, attains state rfl⟩
  | @andThen _ _ action next first rest ih ih' =>
    obtain ⟨value, mid, later, valuation', begun⟩ := ih attains safe inv solvedBy
    have attains' := begun.attains
    rw [← begun.depth] at attains'
    obtain ⟨result, after, last, valuation'', done⟩ := ih' value attains' begun.safe begun.inv begun.solvedBy
    refine ⟨result, after, last, valuation'', ?_, done.depth.trans begun.depth, le_trans begun.le done.le, done.inv,
      done.solvedBy, done.safe, done.attains⟩
    rw [bind_run, begun.run]
    exact done.run
  | @choose _ yes no condition _ ifYes ifNo ih ih' =>
    by_cases holds : condition
    · obtain ⟨value, after, last, later, done⟩ := ih (attains.1 holds) (safe.1 holds) inv solvedBy
      exact ⟨value, after, last, later, { done with run := by rw [if_pos holds, done.run] }⟩
    · obtain ⟨value, after, last, later, done⟩ := ih' (attains.2 holds) (safe.2 holds) inv solvedBy
      exact ⟨value, after, last, later, { done with run := by rw [if_neg holds, done.run] }⟩
  | @group _ action inner ih =>
    have start : Layout.discipline.Inv layout { state with bound := [] } := ⟨inv.holds, inv.env⟩
    obtain ⟨value, after, last, later, done⟩ := ih (by exact attains) (by exact safe) start solvedBy
    have run := InferM.group_run action state
    rw [done.run] at run
    exact ⟨_, after, last, later, run, done.depth, done.le, done.inv, done.solvedBy, done.safe, done.attains⟩
  | @inScope _ action inner ih =>
    have start : Layout.discipline.Inv layout { state with env := state.env.enter } := ⟨inv.holds, inv.env.enter⟩
    obtain ⟨value, after, last, later, done⟩ := ih (by exact attains) (by exact safe) start solvedBy
    have run : InferM.inScope action state = (.ok value, { after with env := after.env.exit }) := by
      change ((action { state with env := state.env.enter }).1, _) = _
      rw [done.run]
    exact ⟨value, _, last, later, run, done.depth, done.le, ⟨done.inv.holds, done.inv.env.exit⟩,
      done.solvedBy, done.safe, done.attains⟩
  | @node _ action typeOf limit span inner ih =>
    obtain ⟨shallow, attains⟩ := attains
    have start : Layout.discipline.Inv layout { state with depth := state.depth + 1 } := ⟨inv.holds, inv.env⟩
    obtain ⟨value, after, last, later, done⟩ := ih (by exact attains) (by exact safe) start solvedBy
    have run := InferM.nested_run limit span action state
    rw [if_neg (Nat.not_le.mpr shallow), done.run] at run
    have depth : after.depth - 1 = state.depth := by rw [done.depth]; rfl
    obtain ⟨kinded, safe⟩ := done.safe
    exact ⟨value, _, last, later, run, depth, done.le, ⟨done.inv.holds, done.inv.env⟩, done.solvedBy, safe,
      done.attains (done.inv.holds.2.below kinded)⟩

end RowInference
