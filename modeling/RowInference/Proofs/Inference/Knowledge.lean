import RowInference.Proofs.Inference.Walk
import RowInference.Proofs.Unification.Soundness

/-! # What inference knows

The first discipline: every variable in play is used under one constraint, what has been learnt gives each of them a
type for its constraint, no chain of bindings is a cycle, and every generated variable in play has been issued. What
is learnt later never contradicts what was learnt before.
-/

namespace RowInference

namespace Signature

variable {sig : Signature} {issued : Nat}

/-- Add the variables that a use of a scheme with these binders is made with. -/
def addAll (sig : Signature) (issued : Nat) (binders : List TypeVar) : Signature
  | .generated index =>
    if index < issued then sig (.generated index) else binders[index - issued]?.map TypeVar.constraint
  | .named name => sig (.named name)

/-- A use of a scheme adds variables and changes nothing about those in play. -/
theorem sub_addAll (below : sig.Issued issued) (binders : List TypeVar) : sig.Sub (sig.addAll issued binders) := by
  intro id constraint known
  cases id with
  | generated index =>
    have old := below index (by rw [known]; exact Option.some_ne_none _)
    rw [addAll, if_pos old, known]
  | named name => exact known

theorem issued_addAll (sig : Signature) (issued : Nat) (binders : List TypeVar) :
    (sig.addAll issued binders).Issued (issued + binders.length) := by
  intro index known
  rw [Signature.addAll] at known
  split at known
  · omega
  · obtain ⟨binder, found⟩ := Option.ne_none_iff_exists'.mp known
    obtain ⟨binder, isBinder, _⟩ := Option.map_eq_some_iff.mp found
    have := (List.getElem?_eq_some_iff.mp isBinder).1
    omega

/-- The variable for a binder has the constraint of the binder. -/
theorem addAll_new {binders : List TypeVar} {index : Nat} {binder : TypeVar}
    (isBinder : binders[index]? = some binder) :
    sig.addAll issued binders (.generated (issued + index)) = some binder.constraint := by
  rw [addAll, if_neg (by omega), Nat.add_sub_cancel_left, isBinder, Option.map_some]

/-- The next variable is not in play yet. -/
theorem Issued.fresh (below : sig.Issued issued) : sig (.generated issued) = none := by
  by_contra known
  exact Nat.lt_irrefl _ (below issued known)

theorem Issued.add (below : sig.Issued issued) (constraint : Option Constraint) :
    (sig.add ⟨.generated issued, constraint⟩).Issued (issued + 1) := by
  intro index known
  rw [Signature.add] at known
  split at known
  · next same =>
    cases same
    omega
  · have := below index known
    omega

end Signature

/-- A scheme whose free variables are known. Generated variables that are bound were in play once, too. -/
structure Scheme.Within (sig : Signature) (scheme : Scheme) : Prop where
  canonical : scheme.body.Canonical
  flat : scheme.body.Flat
  coherent : scheme.Coherent
  free : ∀ v ∈ scheme.body.occurrences, scheme.binds v.id = false → sig v.id = some v.constraint
  issued : ∀ v ∈ scheme.binders ++ scheme.body.occurrences, ∀ index, v.id = .generated index → sig v.id ≠ none

namespace Scheme.Within

variable {sig wider : Signature} {scheme : Scheme}

theorem mono_sub (within : scheme.Within sig) (sub : sig.Sub wider) : scheme.Within wider where
  canonical := within.canonical
  flat := within.flat
  coherent := within.coherent
  free v inBody isFree := sub (within.free v inBody isFree)
  issued v member index isGenerated := by
    obtain ⟨constraint, known⟩ := Option.ne_none_iff_exists'.mp (within.issued v member index isGenerated)
    rw [sub known]
    exact Option.some_ne_none _

theorem of_type {type : Ty} (within : type.Within sig) : (Scheme.mono type).Within sig where
  canonical := within.canonical
  flat := within.flat
  coherent := by simp [Coherent, mono]
  free v inBody _ := within.known v inBody
  issued v member index _ := by
    rw [within.known v (by simpa [mono] using member)]
    exact Option.some_ne_none _

/-- A use of a scheme has known variables. -/
theorem instantiate {supply : Supply} (within : scheme.Within sig) (below : sig.Issued supply.issued) :
    (scheme.instantiate supply).1.Within (sig.addAll supply.issued scheme.binders) := by
  rw [instantiate_type within.flat]
  refine ⟨Ty.mapVars_canonical within.canonical fun _ => trivial, Ty.mapVars_flat _ fun _ => trivial, ?_⟩
  intro u member
  obtain ⟨v, inBody, isRenamed⟩ := Ty.mem_occurrences_mapVars member
  obtain rfl := List.mem_singleton.mp isRenamed
  cases bound : scheme.binds v.id with
  | false =>
    rw [rename_of_free bound]
    exact Signature.sub_addAll below _ (within.free v inBody bound)
  | true =>
    obtain ⟨index, binder, isBinder, _, renamed⟩ := rename_of_bound supply bound
    rw [renamed, Signature.addAll_new isBinder]

end Scheme.Within

/-- A scheme that quantifies all variables of a type with written variables only. -/
theorem Scheme.closed_within {type : Ty} (sig : Signature) (canonical : type.Canonical) (flat : type.Flat)
    (coherent : (Scheme.closed type).Coherent)
    (written : ∀ v ∈ type.occurrences, ∃ name, v.id = .named name) : (Scheme.closed type).Within sig where
  canonical := canonical
  flat := flat
  coherent := coherent
  free v inBody isFree := by
    have bound : (Scheme.closed type).binds v.id = true :=
      binds_iff.mpr ⟨v, List.mem_eraseDups.mpr inBody, rfl⟩
    rw [bound] at isFree
    cases isFree
  issued v member index isGenerated := by
    have inBody : v ∈ type.occurrences := by
      rcases List.mem_append.mp member with bound | inBody
      · exact List.mem_eraseDups.mp bound
      · exact inBody
    obtain ⟨name, isNamed⟩ := written v inBody
    rw [isGenerated] at isNamed
    cases isNamed

theorem Prelude.operatorScheme_within (sig : Signature) (op : Operator) : (operatorScheme op).Within sig := by
  cases op
  all_goals
    refine Scheme.closed_within sig ?canonical ?flat ?coherent ?written
    case canonical => simp [Ty.curried, number, appendable, anyType, Ty.Canonical]
    case flat => simp [Ty.curried, number, appendable, anyType, Ty.Flat]
    case coherent => unfold Scheme.Coherent; decide
    case written => simp [Ty.curried, number, appendable, anyType, TypeVar.named, Ty.occurrences]

/-! ## The discipline -/

/-- The variables in play and what has been learnt about them. -/
structure Knowledge where
  sig : Signature
  subst : Substitution

namespace Knowledge

variable {known later : Knowledge} {issued : Nat}

/-- More variables, and what was learnt still holds. -/
instance : Preorder Knowledge where
  le known later := known.sig.Sub later.sig ∧
    ∀ valuation, later.subst.SolvedBy valuation → known.subst.SolvedBy valuation
  le_refl known := ⟨.refl _, fun _ solved => solved⟩
  le_trans _ _ _ first second := ⟨first.1.trans second.1, fun valuation solved => first.2 _ (second.2 _ solved)⟩

theorem sub_of_le (le : known ≤ later) : known.sig.Sub later.sig := le.1

/-- What has been learnt makes sense. -/
structure Sound (known : Knowledge) (issued : Nat) : Prop where
  respects : known.subst.Respects known.sig
  acyclic : known.subst.Acyclic
  below : known.sig.Issued issued

/-- The valuation solves what has been learnt and keeps to the constraints. -/
structure Models (known : Knowledge) (valuation : Valuation) : Prop where
  solved : known.subst.SolvedBy valuation
  meets : ∀ v : TypeVar, known.sig v.id = some v.constraint → (valuation.value v).Meets v.constraint

/-- A valuation that agrees with what is known later agrees with what is known now. -/
theorem Models.anti {valuation : Valuation} (le : known ≤ later) (models : later.Models valuation) :
    known.Models valuation := ⟨le.2 _ models.solved, fun v inPlay => models.meets v (le.1 inPlay)⟩

/-- What variables resolve to is a model. -/
theorem Sound.models (sound : known.Sound issued) : known.Models (known.subst.valuation sound.respects.proper) where
  solved := Substitution.solvedBy_valuation sound.respects.proper sound.acyclic
  meets _ inPlay := (sound.respects.value inPlay).2

/-- More variables in play. -/
theorem Sound.widen (sound : known.Sound issued) {sig : Signature} {issued' : Nat} (sub : known.sig.Sub sig)
    (below : sig.Issued issued') : known ≤ ⟨sig, known.subst⟩ ∧ Sound ⟨sig, known.subst⟩ issued' :=
  ⟨⟨sub, fun _ solved => solved⟩, sound.respects.mono sub, sound.acyclic, below⟩

section Equation

variable {found : Substitution} {supply after : Supply} {expected actual : Ty}
  (sound : known.Sound supply.issued) (expectedWithin : expected.Within known.sig)
  (actualWithin : actual.Within known.sig)
  (success : unify (known.subst.apply expected) (known.subst.apply actual) supply = (.ok found, after))

include sound expectedWithin actualWithin success

/-- What unification finds speaks of unbound variables only. -/
theorem Sound.unifier : Unifier (known.subst.unboundIn known.sig) supply.issued (known.subst.apply expected)
    (known.subst.apply actual) found after.issued :=
  (unified_of_run.1 _ _ _ supply.issued found after success).unifier (sound.below.restrict _)
    (sound.respects.apply_within_unbound sound.acyclic expectedWithin)
    (sound.respects.apply_within_unbound sound.acyclic actualWithin)

/-- What unification finds overlaps in nothing with what was known. -/
theorem Sound.apart : known.subst.Apart found :=
  sound.respects.apart sound.below (sound.unifier expectedWithin actualWithin success).respects

/-- What has been learnt makes sense together with what an equation adds to it. -/
theorem Sound.learn :
    let later : Knowledge := ⟨known.sig.grow supply.issued after.issued, known.subst.extend found⟩
    known ≤ later ∧ later.Sound after.issued ∧
      ∀ valuation, later.Models valuation → expected.read valuation = actual.read valuation := by
  intro later
  have unifier := sound.unifier expectedWithin actualWithin success
  have apart := sound.apart expectedWithin actualWithin success
  have sub : known.sig.Sub later.sig := Signature.sub_grow sound.below after.issued
  have foundRespects : found.Respects later.sig :=
    unifier.respects.mono ((Signature.restrict_sub known.sig _).grow _ _)
  have both : ∀ valuation, later.subst.SolvedBy valuation →
      known.subst.SolvedBy valuation ∧ found.SolvedBy valuation :=
    fun valuation solved => ((Substitution.joined_extend _ _).solvedBy_iff apart sound.respects.proper.canonical
      unifier.respects.proper).mp solved
  refine ⟨⟨sub, fun valuation solved => (both valuation solved).1⟩, ⟨(sound.respects.mono sub).extend foundRespects,
    sound.acyclic.join (Substitution.joined_extend _ _) apart unifier.settled.acyclic, sound.below.grow unifier.issues⟩,
    fun valuation models => ?_⟩
  obtain ⟨solved, foundSolved⟩ := both valuation models.solved
  have proper := sound.respects.proper
  calc expected.read valuation
      = (known.subst.apply expected).read valuation :=
        (Substitution.read_apply proper solved expectedWithin.canonical).symm
    _ = (known.subst.apply actual).read valuation := unifier.unifies foundSolved
    _ = actual.read valuation := Substitution.read_apply proper solved actualWithin.canonical

end Equation

/-- What is known grows coherently. -/
def discipline : Discipline where
  World := Knowledge
  Holds known subst issued := subst = known.subst ∧ known.Sound issued
  Fine known type := type.Within known.sig
  FineScheme known scheme := scheme.Within known.sig
  Models := Models
  proper within := ⟨within.canonical, within.flat⟩
  fine_mono le within := within.mono (sub_of_le le)
  fineScheme_mono le within := within.mono_sub (sub_of_le le)
  models_anti := Models.anti
  fine_atom _ _ basic := Ty.within_of_isAtom basic
  fine_tuple first second := Ty.within_tuple.mpr ⟨first, second⟩
  fine_triple first second third := Ty.within_triple.mpr ⟨first, second, third⟩
  fine_list element := Ty.within_list.mpr element
  fine_function source target := Ty.within_function.mpr ⟨source, target⟩
  fine_record sorted types := Ty.within_record.mpr ⟨sorted, types⟩
  fine_mono_scheme := Scheme.Within.of_type
  fine_operator known op := Prelude.operatorScheme_within known.sig op
  issue := by
    rintro known _ issued constraint ⟨rfl, sound⟩
    obtain ⟨le, wider⟩ := sound.widen (.add sound.below.fresh) (sound.below.add constraint)
    exact ⟨_, le, ⟨rfl, wider⟩, Ty.within_var.mpr (Signature.add_self ..),
      fun valuation models => models.meets _ (Signature.add_self ..)⟩
  issueBase := by
    rintro known _ issued fields ⟨rfl, sound⟩ canonical flat
    obtain ⟨le, wider⟩ := sound.widen (.add sound.below.fresh) (sound.below.add none)
    refine ⟨_, le, ⟨rfl, wider⟩, fun latest later types => ?_⟩
    have base : (Ty.var (.generated issued)).Within latest.sig := Ty.within_var.mpr (later.1 (Signature.add_self ..))
    exact Ty.within_extension.mpr ⟨rfl, base, canonical.sorted, types⟩
  use := by
    rintro known _ supply scheme ⟨rfl, sound⟩ within
    rw [Scheme.instantiate_issued]
    obtain ⟨le, wider⟩ := sound.widen (Signature.sub_addAll sound.below scheme.binders)
      (Signature.issued_addAll known.sig supply.issued scheme.binders)
    refine ⟨_, le, ⟨rfl, wider⟩, within.instantiate sound.below, fun valuation models => ?_⟩
    refine Scheme.yields_instantiate within.coherent within.canonical within.flat fun index binder isBinder => ?_
    have new : known.sig.addAll supply.issued scheme.binders (.generated (supply.issued + index))
        = some binder.constraint := Signature.addAll_new isBinder
    exact models.meets ⟨_, binder.constraint⟩ new
  learn := by
    rintro known _ found supply after expected actual ⟨rfl, sound⟩ expectedWithin actualWithin success
    obtain ⟨le, wider, same⟩ := sound.learn expectedWithin actualWithin success
    exact ⟨_, le, ⟨rfl, wider⟩, same⟩
  refuse := by
    rintro known _ supply after expected actual error ⟨rfl, sound⟩ failure
    have le := issued_le_unify (known.subst.apply expected) (known.subst.apply actual) supply
    rw [failure] at le
    exact ⟨known, le_refl known, rfl, sound.respects, sound.acyclic, sound.below.mono le⟩

end Knowledge

end RowInference
