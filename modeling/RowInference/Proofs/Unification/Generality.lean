import RowInference.Proofs.Types.Stacking
import RowInference.Proofs.Unification.Termination

/-! # Most general unifiers

Whatever makes two types equal, without losing a field on the way, factors through what unification finds for them. Such
a choice of types is followed through a run: it solves every equation that comes up, so that no equation is refused, and
where a shared tail is issued it says what the new variable has to be.
-/

namespace RowInference

open Substitution (singleton)
open UnifyM

/-! ## Equations that a valuation solves -/

/-- The value depends on the identity of a variable alone. -/
def Valuation.Uniform (valuation : Valuation) : Prop :=
  ∀ ⦃v u : TypeVar⦄, v.id = u.id → valuation.value v = valuation.value u

/-- Each variable in play has a value for its constraint. -/
structure Signature.Admits (sig : Signature) (valuation : Valuation) : Prop where
  uniform : valuation.Uniform
  meets : ∀ ⦃v : TypeVar⦄, sig v.id = some v.constraint → (valuation.value v).Meets v.constraint

/-- The valuation makes the sides of the equation equal and supports the open records on both. -/
structure Equation.Posed (sig : Signature) (valuation : Valuation) (equation : Equation) : Prop where
  within : equation.Within sig
  expected : equation.expected.Stacked valuation
  actual : equation.actual.Stacked valuation
  solved : equation.SolvedBy valuation

/-- The valuation solves the substitution and supports the open records in it. -/
structure Substitution.Fits (sig : Signature) (valuation : Valuation) (subst : Substitution) : Prop where
  respects : subst.Respects sig
  settled : subst.Settled
  solved : subst.SolvedBy valuation
  stacked : ∀ ⦃id : VarId⦄ ⦃type : Ty⦄, subst[id]? = some type → type.Stacked valuation

theorem Valuation.Uniform.update {valuation : Valuation} (uniform : valuation.Uniform) (id : VarId) (type : Ty)
    (canonical : type.Canonical) : (valuation.update id type canonical).Uniform := by
  intro v u same
  simp only [Valuation.update, same]
  split
  · rfl
  · exact uniform same

section Continued

variable {sig wider : Signature} {issued issued' : Nat} {valuation later : Valuation}

/-- A continuation admits the variables issued in the meantime. -/
theorem Signature.Admits.continued (admits : sig.Admits valuation) (below : sig.Issued issued)
    (agrees : later.AgreesBelow issued valuation) (uniform : later.Uniform) (issued' : Nat) :
    (sig.grow issued issued').Admits later := by
  refine ⟨uniform, ?_⟩
  have old : ∀ {v : TypeVar}, sig v.id = some v.constraint → (later.value v).Meets v.constraint := by
    intro v known
    rw [agrees fun index same => below index (by rw [← same, known]; exact Option.some_ne_none _)]
    exact admits.meets known
  rintro ⟨id, constraint⟩ known
  cases id with
  | named name => exact old known
  | generated index =>
    rw [grow] at known
    split at known
    · cases known
      exact Ty.meets_none _
    · exact old known

theorem Signature.Admits.anti (admits : wider.Admits valuation) (sub : sig.Sub wider) : sig.Admits valuation :=
  ⟨admits.uniform, fun _ known => admits.meets (sub known)⟩

theorem Equation.Posed.continued {equation : Equation} (posed : equation.Posed sig valuation) (sub : sig.Sub wider)
    (below : sig.Issued issued) (agrees : later.AgreesBelow issued valuation) : equation.Posed wider later where
  within := posed.within.imp (·.mono sub) (·.mono sub)
  expected := posed.expected.congr posed.within.1 below agrees
  actual := posed.actual.congr posed.within.2 below agrees
  solved := posed.within.solvedBy_congr below agrees posed.solved

namespace Substitution

variable {solved found : Substitution}

theorem fits_empty : Fits sig valuation {} where
  respects := respects_empty
  settled := settled_empty
  solved := by intro v type bound; simp at bound
  stacked := by intro id type bound; simp at bound

theorem Fits.continued (fits : solved.Fits sig valuation) (sub : sig.Sub wider) (below : sig.Issued issued)
    (agrees : later.AgreesBelow issued valuation) : solved.Fits wider later where
  respects := fits.respects.mono sub
  settled := fits.settled
  solved := SolvedBy.congr fits.respects below agrees fits.solved
  stacked _ _ bound := (fits.stacked bound).congr (fits.respects.type bound) below agrees

theorem Fits.value_stacked (fits : solved.Fits sig valuation) (v : TypeVar) : (solved.value v).Stacked valuation := by
  rw [fits.settled.value fits.respects.proper]
  cases bound : solved[v.id]? with
  | none => exact Ty.stacked_var v
  | some type => exact fits.stacked bound

/-- Applying a substitution that fits keeps a type stacked. -/
theorem Fits.apply_stacked (fits : solved.Fits sig valuation) {type : Ty} (flat : type.Flat)
    (stacked : type.Stacked valuation) : (solved.apply type).Stacked valuation := by
  rw [apply_eq_mapVars flat]
  exact stacked.mapVars (read_value fits.respects.proper fits.solved) fits.value_stacked

/-- An equation under the substitution found so far is about the variables that are left. -/
theorem Fits.apply_posed (fits : solved.Fits sig valuation) {equation : Equation}
    (posed : equation.Posed sig valuation) :
    Equation.Posed (solved.unboundIn sig) valuation ⟨solved.apply equation.expected, solved.apply equation.actual⟩ := by
  obtain ⟨⟨expectedWithin, actualWithin⟩, expectedStacked, actualStacked, same⟩ := posed
  have within := fun {type : Ty} (typeWithin : type.Within sig) =>
    fits.respects.apply_within_unbound fits.settled.acyclic typeWithin
  have reads := fun {type : Ty} (canonical : type.Canonical) => read_apply fits.respects.proper fits.solved canonical
  refine ⟨⟨within expectedWithin, within actualWithin⟩, fits.apply_stacked expectedWithin.flat expectedStacked,
    fits.apply_stacked actualWithin.flat actualStacked, ?_⟩
  rw [Equation.SolvedBy, reads expectedWithin.canonical, reads actualWithin.canonical]
  exact same

/-- Substitutions that fit one after the other compose to one that fits. -/
theorem Fits.compose (fits : solved.Fits sig valuation) (below : sig.Issued issued)
    (agrees : later.AgreesBelow issued valuation)
    (next : found.Fits ((solved.unboundIn sig).grow issued issued') later) :
    (found.compose solved).Fits (sig.grow issued issued') later := by
  have kept := fits.continued (Signature.sub_grow below issued') below agrees
  have apart : solved.Apart found := fits.respects.apart below next.respects
  have respects := next.respects.mono ((Signature.restrict_sub _ _).grow _ _)
  refine ⟨kept.respects.compose respects, kept.settled.compose apart next.settled,
    ((joined_compose _ _).solvedBy_iff apart kept.respects.proper.canonical respects.proper).mpr
      ⟨kept.solved, next.solved⟩, ?_⟩
  intro id type bound
  rw [getElem?_compose] at bound
  rcases Option.or_eq_some_iff.mp bound with old | ⟨_, new⟩
  · obtain ⟨previous, inSolved, rfl⟩ := Option.map_eq_some_iff.mp old
    exact next.apply_stacked (kept.respects.proper inSolved).2 (kept.stacked inSolved)
  · exact next.stacked new

end Substitution

/-- A binding that the valuation agrees with fits. -/
theorem singleton_fits {v : TypeVar} {type : Ty} (uniform : valuation.Uniform) (known : sig v.id = some v.constraint)
    (within : type.Within sig) (absent : type.occurs v.id = false) (meets : type.Meets v.constraint)
    (stacked : type.Stacked valuation) (same : valuation.value v = type.read valuation) :
    (singleton v type).Fits sig valuation := by
  refine ⟨singleton_respects known within meets, singleton_settled absent, ?_, ?_⟩
  · intro u other bound
    rw [Substitution.getElem?_singleton] at bound
    split at bound
    · next sameId =>
      cases bound
      exact (uniform sameId.symm).trans same
    · cases bound
  · intro id other bound
    rw [Substitution.getElem?_singleton] at bound
    split at bound
    · cases bound
      exact stacked
    · cases bound

/-- A binding for two equal types fits. -/
theorem Bound.fits {expected actual : Ty} {found : Substitution} (bound : Bound expected actual found)
    (uniform : valuation.Uniform) (posed : Equation.Posed sig valuation ⟨expected, actual⟩) :
    found.Fits sig valuation := by
  obtain ⟨⟨expectedWithin, actualWithin⟩, expectedStacked, actualStacked, same⟩ := posed
  cases bound with
  | same _ => exact Substitution.fits_empty
  | left absent meets =>
    exact singleton_fits uniform (Ty.within_var.mp expectedWithin) actualWithin absent meets actualStacked same
  | right _ absent meets =>
    exact singleton_fits uniform (Ty.within_var.mp actualWithin) expectedWithin absent meets expectedStacked same.symm

end Continued

/-! ## Parts of posed equations -/

section Parts

variable {sig : Signature} {issued : Nat} {valuation : Valuation} {expected actual : Ty}

/-- A variable does not occur in a type that reads as its value, unless the type is the variable. -/
theorem Ty.Stacked.absent {v : TypeVar} {type : Ty} (stacked : type.Stacked valuation) (uniform : valuation.Uniform)
    (canonical : type.Canonical) (notVar : ∀ u, type ≠ .var u) (same : valuation.value v = type.read valuation) :
    type.occurs v.id = false := by
  refine absent_iff.mpr fun u inType sameId => ?_
  rcases stacked.size_value_lt canonical inType with isVar | less
  · exact notVar u isVar
  · rw [uniform sameId, same] at less
    exact Nat.lt_irrefl _ less

theorem Ty.Stacked.row {type : Ty} (stacked : type.Stacked valuation) : type.row.Stacked valuation := by
  cases type
  case record fields => exact stacked
  case extension base fields => exact (List.forall_mem_append.mp (List.forall_mem_cons.mp stacked).2).2
  all_goals intro part member; cases member

theorem Ty.Stacked.openRow {v : TypeVar} {fields : Row} (stacked : fields.Stacked valuation)
    (isTail : (valuation.value v).TailFor fields) : ((Ty.var v).openRow fields).Stacked valuation := by
  rw [Ty.openRow]
  split
  · exact Ty.stacked_var v
  · next nonempty =>
    exact List.forall_mem_cons.mpr ⟨⟨v, rfl, fun none => nonempty (Row.isEmpty_iff.mpr none), isTail⟩, stacked⟩

namespace Equation.Posed

/-- The equations between parts are posed. -/
theorem components {equations : List Equation} (posed : Posed sig valuation ⟨expected, actual⟩)
    (split : expected.components actual = some equations) : ∀ equation ∈ equations, equation.Posed sig valuation := by
  have within := components_within split posed.within.1 posed.within.2
  have solved := (components_read split).mp posed.solved
  have stacked : ∀ equation ∈ equations, equation.expected.Stacked valuation ∧ equation.actual.Stacked valuation := by
    obtain ⟨_, expectedStacked, actualStacked, _⟩ := posed
    cases expected <;> cases actual <;> simp only [Ty.components, Option.some.injEq, reduceCtorEq] at split
    all_goals
      subst split
      simp_all [Ty.Stacked, Ty.extensions, or_imp, forall_and]
  exact fun equation member => ⟨within equation member, (stacked equation member).1, (stacked equation member).2,
    solved equation member⟩

/-- So are the equations between the common fields of records. -/
theorem fields (posed : Posed sig valuation ⟨expected, actual⟩) (expectedRecord : expected.isRecord = true)
    (actualRecord : actual.isRecord = true) :
    ∀ equation ∈ fieldEquations expected actual, equation.Posed sig valuation := by
  obtain ⟨⟨expectedWithin, actualWithin⟩, expectedStacked, actualStacked, same⟩ := posed
  have within := fieldEquations_within (rowParts_within expectedRecord expectedWithin).1
    (rowParts_within actualRecord actualWithin).1
  have solved := fieldEquations_solved expectedRecord actualRecord expectedWithin actualWithin same
  intro equation member
  have isWithin := within equation member
  have isSolved := solved equation member
  obtain ⟨pair, inCommon, rfl⟩ := List.mem_map.mp member
  obtain ⟨key, inLeft, inRight⟩ := Row.mem_common inCommon
  rw [expectedWithin.rowParts_fst expectedRecord] at inLeft
  rw [actualWithin.rowParts_fst actualRecord] at inRight
  exact ⟨isWithin, Row.stacked_iff.mp expectedStacked.row _ inLeft,
    Row.stacked_iff.mp actualStacked.row _ (Row.mem_toList_of_get? inRight), isSolved⟩

/-- Records with the same tail have the same fields. -/
theorem sameTail {tail : Ty} {left right : Row}
    (posed : Posed sig valuation ⟨.extension tail left, .extension tail right⟩) :
    left.without right = .empty ∧ right.without left = .empty := by
  obtain ⟨⟨leftWithin, rightWithin⟩, leftStacked, rightStacked, same⟩ := posed
  obtain ⟨⟨v, rfl, _, ofLeft⟩, _⟩ := List.forall_mem_cons.mp leftStacked
  obtain ⟨⟨_, sameVar, _, ofRight⟩, _⟩ := List.forall_mem_cons.mp rightStacked
  cases sameVar
  have names : ∀ key, (left.contains key || (valuation.value v).row.contains key)
      = (right.contains key || (valuation.value v).row.contains key) := by
    intro key
    have look := congrArg (fun type : Ty => type.row.contains key) same
    simpa only [Ty.read, Ty.mapVars, Ty.contains_row_flatten, Row.contains_mapVars] using look
  constructor
  · refine Row.without_eq_empty leftWithin.canonical.2.sorted fun key present => ?_
    have name := names key
    rwa [ofLeft.disjoint key present, present, Bool.or_false, Bool.or_false, eq_comm] at name
  · refine Row.without_eq_empty rightWithin.canonical.2.sorted fun key present => ?_
    have name := names key
    rwa [ofRight.disjoint key present, present, Bool.or_false, Bool.or_false] at name

/-- The shared tail of two open records takes what is left of either tail. -/
theorem sharedTails {leftTail rightTail : TypeVar} {left right : Row} {grown : Signature}
    (posed : Posed sig valuation ⟨.extension (.var leftTail) left, .extension (.var rightTail) right⟩)
    (below : sig.Issued issued) (uniform : valuation.Uniform)
    (within : ∀ equation ∈ [(⟨.var leftTail, (Ty.var (.generated issued)).openRow (right.without left)⟩ : Equation),
      ⟨.var rightTail, (Ty.var (.generated issued)).openRow (left.without right)⟩], equation.Within grown) :
    ∃ later : Valuation, later.AgreesBelow issued valuation ∧ later.Uniform ∧
      ∀ equation ∈ [(⟨.var leftTail, (Ty.var (.generated issued)).openRow (right.without left)⟩ : Equation),
        ⟨.var rightTail, (Ty.var (.generated issued)).openRow (left.without right)⟩], equation.Posed grown later := by
  obtain ⟨⟨leftWithin, rightWithin⟩, leftStacked, rightStacked, same⟩ := posed
  obtain ⟨⟨_, isLeft, _, ofLeft⟩, _⟩ := List.forall_mem_cons.mp leftStacked
  obtain ⟨⟨_, isRight, _, ofRight⟩, _⟩ := List.forall_mem_cons.mp rightStacked
  cases isLeft
  cases isRight
  obtain ⟨_, leftTailWithin, leftFields⟩ := Ty.within_extension.mp leftWithin
  obtain ⟨_, rightTailWithin, rightFields⟩ := Ty.within_extension.mp rightWithin
  obtain ⟨⟨disjoint, _⟩, fromLeft, fromRight⟩ := shared_tails_solvable leftFields.sorted rightFields.sorted
    ofLeft.rowLike.level ofLeft.admits ofRight.admits same
  have canonical : ((valuation.value leftTail).strip (right.without left)).Canonical :=
    Ty.strip_canonical (valuation.canonical leftTail)
  have rowLike := ofLeft.rowLike.strip (right.without left)
  -- What is left of the left tail without the fields of the right record is also left of the right tail.
  generalize (valuation.value leftTail).strip (right.without left) = common at *
  let later := valuation.update (.generated issued) common canonical
  have agrees : later.AgreesBelow issued valuation := Valuation.update_agreesBelow (Nat.le_refl _)
  have isTail : common.TailFor ((right.without left).extend left) := ⟨rowLike, disjoint⟩
  have ofShared : ∀ {fields : Row}, fields.Within sig → fields.Stacked valuation →
      (∀ key, fields.contains key = true → ((right.without left).extend left).contains key = true) →
      ((Ty.var (.generated issued)).openRow fields).Stacked later ∧
        ((Ty.var (.generated issued)).openRow fields).read later = common.overlay (fields.read valuation) := by
    intro fields fieldsWithin fieldsStacked included
    have asRecord : (Ty.record fields).Within sig := Ty.within_record.mpr fieldsWithin
    have shown : later.value (.generated issued) = common := Valuation.update_self none
    constructor
    · refine Ty.Stacked.openRow ?_ ?_
      · have asStacked : (Ty.record fields).Stacked valuation := fieldsStacked
        exact asStacked.congr asRecord below agrees
      · rw [shown]
        exact isTail.mono included
    · have sameFields : fields.read later = fields.read valuation := Ty.record.inj (asRecord.read_eq below agrees)
      rw [read_openRow, sameFields]
      exact congrArg (Ty.overlay · (fields.read valuation)) shown
  have onlyRight := ofShared (rightFields.without left) (rightStacked.row.without left) fun key present => by
    rw [Row.contains_extend, present, Bool.or_true]
  have onlyLeft := ofShared (leftFields.without right) (leftStacked.row.without right) fun key present => by
    rw [Row.contains_without, Bool.and_eq_true] at present
    rw [Row.contains_extend, present.2, Bool.true_or]
  refine ⟨later, agrees, uniform.update _ _ _, List.forall_mem_cons.mpr ⟨?_, List.forall_mem_singleton.mpr ?_⟩⟩
  · refine ⟨within _ (List.mem_cons_self ..), Ty.stacked_var _, onlyRight.1, ?_⟩
    rw [SolvedBy, onlyRight.2, leftTailWithin.read_eq below agrees]
    exact fromLeft
  · refine ⟨within _ (List.mem_cons_of_mem _ (List.mem_singleton_self _)), Ty.stacked_var _, onlyLeft.1, ?_⟩
    rw [SolvedBy, onlyLeft.2, rightTailWithin.read_eq below agrees]
    exact fromRight

/-- The equations planned for two records, with a value for the shared tail if there is one. -/
theorem tails {equations : List Equation} (posed : Posed sig valuation ⟨expected, actual⟩)
    (expectedRecord : expected.isRecord = true) (actualRecord : actual.isRecord = true) (below : sig.Issued issued)
    (uniform : valuation.Uniform)
    (plan : TailPlan (.var (.generated issued)) expected.rowParts.1 actual.rowParts.1 expected.rowParts.2
      actual.rowParts.2 equations) :
    ∃ later : Valuation, later.AgreesBelow issued valuation ∧ later.Uniform ∧ ∀ equation ∈ equations,
      equation.Posed (sig.grow issued (afterSharedTail issued expected actual)) later := by
  have within := plan.within_grow expectedRecord actualRecord posed.within.1 posed.within.2 below
  generalize sig.grow issued (afterSharedTail issued expected actual) = grown at within ⊢
  obtain ⟨⟨expectedWithin, actualWithin⟩, expectedStacked, actualStacked, same⟩ := posed
  -- The valuation is continued only where two open records with different fields get a new tail.
  cases expected <;> simp only [Ty.isRecord, reduceCtorEq] at expectedRecord <;>
    cases actual <;> simp only [Ty.isRecord, reduceCtorEq] at actualRecord
  case record.record left right =>
    cases plan
    exact ⟨valuation, .refl _ _, uniform, by simp⟩
  case record.extension left base right =>
    obtain ⟨⟨rightTail, rfl, _, ofRight⟩, _⟩ := List.forall_mem_cons.mp actualStacked
    have sorted := actualWithin.canonical.2.sorted
    rw [Ty.rowParts_extension rfl sorted] at plan
    cases plan
    refine ⟨valuation, .refl _ _, uniform, List.forall_mem_singleton.mpr ?_⟩
    exact ⟨within _ (List.mem_singleton_self _), Ty.stacked_var _, expectedStacked.row.without right,
      closed_tail_solved sorted ofRight.disjoint same.symm⟩
  case extension.record base left right =>
    obtain ⟨⟨leftTail, rfl, _, ofLeft⟩, _⟩ := List.forall_mem_cons.mp expectedStacked
    have sorted := expectedWithin.canonical.2.sorted
    rw [Ty.rowParts_extension rfl sorted] at plan
    cases plan
    refine ⟨valuation, .refl _ _, uniform, List.forall_mem_singleton.mpr ?_⟩
    exact ⟨within _ (List.mem_singleton_self _), Ty.stacked_var _, actualStacked.row.without left,
      closed_tail_solved sorted ofLeft.disjoint same⟩
  case extension.extension leftBase left rightBase right =>
    obtain ⟨⟨leftTail, rfl, _, ofLeft⟩, _⟩ := List.forall_mem_cons.mp expectedStacked
    obtain ⟨⟨rightTail, rfl, _, ofRight⟩, _⟩ := List.forall_mem_cons.mp actualStacked
    have leftSorted := expectedWithin.canonical.2.sorted
    have rightSorted := actualWithin.canonical.2.sorted
    rw [Ty.rowParts_extension rfl leftSorted, Ty.rowParts_extension rfl rightSorted] at plan
    cases plan with
    | same => exact ⟨valuation, .refl _ _, uniform, by simp⟩
    | meet different onlyLeft onlyRight =>
      have sameFields : left.read valuation = right.read valuation := by
        have merged := (agree_of_read_eq (.extension (.var leftTail) left) (.extension (.var rightTail) right) rfl rfl
          leftSorted rightSorted same).read_merge leftSorted rightSorted
        rwa [onlyLeft, onlyRight, Row.empty_extend leftSorted, Row.empty_extend rightSorted] at merged
      refine ⟨valuation, .refl _ _, uniform, List.forall_mem_singleton.mpr ?_⟩
      exact ⟨within _ (List.mem_singleton_self _), Ty.stacked_var _, Ty.stacked_var _,
        meet_tails_solved leftSorted sameFields ofLeft.admits ofRight.admits same⟩
    | shared different extra =>
      exact sharedTails ⟨⟨expectedWithin, actualWithin⟩, expectedStacked, actualStacked, same⟩ below uniform within

end Equation.Posed

end Parts

/-! ## The algorithm -/

/-- The computation finds a substitution that fits a continuation of the valuation. -/
def Generalizes (action : UnifyM Substitution) (sig : Signature) (valuation : Valuation) (supply : Supply) : Prop :=
  ∃ (found : Substitution) (after : Supply) (later : Valuation), action supply = (.ok found, after) ∧
    supply.issued ≤ after.issued ∧ later.AgreesBelow supply.issued valuation ∧ later.Uniform ∧
    found.Fits (sig.grow supply.issued after.issued) later

/-- Unification of types that a valuation makes equal finds a substitution that fits, given enough rounds. -/
def UnifiesGenerally (rounds : Nat) (expected actual : Ty) : Prop :=
  ∀ ⦃sig : Signature⦄ ⦃valuation : Valuation⦄ ⦃supply : Supply⦄, sig.Issued supply.issued → sig.Admits valuation →
    Equation.Posed sig valuation ⟨expected, actual⟩ → (unifyWithin rounds expected actual).Concludes supply →
    Generalizes (unifyWithin rounds expected actual) sig valuation supply

/-- Solving posed equations on top of a substitution that fits, given enough rounds, leads to one that fits. -/
def SolvesGenerally (rounds : Nat) (solved : Substitution) (equations : List Equation) : Prop :=
  ∀ ⦃sig : Signature⦄ ⦃valuation : Valuation⦄ ⦃supply : Supply⦄, sig.Issued supply.issued → sig.Admits valuation →
    solved.Fits sig valuation → (∀ equation ∈ equations, equation.Posed sig valuation) →
    (solve rounds solved equations).Concludes supply → Generalizes (solve rounds solved equations) sig valuation supply

/-- A binding is as general as can be. -/
theorem Bound.generalizes {expected actual : Ty} {found : Substitution} {action : UnifyM Substitution} {sig : Signature}
    {valuation : Valuation} {supply : Supply} (bound : Bound expected actual found) (admits : sig.Admits valuation)
    (posed : Equation.Posed sig valuation ⟨expected, actual⟩) (ran : action supply = (.ok found, supply)) :
    Generalizes action sig valuation supply := by
  refine ⟨found, supply, valuation, ran, Nat.le_refl _, .refl _ _, admits.uniform, ?_⟩
  rw [Signature.grow_self]
  exact bound.fits admits.uniform posed

namespace SolvesGenerally

variable {rounds : Nat} {expected actual : Ty}

/-- Types of the same form are unified as generally as their parts. -/
theorem parts {equations : List Equation} (solves : SolvesGenerally rounds {} equations)
    (split : expected.components actual = some equations) : UnifiesGenerally rounds expected actual := by
  intro sig valuation supply below admits posed concludes
  rw [unifyWithin_of_components rounds split] at concludes ⊢
  exact solves below admits Substitution.fits_empty (posed.components split) concludes

/-- Records are unified as generally as their fields and then their tails. -/
theorem rows (expectedRecord : expected.isRecord = true) (actualRecord : actual.isRecord = true)
    (common : SolvesGenerally rounds {} (fieldEquations expected actual))
    (tails : ∀ (fields : Substitution) (shared : TypeVar) (equations : List Equation),
      tailEquations (.var shared) expected actual = .ok equations → SolvesGenerally rounds fields equations) :
    UnifiesGenerally rounds expected actual := by
  intro sig valuation supply below admits posed concludes
  rw [unifyWithin_of_isRecord rounds expectedRecord actualRecord] at concludes ⊢
  obtain ⟨ofFields, ofRest⟩ := concludes_bind.mp concludes
  -- The valuation is continued three times: for the common fields, for the shared tail, and for the tails.
  obtain ⟨fields, ⟨afterFields⟩, valuation₁, ranFields, le, agrees, uniform, fits⟩ :=
    common below admits Substitution.fits_empty (posed.fields expectedRecord actualRecord) ofFields
  have below₁ : (sig.grow supply.issued afterFields).Issued afterFields := below.grow le
  have posed₁ := posed.continued (Signature.sub_grow below afterFields) below agrees
  obtain ⟨equations, plan⟩ := tailPlan_of_read_eq (.var (.generated afterFields)) expectedRecord actualRecord
    posed₁.within.1.canonical posed₁.within.2.canonical posed₁.within.1.flat posed₁.within.2.flat posed₁.solved <| by
      rintro tail left right rfl rfl
      exact posed₁.sameTail
  obtain ⟨valuation₂, agrees₂, uniform₂, posed₂⟩ := posed₁.tails expectedRecord actualRecord below₁ uniform plan
  have planned := tailEquations_eq_ok_iff.mpr plan
  have shares := le_afterSharedTail afterFields expected actual
  have ranTail := sharedTail_run expected actual afterFields
  have ranPlan : (liftExcept (tailEquations (.var (.generated afterFields)) expected actual) : UnifyM _)
      ⟨afterSharedTail afterFields expected actual⟩ = (.ok equations, ⟨afterSharedTail afterFields expected actual⟩) :=
    liftExcept_eq_ok.mpr ⟨planned, rfl⟩
  have ofTails := (concludes_bind.mp ((concludes_bind.mp (ofRest fields _ ranFields)).2 _ _ ranTail)).2 _ _ ranPlan
  have admits₁ := admits.continued below agrees uniform afterFields
  obtain ⟨found, after, later, ran, le₂, agrees₃, uniform₃, foundFits⟩ := @tails fields _ equations planned _ _
    ⟨afterSharedTail afterFields expected actual⟩ (below₁.grow shares) (admits₁.continued below₁ agrees₂ uniform₂ _)
    (fits.continued (Signature.sub_grow below₁ _) below₁ agrees₂) posed₂ ofTails
  refine ⟨found, after, later, ?_, Nat.le_trans le (Nat.le_trans shares le₂), ?_, uniform₃, ?_⟩
  · exact bind_eq_ok.mpr ⟨fields, _, ranFields, bind_eq_ok.mpr ⟨_, _, ranTail,
      bind_eq_ok.mpr ⟨equations, _, ranPlan, ran⟩⟩⟩
  · exact .trans le agrees (.trans shares agrees₂ agrees₃)
  · rw [Signature.grow_grow _ le shares] at foundFits
    rwa [Signature.grow_grow _ (Nat.le_trans le shares) le₂] at foundFits

/-- The first equation is solved for what is left of it, and the others on top. -/
theorem cons {solved : Substitution} {equation : Equation} {rest : List Equation}
    (atOnce : UnifiesGenerally rounds equation.expected equation.actual)
    (applied : ∀ fewer, rounds = fewer + 1 →
      UnifiesGenerally fewer (solved.apply equation.expected) (solved.apply equation.actual))
    (others : ∀ found : Substitution, SolvesGenerally rounds (found.compose solved) rest) :
    SolvesGenerally rounds solved (equation :: rest) := by
  intro sig valuation supply below admits fits posed concludes
  have firstPosed := fits.apply_posed (posed equation (List.mem_cons_self ..))
  have left : (solved.unboundIn sig).Admits valuation := admits.anti (Signature.restrict_sub _ _)
  obtain ⟨first, step, cases⟩ := solve_cons_cases rounds solved equation rest
  rw [step] at concludes ⊢
  obtain ⟨firstConcludes, restConclude⟩ := concludes_bind.mp concludes
  have firstGeneralizes : Generalizes first (solved.unboundIn sig) valuation supply := by
    rcases cases with ⟨rfl, rfl⟩ | ⟨fewer, isFewer, rfl⟩ | rfl
    · rw [Substitution.apply_empty, Substitution.apply_empty] at firstPosed
      exact atOnce (below.restrict _) left firstPosed firstConcludes
    · exact applied fewer isFewer (below.restrict _) left firstPosed firstConcludes
    -- No round is left, which a run that concludes never meets.
    · exact absurd rfl (firstConcludes equation.expected equation.actual)
  obtain ⟨found, ⟨middle⟩, valuation₁, ranFirst, le, agrees, uniform, nextFits⟩ := firstGeneralizes
  obtain ⟨result, after, later, ran, le₂, agrees₂, uniform₂, resultFits⟩ := others found (below.grow le)
    (admits.continued below agrees uniform middle) (fits.compose below agrees nextFits)
    (fun other inRest => (posed other (List.mem_cons_of_mem _ inRest)).continued (Signature.sub_grow below middle) below
      agrees) (restConclude found _ ranFirst)
  refine ⟨result, after, later, bind_eq_ok.mpr ⟨found, _, ranFirst, ran⟩, Nat.le_trans le le₂, .trans le agrees agrees₂,
    uniform₂, ?_⟩
  rwa [Signature.grow_grow _ le le₂] at resultFits

end SolvesGenerally

/-- Unification follows every valuation that solves its equations. -/
theorem unifiesGenerally :
    (∀ (rounds : Nat) (expected actual : Ty), UnifiesGenerally rounds expected actual) ∧
    (∀ (rounds : Nat) (solved : Substitution) (equations : List Equation),
      SolvesGenerally rounds solved equations) := by
  apply unifyWithin_induction
  case vars =>
    intro rounds left right sig valuation supply _ admits posed _
    obtain ⟨found, success⟩ := unifyVars_ok (admits.meets (Ty.within_var.mp posed.within.1))
      (admits.meets (Ty.within_var.mp posed.within.2)) posed.solved
    refine (bound_of_unifyVars success).generalizes admits posed ?_
    rw [unifyWithin]
    exact liftExcept_eq_ok.mpr ⟨success, rfl⟩
  case varLeft =>
    intro rounds v type notVar sig valuation supply _ admits posed _
    have absent := posed.actual.absent admits.uniform posed.within.2.canonical notVar posed.solved
    have success :=
      bindVar_ok ⟨.var v, type⟩ absent notVar (admits.meets (Ty.within_var.mp posed.within.1)) posed.solved
    refine (Bound.left absent (of_bindVar success).2.2).generalizes admits posed ?_
    rw [unifyWithin_var_left rounds v notVar]
    exact liftExcept_eq_ok.mpr ⟨success, rfl⟩
  case varRight =>
    intro rounds type v notVar sig valuation supply _ admits posed _
    have absent := posed.expected.absent admits.uniform posed.within.1.canonical notVar posed.solved.symm
    have success := bindVar_ok ⟨type, .var v⟩ absent notVar (admits.meets (Ty.within_var.mp posed.within.2))
      posed.solved.symm
    refine (Bound.right (fun u isVar => absurd isVar (notVar u)) absent (of_bindVar success).2.2).generalizes admits
      posed ?_
    rw [unifyWithin_var_right rounds v notVar]
    exact liftExcept_eq_ok.mpr ⟨success, rfl⟩
  case list =>
    intro rounds element element' unifies sig valuation supply below admits posed concludes
    rw [unifyWithin] at concludes ⊢
    exact unifies below admits (posed.components rfl _ (List.mem_singleton_self _)) concludes
  case parts =>
    intro rounds expected actual equations split solves
    exact solves.parts split
  case rows =>
    intro rounds expected actual expectedRecord actualRecord common tails
    exact SolvesGenerally.rows expectedRecord actualRecord common tails
  case atom =>
    intro rounds type basic sig valuation supply _ admits _ _
    refine ⟨{}, supply, valuation, ?_, Nat.le_refl _, .refl _ _, admits.uniform, Substitution.fits_empty⟩
    rw [unifyWithin_of_isAtom rounds basic]
    rfl
  case clash =>
    intro rounds expected actual clash sig valuation supply _ _ posed _
    exact absurd posed.solved (clash.read_ne valuation)
  case nil =>
    intro rounds solved sig valuation supply _ admits fits _ _
    refine ⟨solved, supply, valuation, ?_, Nat.le_refl _, .refl _ _, admits.uniform, ?_⟩
    · rw [solve]
      rfl
    · rwa [Signature.grow_self]
  case cons =>
    intro rounds solved equation rest atOnce applied others
    exact SolvesGenerally.cons atOnce applied others

/-! ## The most general unifier -/

/-- Unification follows a valuation that makes two types equal. -/
theorem unify_generalizes {expected actual : Ty} {supply : Supply} {valuation : Valuation}
    (coherent : Equation.Coherent supply.issued ⟨expected, actual⟩) (uniform : valuation.Uniform)
    (meets : ∀ v ∈ Equation.vars ⟨expected, actual⟩, (valuation.value v).Meets v.constraint)
    (expectedStacked : expected.Stacked valuation) (actualStacked : actual.Stacked valuation)
    (same : expected.read valuation = actual.read valuation) :
    Generalizes (unify expected actual) (Signature.ofVars (Equation.vars ⟨expected, actual⟩)) valuation supply := by
  have admits : (Signature.ofVars (Equation.vars ⟨expected, actual⟩)).Admits valuation := by
    refine ⟨uniform, fun v known => ?_⟩
    obtain ⟨u, member, sameId⟩ := Signature.mem_of_ofVars (by rw [known]; exact Option.some_ne_none _)
    have isKnown := coherent.signature_of_mem member
    rw [sameId, known] at isKnown
    rw [uniform sameId.symm, Option.some.inj isKnown]
    exact meets u member
  exact unifiesGenerally.1 _ expected actual coherent.signature_issued admits
    ⟨coherent.within expectedStacked.flat actualStacked.flat, expectedStacked, actualStacked, same⟩
    (unify_concludes coherent.issued)

/-- What unification finds is most general. Let a choice of types for variables make two regular types equal, with a
type for each constraint and, below the fields of each open record, a row that has none of them. Then unification
succeeds, and some choice that agrees on the variables of the two types cannot tell any type from the type after
application. -/
theorem unify_mostGeneral {expected actual : Ty} {supply : Supply}
    (coherent : Equation.Coherent supply.issued ⟨expected, actual⟩) (expectedRegular : expected.Regular)
    (actualRegular : actual.Regular) (choice : VarId → Ty) (canonical : ∀ id, (choice id).Canonical)
    (meets : ∀ v ∈ Equation.vars ⟨expected, actual⟩, (choice v.id).Meets v.constraint)
    (tails : ∀ part ∈ expected.extensions ++ actual.extensions, ∀ v, part.1 = .var v → (choice v.id).TailFor part.2)
    (same : expected.mapVars (fun v => choice v.id) = actual.mapVars fun v => choice v.id) :
    ∃ found after, unify expected actual supply = (.ok found, after) ∧ ∃ later : VarId → Ty,
      (∀ v ∈ Equation.vars ⟨expected, actual⟩, later v.id = choice v.id) ∧
      ∀ type : Ty, type.Canonical →
        (found.apply type).mapVars (fun v => later v.id) = type.mapVars fun v => later v.id := by
  let valuation : Valuation := ⟨fun v => choice v.id, fun v => canonical v.id⟩
  have uniform : valuation.Uniform := fun v u sameId => congrArg choice sameId
  obtain ⟨expectedTails, actualTails⟩ := List.forall_mem_append.mp tails
  obtain ⟨found, after, later, ran, _, agrees, laterUniform, fits⟩ := unify_generalizes coherent uniform meets
    (expectedRegular.stacked expectedTails) (actualRegular.stacked actualTails) same
  have byId : later.value = fun v => later.value ⟨v.id, none⟩ := funext fun v => laterUniform rfl
  refine ⟨found, after, ran, fun id => later.value ⟨id, none⟩, fun v member => ?_, fun type typeCanonical => ?_⟩
  · have kept : later.value v = valuation.value v := agrees (coherent.issued v member)
    rwa [byId] at kept
  · have reads := Substitution.read_apply fits.respects.proper fits.solved typeCanonical
    rwa [Ty.read, Ty.read, byId] at reads

/-- Two open records with different tails, and a number in one of them. -/
def bothOpen : Equation where
  expected := .extension (.var (.generated 0)) (.field "a" (.var ⟨.generated 2, some .number⟩) .empty)
  actual := .extension (.var (.generated 1)) (.field "b" .int .empty)

/-- Both tails have the field of the other record, and a common tail below it. -/
def bothOpenChoice : VarId → Ty
  | .generated 0 => .extension (.var (.named "rest")) (.field "b" .int .empty)
  | .generated 1 => .extension (.var (.named "rest")) (.field "a" .float .empty)
  | .generated 2 => .float
  | _ => .unit

theorem unify_mostGeneral_bothOpen : ∃ found after, unify bothOpen.expected bothOpen.actual ⟨3⟩ = (.ok found, after) ∧
    ∃ later : VarId → Ty, later (.generated 0) = bothOpenChoice (.generated 0) ∧
      (found.apply (.var (.generated 0))).mapVars (fun v => later v.id) = bothOpenChoice (.generated 0) := by
  have coherent : bothOpen.Coherent 3 := by
    refine ⟨?_, ?_, by decide, ?_⟩
    · simp [bothOpen, Ty.Canonical, Row.Canonical, Row.toList]
    · simp [bothOpen, Ty.Canonical, Row.Canonical, Row.toList]
    · simp [bothOpen, Equation.vars, Ty.occurrences, Row.occurrences, TypeVar.Below, TypeVar.generated]
  have expectedRegular : bothOpen.expected.Regular :=
    ⟨coherent.expected, by simp [bothOpen, Ty.extensions, Row.extensions]⟩
  have actualRegular : bothOpen.actual.Regular := ⟨coherent.actual, by simp [bothOpen, Ty.extensions, Row.extensions]⟩
  have canonical : ∀ id, (bothOpenChoice id).Canonical := by
    intro id
    unfold bothOpenChoice
    split <;> simp [Ty.Canonical, Row.Canonical, Row.toList]
  have meets : ∀ v ∈ bothOpen.vars, (bothOpenChoice v.id).Meets v.constraint := by
    simp [bothOpen, Equation.vars, Ty.occurrences, Row.occurrences, Ty.Meets, bothOpenChoice, TypeVar.generated,
      Ty.satisfies]
  have tails : ∀ part ∈ bothOpen.expected.extensions ++ bothOpen.actual.extensions, ∀ v, part.1 = .var v →
      (bothOpenChoice v.id).TailFor part.2 := by
    intro part member v isVar
    simp only [bothOpen, Ty.extensions, Row.extensions, List.nil_append, List.cons_append, List.mem_cons,
      List.not_mem_nil, or_false] at member
    rcases member with rfl | rfl
    · cases isVar
      decide
    · cases isVar
      decide
  obtain ⟨found, after, ran, later, agrees, reads⟩ := unify_mostGeneral coherent expectedRegular actualRegular
    bothOpenChoice canonical meets tails (by rfl)
  have first := agrees (.generated 0) (by decide)
  exact ⟨found, after, ran, later, first, (reads (.var (.generated 0)) trivial).trans first⟩

end RowInference
