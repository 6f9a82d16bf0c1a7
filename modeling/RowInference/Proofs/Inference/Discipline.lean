import Mathlib.Order.Defs.PartialOrder
import RowInference.Proofs.Inference.Script
import RowInference.Proofs.Runs
import RowInference.Proofs.Substitution.Extension
import RowInference.Proofs.Types.Instantiation
import RowInference.Proofs.Unification.Derivation

/-! # Disciplines of inference

A discipline says what is known about the variables in play, its *world*, which types are fine in a world, and which
valuations agree with what is known. Worlds only grow. A discipline that can account for every kind of step accounts for
whole inferences: `Script.Safe` collects what a script asks of it, and `Script.Safe.sound` says that a safe script keeps
to the discipline at all of its moments, also when it fails. Once it has succeeded, all its equations hold under every
valuation that agrees with the last world; `Script.Under` says what that makes true of the result.
-/

namespace RowInference

/-! ## Environments -/

/-- Every scheme in the environment has a property, those of shadowed names included. -/
def Environment.All (holds : Scheme → Prop) (env : Environment) : Prop :=
  ∀ scope ∈ env.scopes, ∀ ⦃name : String⦄ ⦃scheme : Scheme⦄, scope[name]? = some scheme → holds scheme

namespace Environment

variable {env : Environment} {holds : Scheme → Prop}

theorem All.imp {other : Scheme → Prop} (all : env.All holds) (imp : ∀ scheme, holds scheme → other scheme) :
    env.All other := fun scope member _ _ found => imp _ (all scope member found)

/-- What is found under a name has the property of all schemes. -/
theorem All.get? (all : env.All holds) {name : String} {scheme : Scheme} (found : env.get? name = some scheme) :
    holds scheme := by
  obtain ⟨scope, member, inScope⟩ := List.exists_of_findSome?_eq_some found
  exact all scope member inScope

theorem All.add (all : env.All holds) (name : String) {scheme : Scheme} (new : holds scheme) :
    (env.add name scheme).All holds := by
  intro scope member other found isFound
  rcases List.mem_cons.mp member with rfl | inOuter
  · change (env.inner.insert name scheme)[other]? = some found at isFound
    rw [Std.ExtTreeMap.getElem?_insert] at isFound
    split at isFound
    · cases isFound
      exact new
    · exact all env.inner (List.mem_cons_self ..) isFound
  · exact all scope (List.mem_cons_of_mem _ inOuter) isFound

theorem All.enter (all : env.All holds) : env.enter.All holds := by
  intro scope member name scheme found
  rcases List.mem_cons.mp member with rfl | inOuter
  · change ({} : Scope)[name]? = some scheme at found
    simp at found
  · exact all scope inOuter found

theorem All.exit (all : env.All holds) : env.exit.All holds := by
  intro scope member
  rw [Environment.exit] at member
  split at member
  · exact all scope member
  · next outer rest isOuter =>
    refine all scope (List.mem_cons_of_mem _ ?_)
    rw [isOuter]
    exact member

/-- Leaving a scope gives back the environment in which it was entered. -/
theorem exit_of_outer {env inner : Environment} (same : inner.outer = env.enter.outer) : inner.exit = env := by
  rw [Environment.exit, same]
  rfl

end Environment

/-! ## Steps -/

/-- The part of a state that a script determines. -/
structure Scene where
  env : Environment
  bound : List (String × Ty)
  issued : Nat

def InferState.scene (state : InferState) : Scene := ⟨state.env, state.bound, state.supply.issued⟩

namespace InferM

variable {state : InferState}

theorem fresh_run (constraint : Option Constraint) (state : InferState) :
    fresh constraint state
      = (.ok (.var ⟨.generated state.supply.issued, constraint⟩), { state with supply := ⟨state.supply.issued + 1⟩ }) :=
  rfl

theorem instantiate_run (scheme : Scheme) (state : InferState) :
    instantiate scheme state
      = (.ok (scheme.instantiate state.supply).1, { state with supply := (scheme.instantiate state.supply).2 }) := rfl

theorem get_run (state : InferState) : (get : InferM InferState) state = (.ok state, state) := rfl

theorem lookup_run_of_some {name : String} {scheme : Scheme} (span : Span) (found : state.env.get? name = some scheme) :
    lookup name span state = instantiate scheme state := by
  rw [lookup, bind_run, get_run]
  simp only [found]

theorem lookup_run_of_none {name : String} (span : Span) (missing : state.env.get? name = none) :
    lookup name span state = (.error ⟨.unbound name, span⟩, state) := by
  rw [lookup, bind_run, get_run]
  simp only [missing]
  rfl

private theorem equate_run (expected actual : Ty) (span : Span) (state : InferState) :
    equate expected actual span state
      = (match unify (state.subst.apply expected) (state.subst.apply actual) state.supply with
        | (.ok found, supply) =>
          if found.isEmpty then (set { state with supply } : InferM Unit)
          else set { state with
            supply
            subst := state.subst.extend found
            events := .solved (state.subst.apply expected) (state.subst.apply actual) found :: state.events }
        | (.error error, supply) => do
          set { state with supply, events := .refused error :: state.events }
          fail (.ofUnify error) span) state := rfl

/-- A solved equation extends what has been learnt. -/
theorem equate_run_of_ok {expected actual : Ty} {found : Substitution} {supply : Supply} (span : Span)
    (success : unify (state.subst.apply expected) (state.subst.apply actual) state.supply = (.ok found, supply)) :
    ∃ events, equate expected actual span state
      = (.ok (), { state with supply, subst := state.subst.extend found, events }) := by
  rw [equate_run, success]
  dsimp only
  split
  · next empty =>
    obtain rfl := Std.ExtTreeMap.isEmpty_iff.mp empty
    refine ⟨state.events, ?_⟩
    rw [Substitution.extend_empty]
    rfl
  · exact ⟨_, rfl⟩

theorem equate_run_of_error {expected actual : Ty} {error : UnifyError} {supply : Supply} (span : Span)
    (failure : unify (state.subst.apply expected) (state.subst.apply actual) state.supply = (.error error, supply)) :
    equate expected actual span state = (.error ⟨.ofUnify error, span⟩,
      { state with supply, events := .refused error :: state.events }) := by
  rw [equate_run, failure]
  rfl

theorem bindName_run (name : String) (type : Ty) (span : Span) (state : InferState) :
    bindName name type span state = if state.bound.any fun entry => entry.1 == name
      then (.error ⟨.duplicate name, span⟩, state)
      else (.ok (), { state with bound := state.bound ++ [(name, type)] }) := by
  have run : bindName name type span state = (if state.bound.any fun entry => entry.1 == name
      then (fail (.duplicate name) span : InferM Unit)
      else set { state with bound := state.bound ++ [(name, type)] }) state := rfl
  rw [run]
  split <;> rfl

/-- A group starts without names and leaves the names around it alone. -/
theorem group_run {α : Type} (action : InferM α) (state : InferState) :
    group action state = match action { state with bound := [] } with
      | (.ok value, after) => (.ok (value, after.bound), after)
      | (.error error, after) => (.error error, after) := by
  have run : group action state = (do
      let result ← action
      return (result, (← get).bound)) { state with bound := [] } := rfl
  rw [run, bind_run]
  rcases action { state with bound := [] } with ⟨_ | _, after⟩ <;> rfl

/-- A scope is left whether or not the run in it succeeds. -/
theorem inScope_run {α : Type} (action : InferM α) (state : InferState) :
    inScope action state = ((action { state with env := state.env.enter }).1,
      { (action { state with env := state.env.enter }).2 with
        env := (action { state with env := state.env.enter }).2.env.exit }) := rfl

/-- A node that would be too deep is refused before anything happens. -/
theorem nested_run {α : Type} (limit : Nat) (span : Span) (action : InferM α) (state : InferState) :
    nested limit span action state = if state.depth ≥ limit then (.error ⟨.tooDeep limit, span⟩, state)
      else ((action { state with depth := state.depth + 1 }).1,
        { (action { state with depth := state.depth + 1 }).2 with
          depth := (action { state with depth := state.depth + 1 }).2.depth - 1 }) := rfl

end InferM

/-- Inference never takes variables back, also when it fails. -/
theorem Script.issued_le {α : Type} {action : InferM α} (script : Script action) (state : InferState) :
    state.supply.issued ≤ (action state).2.supply.issued := by
  induction script generalizing state with
  | done _ | fail _ _ | declare _ _ | forget | takeSubst | report _ | getState => exact Nat.le_refl _
  | fresh _ | rowBase _ => exact Nat.le_succ _
  | instantiate op =>
    rw [InferM.instantiate_run, Scheme.instantiate_issued]
    exact Nat.le_add_right ..
  | lookup name span =>
    cases found : state.env.get? name with
    | none => rw [InferM.lookup_run_of_none span found]
    | some scheme =>
      rw [InferM.lookup_run_of_some span found, InferM.instantiate_run, Scheme.instantiate_issued]
      exact Nat.le_add_right ..
  | equate expected actual span =>
    have le := issued_le_unify (state.subst.apply expected) (state.subst.apply actual) state.supply
    rcases ran : unify (state.subst.apply expected) (state.subst.apply actual) state.supply with ⟨_ | found, supply⟩
    · rw [InferM.equate_run_of_error span ran]
      rwa [ran] at le
    · obtain ⟨events, run⟩ := InferM.equate_run_of_ok span ran
      rw [run]
      rwa [ran] at le
  | bindName name type span =>
    rw [InferM.bindName_run]
    split <;> exact Nat.le_refl _
  | @andThen _ _ action next first rest ih ih' =>
    have le := ih state
    rw [bind_run]
    rcases ran : action state with ⟨_ | value, mid⟩
    · rwa [ran] at le
    · rw [ran] at le
      exact Nat.le_trans le (ih' value mid)
  | choose condition ifYes ifNo ih ih' =>
    split
    · exact ih state
    · exact ih' state
  | @group _ action inner ih =>
    have le := ih { state with bound := [] }
    rw [InferM.group_run]
    rcases ran : action { state with bound := [] } with ⟨_ | value, mid⟩ <;> rwa [ran] at le
  | inScope inner ih => exact ih { state with env := state.env.enter }
  | node typeOf limit span inner ih =>
    rw [InferM.nested_run]
    split
    · exact Nat.le_refl _
    · exact ih { state with depth := state.depth + 1 }

/-- How many variables have been issued at a moment, if it has a state. -/
def Moment.issued : Moment → Nat
  | .reached state => state.supply.issued
  | .posed state _ _ => state.supply.issued
  | .typed _ => 0

/-- At no moment of a run more variables have been issued than at its end. -/
theorem Script.moments_issued_le {α : Type} {action : InferM α} (script : Script action) (state : InferState) :
    ∀ moment ∈ script.moments state, moment.issued ≤ (action state).2.supply.issued := by
  induction script generalizing state with
  | done _ | fail _ _ | getState => simp [moments]
  | fresh _ | rowBase _ | instantiate _ | lookup _ _ | declare _ _ | bindName _ _ _ | forget | takeSubst | report _ =>
    exact List.forall_mem_singleton.mpr (Nat.le_refl _)
  | equate expected actual span =>
    exact List.forall_mem_cons.mpr ⟨(Script.equate expected actual span).issued_le state,
      List.forall_mem_singleton.mpr (Nat.le_refl _)⟩
  | @andThen _ _ action next first rest ih ih' =>
    rw [moments, bind_run]
    rcases ran : action state with ⟨_ | value, mid⟩
    · have within := ih state
      rw [ran] at within
      simpa using within
    · have within := ih state
      rw [ran] at within
      refine List.forall_mem_append.mpr ⟨fun moment member => ?_, ih' value mid⟩
      exact Nat.le_trans (within moment member) ((rest value).issued_le mid)
  | choose condition ifYes ifNo ih ih' =>
    rw [moments]
    split
    · exact ih state
    · exact ih' state
  | @group _ action inner ih =>
    have sameIssued : (InferM.group action state).2.supply = (action { state with bound := [] }).2.supply := by
      rw [InferM.group_run]
      rcases action { state with bound := [] } with ⟨_ | _, _⟩ <;> rfl
    rw [sameIssued]
    exact List.forall_mem_cons.mpr ⟨inner.issued_le { state with bound := [] }, ih { state with bound := [] }⟩
  | @inScope _ action inner ih =>
    refine List.forall_mem_cons.mpr ⟨inner.issued_le { state with env := state.env.enter }, ?_⟩
    exact List.forall_mem_append.mpr ⟨ih { state with env := state.env.enter },
      List.forall_mem_singleton.mpr (Nat.le_refl _)⟩
  | @node _ action typeOf limit span inner ih =>
    have ends : ∀ moment ∈ (match InferM.nested limit span action state with
        | (.ok value, after) => [.typed (typeOf value), .reached after]
        | (.error _, after) => [.reached after] : List Moment),
        moment.issued ≤ (InferM.nested limit span action state).2.supply.issued := by
      rcases InferM.nested limit span action state with ⟨_ | _, _⟩ <;> simp [Moment.issued]
    rw [moments]
    split
    · simp
    · next inside =>
      refine List.forall_mem_cons.mpr ⟨?_, List.forall_mem_append.mpr ⟨?_, ends⟩⟩
      · rw [InferM.nested_run, if_neg inside]
        exact inner.issued_le { state with depth := state.depth + 1 }
      · rw [InferM.nested_run, if_neg inside]
        exact ih { state with depth := state.depth + 1 }

/-! ## Disciplines -/

/-- What the inference of a tree keeps to. `Holds` relates a world to what has been learnt and to the number of the next
variable. -/
structure Discipline where
  /-- What is known about the variables in play. -/
  World : Type
  [order : Preorder World]
  Holds : World → Substitution → Nat → Prop
  Fine : World → Ty → Prop
  FineScheme : World → Scheme → Prop
  /-- The valuation agrees with what is known. -/
  Models : World → Valuation → Prop
  proper {world : World} {type : Ty} : Fine world type → type.Canonical ∧ type.Flat
  fine_mono {world later : World} {type : Ty} : world ≤ later → Fine world type → Fine later type
  fineScheme_mono {world later : World} {scheme : Scheme} :
    world ≤ later → FineScheme world scheme → FineScheme later scheme
  models_anti {world later : World} {valuation : Valuation} :
    world ≤ later → Models later valuation → Models world valuation
  fine_atom (world : World) {type : Ty} : type.isAtom = true → Fine world type
  fine_tuple {world : World} {first second : Ty} : Fine world first → Fine world second →
    Fine world (.tuple first second)
  fine_triple {world : World} {first second third : Ty} : Fine world first → Fine world second → Fine world third →
    Fine world (.triple first second third)
  fine_list {world : World} {element : Ty} : Fine world element → Fine world (.list element)
  fine_function {world : World} {source target : Ty} : Fine world source → Fine world target →
    Fine world (.function source target)
  fine_record {world : World} {fields : Row} : fields.Sorted → fields.All (Fine world) → Fine world (.record fields)
  fine_mono_scheme {world : World} {type : Ty} : Fine world type → FineScheme world (Scheme.mono type)
  fine_operator (world : World) (op : Operator) : FineScheme world (Prelude.operatorScheme op)
  issue {world : World} {subst : Substitution} {issued : Nat} (constraint : Option Constraint) :
    Holds world subst issued → ∃ later ≥ world, Holds later subst (issued + 1) ∧
      Fine later (.var ⟨.generated issued, constraint⟩) ∧ ∀ valuation, Models later valuation →
        (valuation.value ⟨.generated issued, constraint⟩).Meets constraint
  /-- A fresh variable is fine as the base of a record with given fields, once these are fine. -/
  issueBase {world : World} {subst : Substitution} {issued : Nat} {fields : Row} :
    Holds world subst issued → fields.Canonical → fields.Flat → ∃ later ≥ world, Holds later subst (issued + 1) ∧
      ∀ latest ≥ later, fields.All (Fine latest) → Fine latest (.extension (.var (.generated issued)) fields)
  use {world : World} {subst : Substitution} {supply : Supply} {scheme : Scheme} :
    Holds world subst supply.issued → FineScheme world scheme → ∃ later ≥ world,
      Holds later subst (scheme.instantiate supply).2.issued ∧ Fine later (scheme.instantiate supply).1 ∧
        ∀ valuation, Models later valuation →
          scheme.Yields valuation.value ((scheme.instantiate supply).1.read valuation)
  /-- What is learnt from an equation between fine types is kept to. -/
  learn {world : World} {subst found : Substitution} {supply after : Supply} {expected actual : Ty} :
    Holds world subst supply.issued → Fine world expected → Fine world actual →
      unify (subst.apply expected) (subst.apply actual) supply = (.ok found, after) →
      ∃ later ≥ world, Holds later (subst.extend found) after.issued ∧ ∀ valuation, Models later valuation →
        expected.read valuation = actual.read valuation
  refuse {world : World} {subst : Substitution} {supply after : Supply} {expected actual : Ty} {error : UnifyError} :
    Holds world subst supply.issued →
      unify (subst.apply expected) (subst.apply actual) supply = (.error error, after) →
      ∃ later ≥ world, Holds later subst after.issued

attribute [instance] Discipline.order

namespace Discipline

variable (discipline : Discipline)

/-- A state in which everything is fine. -/
structure Inv (world : discipline.World) (state : InferState) : Prop where
  holds : discipline.Holds world state.subst state.supply.issued
  env : state.env.All (discipline.FineScheme world)

/-- A moment in which everything is fine. -/
def Ok (world : discipline.World) : Moment → Prop
  | .reached state => discipline.Inv world state
  | .posed state expected actual =>
    discipline.Inv world state ∧ discipline.Fine world expected ∧ discipline.Fine world actual
  | .typed type => discipline.Fine world type

/-- Moments that keep to the discipline while its world grows. -/
def Passes : discipline.World → List Moment → discipline.World → Prop
  | world, [], last => world ≤ last
  | world, moment :: rest, last => ∃ later ≥ world, discipline.Ok later moment ∧ Passes later rest last

variable {discipline} {world later last : discipline.World}

theorem Passes.le {moments : List Moment} (passes : discipline.Passes world moments last) : world ≤ last := by
  induction moments generalizing world with
  | nil => exact passes
  | cons moment rest ih =>
    obtain ⟨next, le, _, passes⟩ := passes
    exact le_trans le (ih passes)

/-- Moments that pass one after the other pass together. -/
theorem Passes.append {moments others : List Moment} (first : discipline.Passes world moments later)
    (second : discipline.Passes later others last) : discipline.Passes world (moments ++ others) last := by
  induction moments generalizing world with
  | nil =>
    cases others with
    | nil => exact le_trans first second
    | cons moment rest =>
      obtain ⟨next, le, ok, passes⟩ := second
      exact ⟨next, le_trans first le, ok, passes⟩
  | cons moment rest ih =>
    obtain ⟨next, le, ok, passes⟩ := first
    exact ⟨next, le, ok, ih passes⟩

theorem Passes.single {moment : Moment} (ok : discipline.Ok later moment) (le : world ≤ later) :
    discipline.Passes world [moment] later := ⟨later, le, ok, le_refl later⟩

/-- A step that leaves the names in scope alone. -/
theorem Inv.step {state after : InferState} (inv : discipline.Inv world state) (le : world ≤ later)
    (holds : discipline.Holds later after.subst after.supply.issued) (sameEnv : after.env = state.env) :
    discipline.Inv later after where
  holds := holds
  env := by
    rw [sameEnv]
    exact inv.env.imp fun _ fine => discipline.fineScheme_mono le fine

end Discipline

/-! ## Safe scripts -/

/-- What a script asks of a discipline, from a world and a scene, to end with a property. Forgetting what has been
learnt is no part of the inference of a tree. -/
def Script.Safe (discipline : Discipline) : {α : Type} → {action : InferM α} → Script action →
    discipline.World → Scene → (discipline.World → Scene → α → Prop) → Prop
  | _, _, .done value, world, scene, ends => ends world scene value
  | _, _, .fail _ _, _, _, _ => True
  | _, _, .fresh constraint, world, scene, ends =>
    ∀ later ≥ world, discipline.Fine later (.var ⟨.generated scene.issued, constraint⟩) →
      ends later { scene with issued := scene.issued + 1 } (.var ⟨.generated scene.issued, constraint⟩)
  | _, _, .rowBase fields, world, scene, ends =>
    (fields scene.issued).Canonical ∧ (fields scene.issued).Flat ∧ ∀ later ≥ world,
      (∀ latest ≥ later, (fields scene.issued).All (discipline.Fine latest) →
        discipline.Fine latest (.extension (.var (.generated scene.issued)) (fields scene.issued))) →
      ends later { scene with issued := scene.issued + 1 } (.var (.generated scene.issued))
  | _, _, .instantiate _, world, scene, ends | _, _, .lookup _ _, world, scene, ends =>
    ∀ later ≥ world, ∀ issued type, discipline.Fine later type → ends later { scene with issued } type
  | _, _, .equate expected actual _, world, scene, ends =>
    discipline.Fine world expected ∧ discipline.Fine world actual ∧
      ∀ later ≥ world, ∀ issued, ends later { scene with issued } ()
  | _, _, .declare name scheme, world, scene, ends =>
    discipline.FineScheme world scheme ∧ ends world { scene with env := scene.env.add name scheme } ()
  | _, _, .bindName name type _, world, scene, ends =>
    ends world { scene with bound := scene.bound ++ [(name, type)] } ()
  | _, _, .report _, world, scene, ends => ends world scene ()
  | _, _, .forget, _, _, _ | _, _, .takeSubst, _, _, _ => False
  | _, _, .getState, world, scene, ends => ∀ state : InferState, state.scene = scene → ends world scene state
  | _, _, .andThen first rest, world, scene, ends =>
    first.Safe discipline world scene fun later scene value => (rest value).Safe discipline later scene ends
  | _, _, @choose _ _ _ condition _ ifYes ifNo, world, scene, ends =>
    (condition → ifYes.Safe discipline world scene ends) ∧ (¬condition → ifNo.Safe discipline world scene ends)
  | _, _, .group inner, world, scene, ends =>
    inner.Safe discipline world { scene with bound := [] } fun later scene value =>
      ends later scene (value, scene.bound)
  | _, _, .inScope inner, world, scene, ends =>
    inner.Safe discipline world { scene with env := scene.env.enter } fun later scene value =>
      ends later { scene with env := scene.env.exit } value
  | _, _, .node typeOf _ _ inner, world, scene, ends =>
    inner.Safe discipline world scene fun later scene value =>
      discipline.Fine later (typeOf value) ∧ ends later scene value

/-- What a script ends with, from a scene, provided that it succeeds and that all it learns holds under a valuation. -/
def Script.Under (valuation : Valuation) : {α : Type} → {action : InferM α} → Script action → Scene →
    (Scene → α → Prop) → Prop
  | _, _, .done value, scene, ends => ends scene value
  | _, _, .fail _ _, _, _ => True
  | _, _, .fresh constraint, scene, ends =>
    (valuation.value ⟨.generated scene.issued, constraint⟩).Meets constraint →
      ends { scene with issued := scene.issued + 1 } (.var ⟨.generated scene.issued, constraint⟩)
  | _, _, .rowBase _, scene, ends =>
    ends { scene with issued := scene.issued + 1 } (.var (.generated scene.issued))
  | _, _, .instantiate op, scene, ends =>
    ∀ issued type, (Prelude.operatorScheme op).Yields valuation.value (type.read valuation) →
      ends { scene with issued } type
  | _, _, .lookup name _, scene, ends =>
    ∀ scheme, scene.env.get? name = some scheme → ∀ issued type,
      scheme.Yields valuation.value (type.read valuation) → ends { scene with issued } type
  | _, _, .equate expected actual _, scene, ends =>
    expected.read valuation = actual.read valuation → ∀ issued, ends { scene with issued } ()
  | _, _, .declare name scheme, scene, ends => ends { scene with env := scene.env.add name scheme } ()
  | _, _, .bindName name type _, scene, ends =>
    (∀ entry ∈ scene.bound, entry.1 ≠ name) → ends { scene with bound := scene.bound ++ [(name, type)] } ()
  | _, _, .report _, scene, ends => ends scene ()
  | _, _, .forget, _, _ | _, _, .takeSubst, _, _ => False
  | _, _, .getState, scene, ends => ∀ state : InferState, state.scene = scene → ends scene state
  | _, _, .andThen first rest, scene, ends =>
    first.Under valuation scene fun scene value => (rest value).Under valuation scene ends
  | _, _, @choose _ _ _ condition _ ifYes ifNo, scene, ends =>
    (condition → ifYes.Under valuation scene ends) ∧ (¬condition → ifNo.Under valuation scene ends)
  | _, _, .group inner, scene, ends =>
    inner.Under valuation { scene with bound := [] } fun scene value => ends scene (value, scene.bound)
  | _, _, .inScope inner, scene, ends =>
    inner.Under valuation { scene with env := scene.env.enter } fun scene value =>
      ends { scene with env := scene.env.exit } value
  | _, _, .node _ _ _ inner, scene, ends => inner.Under valuation scene ends

/-- What is known of a run of a safe script: its moments keep to the discipline, up to a last world, and a success ends
with what the script ends with. -/
structure Script.Sound {discipline : Discipline} {α : Type} {action : InferM α} (script : Script action)
    (world : discipline.World) (state : InferState) (ends : discipline.World → Scene → α → Prop)
    (last : discipline.World) : Prop where
  passes : discipline.Passes world (script.moments state) last
  inv : discipline.Inv last (action state).2
  ends : ∀ value, (action state).1 = .ok value → ends last (action state).2.scene value
  under : ∀ value, (action state).1 = .ok value → ∀ valuation, discipline.Models last valuation →
    ∀ result : Scene → α → Prop, script.Under valuation state.scene result → result (action state).2.scene value

namespace Script.Sound

variable {discipline : Discipline} {α : Type} {action : InferM α} {script : Script action}
  {world last : discipline.World} {state after : InferState} {ends : discipline.World → Scene → α → Prop}

/-- A run that fails has nothing to end with. -/
theorem of_error {error : TypeError} (run : action state = (.error error, after))
    (passes : discipline.Passes world (script.moments state) last) (inv : discipline.Inv last after) :
    script.Sound world state ends last where
  passes := passes
  inv := by rwa [run]
  ends := by
    rw [run]
    rintro _ ⟨⟩
  under := by
    rw [run]
    rintro _ ⟨⟩

theorem of_ok {value : α} (run : action state = (.ok value, after))
    (passes : discipline.Passes world (script.moments state) last) (inv : discipline.Inv last after)
    (ended : ends last after.scene value)
    (under : ∀ valuation, discipline.Models last valuation → ∀ result : Scene → α → Prop,
      script.Under valuation state.scene result → result after.scene value) :
    script.Sound world state ends last where
  passes := passes
  inv := by rwa [run]
  ends := by
    rw [run]
    rintro _ ⟨⟩
    exact ended
  under := by
    rw [run]
    rintro _ ⟨⟩
    exact under

end Script.Sound

/-- A safe script keeps to the discipline. -/
theorem Script.Safe.sound {discipline : Discipline} {α : Type} {action : InferM α} (script : Script action)
    {world : discipline.World} {state : InferState} {ends : discipline.World → Scene → α → Prop}
    (safe : script.Safe discipline world state.scene ends) (inv : discipline.Inv world state) :
    ∃ last, script.Sound world state ends last := by
  -- Each step leads to a later world in which its end is fine, and the next step goes on from there.
  induction script generalizing world state with
  | done value => exact ⟨world, .of_ok rfl (le_refl world) inv safe fun _ _ _ under => under⟩
  | fail fault span => exact ⟨world, .of_error rfl (le_refl world) inv⟩
  | fresh constraint =>
    obtain ⟨later, le, holds, fine, meets⟩ := discipline.issue constraint inv.holds
    have after : discipline.Inv later (InferM.fresh constraint state).2 := inv.step le holds rfl
    exact ⟨later, .of_ok rfl (.single after le) after (safe later le fine)
      fun valuation models _ under => under (meets valuation models)⟩
  | rowBase fields =>
    obtain ⟨canonical, flat, safe⟩ := safe
    obtain ⟨later, le, holds, fine⟩ := discipline.issueBase inv.holds canonical flat
    have after : discipline.Inv later (InferM.fresh none state).2 := inv.step le holds rfl
    exact ⟨later, .of_ok rfl (.single after le) after (safe later le fine) fun _ _ _ under => under⟩
  | instantiate op =>
    obtain ⟨later, le, holds, fine, yields⟩ := discipline.use inv.holds (discipline.fine_operator world op)
    have after : discipline.Inv later (InferM.instantiate (Prelude.operatorScheme op) state).2 :=
      inv.step le holds rfl
    exact ⟨later, .of_ok rfl (.single after le) after (safe later le _ _ fine)
      fun valuation models _ under => under _ _ (yields valuation models)⟩
  | lookup name span =>
    cases found : state.env.get? name with
    | none =>
      have run := InferM.lookup_run_of_none span found
      refine ⟨world, .of_error run ?_ inv⟩
      rw [Script.moments, run]
      exact .single inv (le_refl world)
    | some scheme =>
      have run := InferM.lookup_run_of_some span found
      obtain ⟨later, le, holds, fine, yields⟩ := discipline.use inv.holds (inv.env.get? found)
      have after : discipline.Inv later (InferM.instantiate scheme state).2 := inv.step le holds rfl
      refine ⟨later, .of_ok run ?_ after (safe later le _ _ fine) ?_⟩
      · rw [Script.moments, run]
        exact .single after le
      · exact fun valuation models _ under => under scheme found _ _ (yields valuation models)
  | equate expected actual span =>
    obtain ⟨expectedFine, actualFine, safe⟩ := safe
    -- The equation is posed in a fine state whether or not it has a solution.
    have posed : discipline.Passes world [.posed state expected actual] world :=
      .single ⟨inv, expectedFine, actualFine⟩ (le_refl world)
    rcases ran : unify (state.subst.apply expected) (state.subst.apply actual) state.supply with ⟨error | found, supply⟩
    · have run := InferM.equate_run_of_error span ran
      obtain ⟨later, le, holds⟩ := discipline.refuse inv.holds ran
      have after : discipline.Inv later { state with supply, events := .refused error :: state.events } :=
        inv.step le holds rfl
      refine ⟨later, .of_error run ?_ after⟩
      rw [Script.moments, run]
      exact posed.append (.single after le)
    · obtain ⟨events, run⟩ := InferM.equate_run_of_ok span ran
      obtain ⟨later, le, holds, same⟩ := discipline.learn inv.holds expectedFine actualFine ran
      have after : discipline.Inv later { state with supply, subst := state.subst.extend found, events } :=
        inv.step le holds rfl
      refine ⟨later, .of_ok run ?_ after (safe later le _) ?_⟩
      · rw [Script.moments, run]
        exact posed.append (.single after le)
      · exact fun valuation models _ under => under (same valuation models) _
  | declare name scheme =>
    obtain ⟨fine, safe⟩ := safe
    have after : discipline.Inv world (InferM.declare name scheme state).2 :=
      ⟨inv.holds, inv.env.add name fine⟩
    exact ⟨world, .of_ok rfl (.single after (le_refl world)) after safe fun _ _ _ under => under⟩
  | bindName name type span =>
    have run := InferM.bindName_run name type span state
    split at run
    · refine ⟨world, .of_error run ?_ inv⟩
      rw [Script.moments, run]
      exact .single inv (le_refl world)
    · next new =>
      have after : discipline.Inv world { state with bound := state.bound ++ [(name, type)] } :=
        ⟨inv.holds, inv.env⟩
      refine ⟨world, .of_ok run ?_ after safe ?_⟩
      · rw [Script.moments, run]
        exact .single after (le_refl world)
      · intro _ _ _ under
        refine under fun entry member same => new ?_
        exact List.any_eq_true.mpr ⟨entry, member, beq_iff_eq.mpr same⟩
  | forget => exact safe.elim
  | takeSubst => exact safe.elim
  | report event =>
    have after : discipline.Inv world (InferM.report event state).2 := inv.step (le_refl world) inv.holds rfl
    exact ⟨world, .of_ok rfl (.single after (le_refl world)) after safe fun _ _ _ under => under⟩
  | getState => exact ⟨world, .of_ok rfl (le_refl world) inv (safe state rfl) fun _ _ _ under => under state rfl⟩
  | @andThen _ _ action next first rest ih ih' =>
    -- What the first step ends with is that the second one is safe.
    obtain ⟨later, begun⟩ := ih safe inv
    rcases ran : action state with ⟨error | value, mid⟩
    · have run : (action >>= next) state = (.error error, mid) := by rw [bind_run, ran]
      refine ⟨later, .of_error run ?_ (by simpa only [ran] using begun.inv)⟩
      rw [Script.moments, ran]
      exact begun.passes.append (le_refl later)
    · have run : (action >>= next) state = next value mid := by rw [bind_run, ran]
      have safe' : (rest value).Safe discipline later mid.scene ends := by
        simpa only [ran] using begun.ends value (by rw [ran])
      obtain ⟨last, done⟩ := ih' value safe' (by simpa only [ran] using begun.inv)
      refine ⟨last, ?_, ?_, ?_, ?_⟩
      · rw [Script.moments, ran]
        exact begun.passes.append done.passes
      all_goals rw [run]
      · exact done.inv
      · exact done.ends
      -- A valuation that models the last world models the one in between.
      · intro result success valuation models post under
        have := begun.under value (by rw [ran]) valuation (discipline.models_anti done.passes.le models) _ under
        exact done.under result success valuation models post (by simpa only [ran] using this)
  | @choose _ yes no condition _ ifYes ifNo ih ih' =>
    by_cases holds : condition
    · obtain ⟨last, sound⟩ := ih (safe.1 holds) inv
      have run : (if condition then yes else no) state = yes state := by rw [if_pos holds]
      refine ⟨last, ?_, by rw [run]; exact sound.inv, by rw [run]; exact sound.ends, ?_⟩
      · rw [Script.moments, if_pos holds]
        exact sound.passes
      · rw [run]
        exact fun value success valuation models post under =>
          sound.under value success valuation models post (under.1 holds)
    · obtain ⟨last, sound⟩ := ih' (safe.2 holds) inv
      have run : (if condition then yes else no) state = no state := by rw [if_neg holds]
      refine ⟨last, ?_, by rw [run]; exact sound.inv, by rw [run]; exact sound.ends, ?_⟩
      · rw [Script.moments, if_neg holds]
        exact sound.passes
      · rw [run]
        exact fun value success valuation models post under =>
          sound.under value success valuation models post (under.2 holds)
  | @group _ action inner ih =>
    have start : discipline.Inv world { state with bound := [] } := ⟨inv.holds, inv.env⟩
    obtain ⟨last, sound⟩ := ih (by exact safe) start
    have passes : discipline.Passes world ((Script.group inner).moments state) last :=
      ⟨world, le_refl world, start, sound.passes⟩
    have run := InferM.group_run action state
    rcases ran : action { state with bound := [] } with ⟨error | value, mid⟩
    · rw [ran] at run
      exact ⟨last, .of_error run passes (by simpa only [ran] using sound.inv)⟩
    · rw [ran] at run
      have after : discipline.Inv last mid := by simpa only [ran] using sound.inv
      refine ⟨last, .of_ok run passes after ?_ fun valuation models post under => ?_⟩
      · have ended := sound.ends value (by rw [ran])
        simp only [ran] at ended
        exact ended
      · have ended := sound.under value (by rw [ran]) valuation models _ under
        simp only [ran] at ended
        exact ended
  | @inScope _ action inner ih =>
    have start : discipline.Inv world { state with env := state.env.enter } := ⟨inv.holds, inv.env.enter⟩
    obtain ⟨last, sound⟩ := ih (by exact safe) start
    have final : discipline.Inv last (InferM.inScope action state).2 :=
      ⟨sound.inv.holds, sound.inv.env.exit⟩
    exact ⟨last, ⟨world, le_refl world, start, sound.passes.append (.single final (le_refl last))⟩, final, sound.ends,
      fun value success valuation models post under => sound.under value success valuation models _ under⟩
  | @node _ action typeOf limit span inner ih =>
    have start : discipline.Inv world { state with depth := state.depth + 1 } := ⟨inv.holds, inv.env⟩
    obtain ⟨last, sound⟩ := ih (by exact safe) start
    have run := InferM.nested_run limit span action state
    by_cases deep : state.depth ≥ limit
    · rw [if_pos deep] at run
      refine ⟨world, .of_error run ?_ inv⟩
      rw [Script.moments, if_pos deep]
      exact le_refl world
    · rw [if_neg deep] at run
      have final : discipline.Inv last { (action { state with depth := state.depth + 1 }).2 with
          depth := (action { state with depth := state.depth + 1 }).2.depth - 1 } :=
        ⟨sound.inv.holds, sound.inv.env⟩
      refine ⟨last, ?_, by rw [run]; exact final, ?_, by rw [run]; exact sound.under⟩
      · rw [Script.moments, if_neg deep, run]
        refine ⟨world, le_refl world, start, sound.passes.append ?_⟩
        rcases ran : action { state with depth := state.depth + 1 } with ⟨error | value, mid⟩
        · rw [ran] at final
          exact .single final (le_refl last)
        · rw [ran] at final
          exact ⟨last, le_refl last, (sound.ends value (by rw [ran])).1, .single final (le_refl last)⟩
      · rw [run]
        exact fun value success => (sound.ends value success).2

end RowInference
