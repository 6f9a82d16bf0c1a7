import RowInference.Proofs.Inference.Layout
import RowInference.Proofs.Modules.Inferences
import RowInference.Proofs.Modules.Results
import RowInference.Proofs.Unification.Applications

/-! # Rows in results

All types of an inferred declaration use rows in the same way: only unconstrained variables are extended, and each of
them by the same fields everywhere. Flattening never loses a field on the way there, in any of the inferences that a
successful call is made of: no base of an open record resolves to a record that has one of the fields on top of it,
neither in what an equation is posed about, nor within its unification, nor when the types are completed.
-/

namespace RowInference

/-! ## Flattening -/

/-- Nothing that a state holds loses a field: the bindings are followed without loss, and as all bases in scope are
variables, a use of a scheme, which renames variables, flattens nothing. -/
structure InferState.KeepsFields (state : InferState) : Prop where
  bindings : ∀ ⦃id : VarId⦄ ⦃type : Ty⦄, state.subst[id]? = some type → state.subst.KeepsFields type
  scope : state.env.All fun scheme => scheme.body.VarBased

/-- No flattening loses a field. Where an equation is posed, that goes for the two sides under what has been learnt, and
for all that their unification applies. -/
def Moment.KeepsFields : Moment → Prop
  | .reached state => state.KeepsFields
  | .posed state expected actual =>
    state.KeepsFields ∧ state.subst.AppliesWhole expected ∧ state.subst.AppliesWhole actual ∧
      UnifiesWhole (state.subst.apply expected) (state.subst.apply actual) state.supply
  | .typed _ => True

/-- An equation is posed whose two sides, under what has been learnt, have to share a tail. -/
def Moment.sharesTail : Moment → Bool
  | .posed state expected actual => needsSharedTail (state.subst.apply expected) (state.subst.apply actual)
  | _ => false

/-- In a scheme that follows a kinding all bases are variables. -/
theorem Scheme.Kinded.varBased {kinds : Kinding} {scheme : Scheme} (kinded : scheme.Kinded kinds) :
    scheme.body.VarBased := by
  rcases kinded with ⟨_, bodyKinded⟩ | ⟨_, _, bodyKinded⟩
  · exact bodyKinded.varBased
  · exact bodyKinded.varBased

namespace Layout

variable {layout : Layout} {issued : Nat}

theorem keepsFields_of_carried {type : Ty} (carried : layout.Carried type) : layout.subst.KeepsFields type := by
  obtain ⟨_, _, carries, usable, same⟩ := carried
  exact Substitution.keepsFields_of_carries carries usable same

/-- What has been learnt loses no field of a type that follows the declared kinds. -/
theorem Sound.keepsFields (sound : layout.Sound issued) {type : Ty} (kinded : type.Kinded layout.declared) :
    layout.subst.KeepsFields type :=
  keepsFields_of_carried ⟨layout.declared, layout.subst.value, sound.carries, .inl kinded, fun _ _ => rfl⟩

/-- What has been learnt is applied without loss to the types that inference deals with. -/
theorem Sound.appliesWhole (sound : layout.Sound issued) {type : Ty} (kinded : type.Kinded layout.declared) :
    layout.subst.AppliesWhole type where
  kept := sound.keepsFields kinded
  bindings _ _ bound := keepsFields_of_carried (sound.bound bound)
  flat := (sound.apply_kinded kinded).within.flat

/-- In a state that keeps to the kinds of variables no field is lost. -/
theorem keepsFields_of_inv {state : InferState} (inv : discipline.Inv layout state) : state.KeepsFields where
  bindings id type bound := by
    obtain ⟨learnt, sound⟩ := inv.holds
    rw [learnt] at bound ⊢
    exact keepsFields_of_carried (sound.bound bound)
  scope := inv.env.imp fun _ kinded => Scheme.Kinded.varBased kinded

/-- A moment in which inference keeps to the kinds of variables. -/
theorem keepsFields_of_ok {moment : Moment} (ok : discipline.Ok layout moment) : moment.KeepsFields := by
  cases moment with
  | reached state => exact keepsFields_of_inv ok
  | posed state expected actual =>
    obtain ⟨inv, expectedKinded, actualKinded⟩ := ok
    obtain ⟨learnt, sound⟩ := inv.holds
    refine ⟨keepsFields_of_inv inv, ?_⟩
    rw [learnt]
    exact ⟨sound.appliesWhole expectedKinded, sound.appliesWhole actualKinded,
      unifiesWhole_of_kinded sound.currentBelow (sound.apply_kinded expectedKinded) (sound.apply_kinded actualKinded)⟩
  | typed type => trivial

end Layout

/-- Every moment of a run has a world. -/
theorem Discipline.Passes.exists_ok {discipline : Discipline} {world last : discipline.World} {moments : List Moment}
    (passes : discipline.Passes world moments last) : ∀ moment ∈ moments, ∃ later, discipline.Ok later moment := by
  induction moments generalizing world with
  | nil => simp
  | cons moment rest ih =>
    obtain ⟨later, _, ok, passes⟩ := passes
    exact List.forall_mem_cons.mpr ⟨⟨later, ok⟩, ih passes⟩

/-! ## Declarations -/

namespace Layout

/-- No variable is in play yet. -/
def start (issued : Nat) : Layout := ⟨⟨.upTo issued, {}⟩, fun _ => none, fun _ => none⟩

/-- Before any variable is in play there is nothing to keep to. -/
theorem start_sound (issued : Nat) : (start issued).Sound issued where
  knowledge := ⟨Substitution.respects_empty, Substitution.settled_empty.acyclic, Signature.issued_upTo _⟩
  declaredKnown _ _ known := by cases known
  currentKnown _ _ known := by cases known
  unbound _ known := absurd rfl known
  carries := carries_empty
  bound _ _ bound := by simp [start] at bound

/-- A scheme without free variables whose own variables have kinds. -/
def Global (issued : Nat) (scheme : Scheme) : Prop := scheme.Closed issued ∧ scheme.Kinded fun _ => none

/-- Inference among schemes with kinds of their own starts in a state that keeps to the kinds of variables. -/
theorem start_inv {state : InferState} (global : state.env.All (Global state.supply.issued)) :
    discipline.Inv (start state.supply.issued) { state with subst := {} } where
  holds := ⟨rfl, start_sound _⟩
  env := global.imp fun _ kinded => kinded.2

end Layout

namespace Declaration

/-- No flattening in the inference of a declaration loses a field: at no moment, nor when what has been learnt is
applied to the types on the nodes and to the declaration's own type. In the schemes in scope it finds no variable to
replace. -/
structure KeepsFields (limit : Nat) (state : InferState) (declaration : Declaration Span) : Prop where
  moments : ∀ moment ∈ (bodyScript limit state.self declaration).moments state.started, moment.KeepsFields
  nodes : ∀ params body mid, inferBody limit state.self declaration state.started = (.ok (params, body), mid) →
    ∀ info ∈ Pattern.infosOf params ++ body.infos, mid.subst.AppliesWhole info.type
  self : ∀ result mid, inferBody limit state.self declaration state.started = (.ok result, mid) →
    mid.subst.AppliesWhole state.self
  scope : ∀ result mid, inferBody limit state.self declaration state.started = (.ok result, mid) →
    mid.env.All fun scheme => scheme.body.VarBased ∧
      ∀ v ∈ scheme.body.occurrences, (mid.subst.without scheme.binders)[v.id]? = none

variable {limit : Nat} {state after : InferState} {declaration : Declaration Span} {typed : Declaration Typed}

/-- No flattening in the inference of a declaration loses a field, if the schemes in scope have kinds of their own. -/
theorem keepsFields (limit : Nat) (declaration : Declaration Span)
    (global : state.env.All (Layout.Global state.supply.issued)) : declaration.KeepsFields limit state := by
  obtain ⟨_, _, _, selfKinded, last, run⟩ := bodyScript_sound limit declaration (Layout.start_inv global)
  obtain ⟨learnt, sound⟩ := run.inv.holds
  constructor
  · intro moment member
    obtain ⟨later, ok⟩ := run.passes.exists_ok moment member
    exact Layout.keepsFields_of_ok ok
  · intro params body mid ran info member
    obtain ⟨_, _, paramsFine, bodyFine⟩ := run.ends _ (by rw [ran])
    rw [ran] at learnt
    rw [learnt]
    exact sound.appliesWhole ((List.mem_append.mp member).elim (paramsFine info) (bodyFine info)).2
  · intro result mid ran
    obtain ⟨_, grown, _, _⟩ := run.ends _ (by rw [ran])
    rw [ran] at learnt
    rw [learnt]
    exact sound.appliesWhole (selfKinded.mono (Layout.declared_of_le grown))
  · intro result mid ran
    obtain ⟨restored, _, _, _⟩ := run.ends _ (by rw [ran])
    rw [ran] at restored
    have restored : mid.env = state.env := restored
    rw [restored]
    exact global.imp fun _ both => ⟨both.2.varBased, both.1.unbound mid.subst⟩

/-- The types of a completed declaration follow one kinding. -/
theorem infer_kinded (global : state.env.All (Layout.Global state.supply.issued))
    (success : declaration.infer limit state = (.ok typed, after)) :
    ∃ kinds : Kinding, ∀ info ∈ typed.infos, info.type.Kinded kinds := by
  obtain ⟨params, body, mid, ran, _, sameParams, sameBody, sameInfo, _, _⟩ := of_infer success
  obtain ⟨_, _, _, selfKinded, last, run⟩ := bodyScript_sound limit declaration (Layout.start_inv global)
  obtain ⟨learnt, sound⟩ := run.inv.holds
  obtain ⟨_, grown, paramsFine, bodyFine⟩ := run.ends _ (by rw [ran])
  rw [ran] at learnt
  have resolved : ∀ info : Typed, info.scheme.binders = [] ∧ info.type.Kinded last.declared →
      (info.resolve mid.subst).type.Kinded last.current := by
    intro info fine
    rw [learnt, Typed.type_resolve fine.1]
    exact sound.apply_kinded fine.2
  have paramInfos : Pattern.infosOf typed.params = (Pattern.infosOf params).map (Typed.resolve mid.subst) := by
    rw [sameParams]
    exact Pattern.infosOf_mapInfo ..
  refine ⟨last.current, fun info member => ?_⟩
  rw [infos, paramInfos, sameBody, Expr.infos_mapInfo, sameInfo] at member
  rcases List.mem_append.mp member with inParams | inRest
  · obtain ⟨own, inOwn, rfl⟩ := List.mem_map.mp inParams
    exact resolved own (paramsFine own inOwn)
  · rcases List.mem_append.mp inRest with inBody | isInfo
    · obtain ⟨own, inOwn, rfl⟩ := List.mem_map.mp inBody
      exact resolved own (bodyFine own inOwn)
    · rw [List.mem_singleton.mp isInfo, learnt]
      exact sound.apply_kinded (selfKinded.mono (Layout.declared_of_le grown))

/-- Declarations keep to the kinds of variables among schemes that do. -/
def rows : Declaration.Law where
  Global := Layout.Global
  Good _ _ typed := RowsAgree (typed.infos.map Typed.type)
  mono le global := ⟨global.1.mono_le le, global.2⟩
  prelude issued := Prelude.environment_all fun entry member =>
    ⟨Prelude.values_closed issued entry member, (Prelude.values_tailless entry member).kinded _⟩
  infer {limit state after declaration typed} global success := by
    obtain ⟨_, _, ok, schemeClosed, env⟩ := infer_wellTyped (global.imp fun _ both => both.1) success
    obtain ⟨kinds, kinded⟩ := infer_kinded global success
    refine ⟨.of_kinded (List.forall_mem_map.mpr kinded),
      ⟨schemeClosed, .inr ⟨?_, kinds, kinded typed.info (by simp [infos])⟩⟩, env⟩
    rw [ok.scheme]
    rfl

end Declaration

namespace Checker

variable {checker : Checker}

/-- Rows in results are well formed. None of the inferences of a successful call loses a field in flattening, each
declaration that it returns is the result of one of them, and all types on its nodes and its scheme use rows in the same
way. -/
theorem results_rowsKept (reachable : checker.Reachable) (modules : ModuleMap Span) (result : ModuleMap Typed)
    (after : Checker) (success : checkModules modules checker = (.ok result, after)) :
    (∀ inference ∈ checker.inferences modules,
      inference.declaration.KeepsFields checker.limit inference.state) ∧
    ∀ entry ∈ result, ∀ declaration ∈ entry.2.declarations,
      RowsAgree (declaration.infos.map Typed.type) ∧
        ∃ inference ∈ checker.inferences modules, inference.Returns checker.limit declaration := by
  constructor
  · intro inference member
    have global := inferences_lawful Declaration.rows reachable modules inference member
    exact inference.declaration.keepsFields checker.limit global
  · intro entry member declaration inModule
    obtain ⟨_, _, agree⟩ := good_of_checkModules Declaration.rows reachable success entry member declaration inModule
    exact ⟨agree, inferences_returns success entry member declaration inModule⟩

/-- A module before the one it imports: `use s = (Rows.both s, s.z)` and `both r = (r.x, r.y)`. -/
def sharing : ModuleMap Span :=
  [("Use", {
      name := "Use"
      imports := [{ target := "Rows" }]
      declarations := [{
        name := "use"
        params := [.var {} "s"]
        body := .tuple {} (.application {} (.var {} "Rows.both") [.var {} "s"]) (.access {} (.var {} "s") "z")
        info := {} }] }),
    ("Rows", {
      name := "Rows"
      declarations := [{
        name := "both"
        params := [.var {} "r"]
        body := .tuple {} (.access {} (.var {} "r") "x") (.access {} (.var {} "r") "y")
        info := {} }] })]

/-- Both inferences share a tail. -/
theorem results_rowsKept_sharing : ∃ result after, checkModules sharing { limit := 4 } = (.ok result, after) ∧
    ((inferences { limit := 4 } sharing).map fun inference => inference.declaration.name) = ["both", "use"] ∧
    (∀ inference ∈ inferences { limit := 4 } sharing,
      ((Declaration.bodyScript 4 inference.state.self inference.declaration).moments inference.state.started).any
        Moment.sharesTail = true ∧ inference.declaration.KeepsFields 4 inference.state) ∧
    ∀ entry ∈ result, ∀ declaration ∈ entry.2.declarations, RowsAgree (declaration.infos.map Typed.type) := by
  have succeeds : (checkModules sharing { limit := 4 }).1.isOk = true := by cbv
  have names : ((inferences { limit := 4 } sharing).map fun inference => inference.declaration.name)
      = ["both", "use"] := by cbv
  have shares : (inferences { limit := 4 } sharing).all (fun inference =>
      ((Declaration.bodyScript 4 inference.state.self inference.declaration).moments inference.state.started).any
        Moment.sharesTail) = true := by cbv
  obtain ⟨result, after, run⟩ := exists_eq_ok succeeds
  obtain ⟨kept, agree⟩ := results_rowsKept (.new 4) sharing result after run
  refine ⟨result, after, run, names, fun inference member => ?_, fun entry member declaration inModule => ?_⟩
  · exact ⟨List.all_eq_true.mp shares inference member, kept inference member⟩
  · exact (agree entry member declaration inModule).1

end Checker

end RowInference
